import EndpointSecurity.Agent.ConfigLoad
import EndpointSecurity.Agent.Submit
import EndpointSecurity.Library.Machine

/-! The event buffer: `handle_event` over whole runs.

`main` allocates `buffer_size` slots for an accepted configuration, and the ring
buffer delivers events one at a time. The full-buffer test compares with `>`, so
an event that arrives at a buffer of exactly `buffer_size` events is still stored,
one slot past the allocation. That is the only way out of bounds: a run stays
inside them exactly when no event arrives at a full buffer (`run_inBounds_iff`). -/
namespace EndpointSecurity.Agent
open Library

/-- The globals `handle_event` works on. `eventBuffer` is the memory from
`event_buffer` on, allocated or not. -/
structure AgentState where
  eventCount : Int
  eventBuffer : Int → Event

/-- The globals when `main` starts to poll; `malloc` does not clear the buffer. -/
def AgentState.initial (memory : Int → Event) : AgentState := ⟨0, memory⟩

/-- An event the ring buffer delivers, and what libcurl would do if it were used now. -/
structure Arrival where
  event : Event
  curl : CurlRun

/-- What `submit_events` is called with: a count, and the records it finds there. -/
structure Batch where
  events : List Event
  count : Int

/-- What a call of `handle_event` does besides moving the globals: the slot it
stores to, and the batch it hands to `submit_events`. -/
structure Effects where
  stored : Option Int
  submitted : Option Batch

def AgentState.batch (s : AgentState) : Batch :=
  ⟨(List.range s.eventCount.toNat).map fun j => s.eventBuffer j, s.eventCount⟩

def handleEvent (c : Config) (s : AgentState) (a : Arrival) : Effects × AgentState :=
  let full := s.eventCount > c.bufferSize
  let stored := if full then none else some s.eventCount
  let s := if full then s else
    { eventCount := int32 (s.eventCount + 1)
      eventBuffer := Function.update s.eventBuffer s.eventCount a.event }
  -- submit the events and reset the buffer
  if s.eventCount ≥ c.batchSize then
    (⟨stored, some s.batch⟩, if submitReturn a.curl = 0 then {s with eventCount := 0} else s)
  else (⟨stored, none⟩, s)

/-- The agent between `ring_buffer__poll` and libcurl. -/
def agent (c : Config) : Machine Arrival Effects AgentState := ⟨handleEvent c⟩

/-- `submit_events` returns what `handle_event` takes it to return. -/
theorem submitEvents_ret {c : Config} {clock : Nat → Timespec} {curl : CurlRun} {events : List Event}
    {r : Submission} (h : submitEvents c clock curl events = some r) : r.ret = submitReturn curl := by
  cases curl with
  | initFails =>
    simp only [submitEvents, Option.some.injEq] at h
    rw [← h]
  | performs res =>
    simp only [submitEvents, Option.bind_eq_bind, Option.bind_eq_some_iff, Option.pure_def,
      Option.some.injEq] at h
    obtain ⟨_, _, rfl⟩ := h
    rfl

/-! ### Bounds -/

/-- The count stays between nothing and the allocated slots. -/
def InBounds (c : Config) (s : AgentState) : Prop := 0 ≤ s.eventCount ∧ s.eventCount ≤ c.bufferSize

/-- A step ends in bounds, stores only to an allocated slot, and submits no fewer
events than the minimum and no more than the maximum of an API call. -/
structure StepInBounds (c : Config) (t : Machine.Step Arrival Effects AgentState) : Prop where
  after : InBounds c t.after
  stored : ∀ i ∈ t.output.stored, 0 ≤ i ∧ i < c.bufferSize
  submitted : ∀ b ∈ t.output.submitted, c.batchSize ≤ b.count ∧ b.count ≤ c.bufferSize

/-- Every state a run reaches is in bounds, and so is everything it does. -/
def RunInBounds (c : Config) (s : AgentState) (arrivals : List Arrival) : Prop :=
  InBounds c s ∧ ∀ t ∈ (agent c).steps s arrivals, StepInBounds c t

/-- The globals after the event has gone into a free slot. -/
def AgentState.push (s : AgentState) (e : Event) : AgentState where
  eventCount := s.eventCount + 1
  eventBuffer := Function.update s.eventBuffer s.eventCount e

/-- A call on a buffer with a free slot. -/
theorem handleEvent_free {c : Config} {s : AgentState} (hs : InBounds c s)
    (hc : c.bufferSize < 2 ^ 31) (hfree : s.eventCount ≠ c.bufferSize) (a : Arrival) :
    handleEvent c s a =
      if s.eventCount + 1 ≥ c.batchSize then
        (⟨some s.eventCount, some (s.push a.event).batch⟩,
          if submitReturn a.curl = 0 then {s.push a.event with eventCount := 0} else s.push a.event)
      else (⟨some s.eventCount, none⟩, s.push a.event) := by
  obtain ⟨hlow, hhigh⟩ := hs
  have hnotfull : ¬ s.eventCount > c.bufferSize := Int.not_lt.mpr hhigh
  have hcount : int32 (s.eventCount + 1) = s.eventCount + 1 := by
    unfold int32
    apply Int.bmod_eq_of_le <;> omega
  simp only [handleEvent, if_neg hnotfull, hcount, AgentState.push]

theorem handleEvent_free_inBounds {c : Config} {s : AgentState} (hs : InBounds c s)
    (hc : c.bufferSize < 2 ^ 31) (hfree : s.eventCount ≠ c.bufferSize) (a : Arrival) :
    StepInBounds c ((agent c).stepAt s a) := by
  have hlt : s.eventCount < c.bufferSize := by
    have := hs.2
    omega
  have hlow := hs.1
  have hpush : InBounds c (s.push a.event) :=
    ⟨by show 0 ≤ s.eventCount + 1; omega, by show s.eventCount + 1 ≤ _; omega⟩
  have hstep : (agent c).step s a = handleEvent c s a := rfl
  unfold Machine.stepAt
  rw [hstep, handleEvent_free hs hc hfree]
  by_cases hbatch : s.eventCount + 1 ≥ c.batchSize
  · simp only [if_pos hbatch]
    refine ⟨?_, ?_, ?_⟩
    · show InBounds c (if _ then _ else _)
      split
      · exact ⟨Int.le_refl 0, by show (0 : Int) ≤ _; omega⟩
      · exact hpush
    · simp only [Option.mem_def, Option.some.injEq, forall_eq']
      exact ⟨hlow, hlt⟩
    · simp only [Option.mem_def, Option.some.injEq, forall_eq']
      exact ⟨hbatch, hpush.2⟩
  · simp only [if_neg hbatch]
    refine ⟨hpush, ?_, ?_⟩
    · simp only [Option.mem_def, Option.some.injEq, forall_eq']
      exact ⟨hlow, hlt⟩
    · simp

/-- A call on a full buffer stores behind the last slot. -/
theorem handleEvent_full {c : Config} {s : AgentState} (hfull : s.eventCount = c.bufferSize)
    (a : Arrival) : ((agent c).stepAt s a).output.stored = some c.bufferSize := by
  have hnot : ¬ s.eventCount > c.bufferSize := Int.not_lt.mpr (Int.le_of_eq hfull)
  show (handleEvent c s a).1.stored = _
  simp only [handleEvent, if_neg hnot]
  split <;> simp only [hfull]

theorem step_inBounds_iff {c : Config} {s : AgentState} (hs : InBounds c s)
    (hc : c.bufferSize < 2 ^ 31) (a : Arrival) :
    StepInBounds c ((agent c).stepAt s a) ↔ s.eventCount ≠ c.bufferSize := by
  refine ⟨fun h hfull => ?_, fun h => handleEvent_free_inBounds hs hc h a⟩
  have hstored := (h.stored c.bufferSize (handleEvent_full hfull a)).2
  exact absurd hstored (Int.lt_irrefl _)

theorem Accepts.initial_inBounds {file : Option (List UInt8)} {c : Config} (h : Accepts file c)
    (memory : Int → Event) : InBounds c (.initial memory) := by
  have := h.valid.bufferSize
  exact ⟨Int.le_refl 0, by show (0 : Int) ≤ _; omega⟩

/-- While libcurl cannot be initialized, every event stays in the buffer. -/
theorem failing_run {file : Option (List UInt8)} {c : Config} (h : Accepts file c)
    (memory : Int → Event) (e : Event) (n : Nat) (hn : (n : Int) ≤ c.bufferSize) :
    ((agent c).run (.initial memory) (List.replicate n ⟨e, .initFails⟩)).eventCount = n := by
  induction n with
  | zero => rfl
  | succ n ih =>
    have hcount := ih (by omega)
    rw [List.replicate_succ', Machine.run_append, Machine.run_cons, Machine.run_nil]
    generalize hs : (agent c).run (.initial memory) (List.replicate n ⟨e, .initFails⟩) = s
    rw [hs] at hcount
    have hin : InBounds c s := ⟨by omega, by omega⟩
    show (handleEvent c s ⟨e, .initFails⟩).2.eventCount = _
    rw [handleEvent_free hin h.bufferSize_lt (by omega)]
    split <;> simp [AgentState.push, submitReturn, hcount]

/-- So one event more than the buffer has slots is stored out of bounds, under
every accepted configuration. -/
theorem failing_run_overruns {file : Option (List UInt8)} {c : Config} (h : Accepts file c)
    (memory : Int → Event) (e : Event) :
    ¬ RunInBounds c (.initial memory) (List.replicate (c.bufferSize.toNat + 1) ⟨e, .initFails⟩) := by
  intro hrun
  have hpos := h.valid.bufferSize
  have hfull := failing_run h memory e c.bufferSize.toNat (by omega)
  rw [Int.toNat_of_nonneg (by omega)] at hfull
  rw [List.replicate_succ', RunInBounds, Machine.steps_append] at hrun
  have hlast := hrun.2 _ (List.mem_append_right _ (List.mem_singleton_self _))
  have hstored := (hlast.stored c.bufferSize (handleEvent_full hfull _)).2
  exact absurd hstored (Int.lt_irrefl _)

/-! ### The exact condition -/

/-- A short configuration file. -/
def sampleFile : List UInt8 :=
  lit "api=http://localhost:5001/submit_logs\nkey=k\nname=n\nid=1\nbuffer_size=32\nbatch_size=2\n"

/-- What `load_config` makes of it. -/
def sampleConfig : Config where
  api := .holding 256 (lit "http://localhost:5001/submit_logs")
  key := .holding 128 (lit "k")
  name := .holding 64 (lit "n")
  id := .holding 64 (lit "1")
  bufferSize := 32
  batchSize := 2

theorem sampleFile_accepted : Accepts (some sampleFile) sampleConfig := ⟨none, by decide +kernel⟩

/-- **An accepted agent stays in bounds throughout a run exactly when no event
arrives at a buffer that holds `buffer_size` events.** -/
theorem run_inBounds_iff {file : Option (List UInt8)} {c : Config} (h : Accepts file c)
    (memory : Int → Event) (arrivals : List Arrival) :
    RunInBounds c (.initial memory) arrivals ↔
      ∀ t ∈ (agent c).steps (.initial memory) arrivals, t.before.eventCount ≠ c.bufferSize := by
  have hinitial := h.initial_inBounds memory
  have hstep : ∀ s a, InBounds c s → s.eventCount ≠ c.bufferSize → InBounds c ((agent c).step s a).2 :=
    fun s a hs hfree => (handleEvent_free_inBounds hs h.bufferSize_lt hfree a).after
  have hiff := Machine.steps_iff (M := agent c) (P := StepInBounds c)
    (G := fun t => t.before.eventCount ≠ c.bufferSize) hstep
    (fun s a hs => step_inBounds_iff hs h.bufferSize_lt a) hinitial arrivals
  rw [RunInBounds, hiff]
  exact and_iff_right hinitial

/-- Six events: a batch that is sent, one that is not, and the same one with an event more. -/
def sampleRun : List Arrival :=
  [⟨.zero, .performs 0⟩, ⟨.zero, .performs 0⟩, ⟨.zero, .performs 0⟩, ⟨.zero, .initFails⟩, ⟨.zero, .performs 28⟩,
    ⟨.zero, .performs 0⟩]

theorem sampleRun_inBounds :
    Accepts (some sampleFile) sampleConfig ∧
      ((agent sampleConfig).steps (.initial fun _ => .zero) sampleRun).map (·.output.submitted.map Batch.count) =
        [none, some 2, none, some 2, some 3, none] ∧
      RunInBounds sampleConfig (.initial fun _ => .zero) sampleRun :=
  ⟨sampleFile_accepted, by decide, (run_inBounds_iff sampleFile_accepted _ _).mpr (by decide)⟩

/-- The 33rd event of a run without libcurl goes behind the 32 slots. -/
theorem sampleRun_overruns :
    Accepts (some sampleFile) sampleConfig ∧
      ¬ RunInBounds sampleConfig (.initial fun _ => .zero) (List.replicate 33 ⟨.zero, .initFails⟩) :=
  ⟨sampleFile_accepted, failing_run_overruns sampleFile_accepted _ _⟩

end EndpointSecurity.Agent
