import EndpointSecurity.Agent.Buffer

/-! What becomes of the events: order, delivery and loss over whole runs.

An event goes to the back of `event_buffer`, or is dropped where the buffer already
holds more than `buffer_size` events; a submission that returns 0 takes all of them
out at once, and one that returns -1 takes none. So a run only moves events from
what it received to what it delivered (`Conserves`), and both keep their
order. The one call that breaks this is the one that stores an event while
`event_count` is `INT_MAX`, which takes a `buffer_size` of `INT_MAX`: the count turns
negative and the whole buffer is forgotten (`conserves_iff`). -/
namespace EndpointSecurity.Agent
open Library

/-- One call of `handle_event` in a run. -/
abbrev Call := Machine.Step Arrival Effects AgentState

/-- `event_buffer[0..event_count)`. -/
def AgentState.contents (s : AgentState) : List Event := s.batch.events

/-- The event, unless it arrives at a buffer of more than `buffer_size` events. -/
def kept (c : Config) (t : Call) : List Event :=
  if t.before.eventCount > c.bufferSize then [] else [t.input.event]

/-- The events of the batch for which `submit_events` returned 0. -/
def delivered (t : Call) : List Event :=
  match t.output.submitted with
  | none => []
  | some b => if submitReturn t.input.curl = 0 then b.events else []

/-- The events of the HTTP request the call makes, if libcurl gets as far as a transfer. -/
def requests (t : Call) : List (List Event) :=
  match t.input.curl, t.output.submitted with
  | .performs _, some b => [b.events]
  | _, _ => []

/-- The call moves events and neither loses nor duplicates one it keeps. -/
def Conserves (c : Config) (t : Call) : Prop :=
  t.before.contents ++ kept c t = delivered t ++ t.after.contents

/-- `submit_events` makes a request exactly when it returns 0. -/
theorem submitEvents_post {c : Config} {clock : Nat → Timespec} {curl : CurlRun}
    {events : List Event} {r : Submission} (h : submitEvents c clock curl events = some r) :
    r.post.isSome = true ↔ submitReturn curl = 0 := by
  cases curl with
  | initFails =>
    simp only [submitEvents, Option.some.injEq] at h
    simp [← h, submitReturn]
  | performs res =>
    simp only [submitEvents, Option.bind_eq_bind, Option.bind_eq_some_iff, Option.pure_def,
      Option.some.injEq] at h
    obtain ⟨_, _, rfl⟩ := h
    simp [submitReturn]

/-- What is delivered is what is requested. -/
theorem requests_flatten (t : Call) : (requests t).flatten = delivered t := by
  unfold requests delivered
  cases t.input.curl with
  | initFails => cases t.output.submitted <;> simp [submitReturn]
  | performs res => cases t.output.submitted <;> simp [submitReturn]

/-! ### The buffer as a list -/

theorem contents_eq (s : AgentState) :
    s.contents = (List.range s.eventCount.toNat).map fun j : Nat => s.eventBuffer j := by
  simp [AgentState.contents, AgentState.batch, ← List.map_eq_flatMap]

theorem contents_length (s : AgentState) : s.contents.length = s.eventCount.toNat := by
  rw [contents_eq, List.length_map, List.length_range]

theorem contents_push {s : AgentState} (hs : 0 ≤ s.eventCount) (e : Event) :
    (s.push e).contents = s.contents ++ [e] := by
  have hcount : (s.eventCount + 1).toNat = s.eventCount.toNat + 1 := by omega
  have hlast : ((s.eventCount.toNat : Nat) : Int) = s.eventCount := Int.toNat_of_nonneg hs
  rw [contents_eq, contents_eq]
  show (List.range (s.eventCount + 1).toNat).map _ = _
  rw [hcount, List.range_succ, List.map_append, List.map_singleton]
  congr 1
  · apply List.map_congr_left
    intro j hj
    have hne : (j : Int) ≠ s.eventCount := by
      have := List.mem_range.mp hj
      omega
    exact Function.update_of_ne hne _ _
  · simp only [AgentState.push, hlast, Function.update_self]

/-! ### One call -/

/-- The globals once the event is stored or dropped, before any submission. -/
def AgentState.received (c : Config) (s : AgentState) (e : Event) : AgentState :=
  if s.eventCount > c.bufferSize then s else s.push e

/-- The count is an `int` that counts. -/
def Counting (s : AgentState) : Prop := 0 ≤ s.eventCount ∧ s.eventCount ≤ INT_MAX

/-- The event is stored at the last count an `int` has. -/
def Overflows (c : Config) (s : AgentState) : Prop :=
  c.bufferSize = INT_MAX ∧ s.eventCount = INT_MAX

theorem below_max {c : Config} {s : AgentState} (hs : Counting s) (hc : c.bufferSize < 2 ^ 31)
    (hfits : ¬ Overflows c s) (hfree : ¬ s.eventCount > c.bufferSize) :
    s.eventCount + 1 < 2 ^ 31 := by
  have hend : (INT_MAX : Int) = 2 ^ 31 - 1 := rfl
  have hhigh := hs.2
  by_contra hlast
  exact hfits ⟨by omega, by omega⟩

/-- A call that does not overflow the count. -/
theorem handleEvent_received {c : Config} {s : AgentState} (hs : Counting s)
    (hc : c.bufferSize < 2 ^ 31) (hfits : ¬ Overflows c s) (a : Arrival) :
    (handleEvent c s a).1.submitted =
        (if (s.received c a.event).eventCount ≥ c.batchSize then some (s.received c a.event).batch
          else none) ∧
      (handleEvent c s a).2 =
        (if (s.received c a.event).eventCount ≥ c.batchSize ∧ submitReturn a.curl = 0
          then {s.received c a.event with eventCount := 0} else s.received c a.event) := by
  have hstored : (if s.eventCount > c.bufferSize then s else
      { eventCount := int32 (s.eventCount + 1)
        eventBuffer := Function.update s.eventBuffer s.eventCount a.event : AgentState }) =
      s.received c a.event := by
    unfold AgentState.received
    split
    · rfl
    · rename_i hfree
      have hlow := hs.1
      have hbelow := below_max hs hc hfits hfree
      have hcount : int32 (s.eventCount + 1) = s.eventCount + 1 := by
        unfold int32
        apply Int.bmod_eq_of_le <;> omega
      rw [hcount]
      rfl
  simp only [handleEvent]
  rw [hstored]
  by_cases hbatch : (s.received c a.event).eventCount ≥ c.batchSize
  · simp only [hbatch, if_true, true_and]
  · simp only [hbatch, if_false, false_and]
    exact ⟨trivial, trivial⟩

theorem contents_received {c : Config} {s : AgentState} (hs : 0 ≤ s.eventCount) (a : Arrival) :
    (s.received c a.event).contents = s.contents ++ kept c ((agent c).stepAt s a) := by
  show _ = _ ++ if s.eventCount > c.bufferSize then [] else [a.event]
  unfold AgentState.received
  split
  · exact (List.append_nil _).symm
  · exact contents_push hs a.event

theorem received_counting {c : Config} {s : AgentState} (hs : Counting s)
    (hc : c.bufferSize < 2 ^ 31) (hfits : ¬ Overflows c s) (e : Event) :
    Counting (s.received c e) := by
  unfold AgentState.received
  split
  · exact hs
  · rename_i hfree
    have hlow := hs.1
    have hend : (INT_MAX : Int) = 2 ^ 31 - 1 := rfl
    have hbelow := below_max hs hc hfits hfree
    exact ⟨by show 0 ≤ s.eventCount + 1; omega, by show s.eventCount + 1 ≤ _; omega⟩

/-- What a call that does not overflow the count does with the events. -/
theorem step_conserves {c : Config} {s : AgentState} (hs : Counting s)
    (hc : c.bufferSize < 2 ^ 31) (hfits : ¬ Overflows c s) (a : Arrival) :
    Counting ((agent c).step s a).2 ∧ Conserves c ((agent c).stepAt s a) := by
  have hcounting := received_counting hs hc hfits a.event
  have hkept := contents_received (c := c) hs.1 a
  obtain ⟨hsubmitted, hafter⟩ := handleEvent_received hs hc hfits a
  have hempty : ∀ r : AgentState, ({r with eventCount := 0} : AgentState).contents = [] :=
    fun r => List.length_eq_zero_iff.mp (contents_length _)
  show Counting (handleEvent c s a).2 ∧ s.contents ++ kept c ((agent c).stepAt s a) =
    (match (handleEvent c s a).1.submitted with
      | none => []
      | some b => if submitReturn a.curl = 0 then b.events else []) ++ (handleEvent c s a).2.contents
  rw [← hkept, hsubmitted, hafter]
  by_cases hbatch : (s.received c a.event).eventCount ≥ c.batchSize
  · by_cases hret : submitReturn a.curl = 0
    · simp only [hbatch, hret, if_true, and_self, hempty, List.append_nil]
      exact ⟨⟨Int.le_refl 0, Int.natCast_nonneg _⟩, rfl⟩
    · simp only [hbatch, hret, if_true, and_false, if_false, List.nil_append]
      exact ⟨hcounting, trivial⟩
  · simp only [hbatch, false_and, if_false, List.nil_append]
    exact ⟨hcounting, trivial⟩

/-- At the end of `int` the count wraps around, and the buffer reads as empty. -/
theorem overflowing_call {c : Config} {s : AgentState} (hs : Overflows c s)
    (hbatch : 0 < c.batchSize) (a : Arrival) :
    ((agent c).stepAt s a).output.submitted = none ∧
      ((agent c).stepAt s a).after.contents = [] ∧ kept c ((agent c).stepAt s a) = [a.event] := by
  have hnotfull : ¬ s.eventCount > c.bufferSize := by
    rw [hs.1, hs.2]
    exact Int.lt_irrefl _
  have hcount : int32 (s.eventCount + 1) = -2 ^ 31 := by
    rw [hs.2]
    decide
  have hsmall : ¬ (-2 ^ 31 : Int) ≥ c.batchSize := by omega
  have hstep : (agent c).step s a =
      (⟨some s.eventCount, none⟩, ⟨-2 ^ 31, Function.update s.eventBuffer s.eventCount a.event⟩) := by
    show handleEvent c s a = _
    simp only [handleEvent, if_neg hnotfull, hcount, if_neg hsmall]
  refine ⟨?_, ?_, ?_⟩
  · simp only [Machine.stepAt, hstep]
  · simp only [Machine.stepAt, hstep]
    rfl
  · exact if_neg hnotfull

/-- **A call conserves the events exactly when it does not overflow the count.** -/
theorem conserves_iff {c : Config} {s : AgentState} (hs : Counting s)
    (hc : c.bufferSize < 2 ^ 31) (hbatch : 0 < c.batchSize) (a : Arrival) :
    Conserves c ((agent c).stepAt s a) ↔ ¬ Overflows c s := by
  refine ⟨fun h hover => ?_, fun h => (step_conserves hs hc h a).2⟩
  obtain ⟨hsubmitted, hafter, hkept⟩ := overflowing_call hover hbatch a
  have hlost : delivered ((agent c).stepAt s a) = [] := by
    simp only [delivered, hsubmitted]
  rw [Conserves, hlost, hafter, hkept] at h
  simp at h

/-! ### Whole runs -/

/-- What a run does with the events it received, up to where it stands. -/
structure DeliveredInOrder (c : Config) (memory : Int → Event) (arrivals : List Arrival) : Prop where
  /-- What was delivered and what is in the buffer is what was received, in that
  order, without the events that arrived at a buffer beyond `buffer_size`. -/
  ledger : ((agent c).steps (.initial memory) arrivals).flatMap delivered ++
      ((agent c).run (.initial memory) arrivals).contents =
    (((agent c).steps (.initial memory) arrivals).filter
      fun t => !decide (t.before.eventCount > c.bufferSize)).map (·.input.event)
  /-- An event is in at most one request, and the requests keep the order. -/
  once : (((agent c).steps (.initial memory) arrivals).flatMap requests).flatten.Sublist
    (arrivals.map (·.event))
  /-- The requests are those `submit_events` makes. -/
  posted : ∀ t ∈ (agent c).steps (.initial memory) arrivals, ∀ b ∈ t.output.submitted,
    ∀ clock r, submitEvents c clock t.input.curl b.events = some r →
      r.ret = submitReturn t.input.curl ∧ requests t = if r.post.isSome then [b.events] else []
  /-- A submission that returns -1 leaves the buffer as it was handed over. -/
  failed : ∀ t ∈ (agent c).steps (.initial memory) arrivals, ∀ b ∈ t.output.submitted,
    submitReturn t.input.curl = -1 →
      t.after.contents = t.before.contents ++ kept c t ∧ b.events = t.after.contents
  /-- A submission that returns 0 leaves it empty. -/
  emptied : ∀ t ∈ (agent c).steps (.initial memory) arrivals, ∀ b ∈ t.output.submitted,
    submitReturn t.input.curl = 0 → t.after.eventCount = 0

/-- A call of a conserving run, and what it leaves. -/
structure InOrder (c : Config) (t : Call) : Prop where
  conserves : Conserves c t
  failed : ∀ b ∈ t.output.submitted, submitReturn t.input.curl = -1 →
    t.after.contents = t.before.contents ++ kept c t ∧ b.events = t.after.contents
  emptied : ∀ b ∈ t.output.submitted, submitReturn t.input.curl = 0 → t.after.eventCount = 0

theorem step_inOrder {c : Config} {s : AgentState} (hs : Counting s)
    (hc : c.bufferSize < 2 ^ 31) (hfits : ¬ Overflows c s) (a : Arrival) : InOrder c ((agent c).stepAt s a) := by
  have hkept := contents_received (c := c) hs.1 a
  obtain ⟨hsubmitted, hafter⟩ := handleEvent_received hs hc hfits a
  have hbatch : ∀ b ∈ (handleEvent c s a).1.submitted,
      (s.received c a.event).eventCount ≥ c.batchSize ∧ b = (s.received c a.event).batch := by
    intro b hb
    rw [hsubmitted] at hb
    split at hb
    · rename_i h
      exact ⟨h, (Option.some.inj hb).symm⟩
    · cases hb
  refine ⟨(step_conserves hs hc hfits a).2, fun b hb hret => ?_, fun b hb hret => ?_⟩
  · obtain ⟨hge, rfl⟩ := hbatch b hb
    have hne : ¬ submitReturn a.curl = 0 := by
      show submitReturn a.curl ≠ 0
      have h : submitReturn a.curl = -1 := hret
      omega
    have hstate : ((agent c).stepAt s a).after = s.received c a.event := by
      show (handleEvent c s a).2 = _
      rw [hafter, if_neg fun h => hne h.2]
    rw [hstate]
    exact ⟨hkept, rfl⟩
  · obtain ⟨hge, rfl⟩ := hbatch b hb
    have hret : submitReturn a.curl = 0 := hret
    show (handleEvent c s a).2.eventCount = 0
    rw [hafter, if_pos ⟨hge, hret⟩]

theorem flatMap_kept (c : Config) (ts : List Call) : ts.flatMap (kept c) =
    (ts.filter fun t => !decide (t.before.eventCount > c.bufferSize)).map (·.input.event) := by
  induction ts with
  | nil => rfl
  | cons t ts ih =>
    rw [List.flatMap_cons, ih]
    by_cases hfull : t.before.eventCount > c.bufferSize <;> simp [kept, hfull]

theorem flatMap_requests (ts : List Call) : (ts.flatMap requests).flatten = ts.flatMap delivered := by
  induction ts with
  | nil => rfl
  | cons t ts ih => rw [List.flatMap_cons, List.flatMap_cons, List.flatten_append, ih, requests_flatten]

theorem initial_counting (memory : Int → Event) : Counting (.initial memory) :=
  ⟨Int.le_refl 0, Int.natCast_nonneg _⟩

/-- The ledger of a run, one call at a time. -/
theorem ledger_iff (c : Config) (memory : Int → Event) (arrivals : List Arrival) :
    (∀ done, done <+: arrivals →
      ((agent c).steps (.initial memory) done).flatMap delivered ++
          ((agent c).run (.initial memory) done).contents =
        ((agent c).steps (.initial memory) done).flatMap (kept c)) ↔
      ∀ t ∈ (agent c).steps (.initial memory) arrivals, Conserves c t := by
  have hiff := Machine.prefixes_conserve_iff (M := agent c) AgentState.contents (kept c) delivered
    (.initial memory) arrivals
  have hempty : (AgentState.initial memory).contents = [] := rfl
  rw [hempty] at hiff
  refine Iff.trans ⟨fun h done hdone => ?_, fun h done hdone => ?_⟩ hiff
  · rw [List.nil_append]
    exact (h done hdone).symm
  · have hledger := h done hdone
    rw [List.nil_append] at hledger
    exact hledger.symm

/-- What the calls of a run give for the run itself. -/
theorem deliveredInOrder {c : Config} {memory : Int → Event} {done : List Arrival}
    (hledger : ((agent c).steps (.initial memory) done).flatMap delivered ++
        ((agent c).run (.initial memory) done).contents =
      ((agent c).steps (.initial memory) done).flatMap (kept c))
    (hsteps : ∀ t ∈ (agent c).steps (.initial memory) done, InOrder c t) :
    DeliveredInOrder c memory done where
  ledger := by rw [hledger, flatMap_kept]
  once := by
    rw [flatMap_requests]
    have hprefix := List.prefix_append
      (((agent c).steps (.initial memory) done).flatMap delivered)
      ((agent c).run (.initial memory) done).contents
    rw [hledger, flatMap_kept] at hprefix
    refine hprefix.sublist.trans ?_
    have hsub := (List.filter_sublist (p := fun t : Call =>
      !decide (t.before.eventCount > c.bufferSize))
      (l := (agent c).steps (.initial memory) done)).map (·.input.event)
    have hinput : ((agent c).steps (.initial memory) done).map (·.input.event) =
        done.map (·.event) := by
      conv => rhs; rw [← (agent c).steps_input (.initial memory) done]
      rw [List.map_map]
      rfl
    rw [← hinput]
    exact hsub
  posted := fun t _ b hb clock r hr => by
    have hpost := submitEvents_post hr
    refine ⟨submitEvents_ret hr, ?_⟩
    have hb : t.output.submitted = some b := hb
    cases hcurl : t.input.curl with
    | initFails =>
      rw [hcurl] at hpost
      have hnone : ¬ r.post.isSome = true := fun h => absurd (hpost.mp h) (by decide)
      simp only [requests, hcurl, if_neg hnone]
    | performs res =>
      rw [hcurl] at hpost
      simp only [requests, hcurl, hb, if_pos (hpost.mpr rfl)]
  failed := fun t ht => (hsteps t ht).failed
  emptied := fun t ht => (hsteps t ht).emptied

/-- **In every state of a run under an accepted configuration, what was delivered,
followed by the buffer, is what was received and not dropped, exactly when no event
is stored at a count of `INT_MAX`.** -/
theorem run_inOrder_iff {file : Option (List UInt8)} {c : Config} (h : Accepts file c)
    (memory : Int → Event) (arrivals : List Arrival) :
    (∀ done, done <+: arrivals → DeliveredInOrder c memory done) ↔
      ∀ t ∈ (agent c).steps (.initial memory) arrivals,
        ¬ (c.bufferSize = INT_MAX ∧ t.before.eventCount = INT_MAX) := by
  have hc := h.bufferSize_lt
  have hbatch : 0 < c.batchSize := by
    have := h.valid.batchSize
    omega
  have hkeeps : ∀ s a, Counting s → ¬ Overflows c s → Counting ((agent c).step s a).2 :=
    fun s a hs hfits => (step_conserves hs hc hfits a).1
  have hconserves := Machine.steps_iff (M := agent c) (P := Conserves c)
    (G := fun t => ¬ Overflows c t.before) hkeeps
    (fun s a hs => conserves_iff hs hc hbatch a) (initial_counting memory)
  have hinOrder := Machine.steps_iff (M := agent c) (P := InOrder c)
    (G := fun t => ¬ Overflows c t.before) hkeeps
    (fun s a hs => ⟨fun hstep => (conserves_iff hs hc hbatch a).mp hstep.conserves,
      fun hfits => step_inOrder hs hc hfits a⟩) (initial_counting memory)
  refine ⟨fun hrun => ?_, fun hguard done hdone => ?_⟩
  · refine (hconserves arrivals).mp ((ledger_iff c memory arrivals).mp fun done hdone => ?_)
    rw [(hrun done hdone).ledger, flatMap_kept]
  · have hledger := (ledger_iff c memory arrivals).mpr ((hconserves arrivals).mpr hguard) done hdone
    refine deliveredInOrder hledger ((hinOrder done).mpr fun t ht => hguard t ?_)
    obtain ⟨rest, rfl⟩ := hdone
    rw [Machine.steps_append]
    exact List.mem_append_left _ ht

/-- Two events under the short configuration, of which one has been delivered. -/
theorem sampleRun_inOrder :
    Accepts (some sampleFile) sampleConfig ∧
      ∀ done, done <+: [⟨.zero, .performs 0⟩, ⟨.zero, .performs 0⟩, ⟨.zero, .initFails⟩] →
        DeliveredInOrder sampleConfig (fun _ => .zero) done :=
  ⟨sampleFile_accepted, (run_inOrder_iff sampleFile_accepted _ _).mpr (by decide)⟩

/-! ### A buffer as large as `int` -/

/-- A configuration file that asks for the largest buffer. -/
def largestFile : List UInt8 :=
  lit "api=http://localhost:5001/submit_logs\nkey=k\nname=n\nid=1\nbuffer_size=2147483647\nbatch_size=2\n"

/-- What `load_config` makes of it. -/
def largestConfig : Config := {sampleConfig with bufferSize := 2147483647}

theorem largestFile_accepted : Accepts (some largestFile) largestConfig := ⟨none, by decide +kernel⟩

/-- The event that overflows the count is the end of order, whatever happened before. -/
theorem overflowing_run {file : Option (List UInt8)} {c : Config} (h : Accepts file c)
    (hc : c.bufferSize = INT_MAX) (memory : Int → Event) (e : Event) :
    ∃ done, done <+: List.replicate (INT_MAX + 1) (⟨e, .initFails⟩ : Arrival) ∧
      ¬ DeliveredInOrder c memory done := by
  have hbatch : 0 < c.batchSize := by
    have := h.valid.batchSize
    omega
  have hfull := failing_run h memory e INT_MAX (Int.le_of_eq hc.symm)
  by_contra hall
  have hall : ∀ done, done <+: List.replicate (INT_MAX + 1) (⟨e, .initFails⟩ : Arrival) →
      DeliveredInOrder c memory done := by
    intro done hdone
    by_contra hnot
    exact hall ⟨done, hdone, hnot⟩
  have hconserves := (ledger_iff c memory (List.replicate (INT_MAX + 1) ⟨e, .initFails⟩)).mp
    fun done hdone => by rw [(hall done hdone).ledger, flatMap_kept]
  rw [List.replicate_succ', Machine.steps_append] at hconserves
  have hlast := hconserves _ (List.mem_append_right _ (List.mem_singleton_self _))
  have hcounting : Counting ((agent c).run (.initial memory) (List.replicate INT_MAX ⟨e, .initFails⟩)) :=
    ⟨by rw [hfull]; exact Int.natCast_nonneg _, Int.le_of_eq hfull⟩
  exact (conserves_iff hcounting h.bufferSize_lt hbatch _).mp hlast ⟨hc, hfull⟩

/-- With libcurl unavailable for 2147483648 events, the buffer is lost. -/
theorem largestRun_loses :
    Accepts (some largestFile) largestConfig ∧
      ∃ done, done <+: List.replicate (INT_MAX + 1) (⟨.zero, .initFails⟩ : Arrival) ∧
        ¬ DeliveredInOrder largestConfig (fun _ => .zero) done :=
  ⟨largestFile_accepted, overflowing_run largestFile_accepted rfl _ _⟩

end EndpointSecurity.Agent
