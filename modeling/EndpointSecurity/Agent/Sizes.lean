import EndpointSecurity.Agent.Buffer

/-! The sizes `load_config` accepts.

"Ensure the buffer is large enough" doubles `batch_size` in `int`. Up to 2^30 - 1
the product is the number it should be: the buffer holds two batches, and a run
whose submissions all return 0 empties it at every `batch_size` events, so that it
never fills (`Prompt`). From 2^30 on the product wraps to a negative number, the
test sees nothing to enlarge, and `validate_config` never compares the two sizes
(`ensureBuffer_room_iff`). -/
namespace EndpointSecurity.Agent
open Library

/-- Every submission of the run returns 0. -/
def AllSubmitted (c : Config) (memory : Int → Event) (arrivals : List Arrival) : Prop :=
  ∀ t ∈ (agent c).steps (.initial memory) arrivals,
    t.output.submitted.isSome = true → submitReturn t.input.curl = 0

/-- A call that finds room and never counts past one batch. -/
structure Prompt (c : Config) (t : Machine.Step Arrival Effects AgentState) : Prop where
  notFull : ¬ t.before.eventCount > c.bufferSize
  before : t.before.eventCount ≤ c.batchSize
  submitted : ∀ b ∈ t.output.submitted, b.count ≤ c.batchSize
  after : t.after.eventCount ≤ c.batchSize

/-- The buffer leaves room for two batches. -/
structure RoomForTwo (c : Config) : Prop where
  batchSize : 2 ≤ c.batchSize
  bufferSize : 2 * c.batchSize ≤ c.bufferSize
  /-- `config.batch_size * 2` fits `int`. -/
  product : -2 ^ 31 ≤ c.batchSize * 2 ∧ c.batchSize * 2 < 2 ^ 31
  runs : ∀ memory arrivals, AllSubmitted c memory arrivals →
    ∀ t ∈ (agent c).steps (.initial memory) arrivals, Prompt c t

/-! ### Runs -/

/-- Between calls the buffer holds less than a batch. -/
def LessThanBatch (c : Config) (s : AgentState) : Prop :=
  0 ≤ s.eventCount ∧ s.eventCount < c.batchSize

theorem step_prompt {c : Config} {s : AgentState} (hs : LessThanBatch c s)
    (hroom : c.batchSize ≤ c.bufferSize) (hc : c.bufferSize < 2 ^ 31) (a : Arrival)
    (hret : ((agent c).stepAt s a).output.submitted.isSome = true → submitReturn a.curl = 0) :
    Prompt c ((agent c).stepAt s a) ∧ LessThanBatch c ((agent c).step s a).2 := by
  obtain ⟨hlow, hhigh⟩ := hs
  have hin : InBounds c s := ⟨hlow, by omega⟩
  have hnotfull : ¬ s.eventCount > c.bufferSize := by omega
  have hstep : (agent c).step s a = handleEvent c s a := rfl
  unfold Machine.stepAt at hret ⊢
  rw [hstep, handleEvent_free hin hc (by omega)] at hret ⊢
  by_cases hbatch : s.eventCount + 1 ≥ c.batchSize
  · simp only [if_pos hbatch] at hret ⊢
    rw [if_pos (hret rfl)]
    refine ⟨⟨hnotfull, by show s.eventCount ≤ _; omega, ?_, by show (0 : Int) ≤ _; omega⟩,
      Int.le_refl 0, by show (0 : Int) < _; omega⟩
    simp only [Option.mem_def, Option.some.injEq, forall_eq']
    show s.eventCount + 1 ≤ _
    omega
  · simp only [if_neg hbatch]
    exact ⟨⟨hnotfull, by show s.eventCount ≤ _; omega, by simp,
      by show s.eventCount + 1 ≤ _; omega⟩, by show 0 ≤ s.eventCount + 1; omega,
      by show s.eventCount + 1 < _; omega⟩

theorem run_prompt {c : Config} (hbatch : 0 < c.batchSize) (hroom : c.batchSize ≤ c.bufferSize)
    (hc : c.bufferSize < 2 ^ 31) (memory : Int → Event) (arrivals : List Arrival)
    (hall : AllSubmitted c memory arrivals) :
    ∀ t ∈ (agent c).steps (.initial memory) arrivals, Prompt c t := by
  have hinitial : LessThanBatch c (.initial memory) := ⟨Int.le_refl 0, hbatch⟩
  have hstep : ∀ s a, LessThanBatch c s →
      (((agent c).stepAt s a).output.submitted.isSome = true → submitReturn a.curl = 0) →
      Prompt c ((agent c).stepAt s a) ∧ LessThanBatch c ((agent c).step s a).2 :=
    fun s a hs hret => step_prompt hs hroom hc a hret
  exact Machine.steps_of_guard (P := Prompt c)
    (G := fun t => t.output.submitted.isSome = true → submitReturn t.input.curl = 0)
    hstep hinitial arrivals hall

/-! ### The doubling -/

/-- What the end of `load_config` accepts has room for two batches exactly when the
batch size is below 2^30, whatever `atoi` and the loop left in the two sizes. -/
theorem ensureBuffer_room_iff {c : Config} (hc : c.bufferSize < 2 ^ 31)
    (hvalid : (ensureBuffer c).Valid) : RoomForTwo (ensureBuffer c) ↔ c.batchSize < 2 ^ 30 := by
  have hsame : (ensureBuffer c).batchSize = c.batchSize := by
    unfold ensureBuffer
    split <;> rfl
  have hbatch := hvalid.batchSize
  rw [hsame] at hbatch
  refine ⟨fun hroom => ?_, fun hsmall => ?_⟩
  · have hproduct := hroom.product.2
    rw [hsame] at hproduct
    omega
  · have hdouble : int32 (c.batchSize * 2) = c.batchSize * 2 := int32_double (by omega) hsmall
    have hbuffer : 2 * c.batchSize ≤ (ensureBuffer c).bufferSize := by
      unfold ensureBuffer
      rw [hdouble]
      split
      · show 2 * c.batchSize ≤ c.batchSize * 2
        omega
      · omega
    refine ⟨?_, ?_, ?_, run_prompt ?_ ?_ (ensureBuffer_lt hc)⟩ <;> rw [hsame] <;> omega

/-- **An accepted file leaves room for two batches exactly when its last `batch_size`
is below 2^30.** -/
theorem accepted_room_iff {file : List UInt8} {c : Config} (h : Accepts (some file) c) :
    RoomForTwo c ↔
      ∀ value ∈ lastAssigned (lit "batch_size") (assignments (lines file)), atoi value < 2 ^ 30 := by
  obtain ⟨_, rfl, hvalid⟩ := (accepts_iff file c).mp h
  have hbuffer := foldl_bufferSize Config.zero_closed (assignments (lines file))
  have hbatch := foldl_batchSize Config.zero_closed (assignments (lines file))
  have hlt : ((assignments (lines file)).foldl setOption .zero).bufferSize < 2 ^ 31 := by
    rw [hbuffer]
    cases lastAssigned (lit "buffer_size") (assignments (lines file)) with
    | none => decide
    | some value => exact bufferSizeOf_lt value
  rw [ensureBuffer_room_iff hlt hvalid, hbatch]
  cases lastAssigned (lit "batch_size") (assignments (lines file)) with
  | none => simp [Config.zero]
  | some value =>
    simp only [Option.map_some, Option.getD_some, Option.mem_def, Option.some.injEq, forall_eq']
    unfold batchSizeOf
    split <;> omega

theorem sampleFile_room : Accepts (some sampleFile) sampleConfig ∧ RoomForTwo sampleConfig :=
  ⟨sampleFile_accepted, (accepted_room_iff sampleFile_accepted).mpr (by decide +kernel)⟩

/-- A configuration file with the smallest batch size that wraps. -/
def wrappingFile : List UInt8 :=
  lit "api=http://localhost:5001/submit_logs\nkey=k\nname=n\nid=1\nbuffer_size=32\nbatch_size=1073741824\n"

/-- What `load_config` makes of it. -/
def wrappingConfig : Config := {sampleConfig with batchSize := 1073741824}

/-- It is accepted with a buffer of 32 events for batches of 1073741824. -/
theorem wrappingFile_noRoom :
    Accepts (some wrappingFile) wrappingConfig ∧ ¬ RoomForTwo wrappingConfig :=
  ⟨⟨none, by decide +kernel⟩, fun h => absurd h.bufferSize (by decide)⟩

end EndpointSecurity.Agent
