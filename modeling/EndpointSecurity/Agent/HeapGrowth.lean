import EndpointSecurity.Agent.BatchHeap

/-! The heap of the agent over whole runs.

Every request leaves the tree of its batch on the heap, and its text: a run none of whose
requests for memory is refused does what the agent does, and takes for each call as many
blocks as the batch has parts, for good (`growth`). The one call of `cJSON_Delete` that
is missing would give the tree back (`delete_buildRoot`). -/
namespace EndpointSecurity.Agent
open Library HeapProgram Assertion Machine

/-- A record the ring buffer hands over, and what the world does meanwhile. -/
structure Handling where
  arrival : Arrival
  safe : arrival.event.Safe
  clock : Nat → Timespec

/-- `handle_event`, with the memory that `submit_events` takes. The output is what became of
the call of `submit_events`, if there is one. -/
def handleOnHeap (A : Allocator Block) (c : Config) (s : AgentState × HeapState Block) (i : Handling) :
    Option (Outcome (HeapState Block) Submission) × (AgentState × HeapState Block) :=
  let r := handleEvent c s.1 i.arrival
  match r.1.submitted with
  | none => (none, (r.2, s.2))
  | some b =>
    let outcome := postEvents A c i.clock i.arrival.curl b.events s.2
    (some outcome, (r.2, match outcome with
      | .wrong => s.2
      | .failed m => m
      | .done _ m => m))

def agentOnHeap (A : Allocator Block) (c : Config) :
    Machine Handling (Option (Outcome (HeapState Block) Submission)) (AgentState × HeapState Block) :=
  ⟨handleOnHeap A c⟩

/-! ### Counting a batch -/

/-- An object of six fields, their keys and two strings more, and the arguments, each with its string. -/
theorem blocks_eventObject (now : Timespec) (r : Reading) : blocks (eventObject now r) = 16 + 2 * r.argv.length := by
  have hargv : itemBlocks (r.argv.map CJson.string) = 2 * r.argv.length := by
    induction r.argv with
    | nil => rfl
    | cons s rest ih =>
      simp only [List.map_cons, itemBlocks, ih, List.length_cons, CJson.valuestring, blocksBelow,
        Option.toList_some, List.length_nil, List.length_cons]
      omega
  simp only [eventObject, blocks, blocksBelow, memberBlocks, hargv, CJson.valuestring, Option.toList_some,
    Option.toList_none, List.length_nil, List.length_cons]
  omega

/-- The blocks of a batch: six of the root, and those of its events. -/
theorem blocks_batchObject (id : List UInt8) (clock : Nat → Timespec) (batch : List Reading) :
    blocks (batchObject id clock batch) = 6 + (batch.map fun r => 16 + 2 * r.argv.length).sum := by
  have hitems : ∀ (clock : Nat → Timespec) (batch : List Reading),
      itemBlocks (batch.mapIdx fun i r => eventObject (clock i) r) =
        (batch.map fun r => 16 + 2 * r.argv.length).sum := by
    intro clock batch
    induction batch generalizing clock with
    | nil => rfl
    | cons r rest ih =>
      have hevent := blocks_eventObject (clock 0) r
      rw [blocks] at hevent
      rw [List.mapIdx_cons, itemBlocks, hevent, ih fun i => clock (i + 1), List.map_cons, List.sum_cons]
  simp only [batchObject, blocks, blocksBelow, memberBlocks, hitems, CJson.valuestring, Option.toList_some,
    Option.toList_none, List.length_nil, List.length_cons]
  omega

/-- The blocks that a request leaves behind: those of the batch, and one for its text. -/
def leftBehind (events : List Event) : Nat := 7 + (events.map fun e => 16 + 2 * e.argc.toNat).sum

/-- The text of a batch fits into an `int`. -/
def Fits (c : Config) (clock : Nat → Timespec) (events : List Event) : Prop :=
  (printUnformatted (batchObject c.id.string clock (events.map Event.reading))).isSome = true

instance (c : Config) (clock : Nat → Timespec) (events : List Event) : Decidable (Fits c clock events) :=
  inferInstanceAs (Decidable (_ = true))

theorem counts_leftover {c : Config} {clock : Nat → Timespec} {events : List Event} (hfits : Fits c clock events) :
    Counts (leftover c.id.string clock (events.map Event.reading)) (leftBehind events) := by
  have hblocks := blocks_batchObject c.id.string clock (events.map Event.reading)
  have hargc : ∀ e : Event, e.reading.argv.length = e.argc.toNat := fun e => by
    rw [Event.reading, List.length_map, List.length_range]
  rw [List.map_map] at hblocks
  simp only [Function.comp_def, hargc] at hblocks
  obtain ⟨text, htext⟩ := Option.isSome_iff_exists.mp hfits
  have hcount : leftBehind events = blocks (batchObject c.id.string clock (events.map Event.reading)) +
      (some text).toList.length := by
    rw [hblocks, leftBehind, Option.toList_some, List.length_singleton]
    omega
  rw [leftover, htext, hcount]
  exact Counts.iSup fun a => (counts_tree _ a).mul (Counts.iSup fun v => counts_textAt v _)

/-! ### Runs -/

section
variable {A : Allocator Block} {c : Config}

/-- Nothing that is allocated is freed or changed, and the new blocks are counted. -/
structure Grows (n : Nat) (before after : Heap Block) : Prop where
  card : after.keys.card = before.keys.card + n
  kept : ∀ a b, before.lookup a = some b → after.lookup a = some b

theorem Grows.trans {n k : Nat} {h₁ h₂ h₃ : Heap Block} (h : Grows n h₁ h₂) (h' : Grows k h₂ h₃) :
    Grows (n + k) h₁ h₃ where
  card := by rw [h'.card, h.card, Nat.add_assoc]
  kept a b hab := h'.kept a b (h.kept a b hab)

/-- The batch of a call is built and printed without a refusal. -/
def unrefused (A : Allocator Block) (c : Config) (clock : Nat → Timespec) (events : List Event) (m : HeapState Block) :
    Bool :=
  match (buildRoot A c.id.string clock events >>= printRoot A) m with
  | .done _ u => u.refusals == m.refusals
  | _ => false

/-- The count of refusals only grows, so there is none on the way. -/
theorem unrefused_counts {clock : Nat → Timespec} {events : List Event} {m t u : HeapState Block} {root : Option Addr}
    {body : Option (List UInt8)} (h : unrefused A c clock events m = true)
    (hbuild : buildRoot A c.id.string clock events m = .done root t) (hprint : printRoot A root t = .done body u) :
    t.refusals = m.refusals ∧ u.refusals = m.refusals := by
  rw [unrefused, bind_of_done hbuild, hprint] at h
  have hequal : u.refusals = m.refusals := eq_of_beq h
  have hbuilt := (buildRoot A c.id.string clock events).refusals_le hbuild
  have hprinted := (printRoot A root).refusals_le hprint
  exact ⟨by omega, hequal⟩

/-- A call without a refusal is the agent's own, and its blocks stay. -/
theorem postEvents_run {clock : Nat → Timespec} (res : Nat) {events : List Event} (hsafe : ∀ e ∈ events, e.Safe)
    (hfits : Fits c clock events) {m : HeapState Block} (hunrefused : unrefused A c clock events m = true) :
    ∃ r u, postEvents A c clock (.performs res) events m = .done r u ∧
      submitEvents c clock (.performs res) events = some r ∧ Grows (leftBehind events) m.blocks u.blocks := by
  obtain ⟨root, t, body, u, new, hbuild, hprint, hwritten⟩ := write_run A hsafe c.id.string clock m
  obtain ⟨hbuilt, hprinted⟩ := unrefused_counts hunrefused hbuild hprint
  have hnone : ¬ m.refusals < t.refusals := by omega
  have hpost := postEvents_eq c res hbuild hprint
  have hcontent := hwritten.content
  cases root with
  | none => exact absurd hcontent.1 hnone
  | some a =>
    obtain ⟨part, -, hpart, hbody, hnew⟩ := hcontent
    obtain rfl := hpart.eq hnone _
    obtain rfl := hbody.resolve_right fun h => by omega
    obtain ⟨text, htext⟩ := Option.isSome_iff_exists.mp hfits
    rw [lost_eq_one hnone, mul_one] at hnew
    rw [htext] at hpost
    refine ⟨_, u, hpost, ?_, ?_, fun b x hbx => ?_⟩
    · rw [← htext]
      exact submitEvents_safe c clock hsafe res
    · have hleft : new ∈ leftover c.id.string clock (events.map Event.reading) := mem_iSup.mpr ⟨a, hnew⟩
      have hkeys : Disjoint new.keys m.blocks.keys := Finset.disjoint_left.mpr fun x hx hx' =>
        hwritten.apart x (Finmap.mem_keys.mp hx) (Finmap.mem_keys.mp hx')
      rw [hwritten.blocks, Finmap.keys_union, Finset.card_union_of_disjoint hkeys,
        counts_leftover hfits new hleft, Nat.add_comm]
    · have hmem : b ∈ m.blocks := Finmap.mem_of_lookup_eq_some hbx
      rw [hwritten.blocks, Finmap.lookup_union_right fun hin => hwritten.apart b hin hmem, hbx]

/-- A call of `handle_event` on the heap. -/
abbrev HeapCall : Type := Step Handling (Option (Outcome (HeapState Block) Submission)) (AgentState × HeapState Block)

/-- The batch that a call sends. -/
def HeapCall.sent (c : Config) (t : HeapCall) : Option Batch :=
  match t.input.arrival.curl with
  | .initFails => none
  | .performs _ => (handleEvent c t.before.1 t.input.arrival).1.submitted

/-- What a call sends is built without a refusal, and its text fits. -/
def HeapCall.Granted (A : Allocator Block) (c : Config) (t : HeapCall) : Prop := ∀ b ∈ t.sent c,
  unrefused A c t.input.clock b.events t.before.2 = true ∧ Fits c t.input.clock b.events

instance (t : HeapCall) : Decidable (t.Granted A c) := inferInstanceAs (Decidable (∀ b ∈ t.sent c, _))

/-- What a call takes from the heap for good. -/
def HeapCall.taken (c : Config) (t : HeapCall) : Nat := (t.sent c).elim 0 fun b => leftBehind b.events

/-- A call is the agent's own, and what `submit_events` does in it is what the agent's does. -/
def HeapCall.Follows (c : Config) (t : HeapCall) : Prop :=
  t.after.1 = (handleEvent c t.before.1 t.input.arrival).2 ∧
    match (handleEvent c t.before.1 t.input.arrival).1.submitted with
    | none => t.output = none
    | some b => ∃ r, t.output = some (.done r t.after.2) ∧
        submitEvents c t.input.clock t.input.arrival.curl b.events = some r

theorem Grows.refl (h : Heap Block) : Grows 0 h h := ⟨(Nat.add_zero _).symm, fun _ _ h => h⟩

/-- The globals move as in `handle_event`, whatever becomes of the batch. -/
theorem agentOnHeap_globals (s : AgentState × HeapState Block) (i : Handling) :
    ((agentOnHeap A c).step s i).2.1 = (handleEvent c s.1 i.arrival).2 := by
  show (handleOnHeap A c s i).2.1 = _
  unfold handleOnHeap
  cases hsubmitted : (handleEvent c s.1 i.arrival).1.submitted <;> simp only [hsubmitted]

theorem agentOnHeap_step (hc : c.bufferSize < INT_MAX) (s : AgentState × HeapState Block) (i : Handling)
    (hs : BufferHolds c Event.Safe s.1) (hgranted : HeapCall.Granted A c ((agentOnHeap A c).stepAt s i)) :
    HeapCall.Follows c ((agentOnHeap A c).stepAt s i) ∧
      Grows (HeapCall.taken c ((agentOnHeap A c).stepAt s i)) s.2.blocks ((agentOnHeap A c).step s i).2.2.blocks := by
  have hholds := (handleEvent_holds hc hs i.arrival i.safe).2
  unfold HeapCall.Follows HeapCall.taken
  unfold HeapCall.Granted at hgranted
  unfold HeapCall.sent Machine.stepAt at hgranted ⊢
  have hstep : (agentOnHeap A c).step s i = handleOnHeap A c s i := rfl
  unfold handleOnHeap at hstep
  cases hsubmitted : (handleEvent c s.1 i.arrival).1.submitted with
  | none =>
    simp only [hsubmitted] at hstep
    simp only [hstep]
    refine ⟨⟨trivial, trivial⟩, ?_⟩
    cases i.arrival.curl <;> exact Grows.refl _
  | some b =>
    simp only [hsubmitted] at hstep hgranted hholds
    cases hcurl : i.arrival.curl with
    | initFails =>
      have hpost : postEvents A c i.clock .initFails b.events s.2 = .done ⟨submitReturn .initFails, none⟩ s.2 := rfl
      simp only [hcurl, hpost] at hstep
      simp only [hstep]
      exact ⟨⟨trivial, _, rfl, rfl⟩, Grows.refl _⟩
    | performs res =>
      simp only [hcurl] at hgranted
      obtain ⟨hunrefused, hfits⟩ := hgranted b rfl
      obtain ⟨r, u, hdone, hsubmit, hgrows⟩ := postEvents_run res (hholds b rfl).all hfits hunrefused
      simp only [hcurl, hdone] at hstep
      simp only [hstep]
      exact ⟨⟨trivial, r, rfl, hsubmit⟩, hgrows⟩

/-- **The heap over a run**: as long as no request for memory is refused, the agent on the
heap does what the agent does, every call of `submit_events` goes through, and nothing it
takes is ever given back: for each request six blocks, sixteen for each event and two for
each argument, and the text. -/
theorem growth (hlow : 0 ≤ c.bufferSize) (hc : c.bufferSize < INT_MAX) (memory : Int → Event) (m : HeapState Block)
    (inputs : List Handling)
    (hgranted : ∀ t ∈ (agentOnHeap A c).steps (.initial memory, m) inputs, HeapCall.Granted A c t) :
    (∀ t ∈ (agentOnHeap A c).steps (.initial memory, m) inputs, HeapCall.Follows c t) ∧
      Grows (((agentOnHeap A c).steps (.initial memory, m) inputs).map (HeapCall.taken c)).sum m.blocks
        ((agentOnHeap A c).run (.initial memory, m) inputs).2.blocks := by
  have hinitial : BufferHolds c Event.Safe (AgentState.initial memory) := initial_holds hlow memory
  generalize AgentState.initial memory = s at hinitial hgranted
  induction inputs generalizing s m with
  | nil => exact ⟨fun t ht => (List.not_mem_nil ht).elim, Grows.refl _⟩
  | cons i rest ih =>
    rw [Machine.steps_cons, List.forall_mem_cons] at hgranted ⊢
    obtain ⟨hfirst, hlater⟩ := hgranted
    obtain ⟨hfollows, hgrows⟩ := agentOnHeap_step hc (s, m) i hinitial hfirst
    have hholds : BufferHolds c Event.Safe ((agentOnHeap A c).step (s, m) i).2.1 := by
      rw [agentOnHeap_globals]
      exact (handleEvent_holds hc hinitial i.arrival i.safe).1
    obtain ⟨hrest, hgrowsRest⟩ := ih ((agentOnHeap A c).step (s, m) i).2.2 ((agentOnHeap A c).step (s, m) i).2.1
      hholds hlater
    rw [List.map_cons, List.sum_cons, Machine.run_cons]
    exact ⟨⟨hfollows, hrest⟩, hgrows.trans hgrowsRest⟩

/-- Three records, each with two arguments. -/
def threeListings : List Handling :=
  List.replicate 3 ⟨⟨listing, .performs 0⟩, by decide, fun _ => ⟨1700000000, 0⟩⟩

/-- On a heap in use and with an allocator that grants two hundred requests, a call is made for
two of them. -/
theorem threeListings_growth :
    ((agentOnHeap (refusing (200 ≤ ·)) sampleConfig).run (.initial fun _ => .zero, ⟨sampleHeap, 10, 0⟩)
      threeListings).2.blocks.keys.card = 59 := by
  have hgrows := (growth (A := refusing (200 ≤ ·)) (c := sampleConfig) (by decide) (by decide) (fun _ => .zero)
    ⟨sampleHeap, 10, 0⟩ threeListings (by decide +kernel)).2
  rw [hgrows.card]
  decide +kernel

/-- **The tree could be given back**: where building a batch is refused nothing, after one call of
`cJSON_Delete` the heap is as it was before. -/
theorem delete_buildRoot {id : List UInt8} {clock : Nat → Timespec} {events : List Event}
    (hsafe : ∀ e ∈ events, e.Safe) {m t : HeapState Block} {root : Option Addr}
    (hbuild : buildRoot A id clock events m = .done root t) (hgranted : t.refusals = m.refusals) :
    ∃ u, delete root t = .done () u ∧ u.blocks = m.blocks := by
  obtain ⟨_, _, k, hdone, hk, hd, ht⟩ := Triple.run (fun _ => buildRoot_triple A hsafe id clock) (m := m) rfl
    (Finmap.disjoint_empty _) Finmap.empty_union.symm
  obtain ⟨rfl, rfl⟩ := Outcome.done.inj (hbuild.symm.trans hdone)
  have hnone : ¬ m.refusals < t.refusals := by omega
  rw [lost_eq_one hnone, mul_one] at hk
  obtain ⟨a, hroot⟩ := mem_iSup.mp (partly_le hnone root hk)
  obtain ⟨rfl, htree⟩ := mem_fact_mul.mp hroot
  obtain ⟨_, u, _, hdelete, rfl, -, hu⟩ := Triple.run (fun _ => delete_tree _ a) htree hd ht
  exact ⟨u, hdelete, hu.trans Finmap.empty_union⟩

end

/-- Two records on a heap in use, with an allocator that grants two hundred requests. -/
theorem twoListings_deleted : ∃ root t u,
    buildRoot (refusing (200 ≤ ·)) sampleConfig.id.string (fun _ => ⟨1700000000, 0⟩) [listing, listing]
      ⟨sampleHeap, 10, 0⟩ = .done root t ∧ delete root t = .done () u ∧ u.blocks = sampleHeap := by
  have hsafe : ∀ e ∈ [listing, listing], e.Safe := by decide
  obtain ⟨root, t, _, _, _, hbuild, hprint, -⟩ := write_run (refusing (200 ≤ ·)) hsafe sampleConfig.id.string
    (fun _ => ⟨1700000000, 0⟩) ⟨sampleHeap, 10, 0⟩
  have hunrefused : unrefused (refusing (200 ≤ ·)) sampleConfig (fun _ => ⟨1700000000, 0⟩) [listing, listing]
      ⟨sampleHeap, 10, 0⟩ = true := by decide +kernel
  obtain ⟨u, hdelete, hu⟩ := delete_buildRoot hsafe hbuild (unrefused_counts hunrefused hbuild hprint).1
  exact ⟨root, t, u, hbuild, hdelete, hu⟩

end EndpointSecurity.Agent
