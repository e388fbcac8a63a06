import EndpointSecurity.Agent.RecordSafety
import EndpointSecurity.Deployment.Fleet

/-! From a system call to a statement.

On every endpoint the tracepoints put records into a ring buffer, and the agent takes them
out, one at a time, in that order. Over any interleaving of the system calls of all
endpoints and the polls of all agents, each statement the server executes for a batch of
text is the `INSERT` of a record a system call left (`endToEnd_inserts`). All statements it
executes for one endpoint are for records of that endpoint, in the order of its system
calls, none twice, and at most one of 25 (`endToEnd_insertions`). A record that finds the
ring buffer full is not there, and what a handler does not write has to be safe in the
slot it gets (`Firing.SlotSafe`). -/
namespace EndpointSecurity.Deployment
open Library Agent Server Machine

/-- A tracepoint that fires and gets a slot that is safe for it, or none. -/
structure SafeFiring where
  firing : Firing
  slotSafe : firing.SlotSafe

abbrev SafeEvent : Type := {e : Event // e.Safe}

/-- What it puts into the ring buffer. -/
def SafeFiring.record (f : SafeFiring) : List SafeEvent :=
  (f.firing.op.submitted.pmap Subtype.mk (f.firing.safe_iff.mpr f.slotSafe)).toList

/-- The agent takes a record out, and what the world does meanwhile: a `Tick` but for its
record. -/
structure Poll where
  curl : CurlRun
  clock : Nat → Timespec
  arrives : Bool
  stdin : List UInt8
  faults : Nat → Nat → Option (List CodePoint)

def Poll.tick (p : Poll) (e : SafeEvent) : Tick := ⟨e.val, e.property, p.curl, p.clock, p.arrives, p.stdin, p.faults⟩

section System
variable {κ : Type} [DecidableEq κ] (host : LogsHost) (reader : BodyReader) (fleet : κ → Enrolled)

/-- The ring buffers of all endpoints. -/
def ringBuffers : Machine (κ × (SafeFiring ⊕ Poll)) (Option (SafeEvent × Poll)) (κ → List SafeEvent) :=
  (family fun _ : κ => queue).comap (Prod.map id (Sum.map SafeFiring.record id))

/-- What the agents get of it. -/
def delivery (i : (κ × (SafeFiring ⊕ Poll)) × Option (SafeEvent × Poll)) : Option (κ × Tick) :=
  i.2.map fun d => (i.1.1, d.2.tick d.1)

/-- The ring buffers, the agents, and the server. -/
def endToEnd : Machine (κ × (SafeFiring ⊕ Poll)) (Option (SafeEvent × Poll) × Option (Effects × Option Ingestion))
    ((κ → List SafeEvent) × ((κ → AgentState) × List EventRow)) :=
  ringBuffers.into ((system host reader fleet).optional.comap delivery)

/-- Everything when the agents start to poll. -/
def switchedOn (memory : κ → Int → Event) (rows : List EventRow) :
    (κ → List SafeEvent) × ((κ → AgentState) × List EventRow) := (fun _ => [], started memory rows)

abbrev EndToEndStep (κ : Type) : Type :=
  Step (κ × (SafeFiring ⊕ Poll)) (Option (SafeEvent × Poll) × Option (Effects × Option Ingestion))
    ((κ → List SafeEvent) × ((κ → AgentState) × List EventRow))

/-- The calls of `handle_event` in a run. -/
def handled (ts : List (EndToEndStep κ)) : List (FleetStep κ) :=
  ts.filterMap fun t => ((Step.second t).mapInput delivery).taken

/-- The records the system calls of an endpoint leave. -/
def recordsOf (k : κ) (inputs : List (κ × (SafeFiring ⊕ Poll))) : List Event :=
  submitted ((inputsOf k inputs).filterMap fun i => i.getLeft?.map SafeFiring.firing)

end System

section Runs
variable {κ : Type} [DecidableEq κ] {host : LogsHost} (reader : BodyReader) (fleet : κ → Enrolled)

/-- What the agents get in a run. -/
def deliveries (inputs : List (κ × (SafeFiring ⊕ Poll))) : List (κ × Tick) :=
  (observed (ringBuffers.steps (fun _ : κ => []) inputs)).filterMap delivery

theorem handled_steps (memory : κ → Int → Event) (rows : List EventRow) (inputs : List (κ × (SafeFiring ⊕ Poll))) :
    handled ((endToEnd host reader fleet).steps (switchedOn memory rows) inputs) =
      (system host reader fleet).steps (started memory rows) (deliveries inputs) := by
  have hsecond := (into_steps ringBuffers ((system host reader fleet).optional.comap delivery)
    (fun _ : κ => []) (started memory rows) inputs).2
  have hcomap := comap_steps (system host reader fleet).optional delivery (started memory rows)
    (observed (ringBuffers.steps (fun _ : κ => []) inputs))
  have htaken := optional_steps (system host reader fleet) (started memory rows)
    ((observed (ringBuffers.steps (fun _ : κ => []) inputs)).map delivery)
  rw [← hcomap, ← hsecond, List.filterMap_map, List.filterMap_map, List.filterMap_map] at htaken
  exact htaken

theorem SafeFiring.record_val (f : SafeFiring) : f.record.map Subtype.val = f.firing.op.submitted.toList := by
  have hval : ∀ (o : Option Event) (h : ∀ e ∈ o, e.Safe), (o.pmap Subtype.mk h).toList.map Subtype.val = o.toList := by
    intro o h
    cases o <;> rfl
  exact hval _ _

/-- What is put into the ring buffer of an endpoint. -/
theorem putIn_records (inputs : List (κ × (SafeFiring ⊕ Poll))) (k : κ) :
    ((inputsOf k (inputs.map (Prod.map id (Sum.map SafeFiring.record id)))).flatMap putIn).map Subtype.val =
      recordsOf k inputs := by
  rw [inputsOf_map, recordsOf, submitted]
  induction inputsOf k inputs with
  | nil => rfl
  | cons i rest ih =>
    rw [List.map_cons, List.flatMap_cons, List.map_append, ih]
    cases i with
    | inl f =>
      show f.record.map Subtype.val ++ _ = _
      rw [f.record_val]
      cases h : f.firing.op.submitted <;> simp [h]
    | inr p => rfl

/-- What an agent gets is what its own ring buffer gives out. -/
theorem deliveries_queue (inputs : List (κ × (SafeFiring ⊕ Poll))) (k : κ) :
    inputsOf k (deliveries inputs) =
      ((queue.steps [] (inputsOf k (inputs.map (Prod.map id (Sum.map SafeFiring.record id))))).filterMap Step.output).map
        fun d : SafeEvent × Poll => d.2.tick d.1 := by
  have hqueue := family_steps (fun _ : κ => queue (α := SafeEvent) (δ := Poll)) k (fun _ => [])
    (inputs.map (Prod.map id (Sum.map SafeFiring.record id)))
  have hcomap := comap_steps (family fun _ : κ => queue (α := SafeEvent) (δ := Poll))
    (Prod.map id (Sum.map SafeFiring.record id)) (fun _ => []) inputs
  rw [← hqueue, ← hcomap, List.filterMap_map, List.filterMap_filterMap, List.map_filterMap, deliveries, inputsOf,
    observed, List.filterMap_map, List.filterMap_filterMap]
  apply List.filterMap_congr
  intro t _
  unfold delivery stepOf
  by_cases hk : t.input.1 = k
  · cases hd : t.output <;> simp [Step.mapInput, hk, hd]
  · cases hd : t.output <;> simp [Step.mapInput, hk, hd]

/-- The records delivered to an agent are the first of those its endpoint's system calls left. -/
theorem deliveries_prefix (inputs : List (κ × (SafeFiring ⊕ Poll))) (k : κ) :
    (inputsOf k (deliveries inputs)).map Tick.event <+: recordsOf k inputs := by
  have hconserves := queue_conserves (α := SafeEvent) (δ := Poll) []
    (inputsOf k (inputs.map (Prod.map id (Sum.map SafeFiring.record id))))
  rw [List.nil_append] at hconserves
  rw [← putIn_records, hconserves, List.map_append, deliveries_queue, List.map_map, List.map_map]
  exact List.prefix_append _ _

/-- **Over any interleaving of the system calls of all endpoints and the polls of all agents,
the statements the server executes for batches of text are the `INSERT`s of the reported
records**, and its table stays as it was. -/
theorem endToEnd_inserts (hconsole : Utf8Console host) (memory : κ → Int → Event) (rows : List EventRow)
    (inputs : List (κ × (SafeFiring ⊕ Poll))) :
    let ts := textCalls (handled ((endToEnd host reader fleet).steps (switchedOn memory rows) inputs))
    List.Forall₂ Inserts (reports fleet ts) (executed ts) ∧
      ((endToEnd host reader fleet).run (switchedOn memory rows) inputs).2.2 = rows := by
  have hinto := into_run ringBuffers ((system host reader fleet).optional.comap delivery) (fun _ : κ => [])
    (started memory rows) inputs
  have hrun : ((endToEnd host reader fleet).run (switchedOn memory rows) inputs).2 =
      (system host reader fleet).run (started memory rows) (deliveries inputs) := by
    rw [endToEnd, switchedOn, hinto, comap_run, optional_run, List.filterMap_map]
    rfl
  rw [handled_steps, hrun]
  exact fleet_inserts fleet reader hconsole memory rows (deliveries inputs)

theorem sampleHost_console : Utf8Console sampleHost where
  prints _ _ := rfl
  repr _ hs := scalars_append (scalars_append (scalars_points _) hs) (scalars_points _)

def soleName : PlainName where
  chars := ['x']
  nonempty := plainName.nonempty
  noNul h := absurd (List.mem_singleton.mp h) (by decide)
  oneLine h := absurd (List.mem_singleton.mp h) (by decide)
  solidEnd c hc := by
    obtain rfl := Option.some.inj hc
    decide
  short := by decide

def soleAgent : Unit → Enrolled := fun _ => ⟨sampleKey, soleName, ⟨7, by decide, by decide⟩⟩

def soleFiring : Firing := ⟨.socket, ⟨0, 0x700000000, none⟩, some .zero⟩

theorem soleFiring_slotSafe : soleFiring.SlotSafe := by
  apply soleFiring.safe_iff.mp
  intro e he
  obtain rfl := Option.some.inj he
  decide

/-- 25 calls of `socket`, each followed by a poll, are a batch, and one statement. -/
theorem soleAgent_inserts :
    let inputs := (List.replicate 25 [.inl ⟨soleFiring, soleFiring_slotSafe⟩,
      .inr ⟨.performs 0, fun _ => ⟨1700000000, 0⟩, true, [], fun _ _ => none⟩]).flatten.map fun i => ((), i)
    let ts := textCalls (handled ((endToEnd sampleHost (.strict points) soleAgent).steps
      (switchedOn (fun _ _ => .zero) []) inputs))
    (reports soleAgent ts).length = 1 ∧ List.Forall₂ Inserts (reports soleAgent ts) (executed ts) :=
  ⟨by decide +kernel, (endToEnd_inserts (.strict points) soleAgent sampleHost_console _ _ _).1⟩

/-- **The statements the server executes for an endpoint are for records its system calls
leave, in their order, none twice, and at most one in 25**, whatever bodies the server
takes and whatever happens on the other endpoints. -/
theorem endToEnd_insertions (host : LogsHost) (memory : κ → Int → Event) (rows : List EventRow)
    (inputs : List (κ × (SafeFiring ⊕ Poll))) (k : κ) :
    let ts := handled ((endToEnd host reader fleet).steps (switchedOn memory rows) inputs)
    (insertionsOf k ts).map Prod.snd = executedFor k ts ∧
      ((insertionsOf k ts).map Prod.fst).Sublist (recordsOf k inputs) ∧
      25 * (executedFor k ts).length ≤ (recordsOf k inputs).length := by
  rw [handled_steps]
  have hprefix := deliveries_prefix inputs k
  obtain ⟨hexecuted, hsub, hcount⟩ := agent_insertions fleet reader host memory rows (deliveries inputs) k
  have hlength := hprefix.length_le
  rw [List.length_map] at hlength
  refine ⟨hexecuted, hsub.trans hprefix.sublist, Nat.le_trans ?_ hlength⟩
  rw [← hexecuted, List.length_map]
  exact hcount

end Runs

end EndpointSecurity.Deployment
