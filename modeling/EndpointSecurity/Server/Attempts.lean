import EndpointSecurity.Server.Logs

/-! The statements `submit_logs` executes.

At most one: the `INSERT` of the first event, if the request gets to it
(`submitLogs_executed`). -/
namespace EndpointSecurity.Server
open Library Transaction

section Statements
variable (host : LogsHost)

/-- The request gets as far as the `INSERT` of its first event: it has an id and an
event, both can be printed, and the database can be reached. -/
structure Attempts (request : Request) (faults : Nat → Nat → Option (List CodePoint))
    (endpointId event : Json) : Prop where
  payload : ∃ data rest, request.json = .ok data ∧ subscript data (.str (py "id")) = some endpointId ∧
    (subscript data (.str (py "events"))).bind elements = some (event :: rest)
  printed : printOk host [.str (py "Endpoint: "), endpointId] = true ∧ printEvent host event = some ()
  connected : faults 0 0 = none

variable {host}

theorem submitEvent_executed (endpointId event : Json) (faults : Nat → Option (List CodePoint))
    (s : List EventRow) (statement : List CodePoint) :
    statement ∈ (submitEvent host endpointId event faults s).executed ↔
      printEvent host event = some () ∧ faults 0 = none ∧
        insertStatement host endpointId event = .ok statement := by
  unfold submitEvent
  cases printEvent host event with
  | none => simp [Ingestion.untouched]
  | some _ =>
    cases faults 0 with
    | some e => simp [Ingestion.untouched]
    | none =>
      cases insertStatement host endpointId event with
      | error e => simp [Ingestion.untouched]
      | ok st => simp [eq_comm]

/-- What an attempt says of the payload. -/
theorem Attempts.data {request : Request} {faults : Nat → Nat → Option (List CodePoint)} {endpointId event data : Json}
    (h : Attempts host request faults endpointId event) (hdata : request.json = .ok data) :
    subscript data (.str (py "id")) = some endpointId ∧
      ∃ rest, (subscript data (.str (py "events"))).bind elements = some (event :: rest) := by
  obtain ⟨data', rest, hjson, hid, hevents⟩ := h.payload
  obtain rfl := Except.ok.inj (hdata.symm.trans hjson)
  exact ⟨hid, rest, hevents⟩

/-- A request that answers early executes nothing. -/
theorem untouched_executed {request : Request} {faults : Nat → Nat → Option (List CodePoint)}
    (hnone : ∀ endpointId event, ¬ Attempts host request faults endpointId event) (r : Response)
    (s : List EventRow) (statement : List CodePoint) :
    statement ∈ (Ingestion.untouched r s).executed ↔
      ∃ endpointId event, Attempts host request faults endpointId event ∧
        insertStatement host endpointId event = .ok statement := by
  simp [Ingestion.untouched, hnone]

/-- What is executed is the `INSERT` of the first event, if the request gets to it. -/
theorem submitLogs_executed (request : Request) (faults : Nat → Nat → Option (List CodePoint))
    (s : List EventRow) (statement : List CodePoint) :
    statement ∈ (submitLogs host request faults s).executed ↔
      ∃ endpointId event, Attempts host request faults endpointId event ∧
        insertStatement host endpointId event = .ok statement := by
  unfold submitLogs
  cases hdata : request.json with
  | error status =>
    refine untouched_executed (fun id event h => ?_) _ s statement
    obtain ⟨data, rest, hjson, -⟩ := h.payload
    rw [hdata] at hjson
    cases hjson
  | ok data =>
    dsimp only
    cases hid : subscript data (.str (py "id")) with
    | none =>
      refine untouched_executed (fun id event h => ?_) _ s statement
      have hsome := (h.data hdata).1
      rw [hid] at hsome
      cases hsome
    | some endpointId =>
      cases hprint : printOk host [.str (py "Endpoint: "), endpointId] with
      | false =>
        simp only [hprint, Bool.not_false, if_true]
        refine untouched_executed (fun id event h => ?_) _ s statement
        obtain rfl := Option.some.inj (hid.symm.trans (h.data hdata).1)
        rw [h.printed.1] at hprint
        cases hprint
      | true =>
        simp only [hprint, Bool.not_true, Bool.false_eq_true, if_false]
        cases hevents : (subscript data (.str (py "events"))).bind elements with
        | none =>
          refine untouched_executed (fun id event h => ?_) _ s statement
          obtain ⟨rest, hsome⟩ := (h.data hdata).2
          rw [hevents] at hsome
          cases hsome
        | some events =>
          cases events with
          | nil =>
            refine untouched_executed (fun id event h => ?_) _ s statement
            obtain ⟨rest, hsome⟩ := (h.data hdata).2
            rw [hevents] at hsome
            cases hsome
          | cons event rest =>
            refine (submitEvent_executed endpointId event (faults 0) s statement).trans ⟨?_, ?_⟩
            · intro ⟨hprinted, hconnected, hstatement⟩
              exact ⟨endpointId, event, ⟨⟨data, rest, hdata, hid, hevents⟩, ⟨hprint, hprinted⟩, hconnected⟩, hstatement⟩
            · intro ⟨id, event', hattempts, hstatement⟩
              obtain ⟨hid', rest', hevents'⟩ := hattempts.data hdata
              obtain rfl := Option.some.inj (hid.symm.trans hid')
              obtain ⟨rfl, -⟩ := List.cons.inj (Option.some.inj (hevents.symm.trans hevents'))
              exact ⟨hattempts.printed.2, hattempts.connected, hstatement⟩

/-- That is one statement at most. -/
theorem submitLogs_executed_one (request : Request) (faults : Nat → Nat → Option (List CodePoint))
    (s : List EventRow) : (submitLogs host request faults s).executed.length ≤ 1 := by
  have huntouched : ∀ r : Response, (Ingestion.untouched r s).executed.length ≤ 1 := fun _ => Nat.zero_le 1
  have hevent : ∀ endpointId event, (submitEvent host endpointId event (faults 0) s).executed.length ≤ 1 := by
    intro endpointId event
    unfold submitEvent
    split
    · exact huntouched _
    · split
      · exact huntouched _
      · split
        · exact huntouched _
        · exact Nat.le_refl 1
  unfold submitLogs
  split
  · exact huntouched _
  · split
    · exact huntouched _
    · split
      · exact huntouched _
      · split
        · exact huntouched _
        · exact huntouched _
        · exact hevent _ _

end Statements

end EndpointSecurity.Server
