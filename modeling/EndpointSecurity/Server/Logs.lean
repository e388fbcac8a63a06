import EndpointSecurity.Server.Format
import Mathlib.Data.List.Forall2

/-! Log ingestion: `submit_logs`.

The view prints what it got, and for an event opens a connection, formats the event
into an `INSERT` and executes it. Every way through the body of its loop returns, so
it ends with the first event; nothing is ever committed; and where connecting fails,
the `finally` clause raises in turn, on a connection that was never bound. What is
left of "all or nothing" is `submitLogs_allOrNothing_iff`. -/
namespace EndpointSecurity.Server
open Library Transaction

/-! ### Python values, taken apart -/

/-- What `for x in value` goes over, if it can. -/
def elements : Json → Option (List Json)
  | .arr items => some items
  | .str s => some (s.map fun p => .str [p])
  | .obj members => some ((members.map Prod.fst).eraseDups.map .str)
  | _ => none

/-- The element at an index, from the end if it is negative. -/
def elementAt {β : Type} (l : List β) (i : Int) : Option β :=
  if 0 ≤ i then l[i.toNat]? else if -i ≤ l.length then l[l.length - (-i).toNat]? else none

/-- `value[x]`. -/
def subscript (value x : Json) : Option Json :=
  match value, x with
  | .obj members, .str name => lastAssigned name members
  | .arr items, .int i => elementAt items i
  | .arr items, .bool b => elementAt items b.toNat
  | .str s, .int i => (elementAt s i).map fun p => .str [p]
  | .str s, .bool b => (elementAt s b.toNat).map fun p => .str [p]
  | _, _ => none

/-- The text of the exception that `value["name"]` raises. -/
def subscriptError (value : Json) (name : String) : List CodePoint :=
  match value with
  | .obj _ => py "'" ++ py name ++ py "'"
  | .str _ => py "string indices must be integers, not 'str'"
  | .arr _ => py "list indices must be integers or slices, not str"
  | _ => py "object is not subscriptable"

def subscriptName (value : Json) (name : String) : Except (List CodePoint) Json :=
  match subscript value (.str (py name)) with
  | some x => .ok x
  | none => .error (subscriptError value name)

/-! ### `submit_logs` -/

/-- A row of the table `events`. -/
structure EventRow where
  endpointId : Option Int
  eventTime : Int
  message : List Char
  eventType : Option (List Char)
  pid : Option Int
deriving DecidableEq

/-- What the view runs on: Python's `repr` of strings, whether a `print` gets through,
and what MySQL makes of a statement on the table `events`. -/
structure LogsHost where
  reprStr : List CodePoint → List CodePoint
  prints : List (List CodePoint) → Bool
  execute : List CodePoint → List EventRow → Except (List CodePoint) (List EventRow)

/-- What a request leaves: its response, the committed events, and the statements
that were executed for it. -/
structure Ingestion where
  response : Response
  store : List EventRow
  executed : List (List CodePoint)

section View
variable (host : LogsHost)

/-- `print(*values)`. -/
def printOk (values : List Json) : Bool := host.prints (values.map (pyFormat host.reprStr))

/-- The debug loop over an event, if it does not raise. -/
def printEvent (event : Json) : Option Unit := do
  let xs ← elements event
  xs.forM fun x => do
    let value ← subscript event x
    if printOk host [x, value] then some () else none

/-- The f-string. -/
def insertStatement (endpointId event : Json) : Except (List CodePoint) (List CodePoint) := do
  let timestamp ← subscriptName event "timestamp"
  let type ← subscriptName event "type"
  let pid ← subscriptName event "pid"
  let format := pyFormat host.reprStr
  return py "INSERT INTO events (endpoint_id, event_time, message, event_type, pid) VALUES ( " ++
    format endpointId ++ py ", " ++ format timestamp ++ py ", 0, " ++ format type ++ py ", " ++
    format pid ++ py " );"

/-- The work on an open connection. An `INSERT` has no rows to fetch. -/
def insertWork (statement : List CodePoint) : Transaction (List EventRow) (List CodePoint) Response := do
  execute fun rows => host.execute statement rows
  let result ← query fun _ => .ok []
  return ⟨defaultStatus, some (.arr result)⟩

/-- A request that executes nothing. -/
def Ingestion.untouched (response : Response) (s : List EventRow) : Ingestion := ⟨response, s, []⟩

/-- The body of the loop. Both the `try` and its `except` return. -/
def submitEvent (endpointId event : Json) (faults : Nat → Option (List CodePoint))
    (s : List EventRow) : Ingestion :=
  match printEvent host event with
  | none => .untouched serverError s
  | some () =>
    match faults 0 with
    -- `connection` is unbound in the `finally` clause
    | some _ => .untouched serverError s
    | none =>
      match insertStatement host endpointId event with
      | .error e => .untouched (errorResponse e 400) s
      | .ok statement =>
        let outcome := (insertWork host statement).run (fun n => faults (n + 1)) s
        ⟨answer 400 outcome.result, outcome.store, [statement]⟩

/-- The view. `faults i` are the steps of the connection of the `i`-th event. -/
def submitLogs (request : Request) (faults : Nat → Nat → Option (List CodePoint))
    (s : List EventRow) : Ingestion :=
  match request.json with
  | .error status => .untouched (page status) s
  | .ok data =>
    match subscript data (.str (py "id")) with
    | none => .untouched serverError s
    | some endpointId =>
      if !printOk host [.str (py "Endpoint: "), endpointId] then .untouched serverError s
      else
        match (subscript data (.str (py "events"))).bind elements with
        | none => .untouched serverError s
        -- the loop falls through to the end of the function, which returns nothing
        | some [] => .untouched serverError s
        | some (event :: _) => submitEvent host endpointId event (faults 0) s

end View

/-! ### All or nothing -/

/-- A payload as the agent sends it: an id and a list of events with their fields. -/
structure LogsPayload (data endpointId : Json) (events : List Json) : Prop where
  idField : subscript data (.str (py "id")) = some endpointId
  eventsField : subscript data (.str (py "events")) = some (.arr events)
  fields : ∀ e ∈ events, ∀ name ∈ ["timestamp", "type", "pid"],
    (subscript e (.str (py name))).isSome = true

/-- An integer column holds a value of the payload: a number or its decimal text. -/
def CarriesInt (x : Json) (column : Option Int) : Prop :=
  ∃ n : Int, column = some n ∧ (x = .int n ∨ x = .str (py (toString n)))

/-- A text column does. -/
def CarriesText (x : Json) (column : Option (List Char)) : Prop :=
  ∃ s, column = some s ∧ (x = .str (points s) ∨ ∃ n : Int, x = .int n ∧ s = (toString n).toList)

/-- A row carries the endpoint's id and the fields of an event. -/
structure Carries (endpointId event : Json) (r : EventRow) : Prop where
  id : CarriesInt endpointId r.endpointId
  time : ∃ x, subscript event (.str (py "timestamp")) = some x ∧ CarriesInt x (some r.eventTime)
  type : ∃ x, subscript event (.str (py "type")) = some x ∧ CarriesText x r.eventType
  pid : ∃ x, subscript event (.str (py "pid")) = some x ∧ CarriesInt x r.pid

/-- All of the events in order behind a 2xx answer, or none of them behind a JSON error
with status 400. -/
def AllOrNothing (endpointId : Json) (events : List Json) (old : List EventRow) (i : Ingestion) : Prop :=
  if isOk i.response then
    ∃ rows, i.store = old ++ rows ∧ List.Forall₂ (Carries endpointId) events rows
  else (∃ e, i.response = errorResponse e 400) ∧ i.store = old

/-- The connection of an event is there, and its `INSERT` or the fetch after it raises. -/
structure InsertRaises (host : LogsHost) (endpointId event : Json)
    (faults : Nat → Option (List CodePoint)) (s : List EventRow) : Prop where
  printed : printEvent host event = some ()
  connected : faults 0 = none
  raises : faults 1 = none → faults 2 = none →
    ∀ statement, insertStatement host endpointId event = .ok statement →
      ∃ e, host.execute statement s = .error e

section Theorems
variable {host : LogsHost}

/-- Whatever happens to the work on a connection, nothing of it is committed. -/
theorem insertWork_store (statement : List CodePoint) (faults : Nat → Option (List CodePoint))
    (s : List EventRow) : ((insertWork host statement).run faults s).store = s := by
  apply run_ensures (P := fun o => o.store = s)
  refine ensures_execute (fun _ => rfl) fun w _ => ?_
  exact ensures_query (fun _ => rfl) fun _ _ => rfl

/-- The view leaves the table as it was, whatever the request. -/
theorem submitLogs_store (request : Request) (faults : Nat → Nat → Option (List CodePoint))
    (s : List EventRow) : (submitLogs host request faults s).store = s := by
  have hevent : ∀ endpointId event, (submitEvent host endpointId event (faults 0) s).store = s := by
    intro endpointId event
    unfold submitEvent
    split
    · rfl
    · split
      · rfl
      · split
        · rfl
        · exact insertWork_store _ _ s
  unfold submitLogs
  split
  · rfl
  · split
    · rfl
    · split
      · rfl
      · split
        · rfl
        · rfl
        · exact hevent _ _

theorem insertWork_returns_iff (statement : List CodePoint) (faults : Nat → Option (List CodePoint))
    (s : List EventRow) :
    (insertWork host statement).Returns faults (.start s) ↔
      faults 0 = none ∧ (∃ rows, host.execute statement s = .ok rows) ∧ faults 1 = none := by
  unfold insertWork
  simp only [returns_execute, returns_query, returns_pure, Except.ok.injEq, exists_eq', and_true,
    exists_and_right, Session.start, Session.write, Session.tick, Nat.zero_add]

theorem insertWork_response {statement : List CodePoint} {faults : Nat → Option (List CodePoint)}
    {s : List EventRow} {r : Response} (h : ((insertWork host statement).run faults s).result = .ok r) :
    r = ⟨defaultStatus, some (.arr [])⟩ := by
  have hwork : (insertWork host statement).Ensures faults (.start s)
      fun result _ => ∀ r, result = .ok r → r = ⟨defaultStatus, some (.arr [])⟩ := by
    refine ensures_execute (by simp) fun w _ => ?_
    refine ensures_query (by simp) fun rows hrows => ?_
    obtain rfl : [] = rows := Except.ok.inj hrows
    exact fun r hr => (Except.ok.inj hr).symm
  exact hwork r h

theorem insertStatement_isOk {endpointId event : Json}
    (h : ∀ name ∈ ["timestamp", "type", "pid"], (subscript event (.str (py name))).isSome = true) :
    ∃ statement, insertStatement host endpointId event = .ok statement := by
  have hname : ∀ name ∈ ["timestamp", "type", "pid"], ∃ x, subscriptName event name = .ok x := by
    intro name hmem
    obtain ⟨x, hx⟩ := Option.isSome_iff_exists.mp (h name hmem)
    exact ⟨x, by rw [subscriptName, hx]⟩
  obtain ⟨timestamp, htimestamp⟩ := hname "timestamp" (by decide)
  obtain ⟨type, htype⟩ := hname "type" (by decide)
  obtain ⟨pid, hpid⟩ := hname "pid" (by decide)
  unfold insertStatement
  rw [htimestamp, htype, hpid]
  exact ⟨_, rfl⟩

/-- A server error is neither all nor nothing. -/
theorem not_allOrNothing_serverError (endpointId : Json) (events : List Json) (s : List EventRow) :
    ¬ AllOrNothing endpointId events s (.untouched serverError s) := by
  show ¬ ((∃ e, serverError = errorResponse e 400) ∧ s = s)
  intro ⟨⟨e, he⟩, _⟩
  cases congrArg Response.body he

/-- Nor is a 2xx answer over a table without the rows of its events. -/
theorem not_allOrNothing_lost {endpointId event : Json} {rest : List Json} {s : List EventRow}
    {executed : List (List CodePoint)} (body : Option Json) :
    ¬ AllOrNothing endpointId (event :: rest) s ⟨⟨defaultStatus, body⟩, s, executed⟩ := by
  show ¬ ∃ rows, s = s ++ rows ∧ List.Forall₂ (Carries endpointId) (event :: rest) rows
  intro ⟨rows, hrows, hcarries⟩
  obtain rfl : rows = [] := by simpa using hrows
  cases hcarries

theorem allOrNothing_error (endpointId : Json) (events : List Json) (s : List EventRow)
    (e : List CodePoint) (executed : List (List CodePoint)) :
    AllOrNothing endpointId events s ⟨errorResponse e 400, s, executed⟩ := by
  show (∃ e', errorResponse e 400 = errorResponse e' 400) ∧ s = s
  exact ⟨⟨e, rfl⟩, rfl⟩

theorem submitEvent_allOrNothing_iff {endpointId event : Json}
    (hfields : ∀ name ∈ ["timestamp", "type", "pid"], (subscript event (.str (py name))).isSome = true)
    (rest : List Json) (faults : Nat → Option (List CodePoint)) (s : List EventRow) :
    AllOrNothing endpointId (event :: rest) s (submitEvent host endpointId event faults s) ↔
      InsertRaises host endpointId event faults s := by
  have hok : ∃ statement, insertStatement host endpointId event = .ok statement :=
    insertStatement_isOk hfields
  obtain ⟨statement, hstatement⟩ := hok
  unfold submitEvent
  cases hprint : printEvent host event with
  | none =>
    refine iff_of_false (not_allOrNothing_serverError _ _ _) fun h => ?_
    rw [h.printed] at hprint
    cases hprint
  | some _ =>
    cases hconnect : faults 0 with
    | some e =>
      refine iff_of_false (not_allOrNothing_serverError _ _ _) fun h => ?_
      rw [h.connected] at hconnect
      cases hconnect
    | none =>
      have hstore : ((insertWork host statement).run (fun n => faults (n + 1)) s).store = s :=
        insertWork_store statement _ s
      have hreturns : (insertWork host statement).Returns (fun n => faults (n + 1)) (.start s) ↔ _ :=
        insertWork_returns_iff statement _ s
      have hresult : (insertWork host statement).Returns (fun n => faults (n + 1)) (.start s) ↔
          ∃ r, ((insertWork host statement).run (fun n => faults (n + 1)) s).result = .ok r := Iff.rfl
      simp only [hstatement, hstore]
      cases hr : ((insertWork host statement).run (fun n => faults (n + 1)) s).result with
      | error e =>
        refine iff_of_true (allOrNothing_error _ _ _ _ _) ⟨hprint, hconnect, fun h1 h2 st hst => ?_⟩
        obtain rfl := Except.ok.inj (hstatement.symm.trans hst)
        cases hexec : host.execute statement s with
        | error e => exact ⟨e, rfl⟩
        | ok rows =>
          obtain ⟨r, hok⟩ := hresult.mp (hreturns.mpr ⟨h1, ⟨rows, hexec⟩, h2⟩)
          rw [hr] at hok
          cases hok
      | ok r =>
        obtain ⟨h1, ⟨rows, hexec⟩, h2⟩ := hreturns.mp (hresult.mpr ⟨r, hr⟩)
        have hresponse := insertWork_response hr
        rw [hresponse]
        refine iff_of_false (not_allOrNothing_lost _) fun h => ?_
        obtain ⟨e, he⟩ := h.raises h1 h2 statement hstatement
        rw [hexec] at he
        cases he

/-- What has to come together for a payload to be handled as a whole: there is an
event, its debug output gets through, and its `INSERT` raises. -/
def FailsToInsert (host : LogsHost) (endpointId : Json) (events : List Json)
    (faults : Nat → Nat → Option (List CodePoint)) (s : List EventRow) : Prop :=
  printOk host [.str (py "Endpoint: "), endpointId] = true ∧
    ∃ event ∈ events.head?, InsertRaises host endpointId event (faults 0) s

/-- **Ingestion is all or nothing exactly where it fails to insert.** -/
theorem submitLogs_allOrNothing_iff {request : Request} {data endpointId : Json} {events : List Json}
    (hjson : request.json = .ok data) (hpayload : LogsPayload data endpointId events)
    (faults : Nat → Nat → Option (List CodePoint)) (s : List EventRow) :
    AllOrNothing endpointId events s (submitLogs host request faults s) ↔
      FailsToInsert host endpointId events faults s := by
  unfold submitLogs FailsToInsert
  simp only [hjson, hpayload.idField, hpayload.eventsField, Option.bind_some, elements]
  cases printOk host [.str (py "Endpoint: "), endpointId] with
  | false => simpa using not_allOrNothing_serverError endpointId events s
  | true =>
    cases events with
    | nil => simpa using not_allOrNothing_serverError endpointId [] s
    | cons event rest =>
      have hfields := hpayload.fields event (List.mem_cons_self ..)
      have hevent : AllOrNothing endpointId (event :: rest) s
          (submitEvent host endpointId event (faults 0) s) ↔ _ :=
        submitEvent_allOrNothing_iff hfields rest (faults 0) s
      simpa using hevent

end Theorems

/-! ### One event -/

def sampleEvent : Json :=
  .obj [(py "timestamp", .int 1700000000), (py "type", .int 0), (py "pid", .int 42)]

def samplePayload : Json := .obj [(py "id", .str (py "1")), (py "events", .arr [sampleEvent])]

def sampleStatement : List CodePoint :=
  py "INSERT INTO events (endpoint_id, event_time, message, event_type, pid) VALUES ( 1, 1700000000, 0, 0, 42 );"

/-- A host that knows this statement. -/
def sampleHost : LogsHost where
  reprStr s := py "'" ++ s ++ py "'"
  prints _ := true
  execute statement rows :=
    if statement = sampleStatement then .ok (rows ++ [⟨some 1, 1700000000, ['0'], some ['0'], some 42⟩])
    else .error (py "syntax error")

theorem sampleStatement_eq : insertStatement sampleHost (.str (py "1")) sampleEvent = .ok sampleStatement := by
  have htimestamp : subscriptName sampleEvent "timestamp" = .ok (.int 1700000000) := rfl
  have htype : subscriptName sampleEvent "type" = .ok (.int 0) := rfl
  have hpid : subscriptName sampleEvent "pid" = .ok (.int 42) := rfl
  have htext : py "INSERT INTO events (endpoint_id, event_time, message, event_type, pid) VALUES ( " ++
      py "1" ++ py ", " ++ py "1700000000" ++ py ", 0, " ++ py "0" ++ py ", " ++ py "42" ++ py " );" =
      sampleStatement := by
    simp only [sampleStatement, ← py_append, String.reduceAppend]
  rw [insertStatement, htimestamp, htype, hpid]
  exact congrArg Except.ok htext

def secondEvent : Json :=
  .obj [(py "timestamp", .int 1700000001), (py "type", .int 2), (py "pid", .int 43)]

def pairPayload : Json := .obj [(py "id", .str (py "1")), (py "events", .arr [sampleEvent, secondEvent])]

theorem pairPayload_payload : LogsPayload pairPayload (.str (py "1")) [sampleEvent, secondEvent] := by
  refine ⟨rfl, rfl, fun e he name hname => ?_⟩
  simp only [List.mem_cons, List.not_mem_nil, or_false] at he hname
  rcases he with rfl | rfl <;> rcases hname with rfl | rfl | rfl <;> rfl

theorem samplePayload_payload : LogsPayload samplePayload (.str (py "1")) [sampleEvent] := by
  refine ⟨rfl, rfl, fun e he name hname => ?_⟩
  obtain rfl := List.mem_singleton.mp he
  simp only [List.mem_cons, List.not_mem_nil, or_false] at hname
  rcases hname with rfl | rfl | rfl <;> rfl

/-- Where the first statement of two fails, neither is there and an error says so. -/
theorem sampleStatement_fails :
    AllOrNothing (.str (py "1")) [sampleEvent, secondEvent] [⟨some 1, 1699999999, ['0'], some ['0'], some 41⟩]
      (submitLogs sampleHost ⟨none, .ok pairPayload⟩ (fun _ k => if k = 1 then some (py "lost connection") else none)
        [⟨some 1, 1699999999, ['0'], some ['0'], some 41⟩]) :=
  (submitLogs_allOrNothing_iff rfl pairPayload_payload _ _).mpr
    ⟨rfl, sampleEvent, rfl, rfl, rfl, fun h => by cases h⟩

/-- Where it does not, the answer is a 200 and the event is lost. -/
theorem sampleEvent_lost :
    ¬ AllOrNothing (.str (py "1")) [sampleEvent] []
      (submitLogs sampleHost ⟨none, .ok samplePayload⟩ (fun _ => answering) []) := by
  show ¬ AllOrNothing _ _ _ (submitEvent sampleHost (.str (py "1")) sampleEvent answering [])
  rw [submitEvent_allOrNothing_iff (samplePayload_payload.fields _ (List.mem_cons_self ..))]
  intro h
  obtain ⟨e, he⟩ := h.raises rfl rfl _ sampleStatement_eq
  simp [sampleHost] at he

end EndpointSecurity.Server
