import EndpointSecurity.Server.Endpoints

/-! Many `create_endpoint` requests at once.

A request is taken through its database steps one at a time, with the others in
between: the `SELECT` reads what is committed when it runs, the `INSERT` meets the rows
committed until then and waits for one that is not, and the commit makes the row
visible. A step may fail instead, which rolls the request back. A run is any list of
turns (`creations`); a request that takes its turns alone is the view itself
(`alone_createEndpoint`). -/
namespace EndpointSecurity.Server
open Library Transaction

/-! ### Counting -/

def counted (count : Nat) : Response := jsonify [("count", .int count)] 200

def getEndpointsCountWork : Transaction Endpoints (List CodePoint) Response := do
  touch
  let selected ← query fun t => .ok t.rows.length
  let result ← query fun _ => .ok selected
  return counted result

def getEndpointsCount (faults : Nat → Option (List CodePoint)) (t : Endpoints) : Served Endpoints :=
  tryWork 500 getEndpointsCountWork faults t

/-! ### The requests -/

/-- A request for a new endpoint, with the key that is generated for it. -/
structure NewEndpoint where
  authKey : AuthKey
  request : Request

/-- What the view does before its `try`: the name, or an answer. -/
def requestedName (request : Request) : Except Response Json :=
  match request.json with
  | .error status => .error (page status)
  | .ok data =>
    match dataGet data "name" with
    | none => .error serverError
    | some name =>
      if !truthy name then .error (errorResponse (py "Endpoint name is required") 400) else .ok name

/-- How far a request has come. -/
inductive Phase where
  | started
  | connected (name : Json)
  | selected (name : Json) (newId : Int)
  | fetched (name : Json) (newId : Int)
  | inserted (name : Json) (row : EndpointRow)
  | created (name : Json) (newId : Int)
  | refused (response : Response)

/-- The request holds an uncommitted row with this id. -/
def Phase.holds (newId : Int) : Phase → Bool
  | .inserted _ row => row.endpointId == newId
  | _ => false

/-- The committed table, the phases of the requests, and which of them committed, in
order. -/
structure World (n : Nat) where
  table : Endpoints
  phase : Fin n → Phase
  commits : List (Fin n)

def World.initial (n : Nat) : World n := ⟨.empty, fun _ => .started, []⟩

section World
variable {n : Nat}

def World.move (w : World n) (i : Fin n) (p : Phase) : World n :=
  {w with phase := Function.update w.phase i p}

def World.commit (w : World n) (i : Fin n) (p : Phase) (t : Endpoints) : World n :=
  ⟨t, Function.update w.phase i p, w.commits ++ [i]⟩

@[simp] theorem World.move_self (w : World n) (i : Fin n) (p : Phase) : (w.move i p).phase i = p :=
  Function.update_self ..

theorem World.move_other (w : World n) {i j : Fin n} (h : j ≠ i) (p : Phase) :
    (w.move i p).phase j = w.phase j := Function.update_of_ne h ..

@[simp] theorem World.commit_self (w : World n) (i : Fin n) (p : Phase) (t : Endpoints) :
    (w.commit i p t).phase i = p := Function.update_self ..

theorem World.commit_other (w : World n) {i j : Fin n} (h : j ≠ i) (p : Phase) (t : Endpoints) :
    (w.commit i p t).phase j = w.phase j := Function.update_of_ne h ..

@[simp] theorem World.move_table (w : World n) (i : Fin n) (p : Phase) : (w.move i p).table = w.table := rfl

@[simp] theorem World.move_move (w : World n) (i : Fin n) (p q : Phase) :
    (w.move i p).move i q = w.move i q := by
  unfold World.move
  rw [Function.update_idem]

@[simp] theorem World.move_commit (w : World n) (i : Fin n) (p q : Phase) (t : Endpoints) :
    (w.move i p).commit i q t = w.commit i q t := by
  unfold World.move World.commit
  rw [Function.update_idem]

/-- The `INSERT` of this id has to wait for another request. -/
def World.Waits (w : World n) (i : Fin n) (newId : Int) : Prop :=
  ∃ j, j ≠ i ∧ (w.phase j).holds newId = true

instance (w : World n) (i : Fin n) (newId : Int) : Decidable (w.Waits i newId) :=
  inferInstanceAs (Decidable (∃ j, j ≠ i ∧ (w.phase j).holds newId = true))

theorem World.waits_move (w : World n) (i : Fin n) (p : Phase) (newId : Int) :
    (w.move i p).Waits i newId ↔ w.Waits i newId :=
  exists_congr fun j => and_congr_right fun hj => by rw [World.move_other w hj]

end World

/-! ### Turns -/

section Turns
variable (db : Mysql) (reprStr : List CodePoint → List CodePoint) {n : Nat} (requests : Fin n → NewEndpoint)

/-- The row an `INSERT` leaves for its commit, where the table takes it. -/
def insertRow (authKey : AuthKey) (name : Json) (newId : Int) (t : Endpoints) :
    Except (List CodePoint) EndpointRow :=
  db.statement1 name fun value => (columnText db 64 value).bind fun stored =>
    (t.insert (.fresh newId authKey.chars stored)).map fun _ => .fresh newId authKey.chars stored

/-- The next step of a request. -/
def proceed (w : World n) (i : Fin n) : World n :=
  match w.phase i with
  | .started =>
    match requestedName (requests i).request with
    | .error response => w.move i (.refused response)
    | .ok name => w.move i (.connected name)
  -- Generate a unique endpoint ID
  | .connected name => w.move i (.selected name w.table.nextId)
  | .selected name newId => w.move i (.fetched name newId)
  -- Insert new endpoint with all required fields
  | .fetched name newId =>
    if w.Waits i newId then w
    else
      match insertRow db (requests i).authKey name newId w.table with
      | .error e => w.move i (.refused (errorResponse e 500))
      | .ok row => w.move i (.inserted name row)
  | .inserted name row =>
    match w.table.insert row with
    -- not with a row that was inserted: nothing with its id can have been committed since
    | .error e => w.move i (.refused (errorResponse (db.message e [name]) 500))
    | .ok t => w.commit i (.created name row.endpointId) t
  | .created _ _ | .refused _ => w

/-- The next step of a request raises. -/
def raise (w : World n) (i : Fin n) (e : List CodePoint) : World n :=
  match w.phase i with
  | .started =>
    match requestedName (requests i).request with
    | .error response => w.move i (.refused response)
    | .ok _ => w.move i (.refused (errorResponse e 500))
  | .connected _ | .selected _ _ | .fetched _ _ | .inserted _ _ =>
    w.move i (.refused (errorResponse e 500))
  | .created _ _ | .refused _ => w

/-- A turn: whose it is, and what its step raises, if it does. -/
structure Turn (n : Nat) where
  who : Fin n
  fault : Option (List CodePoint)

def takeTurn (w : World n) (t : Turn n) : World n :=
  match t.fault with
  | none => proceed db requests w t.who
  | some e => raise requests w t.who e

/-- The requests, in any order of turns. -/
def creations : Machine (Turn n) Unit (World n) := ⟨fun w t => ((), takeTurn db requests w t)⟩

/-- The answer to a request, once it has one. -/
def World.response (w : World n) (i : Fin n) : Option Response :=
  match w.phase i with
  | .created name newId => some (created reprStr (requests i).authKey name newId)
  | .refused response => some response
  | _ => none

/-- The turns of one request, with what each of them raises. -/
def turnsOf (i : Fin n) (faults : List (Option (List CodePoint))) : List (Turn n) :=
  faults.map fun fault => ⟨i, fault⟩

end Turns

/-! ### A request alone -/

section Alone
variable {db : Mysql} {reprStr : List CodePoint → List CodePoint} {n : Nat} {requests : Fin n → NewEndpoint}

/-- What the column of a name holds once the name was inserted. -/
def StoredAs (db : Mysql) (name : Json) (stored : Option (List Char)) : Prop :=
  ∃ value, operand name = .ok value ∧ columnText db 64 value = .ok stored

/-- The `INSERT` raises what the view's statement raises, or leaves the row that the
view's statement inserts. -/
theorem insertRow_cases (db : Mysql) (authKey : AuthKey) (name : Json) (newId : Int) (t : Endpoints) :
    (∃ e, insertRow db authKey name newId t = .error e ∧
      (db.statement1 name fun value => (columnText db 64 value).bind fun stored =>
        t.insert (.fresh newId authKey.chars stored)) = .error e) ∨
    ∃ stored t', StoredAs db name stored ∧
      insertRow db authKey name newId t = .ok (.fresh newId authKey.chars stored) ∧
      t.insert (.fresh newId authKey.chars stored) = .ok t' ∧
      (db.statement1 name fun value => (columnText db 64 value).bind fun stored =>
        t.insert (.fresh newId authKey.chars stored)) = .ok t' := by
  unfold insertRow Mysql.statement1
  cases hvalue : operand name with
  | error e => exact .inl ⟨_, rfl, rfl⟩
  | ok value =>
    simp only [Except.bind]
    cases hstored : columnText db 64 value with
    | error e => exact .inl ⟨_, rfl, rfl⟩
    | ok stored =>
      simp only
      cases hinsert : t.insert (.fresh newId authKey.chars stored) with
      | error e => exact .inl ⟨_, rfl, rfl⟩
      | ok t' => exact .inr ⟨stored, t', ⟨value, hvalue, hstored⟩, rfl, hinsert, rfl⟩

theorem createEndpoint_eq (db : Mysql) (reprStr : List CodePoint → List CodePoint) (authKey : AuthKey)
    (request : Request) (faults : Nat → Option (List CodePoint)) (t : Endpoints) :
    createEndpoint db reprStr authKey request faults t =
      match requestedName request with
      | .error response => .untouched response t
      | .ok name => tryWork 500 (createEndpointWork db reprStr authKey name) faults t := by
  unfold createEndpoint withData requestedName
  cases request.json with
  | error status => rfl
  | ok data =>
    dsimp only
    cases dataGet data "name" with
    | none => rfl
    | some name =>
      dsimp only
      cases truthy name <;> rfl

/-- An answered request takes no more steps. -/
theorem run_refused {w : World n} {i : Fin n} {response : Response} (h : w.phase i = .refused response)
    (faults : List (Option (List CodePoint))) :
    (creations db requests).run w (turnsOf i faults) = w := by
  induction faults with
  | nil => rfl
  | cons fault rest ih =>
    have hstay : takeTurn db requests w ⟨i, fault⟩ = w := by
      cases fault <;> simp only [takeTurn, proceed, raise, h]
    show (creations db requests).run (takeTurn db requests w ⟨i, fault⟩) _ = w
    rw [hstay]
    exact ih

/-- A turn that refuses a request is the last one that does anything. -/
theorem run_refusing {w : World n} {i : Fin n} {fault : Option (List CodePoint)} {response : Response}
    (h : takeTurn db requests w ⟨i, fault⟩ = w.move i (.refused response))
    (faults : List (Option (List CodePoint))) :
    (creations db requests).run w (turnsOf i (fault :: faults)) = w.move i (.refused response) := by
  show (creations db requests).run (takeTurn db requests w ⟨i, fault⟩) _ = _
  rw [h]
  exact run_refused (World.move_self ..) faults

theorem run_proceeding {w w' : World n} {i : Fin n} (h : proceed db requests w i = w')
    (faults : List (Option (List CodePoint))) :
    (creations db requests).run w (turnsOf i (none :: faults)) =
      (creations db requests).run w' (turnsOf i faults) := h ▸ rfl

/-- Alone, the request ends with the answer and the store a program on a connection
ends with. -/
def Ends (db : Mysql) (reprStr : List CodePoint → List CodePoint) (requests : Fin n → NewEndpoint)
    (w : World n) (i : Fin n) (faults : List (Option (List CodePoint)))
    (ending : Except (List CodePoint) Response × Session Endpoints) : Prop :=
  ((creations db requests).run w (turnsOf i faults)).response reprStr requests i =
      some (answer 500 ending.1) ∧
    ((creations db requests).run w (turnsOf i faults)).table = ending.2.committed

/-- Where the step of a request and the step of the program raise alike, only steps that
do not are left to look at. -/
theorem ends_bind {w : World n} {i : Fin n} {p : Transaction Endpoints (List CodePoint) β}
    {k : β → Transaction Endpoints (List CodePoint) Response} {faults : Nat → Option (List CodePoint)}
    {s : Session Endpoints} {fault : Option (List CodePoint)} {rest : List (Option (List CodePoint))}
    (hfault : faults s.steps = fault)
    (hraises : ∀ e, raise requests w i e = w.move i (.refused (errorResponse e 500)))
    (hp : ∀ e, faults s.steps = some e → p faults s = (.error e, s.tick)) (hs : s.committed = w.table)
    (hdone : faults s.steps = none → Ends db reprStr requests w i (none :: rest) ((p >>= k) faults s)) :
    Ends db reprStr requests w i (fault :: rest) ((p >>= k) faults s) := by
  cases fault with
  | none => exact hdone hfault
  | some e =>
    have hrefuse : takeTurn db requests w ⟨i, some e⟩ = w.move i (.refused (errorResponse e 500)) := hraises e
    unfold Ends
    rw [run_refusing hrefuse, bind_apply, hp e hfault]
    exact ⟨by simp only [World.response, World.move_self]; rfl, hs.symm⟩

theorem ends_proceed {w w' : World n} {i : Fin n} (h : proceed db requests w i = w')
    {faults : List (Option (List CodePoint))} {ending : Except (List CodePoint) Response × Session Endpoints}
    (hends : Ends db reprStr requests w' i faults ending) :
    Ends db reprStr requests w i (none :: faults) ending := by
  unfold Ends
  rw [run_proceeding h]
  exact hends

/-- **A request that takes its turns alone is the view.** -/
theorem alone_createEndpoint (w : World n) (i : Fin n) (hstart : w.phase i = .started)
    (hfree : ∀ newId, ¬ w.Waits i newId) (faults : Nat → Option (List CodePoint)) :
    let w' := (creations db requests).run w (turnsOf i [faults 0, faults 1, faults 2, faults 3, faults 4])
    let served := createEndpoint db reprStr (requests i).authKey (requests i).request faults w.table
    w'.response reprStr requests i = some served.response ∧ w'.table = served.store := by
  rw [createEndpoint_eq]
  dsimp only
  cases hname : requestedName (requests i).request with
  | error response =>
    have hrefuse : takeTurn db requests w ⟨i, faults 0⟩ = w.move i (.refused response) := by
      cases faults 0 <;> simp only [takeTurn, proceed, raise, hstart, hname]
    rw [run_refusing hrefuse]
    simp [World.response, Served.untouched]
  | ok name =>
    show Ends db reprStr requests w i _
      (createEndpointWork db reprStr (requests i).authKey name faults (.start w.table))
    unfold createEndpointWork
    refine ends_bind rfl (fun e => by simp only [raise, hstart, hname]) (fun _ => step_raises) rfl fun h0 => ?_
    rw [bind_apply, touch_apply h0]
    have hconnect : proceed db requests w i = w.move i (.connected name) := by
      simp only [proceed, hstart, hname]
    refine ends_proceed hconnect ?_
    refine ends_bind rfl (fun e => by simp [raise]) (fun _ => step_raises) rfl fun h1 => ?_
    rw [bind_apply, query_apply _ h1]
    have hselect : proceed db requests (w.move i (.connected name)) i = w.move i (.selected name w.table.nextId) := by
      simp [proceed]
    refine ends_proceed hselect ?_
    refine ends_bind rfl (fun e => by simp [raise]) (fun _ => step_raises) rfl fun h2 => ?_
    rw [bind_apply, query_apply _ h2]
    have hfetch : proceed db requests (w.move i (.selected name w.table.nextId)) i =
        w.move i (.fetched name w.table.nextId) := by
      simp [proceed]
    refine ends_proceed hfetch ?_
    refine ends_bind rfl (fun e => by simp [raise]) (fun _ => step_raises) rfl fun h3 => ?_
    rw [bind_apply, execute_apply _ h3]
    have hnone : ¬ (w.move i (.fetched name w.table.nextId)).Waits i w.table.nextId := by
      rw [World.waits_move]
      exact hfree _
    have hworking : (Session.start w.table).tick.working = w.table := rfl
    have hworking' : (Session.start w.table).tick.tick.tick.working = w.table := rfl
    rcases insertRow_cases db (requests i).authKey name w.table.nextId w.table with
      ⟨e, hrow, hstatement⟩ | ⟨stored, t', -, hrow, hinsert, hstatement⟩
    · have hrefuse : takeTurn db requests (w.move i (.fetched name w.table.nextId)) ⟨i, none⟩ =
          (w.move i (.fetched name w.table.nextId)).move i (.refused (errorResponse e 500)) := by
        simp [takeTurn, proceed, hnone, hrow]
      unfold Ends
      rw [run_refusing hrefuse]
      simp only [hworking, hworking', hstatement]
      exact ⟨by simp [World.response, answer], rfl⟩
    · have hinserted : proceed db requests (w.move i (.fetched name w.table.nextId)) i =
          w.move i (.inserted name (.fresh w.table.nextId (requests i).authKey.chars stored)) := by
        simp [proceed, hnone, hrow]
      refine ends_proceed hinserted ?_
      simp only [hworking, hworking', hstatement]
      refine ends_bind rfl (fun e => by simp [raise]) (fun _ => commit_raises) rfl fun h4 => ?_
      rw [bind_apply, commit_apply h4]
      have hcommit : proceed db requests
          (w.move i (.inserted name (.fresh w.table.nextId (requests i).authKey.chars stored))) i =
            w.commit i (.created name w.table.nextId) t' := by
        simp only [proceed, World.move_self, World.move_table, hinsert, World.move_commit]
        rfl
      refine ends_proceed hcommit ⟨?_, rfl⟩
      show (w.commit i (.created name w.table.nextId) t').response reprStr requests i = _
      simp only [World.response, World.commit_self]
      rfl

end Alone

end EndpointSecurity.Server
