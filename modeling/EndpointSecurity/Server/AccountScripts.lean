import EndpointSecurity.Library.IsolationAnswers
import EndpointSecurity.Server.Reports
import Mathlib.Data.Setoid.Basic

/-! `register`, `login` and `change_credentials` as scripts on the table `users`.

Each script is the work of its view, one step at a time (`script_implements`). The two
views that write come to it exactly if they find the name free (`Asks.leaf_eq`), and what
the view does alone is read off the end of its script (`served_answer`,
`served_write`). -/
namespace EndpointSecurity.Server
open Library Isolation

/-! ### Scripts -/

section Scripts
variable (db : Mysql)

/-- The key of the table `users`. -/
def Users.key : Setoid UserRow := Setoid.comap UserRow.username db.collation

instance : DecidableRel (Users.key db).r := fun x y => inferInstanceAs (Decidable (db.Same x.username y.username))

abbrev UserScript : Type := Script UserRow (List CodePoint) Response

/-- The `INSERT` of a user. -/
def insertion (username password : Json) : Write UserRow (List CodePoint) :=
  match db.statement2 username password (Users.row db) with
  | .ok row => .insert row (db.message .duplicateEntry [username, password])
  | .error e => .refuse e

/-- `SELECT * FROM users WHERE username = %s`, and its first row. -/
def findNamed (username : Json) (next : Option UserRow → UserScript) : UserScript :=
  .query fun rows =>
    match db.statement1 username fun u => .ok (rows.filter fun r => db.equals r.username u) with
    | .error e => .answer (.error e)
    | .ok found => .touch (next found.head?)

def registerScript (username password : Json) : UserScript :=
  .touch <| findNamed db username fun user =>
    if user.isSome then
      .answer (.ok (errorResponse (py "Username already exists") 400))
    else
      .write [insertion db username password] registered

def loginScript (username password : Json) : UserScript :=
  .touch <| .query fun rows => .touch <|
    if rows.length = 0 then
      if isText (py "Admin") username && isText (py "Admin") password then
        .answer (.ok (loggedIn true))
      else
        .answer (.ok (errorResponse (py "Invalid username or password") 401))
    else
      .query fun rows =>
        match db.statement2 username password fun u p =>
            .ok (rows.filter fun r => db.equals r.username u && r.passwordhash.any fun h => db.equals h p) with
        | .error e => .answer (.error e)
        | .ok found => .touch <|
          if found.head?.isNone then
            .answer (.ok (errorResponse (py "Invalid username or password") 401))
          else
            .answer (.ok (loggedIn false))

def changeCredentialsScript (newUsername newPassword : Json) : UserScript :=
  .touch <| findNamed db newUsername fun user =>
    if user.isSome then
      .answer (.ok (errorResponse (py "Username already exists") 400))
    else
      .write [.deleteAll, insertion db newUsername newPassword] credentialsChanged

/-- A view of two fields: what it answers before its `try`, or its work. -/
def twoFields {β : Type} (first second required : String) (early : Response → β) (work : Json → Json → β)
    (request : Request) : β :=
  match request.json with
  | .error status => early (page status)
  | .ok data =>
    match dataGet data first, dataGet data second with
    | some x, some y => if !truthy x || !truthy y then early (errorResponse (py required) 400) else work x y
    | _, _ => early serverError

/-- The two fields of a request. -/
def UserCall.first : UserCall → String
  | .register | .login => "username"
  | .changeCredentials => "newUsername"

def UserCall.second : UserCall → String
  | .register | .login => "password"
  | .changeCredentials => "newPassword"

def UserCall.required : UserCall → String
  | .register | .login => "Username and password are required"
  | .changeCredentials => "New username and password are required"

def UserCall.work : UserCall → Json → Json → UsersWork db Response
  | .register => registerWork db
  | .login => loginWork db
  | .changeCredentials => changeCredentialsWork db

def UserCall.steps : UserCall → Json → Json → UserScript
  | .register => registerScript db
  | .login => loginScript db
  | .changeCredentials => changeCredentialsScript db

/-- What a request does, step by step. -/
def UserCall.script (call : UserCall) : Request → UserScript :=
  twoFields call.first call.second call.required (fun response => .answer (.ok response)) (call.steps db)

end Scripts

/-! ### A request alone -/

section Alone
variable {db : Mysql}

theorem view_eq (call : UserCall) (request : Request) (faults : Nat → Option (List CodePoint)) (t : Users db) :
    call.view db request faults t =
      tryWork defaultStatus (twoFields call.first call.second call.required pure (call.work db) request) faults t := by
  have hview : call.view db request faults t =
      twoFieldView call.first call.second call.required (call.work db) request faults t := by
    cases call <;> rfl
  rw [hview]
  unfold twoFieldView withData twoFields
  cases request.json with
  | error status => rfl
  | ok data =>
    dsimp only
    cases dataGet data call.first with
    | none => rfl
    | some x =>
      cases dataGet data call.second with
      | none => rfl
      | some y =>
        dsimp only
        split <;> rfl

theorem statement2_bind {β γ : Type} (u p : Json) (f : SqlValue → SqlValue → Except SqlError β)
    (g : β → Except SqlError γ) :
    db.statement2 u p (fun a b => (f a b).bind g) =
      (db.statement2 u p f).bind fun r => (g r).mapError (db.message · [u, p]) := by
  unfold Mysql.statement2
  cases escape u with
  | error e => rfl
  | ok x =>
    cases escape p with
    | error e => rfl
    | ok y =>
      cases hx : x.value with
      | error e => simp only [bind, Except.bind, Except.mapError, hx]
      | ok a =>
        cases hy : y.value with
        | error e => simp only [bind, Except.bind, Except.mapError, hx, hy]
        | ok b => cases hf : f a b <;> simp only [bind, Except.bind, Except.mapError, hx, hy, hf]

/-- The `INSERT` of a script is the one of the view. -/
theorem insertion_apply (u p : Json) (t : Users db) :
    (db.statement2 u p t.insert).map Users.rows = (insertion db u p).apply (Users.key db) t.rows := by
  have hinsert : db.statement2 u p t.insert =
      (db.statement2 u p (Users.row db)).bind fun r => (t.add r).mapError (db.message · [u, p]) :=
    statement2_bind u p (Users.row db) t.add
  rw [hinsert]
  unfold insertion
  cases db.statement2 u p (Users.row db) with
  | error e => rfl
  | ok r =>
    simp only [Except.bind, Write.apply, Users.add]
    by_cases hnew : ∀ x ∈ t.rows, ¬ db.Same x.username r.username
    · have hfree : ¬ ∃ x ∈ t.rows, (Users.key db).r x r := by
        rintro ⟨x, hx, hsame⟩
        exact hnew x hx hsame
      rw [dif_pos hnew, if_neg hfree]
      rfl
    · have htaken : ∃ x ∈ t.rows, (Users.key db).r x r := by
        push Not at hnew
        exact hnew
      rw [dif_neg hnew, if_pos htaken]
      rfl

theorem findNamed_implements {username : Json} {next : Option UserRow → UserScript}
    {k : Option UserRow → UsersWork db Response}
    (h : ∀ user, Implements (Users.key db) Users.rows (next user) (k user)) :
    Implements (Users.key db) Users.rows (findNamed db username next)
      (selectNamed username >>= fun found => fetch found.head? >>= k) := by
  apply Implements.query
  · intro t found hfound
    have hrows : (db.statement1 username fun u => .ok (t.rows.filter fun r => db.equals r.username u)) = .ok found := hfound
    rw [hrows]
    exact .fetch (h found.head?)
  · intro t e herror
    have hrows : (db.statement1 username fun u => .ok (t.rows.filter fun r => db.equals r.username u)) = .error e := herror
    rw [hrows]

theorem steps_implement (call : UserCall) (u p : Json) :
    Implements (Users.key db) Users.rows (call.steps db u p) (call.work db u p) := by
  cases call with
  | register =>
    apply Implements.touch
    apply findNamed_implements
    intro user
    cases user.isSome with
    | true => exact .answer _
    | false => exact .write (.execute (insertion_apply u p) (.commit registered))
  | login =>
    apply Implements.touch
    apply Implements.query
    · intro t counted hcounted
      obtain rfl : t.rows.length = counted := Except.ok.inj hcounted
      apply Implements.fetch
      by_cases hempty : t.rows.length = 0
      · simp only [hempty, if_true]
        split
        · exact .answer _
        · exact .answer _
      · simp only [hempty, if_false]
        apply Implements.query
        · intro t found hfound
          have hrows : (db.statement2 u p fun u p => .ok (t.rows.filter fun r =>
              db.equals r.username u && r.passwordhash.any fun h => db.equals h p)) = .ok found := hfound
          rw [hrows]
          apply Implements.fetch
          cases found.head?.isNone with
          | true => exact .answer _
          | false => exact .answer _
        · intro t e herror
          have hrows : (db.statement2 u p fun u p => .ok (t.rows.filter fun r =>
              db.equals r.username u && r.passwordhash.any fun h => db.equals h p)) = .error e := herror
          rw [hrows]
    · intro t e herror
      cases herror
  | changeCredentials =>
    apply Implements.touch
    apply findNamed_implements
    intro user
    cases user.isSome with
    | true => exact .answer _
    | false =>
      exact .write (.execute (fun _ => rfl) (.execute (insertion_apply u p) (.commit credentialsChanged)))

theorem script_implements (db : Mysql) (call : UserCall) (request : Request) :
    Implements (Users.key db) Users.rows (call.script db request)
      (twoFields call.first call.second call.required pure (call.work db) request) := by
  unfold UserCall.script twoFields
  cases request.json with
  | error status => exact .answer _
  | ok data =>
    dsimp only
    cases dataGet data call.first with
    | none => exact .answer _
    | some x =>
      cases dataGet data call.second with
      | none => exact .answer _
      | some y =>
        dsimp only
        split
        · exact .answer _
        · exact steps_implement call x y

end Alone

/-! ### Requests -/

/-- A request to one of the views. -/
structure AccountRequest where
  call : UserCall
  request : Request

namespace AccountRequest

def script (db : Mysql) (asked : AccountRequest) : UserScript := asked.call.script db asked.request

/-- The request, alone and with a database that answers. -/
def served (db : Mysql) (asked : AccountRequest) (t : Users db) : Served (Users db) :=
  asked.call.view db asked.request Transaction.answering t

/-- The two fields of the request. -/
def Carries (asked : AccountRequest) (u p : Json) : Prop :=
  ∃ data, asked.request.json = .ok data ∧ dataGet data asked.call.first = some u ∧
    dataGet data asked.call.second = some p

/-- The row the request asks for. -/
def Credential (db : Mysql) (asked : AccountRequest) (row : UserRow) : Prop :=
  ∃ u p a b, asked.Carries u p ∧ operand u = .ok a ∧ operand p = .ok b ∧ Users.row db a b = .ok row

/-- The writes of a request that found its name free. -/
def writes (db : Mysql) (asked : AccountRequest) (u p : Json) : List (Write UserRow (List CodePoint)) :=
  match asked.call with
  | .register => [insertion db u p]
  | .login => []
  | .changeCredentials => [.deleteAll, insertion db u p]

/-- The success return of a view that writes. -/
def success (asked : AccountRequest) : Response :=
  match asked.call with
  | .register => registered
  | .login => loggedIn false
  | .changeCredentials => credentialsChanged

end AccountRequest

section Requests
variable {db : Mysql} {asked : AccountRequest}

theorem AccountRequest.Carries.unique {u p u' p' : Json} (h : asked.Carries u p) (h' : asked.Carries u' p') :
    u = u' ∧ p = p' := by
  obtain ⟨data, hdata, hu, hp⟩ := h
  obtain ⟨data', hdata', hu', hp'⟩ := h'
  obtain rfl := Except.ok.inj (hdata.symm.trans hdata')
  exact ⟨Option.some.inj (hu.symm.trans hu'), Option.some.inj (hp.symm.trans hp')⟩

/-- An `INSERT` that the table has a say in is one of the row the request asks for. -/
theorem insertion_made {u p : Json} (h : ∀ e, insertion db u p ≠ .refuse e) : ∃ a b row,
    operand u = .ok a ∧ operand p = .ok b ∧ Users.row db a b = .ok row ∧
      insertion db u p = .insert row (db.message .duplicateEntry [u, p]) := by
  unfold insertion at h ⊢
  cases hrow : db.statement2 u p (Users.row db) with
  | error e =>
    rw [hrow] at h
    exact absurd rfl (h e)
  | ok row =>
    obtain ⟨a, b, ha, hb, hrow⟩ := Mysql.statement2_eq_ok.mp hrow
    exact ⟨a, b, row, ha, hb, hrow, rfl⟩

/-- What a request commits. -/
theorem changeOf_writes {u p : Json} (hcarries : asked.Carries u p) (hcall : asked.call ≠ .login)
    (hmade : Made (asked.writes db u p)) : ∃ row, asked.Credential db row ∧
      changeOf (asked.writes db u p) = ⟨asked.call == .changeCredentials, [row]⟩ := by
  unfold AccountRequest.writes at hmade ⊢
  cases hwrites : asked.call with
  | login => exact absurd hwrites hcall
  | register =>
    rw [hwrites] at hmade
    obtain ⟨a, b, row, ha, hb, hrow, hinsert⟩ := insertion_made (hmade _ (List.mem_singleton_self _))
    refine ⟨row, ⟨u, p, a, b, hcarries, ha, hb, hrow⟩, ?_⟩
    simp only [hinsert]
    rfl
  | changeCredentials =>
    rw [hwrites] at hmade
    obtain ⟨a, b, row, ha, hb, hrow, hinsert⟩ :=
      insertion_made (hmade _ (List.mem_cons_of_mem _ (List.mem_singleton_self _)))
    refine ⟨row, ⟨u, p, a, b, hcarries, ha, hb, hrow⟩, ?_⟩
    simp only [hinsert]
    rfl

/-- The end of the search for a name. -/
theorem leaf_findNamed {username : Json} {next : Option UserRow → UserScript} (t : Users db) :
    (findNamed db username next).leaf t.rows =
      match operand username with
      | .error e => .inl (.error (db.message e [username]))
      | .ok u => (next (t.named u).head?).leaf t.rows := by
  simp only [findNamed, Script.leaf, Mysql.statement1]
  cases operand username with
  | error e => rfl
  | ok u => rfl

/-- Both views that write come to write exactly if the name is free. -/
theorem leaf_steps (hcall : asked.call ≠ .login) (u p : Json) (t : Users db) :
    (asked.call.steps db u p).leaf t.rows =
      match operand u with
      | .error e => .inl (.error (db.message e [u]))
      | .ok a =>
        if t.named a = [] then .inr (asked.writes db u p, asked.success)
        else .inl (.ok (errorResponse (py "Username already exists") 400)) := by
  unfold AccountRequest.writes AccountRequest.success
  cases hwrites : asked.call with
  | login => exact absurd hwrites hcall
  | register =>
    simp only [UserCall.steps, registerScript, Script.leaf, leaf_findNamed]
    cases operand u with
    | error e => rfl
    | ok a => cases hnamed : t.named a <;> simp [Script.leaf, hnamed]
  | changeCredentials =>
    simp only [UserCall.steps, changeCredentialsScript, Script.leaf, leaf_findNamed]
    cases operand u with
    | error e => rfl
    | ok a => cases hnamed : t.named a <;> simp [Script.leaf, hnamed]

/-- A script answers without a connection, or is the work on both fields. -/
theorem script_cases (db : Mysql) (asked : AccountRequest) :
    (∃ r : Response, r.IsError ∧ asked.script db = .answer (.ok r)) ∨
      ∃ u p, asked.Carries u p ∧ asked.script db = asked.call.steps db u p := by
  unfold AccountRequest.script UserCall.script twoFields AccountRequest.Carries
  cases asked.request.json with
  | error status => exact .inl ⟨_, .inl rfl, rfl⟩
  | ok data =>
    dsimp only
    cases hu : dataGet data asked.call.first with
    | none => exact .inl ⟨_, .inl rfl, rfl⟩
    | some u =>
      cases hp : dataGet data asked.call.second with
      | none => exact .inl ⟨_, .inl rfl, rfl⟩
      | some p =>
        dsimp only
        split
        · exact .inl ⟨_, errorResponse_isError _ _, rfl⟩
        · exact .inr ⟨u, p, ⟨data, rfl, hu, hp⟩, rfl⟩

/-- `login` writes nothing. -/
theorem leaf_login (u p : Json) (t : Users db) : ∃ result, (loginScript db u p).leaf t.rows = .inl result := by
  unfold loginScript
  simp only [Script.leaf]
  split
  · split
    · exact ⟨_, rfl⟩
    · exact ⟨_, rfl⟩
  · simp only [Script.leaf]
    split
    · exact ⟨_, rfl⟩
    · simp only [Script.leaf]
      split
      · exact ⟨_, rfl⟩
      · exact ⟨_, rfl⟩

/-- The request is one that writes, with these fields, and this name for MySQL. -/
structure Asks (db : Mysql) (asked : AccountRequest) (u p : Json) (v : SqlValue) : Prop where
  call : asked.call ≠ .login
  carries : asked.Carries u p
  script : asked.script db = asked.call.steps db u p
  operand : operand u = .ok v

theorem Asks.leaf_eq {u p : Json} {v : SqlValue} (h : Asks db asked u p v) (t : Users db) :
    (asked.script db).leaf t.rows = if t.named v = [] then .inr (asked.writes db u p, asked.success)
      else .inl (.ok (errorResponse (py "Username already exists") 400)) := by
  rw [h.script, leaf_steps h.call, h.operand]

theorem Asks.unnamed_iff {u p : Json} {v : SqlValue} (h : Asks db asked u p v) (t : Users db) :
    Unnamed t u ↔ t.named v = [] := by
  rw [Server.unnamed_iff h.operand, List.head?_eq_none_iff]

/-- A request that comes to write has found its name free. -/
theorem leaf_eq_write {t : Users db} {writes : List (Write UserRow (List CodePoint))} {a : Response}
    (h : (asked.script db).leaf t.rows = .inr (writes, a)) : ∃ u p v, Asks db asked u p v ∧ t.named v = [] ∧
      writes = asked.writes db u p ∧ a = asked.success := by
  rcases script_cases db asked with ⟨r, -, hscript⟩ | ⟨u, p, hcarries, hscript⟩
  · rw [hscript] at h
    cases h
  · have hcall : asked.call ≠ .login := by
      intro hlogin
      rw [hscript, hlogin] at h
      obtain ⟨result, hresult⟩ := leaf_login u p t
      cases hresult.symm.trans h
    cases hu : operand u with
    | error e =>
      rw [hscript, leaf_steps hcall, hu] at h
      cases h
    | ok v =>
      have hasks : Asks db asked u p v := ⟨hcall, hcarries, hscript, hu⟩
      rw [hasks.leaf_eq] at h
      split at h
      · cases h
        exact ⟨u, p, v, hasks, ‹_›, rfl, rfl⟩
      · cases h

/-- What a view that writes answers without a commit is an error. -/
theorem leaf_eq_answer {t : Users db} {a : Response} (h : (asked.script db).leaf t.rows = .inl (.ok a))
    (hcall : asked.call ≠ .login) : a.IsError := by
  rcases script_cases db asked with ⟨r, hr, hscript⟩ | ⟨u, p, hcarries, hscript⟩
  · rw [hscript] at h
    cases h
    exact hr
  · rw [hscript, leaf_steps hcall] at h
    cases hu : operand u with
    | error e =>
      rw [hu] at h
      cases h
    | ok v =>
      simp only [hu] at h
      split at h
      · cases h
      · cases h
        exact errorResponse_isError _ _

/-- Deletions come first. -/
theorem AccountRequest.writes_tail (asked : AccountRequest) (u p : Json) :
    ∀ x ∈ (asked.writes db u p).tail, x ≠ .deleteAll := by
  have hinsertion : insertion db u p ≠ .deleteAll := by
    unfold insertion
    split <;> exact fun h => by cases h
  unfold AccountRequest.writes
  cases asked.call with
  | register => exact List.forall_mem_nil _
  | login => exact List.forall_mem_nil _
  | changeCredentials => exact List.forall_mem_singleton.mpr hinsertion

/-! ### The view on a table -/

theorem served_eq (asked : AccountRequest) (t : Users db) : asked.served db t =
    tryWork defaultStatus (twoFields asked.call.first asked.call.second asked.call.required pure (asked.call.work db)
      asked.request) Transaction.answering t := view_eq _ _ _ _

theorem served_answer {t : Users db} {result : Except (List CodePoint) Response}
    (h : (asked.script db).leaf t.rows = .inl result) :
    asked.served db t = ⟨answer defaultStatus result, t, 0⟩ := by
  have hreads := (Reads.refl (t := t.rows) (asked.script db)).to_leaf
  rw [h] at hreads
  have hrun := hreads.answers (script_implements db asked.call asked.request)
  rw [served_eq, tryWork, hrun]

theorem served_write {t : Users db} {writes : List (Write UserRow (List CodePoint))} {a : Response}
    (h : (asked.script db).leaf t.rows = .inr (writes, a)) (hmade : Made writes)
    (hkeyed : ((changeOf writes).apply t.rows).Pairwise fun x y => ¬ (Users.key db).r x y) :
    ∃ t', asked.served db t = ⟨a, t', 1⟩ ∧ t'.rows = (changeOf writes).apply t.rows := by
  obtain ⟨u, p, -, -, -, hwrites, -⟩ := leaf_eq_write h
  have hfirst : ∀ x ∈ writes.tail, x ≠ .deleteAll := hwrites ▸ asked.writes_tail u p
  have hreads := (Reads.refl (t := t.rows) (asked.script db)).to_leaf
  rw [h] at hreads
  obtain ⟨t', hrun, hrows⟩ :=
    hreads.commits (script_implements db asked.call asked.request) hmade hfirst hkeyed
  refine ⟨t', ?_, hrows⟩
  rw [served_eq, tryWork, hrun]
  rfl

end Requests

end EndpointSecurity.Server
