import EndpointSecurity.Server.UsersRun

/-! What `register` and `change_credentials` report of a new credential.

Both commit it just before they return, and come to nothing if anything raises; that
much holds of every run. What they report is another matter: an exception is answered
with its text and no status, which is a 200. So a 2xx answer means a committed
credential exactly where nothing raises (`register_reports_iff`,
`changeCredentials_reports_iff`). -/
namespace EndpointSecurity.Server
open Library Transaction

variable {db : Mysql}

/-- The request committed once, and what it committed is `base` with its INSERT. -/
def Stored (u p : Json) (base : Users db) (o : Served (Users db)) : Prop :=
  o.commits = 1 ∧ Inserted u p base o.store

/-- No account has the name, as MySQL reads it. -/
def Unnamed (t : Users db) (u : Json) : Prop := ∀ a, operand u = .ok a → t.named a = []

/-- The steps up to the test of the name do not raise. -/
structure SelectReturns (faults : Nat → Option (List CodePoint)) (u : Json) : Prop where
  connect : faults 0 = none
  select : faults 1 = none ∧ ∃ a, operand u = .ok a
  fetchUser : faults 2 = none

/-- No step of `register` raises: the INSERT and the commit are only reached for a new
name, and MySQL has to take the row. -/
structure RegisterReturns (faults : Nat → Option (List CodePoint)) (t : Users db) (u p : Json) : Prop where
  select : SelectReturns faults u
  insert : Unnamed t u → faults 3 = none ∧ ∃ t', Inserted u p t t'
  commit : Unnamed t u → faults 4 = none

/-- No step of `change_credentials` raises. -/
structure ChangeReturns (faults : Nat → Option (List CodePoint)) (t : Users db) (u p : Json) : Prop where
  select : SelectReturns faults u
  delete : Unnamed t u → faults 3 = none
  insert : Unnamed t u → faults 4 = none ∧ ∃ t' : Users db, Inserted u p .empty t'
  commit : Unnamed t u → faults 5 = none

/-! ### Which work returns -/

theorem unnamed_iff {t : Users db} {u : Json} {a : SqlValue} (ha : operand u = .ok a) :
    Unnamed t u ↔ (t.named a).head? = none := by
  rw [List.head?_eq_none_iff]
  refine ⟨fun h => h a ha, fun h b hb => ?_⟩
  obtain rfl := Except.ok.inj (ha.symm.trans hb)
  exact h

/-- The three steps both views begin with. -/
theorem select_returns_iff {faults : Nat → Option (List CodePoint)} {t : Users db} {u : Json}
    {k : Option UserRow → UsersWork db Response} :
    (connect >>= fun _ => selectNamed u >>= fun found => fetch found.head? >>= k).Returns
        faults (.start t) ↔
      SelectReturns faults u ∧ ∀ a, operand u = .ok a →
        (k (t.named a).head?).Returns faults ⟨t, t, 3, 0⟩ := by
  unfold connect selectNamed Server.fetch
  simp only [returns_touch, returns_query, Mysql.statement1_eq_ok, Except.ok.injEq, exists_eq_left',
    Session.start, Session.tick, Nat.zero_add, Nat.reduceAdd]
  refine ⟨fun ⟨h0, h1, found, ⟨a, ha, hfound⟩, h2, hk⟩ => ⟨⟨h0, ⟨h1, a, ha⟩, h2⟩, fun b hb => ?_⟩,
    fun ⟨h, hk⟩ => ?_⟩
  · obtain rfl := Except.ok.inj (ha.symm.trans hb)
    rw [hfound]
    exact hk
  · obtain ⟨h1, a, ha⟩ := h.select
    exact ⟨h.connect, h1, _, ⟨a, ha, rfl⟩, h.fetchUser, hk a ha⟩

theorem registerWork_returns_iff (faults : Nat → Option (List CodePoint)) (t : Users db) (u p : Json) :
    (registerWork db u p).Returns faults (.start t) ↔ RegisterReturns faults t u p := by
  unfold registerWork
  rw [select_returns_iff]
  unfold insertUser
  simp only [returns_ite, returns_execute, returns_commit, returns_pure, Mysql.statement2_eq_ok,
    Session.write, Session.tick, implies_true, true_and, and_true, Nat.reduceAdd,
    Bool.not_eq_true, Option.isSome_eq_false_iff, Option.isNone_iff_eq_none]
  refine ⟨fun ⟨hselect, hnew⟩ => ?_, fun h => ⟨h.select, fun a ha hnone => ?_⟩⟩
  · obtain ⟨-, a, ha⟩ := hselect.select
    refine ⟨hselect, fun hname => ?_, fun hname => ?_⟩
    · obtain ⟨h3, t', hinsert, -⟩ := hnew a ha ((unnamed_iff ha).mp hname)
      exact ⟨h3, t', hinsert⟩
    · obtain ⟨-, -, -, h4⟩ := hnew a ha ((unnamed_iff ha).mp hname)
      exact h4
  · have hname := (unnamed_iff ha).mpr hnone
    obtain ⟨h3, t', hinsert⟩ := h.insert hname
    exact ⟨h3, t', hinsert, h.commit hname⟩

theorem changeCredentialsWork_returns_iff (faults : Nat → Option (List CodePoint)) (t : Users db)
    (u p : Json) :
    (changeCredentialsWork db u p).Returns faults (.start t) ↔ ChangeReturns faults t u p := by
  unfold changeCredentialsWork
  rw [select_returns_iff]
  unfold insertUser deleteUsers
  simp only [returns_ite, returns_execute, returns_commit, returns_pure, Mysql.statement2_eq_ok,
    Session.write, Session.tick, implies_true, true_and, and_true, Nat.reduceAdd,
    Bool.not_eq_true, Option.isSome_eq_false_iff, Option.isNone_iff_eq_none, Except.ok.injEq,
    exists_eq_left']
  refine ⟨fun ⟨hselect, hnew⟩ => ?_, fun h => ⟨h.select, fun a ha hnone => ?_⟩⟩
  · obtain ⟨-, a, ha⟩ := hselect.select
    refine ⟨hselect, fun hname => ?_, fun hname => ?_, fun hname => ?_⟩
    · exact (hnew a ha ((unnamed_iff ha).mp hname)).1
    · obtain ⟨-, h4, t', hinsert, -⟩ := hnew a ha ((unnamed_iff ha).mp hname)
      exact ⟨h4, t', hinsert⟩
    · obtain ⟨-, -, -, -, h5⟩ := hnew a ha ((unnamed_iff ha).mp hname)
      exact h5
  · have hname := (unnamed_iff ha).mpr hnone
    obtain ⟨h4, t', hinsert⟩ := h.insert hname
    exact ⟨h.delete hname, h4, t', hinsert, h.commit hname⟩

/-! ### What is reported -/

/-- Work that returned, and returned either the success of its view or a refusal. -/
def Answers (call : UserCall) (result : Except (List CodePoint) Response) : Prop :=
  ∀ r, result = .ok r → call.succeeded r ∨ ∃ e, r = errorResponse e 400

theorem answers_error (call : UserCall) (e : List CodePoint) : Answers call (.error e) :=
  fun _ h => by cases h

theorem answers_refusal (call : UserCall) (e : List CodePoint) :
    Answers call (.ok (errorResponse e 400)) :=
  fun _ h => .inr ⟨e, (Except.ok.inj h).symm⟩

theorem answers_success {call : UserCall} {r : Response} (h : call.succeeded r) :
    Answers call (.ok r) :=
  fun _ hr => .inl (Except.ok.inj hr ▸ h)

theorem registerWork_answers (faults : Nat → Option (List CodePoint)) (t : Users db) (u p : Json) :
    Answers .register ((registerWork db u p).run faults t).result := by
  have hraise := answers_error .register
  have hwork : (registerWork db u p).Ensures faults (.start t) fun result _ =>
      Answers .register result := by
    refine ensures_touch hraise ?_
    refine ensures_query hraise fun found _ => ?_
    refine ensures_query hraise fun user _ => ?_
    refine ensures_ite (fun _ => answers_refusal _ _) (fun _ => ?_)
    refine ensures_execute hraise fun t' _ => ?_
    exact ensures_commit hraise (answers_success rfl)
  exact hwork

theorem changeCredentialsWork_answers (faults : Nat → Option (List CodePoint)) (t : Users db)
    (u p : Json) :
    Answers .changeCredentials ((changeCredentialsWork db u p).run faults t).result := by
  have hraise := answers_error .changeCredentials
  have hwork : (changeCredentialsWork db u p).Ensures faults (.start t) fun result _ =>
      Answers .changeCredentials result := by
    refine ensures_touch hraise ?_
    refine ensures_query hraise fun found _ => ?_
    refine ensures_query hraise fun user _ => ?_
    refine ensures_ite (fun _ => answers_refusal _ _) (fun _ => ?_)
    refine ensures_execute hraise fun cleared _ => ?_
    refine ensures_execute hraise fun t' _ => ?_
    exact ensures_commit hraise (answers_success rfl)
  exact hwork

/-- What settles reports truthfully if every 2xx answer is the success of its view. -/
theorem Settles.reports_iff {success : Response → Prop} {t base : Users db} {u p : Json}
    {o : Served (Users db)} (h : Settles success t (Inserted u p base) o)
    (hok : ∀ r, success r → isOk r = true) :
    (isOk o.response = true ↔ Stored u p base o) ↔ (isOk o.response = true → success o.response) := by
  rcases h with ⟨hs, hc, hstored⟩ | ⟨hs, hc, -⟩
  · exact iff_of_true (iff_of_true (hok _ hs) ⟨hc, hstored⟩) fun _ => hs
  · have hnot : ¬ Stored u p base o := fun hstored => by
      have hone := hstored.1
      rw [hc] at hone
      cases hone
    exact ⟨fun hiff hresponse => absurd (hiff.mp hresponse) hnot,
      fun himp => iff_of_false (fun hresponse => hs (himp hresponse)) hnot⟩

theorem Response.untouched_settles {success : Response → Prop} {t : Users db}
    {Committed : Users db → Prop} {r : Response} (hr : ¬ success r) :
    Settles success t Committed (.untouched r t) := .inr ⟨hr, rfl, rfl⟩

section Reports
variable {request : Request} {data u p : Json} (hdata : request.json = .ok data)
  (faults : Nat → Option (List CodePoint)) (t : Users db)
include hdata

/-- **`register` answers 2xx exactly to what it committed, exactly where nothing
raises**, or the fields were not even tried. -/
theorem register_reports_iff (hu : dataGet data "username" = some u)
    (hp : dataGet data "password" = some p) :
    (isOk (register db request faults t).response = true ↔
      Stored u p t (register db request faults t)) ↔
    (truthy u = true → truthy p = true → RegisterReturns faults t u p) := by
  have herror : ∀ e status, ¬ UserCall.register.succeeded (errorResponse e status) :=
    fun e status => UserCall.register.not_succeeded (errorResponse_isError e status)
  have hsettles : Settles UserCall.register.succeeded t (Inserted u p t)
      (register db request faults t) := by
    unfold register
    rw [twoFieldView_eq hdata hu hp]
    split
    · exact Response.untouched_settles (herror _ _)
    · exact registerWork_settles u p faults t
  have hsuccess : ∀ r, UserCall.register.succeeded r → isOk r = true := fun r hr => by
    rw [show r = registered from hr]
    rfl
  rw [hsettles.reports_iff hsuccess, ← registerWork_returns_iff]
  refine twoFieldView_ok_iff hdata hu hp faults t herror fun r hr => ?_
  rcases registerWork_answers faults t u p r hr with hs | ⟨e, rfl⟩
  · exact .inl hs
  · exact .inr rfl

/-- **So does `change_credentials`.** -/
theorem changeCredentials_reports_iff (hu : dataGet data "newUsername" = some u)
    (hp : dataGet data "newPassword" = some p) :
    (isOk (changeCredentials db request faults t).response = true ↔
      Stored u p .empty (changeCredentials db request faults t)) ↔
    (truthy u = true → truthy p = true → ChangeReturns faults t u p) := by
  have herror : ∀ e status, ¬ UserCall.changeCredentials.succeeded (errorResponse e status) :=
    fun e status => UserCall.changeCredentials.not_succeeded (errorResponse_isError e status)
  have hsettles : Settles UserCall.changeCredentials.succeeded t (Inserted u p .empty)
      (changeCredentials db request faults t) := by
    unfold changeCredentials
    rw [twoFieldView_eq hdata hu hp]
    split
    · exact Response.untouched_settles (herror _ _)
    · exact changeCredentialsWork_settles u p faults t
  have hsuccess : ∀ r, UserCall.changeCredentials.succeeded r → isOk r = true := fun r hr => by
    rw [show r = credentialsChanged from hr]
    rfl
  rw [hsettles.reports_iff hsuccess, ← changeCredentialsWork_returns_iff]
  refine twoFieldView_ok_iff hdata hu hp faults t herror fun r hr => ?_
  rcases changeCredentialsWork_answers faults t u p r hr with hs | ⟨e, rfl⟩
  · exact .inl hs
  · exact .inr rfl

/-- The answer of `change_credentials` has a JSON object in it. -/
theorem changeCredentials_body (hu : dataGet data "newUsername" = some u)
    (hp : dataGet data "newPassword" = some p) :
    ∃ members, (changeCredentials db request faults t).response.body = some (.obj members) := by
  refine twoFieldView_body hdata hu hp faults t fun r hr => ?_
  rcases changeCredentialsWork_answers faults t u p r hr with rfl | ⟨e, rfl⟩
  · exact ⟨_, rfl⟩
  · exact ⟨_, rfl⟩

end Reports

end EndpointSecurity.Server
