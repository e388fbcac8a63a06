import EndpointSecurity.Server.Users

/-! The accounts over whole runs, with a database that may fail at any step.

Each view's work is taken apart once: it ends in its success return after one
commit, or without a commit and without its success return (`Settles`). So a
request commits what its success return promises or leaves the table alone, and
what holds of a run (`accounts_run`) follows from its steps. -/
namespace EndpointSecurity.Server
open Library Transaction

variable {db : Mysql}

/-- A request to the table `t` came to its success return with one commit that left
what `Committed` says, or it did not commit and left `t`. -/
def Settles (success : Response → Prop) (t : Users db) (Committed : Users db → Prop)
    (o : Served (Users db)) : Prop :=
  (success o.response ∧ o.commits = 1 ∧ Committed o.store) ∨
    (¬ success o.response ∧ o.commits = 0 ∧ o.store = t)

/-! ### Errors are not successes -/

theorem jsonify_ne {name₁ name₂ : String} {value₁ value₂ : Json}
    {rest₁ rest₂ : List (String × Json)} {status₁ status₂ : Nat} (h : py name₁ ≠ py name₂) :
    jsonify ((name₁, value₁) :: rest₁) status₁ ≠ jsonify ((name₂, value₂) :: rest₂) status₂ := by
  intro heq
  simp only [jsonify, List.map_cons, Response.mk.injEq, Option.some.injEq, Json.obj.injEq,
    List.cons.injEq, Prod.mk.injEq] at heq
  exact h heq.2.1.1

theorem Response.IsError.ne_jsonify {r : Response} (hr : r.IsError) {name : String} {value : Json}
    {rest : List (String × Json)} {status : Nat} (h : py "error" ≠ py name) :
    r ≠ jsonify ((name, value) :: rest) status := by
  rcases hr with hpage | ⟨e, s, rfl⟩
  · intro heq
    rw [heq] at hpage
    cases hpage
  · exact jsonify_ne h

theorem errorResponse_isError (e : List CodePoint) (status : Nat) : (errorResponse e status).IsError :=
  .inr ⟨e, status, rfl⟩

/-- No view succeeds with an error. -/
theorem UserCall.not_succeeded (call : UserCall) {r : Response} (hr : r.IsError) :
    ¬ call.succeeded r := by
  cases call with
  | register => exact hr.ne_jsonify (by decide)
  | login => exact fun ⟨_, h⟩ => hr.ne_jsonify (by decide) h
  | changeCredentials => exact hr.ne_jsonify (by decide)

/-! ### The work of each view -/

/-- What an insertion leaves of a table. -/
def Inserted (u p : Json) (t t' : Users db) : Prop :=
  ∃ a b, operand u = .ok a ∧ operand p = .ok b ∧ t.insert a b = .ok t'

theorem registerWork_settles (u p : Json) (faults : Nat → Option (List CodePoint)) (t : Users db) :
    Settles UserCall.register.succeeded t (Inserted u p t)
      (tryWork defaultStatus (registerWork db u p) faults t) := by
  have hfail : ∀ r : Response, r.IsError →
      Settles UserCall.register.succeeded t (Inserted u p t) ⟨r, t, 0⟩ :=
    fun r hr => .inr ⟨UserCall.register.not_succeeded hr, rfl, rfl⟩
  have hraise := fun e => hfail _ (errorResponse_isError e defaultStatus)
  apply tryWork_ensures
  refine ensures_touch hraise ?_
  refine ensures_query hraise fun found _ => ?_
  refine ensures_query hraise fun user _ => ?_
  refine ensures_ite (fun _ => ?_) (fun _ => ?_)
  · exact hfail _ (errorResponse_isError _ _)
  · refine ensures_execute hraise fun t' hinsert => ?_
    refine ensures_commit hraise ?_
    exact .inl ⟨rfl, rfl, Mysql.statement2_eq_ok.mp hinsert⟩

theorem changeCredentialsWork_settles (u p : Json) (faults : Nat → Option (List CodePoint))
    (t : Users db) :
    Settles UserCall.changeCredentials.succeeded t (Inserted u p .empty)
      (tryWork defaultStatus (changeCredentialsWork db u p) faults t) := by
  have hfail : ∀ r : Response, r.IsError →
      Settles UserCall.changeCredentials.succeeded t (Inserted u p .empty) ⟨r, t, 0⟩ :=
    fun r hr => .inr ⟨UserCall.changeCredentials.not_succeeded hr, rfl, rfl⟩
  have hraise := fun e => hfail _ (errorResponse_isError e defaultStatus)
  apply tryWork_ensures
  refine ensures_touch hraise ?_
  refine ensures_query hraise fun found _ => ?_
  refine ensures_query hraise fun user _ => ?_
  refine ensures_ite (fun _ => ?_) (fun _ => ?_)
  · exact hfail _ (errorResponse_isError _ _)
  · refine ensures_execute hraise fun cleared hcleared => ?_
    -- from here on an exception has the deletion behind it, uncommitted
    refine ensures_execute hraise fun t' hinsert => ?_
    refine ensures_commit hraise ?_
    obtain rfl : Users.empty = cleared := Except.ok.inj hcleared
    exact .inl ⟨rfl, rfl, Mysql.statement2_eq_ok.mp hinsert⟩

/-- `login` commits nothing, and asks for new credentials only on an empty table. -/
def LoginSettles (t : Users db) (o : Served (Users db)) : Prop :=
  (o.response = loggedIn true → t.rows = []) ∧ o.commits = 0 ∧ o.store = t

theorem loggedIn_inj {a b : Bool} : loggedIn a = loggedIn b ↔ a = b := by
  simp [loggedIn, jsonify]

theorem loginSettles_isError (t : Users db) {r : Response} (hr : r.IsError) :
    LoginSettles t ⟨r, t, 0⟩ :=
  ⟨fun h => absurd ⟨true, h⟩ (UserCall.login.not_succeeded hr), rfl, rfl⟩

theorem loginWork_settles (u p : Json) (faults : Nat → Option (List CodePoint)) (t : Users db) :
    LoginSettles t (tryWork defaultStatus (loginWork db u p) faults t) := by
  have hfail := fun r => loginSettles_isError t (r := r)
  have hraise := fun e => hfail _ (errorResponse_isError e defaultStatus)
  apply tryWork_ensures
  refine ensures_touch hraise ?_
  refine ensures_query hraise fun counted hcounted => ?_
  refine ensures_query hraise fun count hcount => ?_
  obtain rfl : t.rows.length = counted := Except.ok.inj hcounted
  obtain rfl : t.rows.length = count := Except.ok.inj hcount
  refine ensures_ite (fun hempty => ensures_ite (fun _ => ?_) (fun _ => ?_)) (fun hfull => ?_)
  · exact ⟨fun _ => List.length_eq_zero_iff.mp hempty, rfl, rfl⟩
  · exact hfail _ (errorResponse_isError _ _)
  · refine ensures_query hraise fun found _ => ?_
    refine ensures_query hraise fun user _ => ?_
    refine ensures_ite (fun _ => ?_) (fun _ => ?_)
    · exact hfail _ (errorResponse_isError _ _)
    · refine ⟨fun h => ?_, rfl, rfl⟩
      cases loggedIn_inj.mp h

/-! ### One request -/

theorem Users.insert_eq_ok {t t' : Users db} {a b : SqlValue} (h : t.insert a b = .ok t') :
    ∃ r, Users.row db a b = .ok r ∧ t'.rows = t.rows ++ [r] := by
  unfold insert at h
  cases hr : Users.row db a b with
  | error e => simp [hr, Except.bind] at h
  | ok r =>
    simp only [hr, Except.bind, add] at h
    split at h
    · obtain rfl := Except.ok.inj h
      exact ⟨r, rfl, rfl⟩
    · cases h

/-- The row a request to change the credentials asks for: the one that the `INSERT` of its two
values stores. Values that are no texts, or do not fit, such as `[null]` or 255 letters and a
space, are stored as MySQL makes of them. -/
def NewCredential (db : Mysql) (request : Request) (r : UserRow) : Prop :=
  ∃ data u p a b, request.json = .ok data ∧ dataGet data "newUsername" = some u ∧
    dataGet data "newPassword" = some p ∧ operand u = .ok a ∧ operand p = .ok b ∧
    Users.row db a b = .ok r

/-- If a request asks for two texts that fit their columns, the row is the one of just these. -/
def OfTexts (request : Request) (r : UserRow) : Prop :=
  ∀ data u p, request.json = .ok data → dataGet data "newUsername" = some (.str (points u)) →
    dataGet data "newPassword" = some (.str (points p)) → u.length ≤ 255 → p.length ≤ 255 → r = ⟨u, some p⟩

theorem newCredential_ofTexts {request : Request} {r : UserRow} (h : NewCredential db request r) : OfTexts request r := by
  intro data u p hdata hu hp hulen hplen
  obtain ⟨data', u', p', a, b, hdata', hu', hp', ha, hb, hrow⟩ := h
  obtain rfl := Except.ok.inj (hdata.symm.trans hdata')
  obtain rfl := Option.some.inj (hu.symm.trans hu')
  obtain rfl := Option.some.inj (hp.symm.trans hp')
  obtain rfl := Except.ok.inj ((operand_str u).symm.trans ha)
  obtain rfl := Except.ok.inj ((operand_str p).symm.trans hb)
  simp only [Users.row, columnText, varchar_fits hulen, varchar_fits hplen, Except.map, bind,
    Except.bind, pure, Except.pure, Except.ok.injEq] at hrow
  exact hrow.symm

/-- What a request may do to the committed accounts. -/
structure RequestKept (t : Machine.Step UserRequest (Served (Users db)) (Users db)) : Prop where
  /-- Short of its success return it leaves the table alone. -/
  unchanged : ¬ t.input.call.succeeded t.output.response → t.after = t.before
  /-- What was not empty stays so. -/
  nonempty : t.before.rows ≠ [] → t.after.rows ≠ []
  /-- After a commit there is a row. -/
  committed : t.output.commits ≠ 0 → t.after.rows ≠ []
  /-- A change of credentials leaves the new one only. -/
  replaced : t.input.call = .changeCredentials → t.input.call.succeeded t.output.response →
    ∃ r, NewCredential db t.input.request r ∧ OfTexts t.input.request r ∧ t.after.rows = [r]
  /-- The default credentials open an empty table only. -/
  default : t.input.call = .login → t.output.response = loggedIn true → t.before.rows = []

/-- A request that did not come to a commit. -/
theorem requestKept_same {s : Machine.Step UserRequest (Served (Users db)) (Users db)}
    (hsame : s.after = s.before) (hc : s.output.commits = 0)
    (hchange : s.input.call = .changeCredentials → ¬ s.input.call.succeeded s.output.response)
    (hlogin : s.input.call = .login → s.output.response = loggedIn true → s.before.rows = []) :
    RequestKept s where
  unchanged _ := hsame
  nonempty h := by rwa [hsame]
  committed h := absurd hc h
  replaced hcall hs := absurd hs (hchange hcall)
  default := hlogin

/-- A request that came to its success return with a commit. -/
theorem requestKept_commit {s : Machine.Step UserRequest (Served (Users db)) (Users db)}
    (hs : s.input.call.succeeded s.output.response) (hne : s.after.rows ≠ [])
    (hcall : s.input.call ≠ .login)
    (hreplaced : s.input.call = .changeCredentials →
      ∃ r, NewCredential db s.input.request r ∧ s.after.rows = [r]) : RequestKept s where
  unchanged h := absurd hs h
  nonempty _ := hne
  committed _ := hne
  replaced h _ :=
    have ⟨r, hnew, hrows⟩ := hreplaced h
    ⟨r, hnew, newCredential_ofTexts hnew, hrows⟩
  default h := absurd h hcall

theorem register_kept (request : Request) (faults : Nat → Option (List CodePoint)) (t : Users db) :
    RequestKept ((userServer db).stepAt t ⟨.register, request, faults⟩) := by
  have hview : Settles UserCall.register.succeeded t (fun t' => ∃ r, t'.rows = t.rows ++ [r])
      (register db request faults t) := by
    refine twoFieldView_rule (fun r hr => ?_) (fun _ u p _ _ _ => ?_)
    · exact .inr ⟨UserCall.register.not_succeeded hr, rfl, rfl⟩
    · rcases registerWork_settles u p faults t with ⟨hs, hc, a, b, _, _, hinsert⟩ | h
      · obtain ⟨r, _, hrows⟩ := Users.insert_eq_ok hinsert
        exact .inl ⟨hs, hc, r, hrows⟩
      · exact .inr h
  rcases hview with ⟨hs, _, r, hrows⟩ | ⟨_, hc, hstore⟩
  · have hne : t.rows ++ [r] ≠ [] := by simp
    exact requestKept_commit hs (hrows ▸ hne) (by simp [Machine.stepAt]) (by simp [Machine.stepAt])
  · exact requestKept_same hstore hc (by simp [Machine.stepAt]) (by simp [Machine.stepAt])

theorem changeCredentials_kept (request : Request) (faults : Nat → Option (List CodePoint))
    (t : Users db) : RequestKept ((userServer db).stepAt t ⟨.changeCredentials, request, faults⟩) := by
  have hview : Settles UserCall.changeCredentials.succeeded t
      (fun t' => ∃ r, NewCredential db request r ∧ t'.rows = [r])
      (changeCredentials db request faults t) := by
    refine twoFieldView_rule (fun r hr => ?_) (fun data u p hdata hu hp => ?_)
    · exact .inr ⟨UserCall.changeCredentials.not_succeeded hr, rfl, rfl⟩
    · rcases changeCredentialsWork_settles u p faults t with ⟨hs, hc, a, b, ha, hb, hinsert⟩ | h
      · obtain ⟨r, hrow, hrows⟩ := Users.insert_eq_ok hinsert
        exact .inl ⟨hs, hc, r, ⟨data, u, p, a, b, hdata, hu, hp, ha, hb, hrow⟩, hrows⟩
      · exact .inr h
  rcases hview with ⟨hs, _, r, hnew, hrows⟩ | ⟨hs, hc, hstore⟩
  · have hne : [r] ≠ [] := by simp
    exact requestKept_commit hs (hrows ▸ hne) (by simp [Machine.stepAt]) fun _ => ⟨r, hnew, hrows⟩
  · exact requestKept_same hstore hc (fun _ => hs) (by simp [Machine.stepAt])

theorem login_kept (request : Request) (faults : Nat → Option (List CodePoint)) (t : Users db) :
    RequestKept ((userServer db).stepAt t ⟨.login, request, faults⟩) := by
  have hview : LoginSettles t (login db request faults t) :=
    twoFieldView_rule (fun r hr => loginSettles_isError t hr)
      (fun _ u p _ _ _ => loginWork_settles u p faults t)
  obtain ⟨hdefault, hc, hstore⟩ := hview
  exact requestKept_same hstore hc (by simp [Machine.stepAt]) fun _ => hdefault

theorem request_kept (r : UserRequest) (t : Users db) : RequestKept ((userServer db).stepAt t r) := by
  obtain ⟨call, request, faults⟩ := r
  cases call with
  | register => exact register_kept request faults t
  | login => exact login_kept request faults t
  | changeCredentials => exact changeCredentials_kept request faults t

/-! ### Runs -/

theorem Users.usernames_distinct (t : Users db) :
    t.rows.Pairwise fun a b => a.username ≠ b.username :=
  t.unique.imp fun {a b} h heq => h (by
    show db.Same a.username b.username
    rw [heq]
    exact db.same_refl _)

/-- On a table that is empty after a run, nothing was committed in it. -/
theorem run_uncommitted (t : Users db) (requests : List UserRequest)
    (hempty : ((userServer db).run t requests).rows = []) :
    ∀ s ∈ (userServer db).steps t requests, s.output.commits = 0 := by
  intro s hs
  obtain ⟨done, r, rest, rfl, rfl⟩ := (userServer db).mem_steps hs
  by_contra hc
  have hafter := (request_kept r ((userServer db).run t done)).committed hc
  have hstep : ∀ (t : Users db) r, t.rows ≠ [] → ((userServer db).step t r).2.rows ≠ [] :=
    fun t r => (request_kept r t).nonempty
  have hrest := Machine.run_invariant hstep hafter rest
  rw [Machine.run_append, Machine.run_cons] at hempty
  exact hrest hempty

/-- **Every run of requests to the accounts**, however the database fails them: the
committed usernames are distinct, every request keeps to `RequestKept`, and where the
default credentials still open the door nothing was ever committed. -/
theorem accounts_run (requests : List UserRequest) :
    (((userServer db).run .empty requests).rows.Pairwise fun a b => a.username ≠ b.username) ∧
    (∀ s ∈ (userServer db).steps .empty requests, RequestKept s) ∧
    ∀ done r rest, requests = done ++ r :: rest → r.call = .login →
      ((userServer db).stepAt ((userServer db).run .empty done) r).output.response = loggedIn true →
      ∀ s ∈ (userServer db).steps .empty done, s.output.commits = 0 := by
  refine ⟨Users.usernames_distinct _, ?_, fun done r rest _ hlogin hdefault => ?_⟩
  · exact Machine.steps_forall (fun _ _ (h : True) => h) (fun t r _ => request_kept r t) trivial requests
  · apply run_uncommitted
    exact (request_kept r _).default hlogin hdefault

end EndpointSecurity.Server
