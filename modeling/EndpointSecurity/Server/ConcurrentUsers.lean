import EndpointSecurity.Server.AccountScripts
import EndpointSecurity.Server.LoginExact

/-! Many requests to the accounts at once.

`register`, `login` and `change_credentials`, taken through their steps in any order of
turns. Alone, a request is its view (`alone_view`). Whatever the order, no username is
there twice, a request that reports success has made its change and no other has made any
(`accounts_concurrent`), and what a request answers, it answers to the table of a moment
at which it had its turn (`answers_snapshot`). The commits are those of the views one after
the other exactly if each name is free when it is committed (`serial_iff`). The name of a
registration is (`registration_serial`); `change_credentials` looks its name up in the
table it read and does not look again. -/
namespace EndpointSecurity.Server
open Library Isolation

/-! ### Runs -/

section Runs
variable {ι : Type} [DecidableEq ι]

/-- The accounts with requests to them under way. -/
abbrev Accounts (ι : Type) : Type := Isolation.World ι UserRow (List CodePoint) Response

/-- The answer to a request, once it has one. -/
def responseOf (w : Accounts ι) (i : ι) : Option Response :=
  match w.phase i with
  | .returned result => some (answer defaultStatus result)
  | .reading _ _ | .writing _ _ _ => none

/-- A request committed the credential it asks for, once, and reports success; or it
committed nothing, and if it is one that writes, it does not report success. -/
def Accounted (db : Mysql) (asked : AccountRequest) (own : List (Change UserRow)) (response : Option Response) : Prop :=
  (asked.call ≠ .login ∧ (∃ row, asked.Credential db row ∧ own = [⟨asked.call == .changeCredentials, [row]⟩]) ∧
    response = some asked.success) ∨
  (own = [] ∧ ∀ r ∈ response, asked.call ≠ .login → ¬ asked.call.succeeded r)

variable (db : Mysql) (asked : ι → AccountRequest)

def accountsStart (t : Users db) : Accounts ι := .initial (fun i => (asked i).script db) t.rows

/-- The requests to the accounts, in any order of turns. -/
def accounts [Fintype ι] : Machine (Isolation.Turn ι (List CodePoint)) Unit (Accounts ι) := requests (Users.key db)

/-- The rows of a table `users`. -/
def IsUsers (rows : List UserRow) : Prop := ∃ t : Users db, t.rows = rows

/-- Every request has come to where it is on tables `users`. -/
structure UnderWay (w : Accounts ι) : Prop where
  coherent : w.Coherent (Users.key db)
  traced : ∀ i, Traced (IsUsers db) ((asked i).script db) (w.own i) (w.phase i)

variable {db asked}

theorem UnderWay.isUsers {w : Accounts ι} (h : UnderWay db asked w) : IsUsers db w.rows := ⟨⟨w.rows, h.coherent.keyed⟩, rfl⟩

theorem accountsStart_underWay (t : Users db) : UnderWay db asked (accountsStart db asked t) where
  coherent := Isolation.World.initial_coherent _ t.unique
  traced _ := ⟨rfl, fun _ => .refl _⟩

theorem UnderWay.turned {w w' : Accounts ι} {i : ι} (h : UnderWay db asked w)
    (hturn : Isolation.Turned (Users.key db) w i w') :
    UnderWay db asked w' where
  coherent := hturn.coherent h.coherent
  traced j := by
    by_cases hj : j = i
    · obtain rfl := hj
      exact hturn.traced (h.traced j) h.isUsers
    · obtain ⟨hphase, hown⟩ := hturn.others hj
      rw [hphase, hown]
      exact h.traced j

theorem UnderWay.accounted {w : Accounts ι} (h : UnderWay db asked w) (i : ι) :
    Accounted db (asked i) (w.own i) (responseOf w i) := by
  have htraced := h.traced i
  unfold responseOf
  match hphase : w.phase i with
  | .reading snapshot rest =>
    rw [hphase] at htraced
    exact .inr ⟨htraced.own_eq fun _ h => (by cases h), fun r hr => by cases hr⟩
  | .writing d writes a =>
    rw [hphase] at htraced
    exact .inr ⟨htraced.1, fun r hr => by cases hr⟩
  | .returned (.error e) =>
    rw [hphase] at htraced
    right
    refine ⟨htraced, fun r hr _ => ?_⟩
    obtain rfl := Option.some.inj hr
    exact UserCall.not_succeeded _ (errorResponse_isError _ _)
  | .returned (.ok a) =>
    rw [hphase] at htraced
    obtain ⟨_, ⟨t, rfl⟩, ⟨hreads, hown⟩ | ⟨writes, hreads, hmade, hown⟩⟩ := htraced
    · right
      refine ⟨hown, fun r hr hcall => ?_⟩
      obtain rfl := Option.some.inj hr
      exact UserCall.not_succeeded _ (leaf_eq_answer hreads.leaf_eq hcall)
    · left
      obtain ⟨u, p, v, hasks, -, rfl, rfl⟩ := leaf_eq_write hreads.leaf_eq
      obtain ⟨row, hrow, hchange⟩ := changeOf_writes hasks.carries hasks.call hmade
      rw [hchange] at hown
      exact ⟨hasks.call, ⟨row, hrow, hown⟩, rfl⟩

variable [Fintype ι]

theorem run_underWay (asked : ι → AccountRequest) (t : Users db) (turns : List (Isolation.Turn ι (List CodePoint))) :
    UnderWay db asked ((accounts db).run (accountsStart db asked t) turns) :=
  Machine.run_invariant (M := accounts db) (fun _ _ hw => hw.turned (Isolation.takeTurn_turned _ _))
    (accountsStart_underWay t) turns

/-- **In any order of turns**, the accounts keep their names apart, are what the commits make
of them one after the other, and every request has committed what it reports. -/
theorem accounts_concurrent (asked : ι → AccountRequest) (t : Users db) (turns : List (Isolation.Turn ι (List CodePoint))) :
    let w := (accounts db).run (accountsStart db asked t) turns
    (w.rows.Pairwise fun x y => ¬ db.Same x.username y.username) ∧ w.rows = replay t.rows w.commits ∧
      (∀ i, Accounted db (asked i) (w.own i) (responseOf w i)) ∧ (w.commits ≠ [] → w.rows ≠ []) := by
  have hrun := run_underWay asked t turns
  have heffects : ((accounts db).run (accountsStart db asked t) turns).rows =
      replay t.rows ((accounts db).run (accountsStart db asked t) turns).commits := run_effects _ t.unique turns
  refine ⟨hrun.coherent.keyed, heffects, hrun.accounted, fun hsome => ?_⟩
  have hinsert : ∀ c ∈ ((accounts db).run (accountsStart db asked t) turns).commits, c.2.inserted ≠ [] := by
    intro c hc
    have hown := Isolation.World.mem_own hc
    rcases hrun.accounted c.1 with ⟨-, ⟨row, -, hrow⟩, -⟩ | ⟨hnone, -⟩
    · rw [hrow, List.mem_singleton] at hown
      rw [hown]
      exact List.cons_ne_nil _ _
    · rw [hnone] at hown
      cases hown
  rw [heffects]
  exact replay_ne_nil hsome hinsert

/-- **A request that takes its turns alone is its view.** -/
theorem alone_view (asked : ι → AccountRequest) (w : Accounts ι) (i : ι) (hfree : w.Free i)
    (t : Users db) (ht : t.rows = w.rows) (hstart : w.phase i = .reading none ((asked i).script db))
    (faults : Nat → Option (List CodePoint)) :
    ∃ m, let w' := (accounts db).run w (Isolation.turnsOf i ((List.range m).map faults))
      let served := (asked i).call.view db (asked i).request faults t
      responseOf w' i = some served.response ∧ w'.rows = served.store.rows := by
  obtain ⟨m, hphase, hrows⟩ := alone (script_implements db (asked i).call (asked i).request) w hfree (ht ▸ t.unique) hstart
    faults t ht
  refine ⟨m, ?_, ?_⟩
  · unfold responseOf
    rw [accounts, hphase, view_eq]
    rfl
  · rw [accounts, hrows, view_eq]
    rfl

def firstAccount : AccountRequest :=
  ⟨.register, ⟨none, .ok (.obj [(py "username", .str (py "Admin")), (py "password", .str (py "secret"))])⟩⟩

theorem firstAccount_alone : ∃ m,
    let w' := (accounts asciiMysql).run (accountsStart asciiMysql (fun _ : Unit => firstAccount) .empty)
      (Isolation.turnsOf () ((List.range m).map Transaction.answering))
    responseOf w' () = some registered ∧ w'.rows = [⟨"Admin".toList, some "secret".toList⟩] := by
  have hfree : (accountsStart asciiMysql (fun _ : Unit => firstAccount) .empty).Free () :=
    fun _ hother => absurd rfl hother
  exact alone_view (fun _ : Unit => firstAccount) _ () hfree .empty rfl rfl Transaction.answering

/-- **A request that returns answers to the table of a moment at which it had its turn**:
without a commit it answers what its view answers to that table, and leaves it; with a
commit, it found its name free in it. -/
theorem answers_snapshot (asked : ι → AccountRequest) (t : Users db) (turns : List (Isolation.Turn ι (List CodePoint))) (i : ι)
    {a : Response} (hreturned : ((accounts db).run (accountsStart db asked t) turns).phase i = .returned (.ok a)) :
    ∃ before fault after, turns = before ++ ⟨i, fault⟩ :: after ∧
      ∃ t' : Users db, t'.rows = ((accounts db).run (accountsStart db asked t) before).rows ∧
        if ((accounts db).run (accountsStart db asked t) turns).own i = [] then (asked i).served db t' = ⟨a, t', 0⟩
        else ∃ u p, (asked i).Carries u p ∧ Unnamed t' u := by
  have htraced : Traced (Past (Users.key db) (fun i => (asked i).script db) t.rows turns i) ((asked i).script db)
      (((accounts db).run (accountsStart db asked t) turns).own i)
      (((accounts db).run (accountsStart db asked t) turns).phase i) := run_traced _ _ _ turns i
  rw [hreturned] at htraced
  obtain ⟨_, ⟨before, fault, after, hturns, rfl⟩, hcases⟩ := htraced
  have hkeyed := (run_underWay asked t before).coherent.keyed
  refine ⟨before, fault, after, hturns, ⟨_, hkeyed⟩, rfl, ?_⟩
  rcases hcases with ⟨hreads, hown⟩ | ⟨writes, hreads, -, hown⟩
  · rw [if_pos hown]
    exact served_answer (t := ⟨_, hkeyed⟩) hreads.leaf_eq
  · rw [if_neg (hown ▸ List.cons_ne_nil _ _)]
    obtain ⟨u, p, v, hasks, hfree, -, -⟩ := leaf_eq_write (t := ⟨_, hkeyed⟩) hreads.leaf_eq
    exact ⟨u, p, hasks.carries, (hasks.unnamed_iff _).mpr hfree⟩

/-- The first login, with the default credentials. -/
def firstLogin : AccountRequest :=
  ⟨.login, ⟨none, .ok (.obj [(py "username", .str (py "Admin")), (py "password", .str (py "Admin"))])⟩⟩

/-- A login and a registration at once. -/
def loginAndRegister : Bool → AccountRequest
  | false => firstLogin
  | true => firstAccount

/-- Turns of two requests, none of which raises. -/
def inTurn (who : List Bool) : List (Isolation.Turn Bool (List CodePoint)) := who.map fun i => ⟨i, none⟩

/-- The default credentials are accepted after another account was committed. -/
theorem firstLogin_snapshot :
    let turns := inTurn [false, false, true, true, true, true, true, false, false]
    let start := accountsStart asciiMysql loginAndRegister .empty
    ((accounts asciiMysql).run start turns).commits.map Prod.fst = [true] ∧ ∃ before fault after,
      turns = before ++ ⟨false, fault⟩ :: after ∧ ∃ t' : Users asciiMysql,
        t'.rows = ((accounts asciiMysql).run start before).rows ∧
          firstLogin.served asciiMysql t' = ⟨loggedIn true, t', 0⟩ :=
  ⟨by decide, answers_snapshot loginAndRegister .empty _ false rfl⟩

/-! ### One view after the other -/

abbrev AccountStep (ι : Type) : Type := Machine.Step (Isolation.Turn ι (List CodePoint)) Unit (Accounts ι)

/-- What is committed in a step is what the view of the request, alone, makes of the table. -/
def Serial (db : Mysql) (asked : ι → AccountRequest) (s : AccountStep ι) : Prop :=
  ∀ i c, s.after.commits = s.before.commits ++ [(i, c)] → ∃ t t' : Users db, t.rows = s.before.rows ∧
    t'.rows = s.after.rows ∧ (asked i).served db t = ⟨(asked i).success, t', 1⟩

/-- Who commits in a step has a name that the table does not have. -/
def NameFree (db : Mysql) (asked : ι → AccountRequest) (s : AccountStep ι) : Prop :=
  ∀ i c, s.after.commits = s.before.commits ++ [(i, c)] → ∃ t : Users db, t.rows = s.before.rows ∧
    ∃ u p, (asked i).Carries u p ∧ Unnamed t u

/-- A commit of a request, and what led to it. -/
structure Committing (db : Mysql) (asked : AccountRequest) (w w' : Accounts ι) (u p : Json) (v : SqlValue) : Prop where
  asks : Asks db asked u p v
  made : Made (asked.writes db u p)
  rows : w'.rows = (changeOf (asked.writes db u p)).apply w.rows
  keyed : ((changeOf (asked.writes db u p)).apply w.rows).Pairwise fun x y => ¬ (Users.key db).r x y

omit [Fintype ι] in
theorem UnderWay.committing {w w' : Accounts ι} {i j : ι} {c : Change UserRow} (h : UnderWay db asked w)
    (hturn : Isolation.Turned (Users.key db) w i w') (hcommit : w'.commits = w.commits ++ [(j, c)]) :
    ∃ u p v, Committing db (asked j) w w' u p v := by
  have hsame : w.commits ≠ w.commits ++ [(j, c)] := fun heq =>
    List.cons_ne_nil _ _ (List.append_right_eq_self.mp heq.symm)
  cases hturn with
  | still | failed | answered | touched | queried | wrote => exact absurd hcommit hsame
  | @committed d a hwrites =>
    obtain ⟨rfl, rfl⟩ := Prod.mk.inj (List.singleton_inj.mp (List.append_cancel_left hcommit))
    obtain rfl : w.pending i = d := hwrites.pending_eq
    have hfits := h.coherent.fits i
    obtain ⟨-, _, before, ⟨t, rfl⟩, hreads, hmade, hchange⟩ := (h.traced i).writes hwrites h.isUsers
    rw [List.append_nil] at hreads
    obtain ⟨u, p, v, hasks, -, rfl, -⟩ := leaf_eq_write hreads.leaf_eq
    refine ⟨u, p, v, hasks, hmade, ?_, ?_⟩
    · rw [← hchange]
      exact hfits.view_eq
    · rw [← hchange]
      exact hfits.distinct

omit [Fintype ι] [DecidableEq ι] in
/-- **The commit is the view's exactly if the view finds the name free.** -/
theorem Committing.viewed_iff {a : AccountRequest} {w w' : Accounts ι} {u p : Json} {v : SqlValue}
    (h : Committing db a w w' u p v) (t : Users db) (ht : t.rows = w.rows) :
    (∃ t' : Users db, t'.rows = w'.rows ∧ a.served db t = ⟨a.success, t', 1⟩) ↔ Unnamed t u := by
  rw [h.asks.unnamed_iff]
  have hleaf := h.asks.leaf_eq t
  constructor
  · rintro ⟨t', -, hserved⟩
    by_contra hnamed
    rw [if_neg hnamed] at hleaf
    rw [served_answer hleaf] at hserved
    cases congrArg Served.commits hserved
  · intro hnamed
    rw [if_pos hnamed] at hleaf
    obtain ⟨t', hserved, hrows⟩ := served_write hleaf h.made (ht ▸ h.keyed)
    refine ⟨t', ?_, hserved⟩
    rw [hrows, ht, h.rows]

omit [Fintype ι] [DecidableEq ι] in
/-- The key of the table keeps the name of a registration free, if it is a text that fits. -/
theorem Committing.register_free {a : AccountRequest} {w w' : Accounts ι} {u p : Json} {v : SqlValue}
    (h : Committing db a w w' u p v) (hcall : a.call = .register) {name : List Char} (hu : u = .str (points name))
    (hfits : name.length ≤ 255) (t : Users db) (ht : t.rows = w.rows) : Unnamed t u := by
  have hmade := h.made
  have hkeyed := h.keyed
  simp only [AccountRequest.writes, hcall] at hmade hkeyed
  obtain ⟨x, b, row, hx, -, hrow, hinsert⟩ := insertion_made (hmade _ (List.mem_singleton_self _))
  rw [hinsert] at hkeyed
  obtain rfl : SqlValue.text name = x := Except.ok.inj ((hu ▸ operand_str name).symm.trans hx)
  have husername : row.username = name := by
    simp only [Users.row, columnText, varchar_fits hfits, Except.map, bind, Except.bind] at hrow
    split at hrow
    · cases hrow
    · obtain rfl := Except.ok.inj hrow
      rfl
  intro y hy
  obtain rfl := Except.ok.inj (hx.symm.trans hy)
  apply List.filter_eq_nil_iff.mpr
  intro r hr hequals
  have happart := (List.pairwise_append.mp hkeyed).2.2 r (ht ▸ hr) row (List.mem_singleton_self row)
  apply happart
  show db.Same r.username row.username
  rw [husername]
  exact of_decide_eq_true hequals

/-- **The commits of a run are those of the views, one after the other, exactly if each
name is still free when it is committed.** -/
theorem serial_iff (asked : ι → AccountRequest) (t : Users db) (turns : List (Isolation.Turn ι (List CodePoint))) :
    (∀ s ∈ (accounts db).steps (accountsStart db asked t) turns, Serial db asked s) ↔
      ∀ s ∈ (accounts db).steps (accountsStart db asked t) turns, NameFree db asked s := by
  have hiff : ∀ (w : Accounts ι) turn, UnderWay db asked w → (Serial db asked ((accounts db).stepAt w turn) ↔
      NameFree db asked ((accounts db).stepAt w turn)) := by
    intro w turn hw
    have hturn : Isolation.Turned (Users.key db) w turn.who (Isolation.takeTurn (Users.key db) w turn) :=
      Isolation.takeTurn_turned w turn
    apply forall_congr'
    intro i
    apply forall_congr'
    intro c
    apply imp_congr_right
    intro hcommit
    obtain ⟨u, p, v, hcommitting⟩ := hw.committing hturn hcommit
    constructor
    · rintro ⟨t, t', ht, hserved⟩
      exact ⟨t, ht, u, p, hcommitting.asks.carries, (hcommitting.viewed_iff t ht).mp ⟨t', hserved⟩⟩
    · rintro ⟨t, ht, u', p', hcarries, hfree⟩
      obtain ⟨rfl, rfl⟩ := hcommitting.asks.carries.unique hcarries
      obtain ⟨t', hserved⟩ := (hcommitting.viewed_iff t ht).mpr hfree
      exact ⟨t, t', ht, hserved⟩
  have hkept : ∀ (w : Accounts ι) turn, UnderWay db asked w → NameFree db asked ((accounts db).stepAt w turn) →
      UnderWay db asked ((accounts db).step w turn).2 := fun w turn hw _ => hw.turned (Isolation.takeTurn_turned w turn)
  exact Machine.steps_iff hkept hiff (accountsStart_underWay t) turns

/-- A change of the credentials. -/
def changeTo (name : String) : AccountRequest :=
  ⟨.changeCredentials, ⟨none, .ok (.obj [(py "newUsername", .str (py name)), (py "newPassword", .str (py "other"))])⟩⟩

/-- A registration and a change of the credentials at once. -/
def registerAndChange (name : String) : Bool → AccountRequest
  | false => changeTo name
  | true => firstAccount

/-- The change has looked for its name, the registration has committed it, and the change has
written, but not committed. -/
def beforeTaken : Accounts Bool :=
  (accounts asciiMysql).run (accountsStart asciiMysql (registerAndChange "Admin") .empty)
    (inTurn [false, false, true, true, true, true, true, false, false, false])

/-- A name that is taken after the look at the table is committed all the same, which no view does. -/
theorem takenName_notSerial :
    ¬ ∀ s ∈ (accounts asciiMysql).steps (accountsStart asciiMysql (registerAndChange "Admin") .empty)
      (inTurn [false, false, true, true, true, true, true, false, false, false, false]),
      Serial asciiMysql (registerAndChange "Admin") s := by
  intro hserial
  have hfree := (serial_iff (registerAndChange "Admin") .empty _).mp hserial
  have hlast : (accounts asciiMysql).stepAt beforeTaken ⟨false, none⟩ ∈
      (accounts asciiMysql).steps (accountsStart asciiMysql (registerAndChange "Admin") .empty)
        (inTurn [false, false, true, true, true, true, true, false, false, false] ++ [⟨false, none⟩]) := by
    rw [Machine.steps_append]
    exact List.mem_append_right _ (List.mem_singleton_self _)
  have hcommit : ((accounts asciiMysql).step beforeTaken ⟨false, none⟩).2.commits =
      beforeTaken.commits ++ [(false, ⟨true, [⟨"Admin".toList, some "other".toList⟩]⟩)] := rfl
  have hrows : beforeTaken.rows = [⟨"Admin".toList, some "secret".toList⟩] := by decide
  obtain ⟨t, ht, u, p, ⟨data, hdata, hu, -⟩, hunnamed⟩ := hfree _ hlast false _ hcommit
  obtain rfl := Except.ok.inj hdata
  obtain rfl := Option.some.inj hu
  have hnamed : t.named (.text "Admin".toList) = [⟨"Admin".toList, some "secret".toList⟩] := by
    have htable : t.rows = [⟨"Admin".toList, some "secret".toList⟩] := ht.trans hrows
    rw [Users.named, htable]
    rfl
  rw [hunnamed (.text "Admin".toList) rfl] at hnamed
  cases hnamed

/-- **Every commit of a registration is its view's**, if its name is a text that fits. -/
theorem registration_serial (asked : ι → AccountRequest) (t : Users db)
    (turns : List (Isolation.Turn ι (List CodePoint))) (i : ι)
    (hcall : (asked i).call = .register)
    (htext : ∀ u p, (asked i).Carries u p → ∃ name, u = .str (points name) ∧ name.length ≤ 255) :
    ∀ s ∈ (accounts db).steps (accountsStart db asked t) turns, ∀ c,
      s.after.commits = s.before.commits ++ [(i, c)] → ∃ t t' : Users db, t.rows = s.before.rows ∧
        t'.rows = s.after.rows ∧ (asked i).served db t = ⟨registered, t', 1⟩ := by
  have hsuccess : (asked i).success = registered := by simp only [AccountRequest.success, hcall]
  intro s hs c hcommit
  obtain ⟨before, turn, after, -, rfl⟩ := (accounts db).mem_steps hs
  have hw := run_underWay asked t before
  obtain ⟨u, p, v, hcommitting⟩ := hw.committing (Isolation.takeTurn_turned _ turn) hcommit
  obtain ⟨name, hu, hfits⟩ := htext u p hcommitting.asks.carries
  obtain ⟨t, ht⟩ := hw.isUsers
  have hfree := hcommitting.register_free hcall hu hfits t ht
  obtain ⟨t', ht', hserved⟩ := (hcommitting.viewed_iff t ht).mpr hfree
  exact ⟨t, t', ht, ht', hsuccess ▸ hserved⟩

/-- Between the look and the `INSERT` of a registration another name is committed. -/
theorem firstAccount_serial :
    let turns := inTurn [true, true, false, false, false, false, false, false, true, true, true]
    let start := accountsStart asciiMysql (registerAndChange "root") .empty
    ((accounts asciiMysql).run start turns).commits.map Prod.fst = [false, true] ∧
      ∀ s ∈ (accounts asciiMysql).steps start turns, ∀ c, s.after.commits = s.before.commits ++ [(true, c)] →
        ∃ t t' : Users asciiMysql, t.rows = s.before.rows ∧ t'.rows = s.after.rows ∧
          firstAccount.served asciiMysql t = ⟨registered, t', 1⟩ := by
  have htext : ∀ u p, firstAccount.Carries u p → ∃ name, u = .str (points name) ∧ name.length ≤ 255 := by
    rintro u p ⟨data, hdata, hu, -⟩
    obtain rfl := Except.ok.inj hdata
    obtain rfl := Option.some.inj hu
    exact ⟨"Admin".toList, rfl, by decide⟩
  exact ⟨by decide, registration_serial (registerAndChange "root") .empty _ true rfl htext⟩

end Runs

end EndpointSecurity.Server
