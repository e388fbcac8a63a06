import EndpointSecurity.Server.UsersRun
import Mathlib.Data.List.Pairwise

/-! Which credentials `login` accepts, with a database that answers.

On an empty table Python compares with `==`. On any other MySQL compares, with its
own idea of equality. What it takes for a string besides that string is `Mistakes`: a
number it converts the text to, another spelling under its collation, and through
PyMySQL's parenthesised lists a list of one. `login_exact_iff` says for which pairs
that makes no difference: no row may be mistaken for the pair, and an empty string is
nobody's name or password. -/
namespace EndpointSecurity.Server
open Library Transaction

variable {db : Mysql}

/-- A request with these two values. -/
def loginRequest (u p : Json) : Request :=
  ⟨none, .ok (.obj [(py "username", u), (py "password", p)])⟩

def LogsIn (t : Users db) (u p : Json) : Prop :=
  UserCall.login.succeeded (login db (loginRequest u p) answering t).response

/-- A row holds exactly these two strings. -/
def Holds (t : Users db) (u p : Json) : Prop :=
  ∃ r ∈ t.rows, ∃ h, r.passwordhash = some h ∧ u = .str (points r.username) ∧ p = .str (points h)

/-- The current credentials. -/
def Current (t : Users db) (u p : Json) : Prop :=
  (t.rows = [] ∧ u = .str (py "Admin") ∧ p = .str (py "Admin")) ∨ Holds t u p

/-- A row matches the two values under MySQL's `=`. -/
def MatchesSql (t : Users db) (u p : Json) : Prop :=
  ∃ a b, operand u = .ok a ∧ operand p = .ok b ∧ t.withCredentials a b ≠ []

/-- What `=` takes for the text `s` of a column besides the string `s`. -/
inductive Mysql.Mistakes (db : Mysql) (s : List Char) : Json → Prop where
  | bool {b} : db.equalsNumber s (.int b.toNat) = true → Mistakes db s (.bool b)
  | int {n} : db.equalsNumber s (.int n) = true → Mistakes db s (.int n)
  | float {repr} : repr ≠ py "inf" → repr ≠ py "-inf" → repr ≠ py "nan" →
      db.equalsNumber s (.float repr) = true → Mistakes db s (.float repr)
  | spelling {x t} : x ≠ points s → textValue x = .ok t → db.Same s t → Mistakes db s (.str x)
  | listed : Mistakes db s (.arr [.str (points s)])
  | singleton {x} : Mistakes db s x → Mistakes db s (.arr [x])

/-- The pair is judged as Python would judge it: it is not mistaken for the username
and the password of any row, and a row that holds it has neither of them empty. -/
structure Exact (t : Users db) (u p : Json) : Prop where
  apart : truthy u = true → truthy p = true → ∀ r ∈ t.rows, ∀ h, r.passwordhash = some h →
    (db.Mistakes r.username u → p ≠ .str (points h) ∧ ¬ db.Mistakes h p) ∧
      (u = .str (points r.username) → ¬ db.Mistakes h p)
  nonempty : ∀ r ∈ t.rows, ∀ h, r.passwordhash = some h →
    u = .str (points r.username) → p = .str (points h) → r.username ≠ [] ∧ h ≠ []

theorem usernamePassword : py "password" ≠ py "username" := by decide

theorem login_answering (t : Users db) (u p : Json) :
    (login db (loginRequest u p) answering t).response =
      if !truthy u || !truthy p then errorResponse (py "Username and password are required") 400
      else answer defaultStatus ((loginWork db u p).run answering t).result := by
  obtain ⟨hu, hp⟩ := dataGet_pair usernamePassword u p
  show (twoFieldView _ _ _ _ _ _ _).response = _
  rw [twoFieldView_eq rfl hu hp]
  split <;> rfl

theorem loginWork_answering (t : Users db) (u p : Json) :
    ((loginWork db u p).run answering t).result =
      if t.rows.length = 0 then
        .ok (if isText (py "Admin") u && isText (py "Admin") p then loggedIn true
          else errorResponse (py "Invalid username or password") 401)
      else (db.statement2 u p fun a b => .ok (t.withCredentials a b)).map fun found =>
        if found.head?.isNone then errorResponse (py "Invalid username or password") 401
        else loggedIn false := by
  unfold run loginWork connect fetch selectCredentials
  simp only [bind_apply, touch_apply (rfl : answering _ = none),
    query_apply _ (rfl : answering _ = none)]
  show ((if t.rows.length = 0 then _ else _ : UsersWork db Response) answering _).1 = _
  split
  · split <;> rfl
  · simp only [bind_apply, query_apply _ (rfl : answering _ = none)]
    have hworking : (Session.start t).tick.tick.tick.working = t := rfl
    rw [hworking]
    cases db.statement2 u p fun a b => .ok (t.withCredentials a b) with
    | error e => rfl
    | ok found =>
      simp only [Except.map]
      split <;> rfl

theorem matchesSql_iff (t : Users db) (u p : Json) :
    MatchesSql t u p ↔
      ∃ found, (db.statement2 u p fun a b => .ok (t.withCredentials a b)) = .ok found ∧ found ≠ [] := by
  simp only [Mysql.statement2_eq_ok]
  exact ⟨fun ⟨a, b, ha, hb, h⟩ => ⟨_, ⟨a, b, ha, hb, rfl⟩, h⟩,
    fun ⟨_, ⟨a, b, ha, hb, heq⟩, h⟩ => ⟨a, b, ha, hb, Except.ok.inj heq ▸ h⟩⟩

/-- What `login` lets through. -/
theorem logsIn_iff (t : Users db) (u p : Json) :
    LogsIn t u p ↔ truthy u = true ∧ truthy p = true ∧
      ((t.rows = [] ∧ u = .str (py "Admin") ∧ p = .str (py "Admin")) ∨
        (t.rows ≠ [] ∧ MatchesSql t u p)) := by
  unfold LogsIn
  rw [login_answering, loginWork_answering]
  have hrefused : ∀ {e : String} {status : Nat},
      ¬ UserCall.login.succeeded (errorResponse (py e) status) :=
    UserCall.login.not_succeeded (errorResponse_isError _ _)
  by_cases hmissing : (!truthy u || !truthy p) = true
  · rw [if_pos hmissing]
    refine ⟨fun h => absurd h hrefused, fun ⟨hu, hp, _⟩ => ?_⟩
    simp [hu, hp] at hmissing
  rw [if_neg hmissing]
  have hgiven : truthy u = true ∧ truthy p = true := by simpa using hmissing
  simp only [hgiven.1, hgiven.2, true_and]
  by_cases hempty : t.rows = []
  · simp only [hempty, List.length_nil, if_true, answer, true_and, ne_eq, not_true_eq_false,
      false_and, or_false]
    split
    · rename_i hadmin
      rw [Bool.and_eq_true, isText_iff, isText_iff] at hadmin
      exact ⟨fun _ => hadmin, fun _ => ⟨true, rfl⟩⟩
    · rename_i hother
      rw [Bool.and_eq_true, isText_iff, isText_iff] at hother
      exact ⟨fun h => absurd h hrefused, fun h => absurd h hother⟩
  · have hlength : ¬ t.rows.length = 0 := fun h => hempty (List.length_eq_zero_iff.mp h)
    simp only [if_neg hlength, hempty, false_and, false_or, ne_eq, not_false_eq_true, true_and,
      matchesSql_iff]
    cases db.statement2 u p fun a b => .ok (t.withCredentials a b) with
    | error e =>
      refine ⟨fun h => absurd h (UserCall.login.not_succeeded (errorResponse_isError _ _)), ?_⟩
      simp
    | ok found =>
      cases found with
      | nil => exact ⟨fun h => absurd h hrefused, by simp⟩
      | cons r rest => exact ⟨fun _ => ⟨_, rfl, List.cons_ne_nil _ _⟩, fun _ => ⟨false, rfl⟩⟩

/-! ### What MySQL takes for a string -/

/-- `column = %s` holds, where the column holds `s` and the parameter is `x`. -/
def Mysql.Takes (db : Mysql) (s : List Char) (x : Json) : Prop :=
  ∃ a, operand x = .ok a ∧ db.equals s a = true

theorem Mysql.takes_itself (db : Mysql) (s : List Char) : db.Takes s (.str (points s)) :=
  ⟨_, operand_str s, decide_eq_true (db.same_refl s)⟩

theorem Mysql.takes_singleton (s : List Char) (x : Json) : db.Takes s (.arr [x]) ↔ db.Takes s x := by
  rw [Takes, operand_singleton]
  rfl

theorem Mysql.Mistakes.takes {s : List Char} {x : Json} (h : db.Mistakes s x) : db.Takes s x := by
  induction h with
  | bool h => exact ⟨_, rfl, h⟩
  | int h => exact ⟨_, rfl, h⟩
  | float hinf hneg hnan h =>
    refine ⟨.number (.float _), ?_, h⟩
    rw [operand, escape, if_neg (by simp [hinf, hneg, hnan])]
    rfl
  | spelling _ ht h =>
    refine ⟨.text _, ?_, decide_eq_true h⟩
    show (textValue _).map SqlValue.text = _
    rw [ht]
    rfl
  | listed => exact (db.takes_singleton s _).mpr (db.takes_itself s)
  | singleton _ ih => exact (db.takes_singleton s _).mpr ih

/-- A list of none or of several is no operand. -/
theorem operand_arr {items : List Json} {a : SqlValue} (h : operand (.arr items) = .ok a) :
    ∃ x, items = [x] := by
  unfold operand at h
  cases items with
  | nil => cases h
  | cons x rest =>
    cases rest with
    | nil => exact ⟨x, rfl⟩
    | cons y rest =>
      simp only [escape, escapeItems] at h
      cases hx : escape x with
      | error e => rw [hx] at h; cases h
      | ok k =>
        cases hy : escape y with
        | error e => rw [hx, hy] at h; cases h
        | ok l =>
          cases hrest : escapeItems rest with
          | error e => rw [hx, hy, hrest] at h; cases h
          | ok ls => rw [hx, hy, hrest] at h; cases h

/-- What `=` takes for a text is that string or mistaken for it. -/
theorem Mysql.takes_cases {s : List Char} :
    ∀ {x : Json}, db.Takes s x → x = .str (points s) ∨ db.Mistakes s x
  | .null, ⟨_, rfl, h⟩ => nomatch h
  | .bool _, ⟨_, rfl, h⟩ => .inr (.bool h)
  | .int _, ⟨_, rfl, h⟩ => .inr (.int h)
  | .float repr, ⟨a, ha, h⟩ => by
    unfold operand escape at ha
    split at ha
    · cases ha
    · rename_i hliteral
      simp only [not_or] at hliteral
      obtain ⟨hinf, hneg, hnan⟩ := hliteral
      cases ha
      exact .inr (.float hinf hneg hnan h)
  | .str x, ⟨a, ha, h⟩ => by
    by_cases hx : x = points s
    · exact .inl (congrArg Json.str hx)
    · have htext : (textValue x).map SqlValue.text = .ok a := ha
      cases ht : textValue x with
      | error e => rw [ht] at htext; cases htext
      | ok t =>
        rw [ht] at htext
        cases htext
        exact .inr (.spelling hx ht (of_decide_eq_true h))
  | .arr items, ⟨a, ha, h⟩ => by
    obtain ⟨x, rfl⟩ := operand_arr ha
    rcases takes_cases ((db.takes_singleton s x).mp ⟨a, ha, h⟩) with rfl | h
    · exact .inr .listed
    · exact .inr (.singleton h)

/-- The SELECT finds a row that takes both values. -/
theorem matchesSql_takes {t : Users db} {u p : Json} :
    MatchesSql t u p ↔ ∃ r ∈ t.rows, ∃ h, r.passwordhash = some h ∧ db.Takes r.username u ∧ db.Takes h p := by
  constructor
  · rintro ⟨a, b, ha, hb, hfound⟩
    obtain ⟨r, hr⟩ := List.exists_mem_of_ne_nil _ hfound
    rw [Users.withCredentials, List.mem_filter, Bool.and_eq_true, Option.any_eq_true] at hr
    obtain ⟨hr, hu, h, hh, hp⟩ := hr
    exact ⟨r, hr, h, hh, ⟨a, ha, hu⟩, ⟨b, hb, hp⟩⟩
  · rintro ⟨r, hr, h, hh, ⟨a, ha, hu⟩, ⟨b, hb, hp⟩⟩
    refine ⟨a, b, ha, hb, List.ne_nil_of_mem (List.mem_filter.mpr ⟨hr, ?_⟩)⟩
    rw [Bool.and_eq_true, Option.any_eq_true]
    exact ⟨hu, h, hh, hp⟩

/-- A username is one row's. -/
theorem Users.row_unique {t : Users db} {r r' : UserRow} (hr : r ∈ t.rows) (hr' : r' ∈ t.rows)
    (h : db.Same r.username r'.username) : r = r' := by
  have : Std.Symm fun a b : UserRow => ¬ db.Same a.username b.username :=
    ⟨fun _ _ hne hsame => hne (db.collation.symm hsame)⟩
  by_contra hne
  exact t.unique.forall hr hr' hne h

/-- A row is matched by its own credentials. -/
theorem Holds.matchesSql {t : Users db} {u p : Json} (h : Holds t u p) : MatchesSql t u p := by
  obtain ⟨r, hr, s, hs, rfl, rfl⟩ := h
  exact matchesSql_takes.mpr ⟨r, hr, s, hs, db.takes_itself _, db.takes_itself _⟩

theorem Holds.rows_ne {t : Users db} {u p : Json} (h : Holds t u p) : t.rows ≠ [] := by
  obtain ⟨r, hr, _⟩ := h
  exact List.ne_nil_of_mem hr

theorem truthy_points {s : List Char} : truthy (.str (points s)) = true ↔ s ≠ [] := by
  cases s <;> simp [truthy, points]

theorem Mysql.Mistakes.ne_itself {s : List Char} {x : Json} (h : db.Mistakes s x) :
    x ≠ .str (points s) := by
  cases h with
  | spelling hx => exact fun h => hx (Json.str.inj h)
  | _ => exact Json.noConfusion

/-- When a row holds the pair, the row whose username MySQL takes for it is that row. -/
theorem Holds.of_takes {t : Users db} {u p : Json} (hholds : Holds t u p) {r : UserRow}
    (hr : r ∈ t.rows) {h : List Char} (hh : r.passwordhash = some h) (hu : db.Takes r.username u) :
    u = .str (points r.username) ∧ p = .str (points h) := by
  obtain ⟨r', hr', h', hh', rfl, rfl⟩ := hholds
  obtain ⟨a, ha, hequals⟩ := hu
  rw [operand_str] at ha
  cases ha
  obtain rfl := Users.row_unique hr hr' (of_decide_eq_true hequals)
  rw [hh] at hh'
  cases hh'
  exact ⟨rfl, rfl⟩

theorem Exact.holds {t : Users db} {u p : Json} (h : Exact t u p) (hu : truthy u = true)
    (hp : truthy p = true) (hm : MatchesSql t u p) : Holds t u p := by
  obtain ⟨r, hr, s, hs, htu, htp⟩ := matchesSql_takes.mp hm
  obtain ⟨hname, hpassword⟩ := h.apart hu hp r hr s hs
  rcases Mysql.takes_cases htu with rfl | hmistaken
  · rcases Mysql.takes_cases htp with rfl | hmistaken
    · exact ⟨r, hr, s, hs, rfl, rfl⟩
    · exact absurd hmistaken (hpassword rfl)
  · rcases Mysql.takes_cases htp with hexact | hmistaken'
    · exact absurd hexact (hname hmistaken).1
    · exact absurd hmistaken' (hname hmistaken).2

theorem Exact.truthy {t : Users db} {u p : Json} (h : Exact t u p) (hholds : Holds t u p) :
    Server.truthy u = true ∧ Server.truthy p = true := by
  obtain ⟨r, hr, s, hs, rfl, rfl⟩ := hholds
  obtain ⟨hname, hpassword⟩ := h.nonempty r hr s hs rfl rfl
  exact ⟨truthy_points.mpr hname, truthy_points.mpr hpassword⟩

/-- The other way: who lets in the current credentials only is exact. -/
theorem exact_of_current {t : Users db} {u p : Json}
    (honly : Server.truthy u = true → Server.truthy p = true → MatchesSql t u p → Holds t u p)
    (hall : Holds t u p → Server.truthy u = true ∧ Server.truthy p = true) : Exact t u p where
  apart hu hp r hr s hs := by
    have hheld : db.Takes r.username u → db.Takes s p →
        u = .str (points r.username) ∧ p = .str (points s) := fun htu htp =>
      (honly hu hp (matchesSql_takes.mpr ⟨r, hr, s, hs, htu, htp⟩)).of_takes hr hs htu
    refine ⟨fun hmistaken => ⟨?_, fun hp' => ?_⟩, ?_⟩
    · rintro rfl
      exact hmistaken.ne_itself (hheld hmistaken.takes (db.takes_itself s)).1
    · exact hmistaken.ne_itself (hheld hmistaken.takes hp'.takes).1
    · rintro rfl hmistaken
      exact hmistaken.ne_itself (hheld (db.takes_itself _) hmistaken.takes).2
  nonempty r hr s hs hname hpassword := by
    obtain ⟨hu, hp⟩ := hall ⟨r, hr, s, hs, hname, hpassword⟩
    rw [hname] at hu
    rw [hpassword] at hp
    exact ⟨truthy_points.mp hu, truthy_points.mp hp⟩

theorem logsIn_current_iff (t : Users db) (u p : Json) :
    (LogsIn t u p ↔ Current t u p) ↔ Exact t u p := by
  rw [logsIn_iff]
  by_cases hempty : t.rows = []
  · have hholds : ¬ Holds t u p := fun h => h.rows_ne hempty
    have hexact : Exact t u p := by
      constructor <;> (rw [hempty]; intros; contradiction)
    refine iff_of_true ?_ hexact
    simp only [hempty, true_and, ne_eq, not_true_eq_false, false_and, or_false, Current, hholds]
    refine ⟨fun h => h.2.2, fun ⟨hu, hp⟩ => ⟨?_, ?_, hu, hp⟩⟩
    · rw [hu]; decide
    · rw [hp]; decide
  · simp only [hempty, false_and, false_or, ne_eq, not_false_eq_true, true_and, Current]
    constructor
    · intro h
      refine exact_of_current (fun hu hp hm => h.mp ⟨hu, hp, hm⟩) fun hh => ?_
      have hin := h.mpr hh
      exact ⟨hin.1, hin.2.1⟩
    · intro h
      refine ⟨fun ⟨hu, hp, hm⟩ => h.holds hu hp hm, fun hh => ?_⟩
      obtain ⟨hu, hp⟩ := h.truthy hh
      exact ⟨hu, hp, hh.matchesSql⟩

theorem json_ne_singleton (x : Json) : x ≠ .arr [x] := by
  intro h
  have hsize := congrArg sizeOf h
  simp only [Json.arr.sizeOf_spec, List.cons.sizeOf_spec, List.nil.sizeOf_spec] at hsize
  omega

/-- On a table with rows no pair is the only one: a list of one is as good as its
element. -/
theorem no_only_pair (t : Users db) (ht : t.rows ≠ []) (u₀ p₀ : Json) :
    ¬ ∀ u p, LogsIn t u p ↔ u = u₀ ∧ p = p₀ := by
  intro honly
  have hin := (logsIn_iff t u₀ p₀).mp ((honly u₀ p₀).mpr ⟨rfl, rfl⟩)
  obtain ⟨_, hp, h⟩ := hin
  obtain ⟨a, b, ha, hb, hm⟩ := (h.resolve_left fun h => ht h.1).2
  have hlist : LogsIn t (.arr [u₀]) p₀ := (logsIn_iff t _ _).mpr
    ⟨rfl, hp, .inr ⟨ht, a, b, (operand_singleton u₀).trans ha, hb, hm⟩⟩
  exact json_ne_singleton u₀ ((honly _ _).mp hlist).1.symm

/-- **`login` accepts exactly the current credentials where no row is mistaken for the
pair** and the pair is not empty; on a table with rows it never accepts a single pair. -/
theorem login_exact_iff (t : Users db) :
    (∀ u p, (LogsIn t u p ↔ Current t u p) ↔ Exact t u p) ∧
      (t.rows ≠ [] → ∀ u₀ p₀, ¬ ∀ u p, LogsIn t u p ↔ u = u₀ ∧ p = p₀) :=
  ⟨logsIn_current_iff t, no_only_pair t⟩

/-! ### A case variant -/

/-- As much of MySQL as short ASCII texts show: letters are equal up to case. -/
def asciiMysql : Mysql where
  collation := ⟨fun s t => s.map Char.toLower = t.map Char.toLower, fun _ => rfl, Eq.symm, Eq.trans⟩
  decideSame := fun s t => inferInstanceAs (Decidable (s.map Char.toLower = t.map Char.toLower))
  equalsNumber
    | s, .int n => n = (String.ofList (s.takeWhile Char.isDigit)).toNat?.getD 0
    | _, .float _ => false
  numberText
    | .int n => (toString n).toList
    | .float repr => repr.filterMap scalar
  message := fun _ _ => py "refused"

def changeRequest (u p : Json) : Request :=
  ⟨none, .ok (.obj [(py "newUsername", u), (py "newPassword", p)])⟩

/-- The accounts after the credentials were set to `alice` and `secret`. -/
def aliceOnly : Users asciiMysql :=
  (userServer asciiMysql).run .empty
    [⟨.changeCredentials, changeRequest (.str (py "alice")) (.str (py "secret")), answering⟩]

theorem aliceOnly_rows : aliceOnly.rows = [⟨"alice".toList, some "secret".toList⟩] := by
  decide

/-- `ALICE` logs in with Alice's password. -/
theorem upperCase_logsIn :
    ¬ (LogsIn aliceOnly (.str (py "ALICE")) (.str (py "secret")) ↔
      Current aliceOnly (.str (py "ALICE")) (.str (py "secret"))) := by
  rw [logsIn_current_iff]
  intro h
  have hrow : ⟨"alice".toList, some "secret".toList⟩ ∈ aliceOnly.rows := by simp [aliceOnly_rows]
  have hmistaken : asciiMysql.Mistakes "alice".toList (.str (py "ALICE")) :=
    .spelling (by decide) (textValue_points "ALICE".toList) (by decide)
  exact ((h.apart (by decide) (by decide) _ hrow _ rfl).1 hmistaken).1 rfl

end EndpointSecurity.Server
