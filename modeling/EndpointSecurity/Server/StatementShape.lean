import EndpointSecurity.Library.JsonRoundTrip
import EndpointSecurity.Library.Sql
import EndpointSecurity.Server.Attempts

/-! The shape of the `INSERT` of `submit_logs`.

The view formats four values of the payload into the text of its statement, unquoted.
A value that Python formats as one literal of its own value is read back as that
literal; of any other the statement does not keep the shape it has in the source
(`submitLogs_shape_iff`). A text that closes its field early could only be denoted by a
string literal that reaches into the fields behind it, and then there is nothing left
to close the row with (`behind_false`). -/
namespace EndpointSecurity.Server
open Library Transaction

/-! ### What a literal denotes -/

/-- The value is one a literal stands for. A text of decimal digits stands for its
integer, as the ids of the agents do. -/
def Denotes : Sql.Literal → Json → Prop
  | .null, .null => True
  | .bool b, .bool c => b = c
  | .number s, .int n => Sql.numeralValue s.digits = n
  | .number s, .float repr => s.digits = repr
  | .number s, .str t => ∃ n : Int, t = py (toString n) ∧ Sql.numeralValue s.digits = n
  | .text s, .str t => s = t
  | _, _ => False

/-- The values Python formats as a literal. -/
def Plain : Json → Prop
  | .bool _ | .int _ => True
  | .float repr => Sql.isNumeral repr = true
  | .str t => ∃ n : Int, t = py (toString n)
  | _ => False

/-- What the view reads from an event. -/
structure EventFields (event timestamp type pid : Json) : Prop where
  timestamp : subscriptName event "timestamp" = .ok timestamp
  type : subscriptName event "type" = .ok type
  pid : subscriptName event "pid" = .ok pid

/-- One `INSERT INTO events`, of one row of five literals: the values, and the third. -/
def KeepsShape (statement : List CodePoint) (endpointId timestamp type pid : Json) : Prop :=
  ∃ id time message kind process,
    Sql.insert statement = some ⟨py "events",
      [py "endpoint_id", py "event_time", py "message", py "event_type", py "pid"],
      [[id, time, message, kind, process]]⟩ ∧
    Denotes id endpointId ∧ Denotes time timestamp ∧ Denotes kind type ∧ Denotes process pid

/-! ### Integers as text -/

theorem points_digits (n : Nat) : ∀ p ∈ points (Nat.toDigits 10 n), Sql.isDigit p = true := by
  intro p hp
  obtain ⟨c, hc, rfl⟩ := List.mem_map.mp hp
  exact Sql.isDigit_codePoint (Nat.isDigit_of_mem_toDigits (by decide) (by decide) hc)

theorem decimal_digits (n : Nat) : Sql.decimal (points (Nat.toDigits 10 n)) = n := by
  rw [Sql.decimal_points, Nat.ofDigitChars_ten_toDigits]

theorem fold_toDigits (n : Nat) {q : Sql.Shape} (hq : ∀ p, Sql.isDigit p = true → q.next p = some .integer) :
    (points (Nat.toDigits 10 n)).foldlM Sql.Shape.next q = some .integer := by
  have hdigits := points_digits n
  obtain ⟨c, ds, heq, hc⟩ := Json.toDigits_cons n
  rw [heq, points, List.map_cons, List.forall_mem_cons] at hdigits
  rw [heq, points, List.map_cons, List.foldlM_cons, hq _ (Sql.isDigit_codePoint hc)]
  exact Sql.fold_digits hdigits.2

/-- Python writes an integer as the numeral that stands for it. -/
theorem numeral_int (n : Int) : Sql.isNumeral (py (toString n)) = true ∧ Sql.numeralValue (py (toString n)) = n := by
  cases n with
  | ofNat n =>
    rw [py, Json.toString_ofNat]
    refine ⟨?_, ?_⟩
    · rw [Sql.isNumeral, fold_toDigits n fun p hp => by simp only [Sql.Shape.next, hp, if_true]]
      rfl
    · rw [Sql.numeralValue_integer fun p hp => Sql.digit_plain (points_digits n p hp),
        Sql.integerValue_digits (points_digits n), decimal_digits]
      rfl
  | negSucc n =>
    rw [py, Json.toString_negSucc, points, List.map_cons]
    change Sql.isNumeral (codePoint '-' :: points (Nat.toDigits 10 (n + 1))) = true ∧
      Sql.numeralValue (codePoint '-' :: points (Nat.toDigits 10 (n + 1))) = _
    refine ⟨?_, ?_⟩
    · have hsign : Sql.Shape.next .start (codePoint '-') = some .sign := by decide
      rw [Sql.isNumeral, List.foldlM_cons, hsign]
      show ((points (Nat.toDigits 10 (n + 1))).foldlM Sql.Shape.next .sign).any _ = true
      rw [fold_toDigits (n + 1) fun p hp => by simp only [Sql.Shape.next, hp, if_true]]
      rfl
    · rw [Sql.numeralValue_integer]
      · show ((-(Sql.decimal (points (Nat.toDigits 10 (n + 1))) : Int) : Int) : ℚ) = _
        rw [decimal_digits]
        rfl
      · rw [List.forall_mem_cons]
        exact ⟨by decide, fun p hp => Sql.digit_plain (points_digits _ p hp)⟩

/-! ### The text of a row -/

/-- The values of a row, and what closes it. -/
def rowText : List (List CodePoint) → List CodePoint
  | [] => py " );"
  | [s] => s ++ py " );"
  | s :: t :: more => s ++ (py ", " ++ rowText (t :: more))

/-- The statement up to the first value. -/
def statementHead : List CodePoint :=
  py "INSERT INTO events (endpoint_id, event_time, message, event_type, pid) VALUES ("

/-- The value a literal denotes, or its text has no comma. -/
def Fits (l : Sql.Literal) (s : List CodePoint) : Prop := codePoint ',' ∉ s ∨ l = .text s

theorem rowText_end (texts : List (List CodePoint)) : ∃ front, rowText texts = front ++ py " );" := by
  fun_induction rowText texts with
  | case1 => exact ⟨[], rfl⟩
  | case2 s => exact ⟨s, rfl⟩
  | case3 s t more ih =>
    obtain ⟨front, hfront⟩ := ih
    exact ⟨s ++ (py ", " ++ front), by rw [hfront, List.append_assoc, List.append_assoc]⟩

theorem length_rowText_cons (s t : List CodePoint) (more : List (List CodePoint)) :
    (rowText (s :: t :: more)).length = s.length + (2 + (rowText (t :: more)).length) := by
  rw [rowText, List.length_append, List.length_append]
  rfl

theorem rowText_suffix (s t : List CodePoint) (more : List (List CodePoint)) :
    rowText (t :: more) <:+ rowText (s :: t :: more) :=
  (List.suffix_append _ _).trans (List.suffix_append _ _)

theorem length_rowText_single (s : List CodePoint) : (rowText [s]).length = s.length + 3 := List.length_append

/-- A parenthesis that closes a row is not the last character of the statement. -/
theorem close_not_last {texts : List (List CodePoint)} {left : List CodePoint}
    (h : (codePoint ')' :: left) <:+ rowText texts) : left ≠ [] := by
  rintro rfl
  obtain ⟨front, hfront⟩ := rowText_end texts
  obtain ⟨before, hbefore⟩ := h
  have hlast := congrArg List.getLast? (hbefore.trans hfront)
  rw [List.getLast?_append_of_ne_nil _ (by decide), List.getLast?_append_of_ne_nil _ (by decide)] at hlast
  exact absurd hlast (by decide)

/-- **Once a literal has reached into the next field, the row cannot be closed.** -/
theorem behind_false {texts : List (List CodePoint)} {fuel : Nat} {text rest left : List CodePoint}
    {ls : List Sql.Literal} (hbehind : (codePoint ',' :: text) <:+ rowText texts)
    (hread : Sql.separated Sql.literal fuel text = some (ls, rest))
    (hclose : Sql.symbol (codePoint ')') rest = some left) (hfits : List.Forall₂ Fits ls texts) : False := by
  induction hfits generalizing fuel text with
  | nil => exact Sql.separated_ne_nil hread rfl
  | @cons l s ls texts hfit hfits ih =>
    obtain ⟨l', after, hl, hrest⟩ := Sql.separated_eq_some hread
    obtain ⟨hafter, hshort, htext⟩ := Sql.literal_left hl
    have hlength := hbehind.length_le
    rw [List.length_cons] at hlength
    cases texts with
    | nil =>
      cases hfits
      obtain ⟨hls, rfl⟩ | ⟨_, _, _, -, hmore, hls⟩ := hrest
      · obtain ⟨rfl, -⟩ := List.cons.inj hls
        have hparen := (Sql.symbol_suffix hclose).length_le
        rw [List.length_cons] at hparen
        have hrow := length_rowText_single s
        rcases hfit with hcomma | hvalue
        · have hnone := Sql.suffix_of_not_mem hbehind hcomma
          exact absurd (hnone.subset (List.mem_cons_self ..)) (by decide)
        · have hbound := htext s hvalue
          omega
      · exact Sql.separated_ne_nil hmore (List.cons.inj hls).2.symm
    | cons t more =>
      obtain ⟨hls, -⟩ | ⟨_, right, _, hcomma, hmore, hls⟩ := hrest
      · obtain ⟨-, rfl⟩ := List.cons.inj hls
        cases hfits
      obtain ⟨rfl, rfl⟩ := List.cons.inj hls
      refine ih ?_ hmore
      have hright := Sql.symbol_suffix hcomma
      have hrow := length_rowText_cons s t more
      have hwhole : (codePoint ',' :: right) <:+ rowText (s :: t :: more) :=
        hright.trans (hafter.trans ((List.suffix_cons _ _).trans hbehind))
      refine List.suffix_of_suffix_length_le hwhole (rowText_suffix s t more) (hright.length_le.trans ?_)
      rcases hfit with hnone | hvalue
      -- the comma behind the last literal is the one that separates the fields, or a later one
      · have hsep := (Sql.suffix_of_not_mem hbehind hnone).length_le
        rw [List.length_append, List.length_cons] at hsep
        have htwo : (py ", ").length = 2 := rfl
        omega
      · have hbound := htext s hvalue
        omega

/-! ### Values in a row -/

section Values
variable {reprStr : List CodePoint → List CodePoint}

theorem fold_true : (py "True").foldlM Sql.Shape.next .start = some .word := by decide

theorem fold_false : (py "False").foldlM Sql.Shape.next .start = some .word := by decide

theorem fold_none : (py "None").foldlM Sql.Shape.next .start = some .word := by decide

variable (reprStr) in
/-- A plain value is read as a literal that denotes it. -/
theorem literal_plain {x : Json} (h : Plain x) {rest : List CodePoint} (hrest : Sql.Ends rest) :
    ∃ l, Sql.literal (pyFormat reprStr x ++ rest) = some (l, rest) ∧ Denotes l x := by
  cases x with
  | bool b =>
    cases b with
    | false => exact ⟨.bool false, Sql.literal_word fold_false hrest, rfl⟩
    | true => exact ⟨.bool true, Sql.literal_word fold_true hrest, rfl⟩
  | int n =>
    obtain ⟨hnumeral, hvalue⟩ := numeral_int n
    exact ⟨.number ⟨_, hnumeral⟩, Sql.literal_numeral hnumeral hrest, hvalue⟩
  | float repr => exact ⟨.number ⟨repr, h⟩, Sql.literal_numeral h hrest, rfl⟩
  | str t =>
    obtain ⟨n, rfl⟩ := h
    obtain ⟨hnumeral, hvalue⟩ := numeral_int n
    exact ⟨.number ⟨_, hnumeral⟩, Sql.literal_numeral hnumeral hrest, n, rfl, hvalue⟩
  | null | arr items | obj members => cases h

theorem literal_none {rest : List CodePoint} (hrest : Sql.Ends rest) : Sql.literal (py "None" ++ rest) = none := by
  have hkeyword : Sql.keywordLiteral (py "None") = none := by decide
  rw [Sql.literal_word fold_none hrest, hkeyword]
  rfl

/-- What a literal denotes is plain, or nothing, or a text. -/
theorem denotes_cases {l : Sql.Literal} {x : Json} (h : Denotes l x) :
    Plain x ∨ x = .null ∨ ∃ s, l = .text s ∧ x = .str s := by
  cases l with
  | null =>
    cases x with
    | null => exact .inr (.inl rfl)
    | _ => cases h
  | bool b =>
    cases x with
    | bool c => exact .inl trivial
    | _ => cases h
  | number numeral =>
    cases x with
    | int n => exact .inl trivial
    | float repr =>
      have hrepr : numeral.digits = repr := h
      exact .inl (show Sql.isNumeral repr = true from hrepr ▸ numeral.valid)
    | str t =>
      obtain ⟨n, hn, -⟩ := h
      exact .inl ⟨n, hn⟩
    | _ => cases h
  | text s =>
    cases x with
    | str t => exact .inr (.inr ⟨s, rfl, congrArg Json.str (Eq.symm h)⟩)
    | _ => cases h

variable (reprStr) in
theorem plain_numeral {x : Json} (h : Plain x) : ∃ q, (pyFormat reprStr x).foldlM Sql.Shape.next .start = some q := by
  cases x with
  | bool b => cases b with
    | false => exact ⟨_, fold_false⟩
    | true => exact ⟨_, fold_true⟩
  | int n => exact (Sql.isNumeral_eq (numeral_int n).1).imp fun _ h => h.1
  | float repr => exact (Sql.isNumeral_eq h).imp fun _ h => h.1
  | str t =>
    obtain ⟨n, rfl⟩ := h
    exact (Sql.isNumeral_eq (numeral_int n).1).imp fun _ h => h.1
  | null | arr items | obj members => cases h

theorem fits_value {l : Sql.Literal} {x : Json} (h : Denotes l x ∨ Plain x) : Fits l (pyFormat reprStr x) := by
  have hplain : Plain x → Fits l (pyFormat reprStr x) := fun hx => by
    obtain ⟨q, hq⟩ := plain_numeral reprStr hx
    exact .inl (Sql.no_comma hq)
  rcases h with h | h
  · rcases denotes_cases h with hx | rfl | ⟨s, rfl, rfl⟩
    · exact hplain hx
    · exact .inl (Sql.no_comma fold_none)
    · exact .inr rfl
  · exact hplain h

theorem ends_close : Sql.Ends (py " );") := by
  intro p hp
  exact .inr (Option.some.inj hp).symm

theorem ends_comma (rest : List CodePoint) : Sql.Ends (py ", " ++ rest) := by
  intro p hp
  exact .inl (Option.some.inj hp).symm

/-- Behind a value that is not the last the row goes on. -/
theorem rowText_map_cons (x y : Json) (more : List Json) :
    rowText ((x :: y :: more).map (pyFormat reprStr)) =
      pyFormat reprStr x ++ (py ", " ++ rowText ((y :: more).map (pyFormat reprStr))) := rfl

/-- No value is read as a string literal: that ends in the field of the next one. -/
theorem text_false {s : List CodePoint} {texts : List (List CodePoint)} {ls : List Sql.Literal} {fuel : Nat}
    {rest left : List CodePoint}
    (hread : Sql.separated Sql.literal fuel (codePoint ' ' :: rowText (s :: texts)) = some (.text s :: ls, rest))
    (hclose : Sql.symbol (codePoint ')') rest = some left) (hfits : List.Forall₂ Fits ls texts) : False := by
  obtain ⟨l, after, hl, hrest⟩ := Sql.separated_eq_some hread
  rw [Sql.literal_space] at hl
  obtain ⟨hafter, -, htext⟩ := Sql.literal_left hl
  cases texts with
  | nil =>
    cases hfits
    obtain ⟨hls, rfl⟩ | ⟨_, _, _, -, hmore, hls⟩ := hrest
    · obtain ⟨rfl, -⟩ := List.cons.inj hls
      have hbound := htext s rfl
      have hrow := length_rowText_single s
      have hparen := Sql.symbol_suffix hclose
      have hlength := hparen.length_le
      rw [List.length_cons] at hlength
      exact close_not_last (hparen.trans hafter) (List.length_eq_zero_iff.mp (by omega))
    · exact Sql.separated_ne_nil hmore (List.cons.inj hls).2.symm
  | cons t more =>
    obtain ⟨hls, -⟩ | ⟨_, right, _, hcomma, hmore, hls⟩ := hrest
    · obtain ⟨-, rfl⟩ := List.cons.inj hls
      cases hfits
    obtain ⟨rfl, rfl⟩ := List.cons.inj hls
    have hbound := htext s rfl
    have hright := Sql.symbol_suffix hcomma
    have hrow := length_rowText_cons s t more
    have hbehind : (codePoint ',' :: right) <:+ rowText (t :: more) :=
      List.suffix_of_suffix_length_le (hright.trans hafter) (rowText_suffix s t more) (hright.length_le.trans (by omega))
    exact behind_false hbehind hmore hclose hfits

/-- **A row that is read as literals of its values has plain ones only.** -/
theorem row_plain {values : List Json} {ls : List Sql.Literal} {fuel : Nat} {rest left : List CodePoint}
    (hread : Sql.separated Sql.literal fuel (codePoint ' ' :: rowText (values.map (pyFormat reprStr))) =
      some (ls, rest))
    (hclose : Sql.symbol (codePoint ')') rest = some left)
    (hdenotes : List.Forall₂ (fun l x => Denotes l x ∨ Plain x) ls values) : ∀ x ∈ values, Plain x := by
  induction hdenotes generalizing fuel with
  | nil => exact absurd rfl (Sql.separated_ne_nil hread)
  | @cons l x ls values hx hxs ih =>
    have hfits : List.Forall₂ Fits ls (values.map (pyFormat reprStr)) := by
      rw [List.forall₂_map_right_iff]
      exact hxs.imp fun _ _ h => fits_value h
    obtain ⟨l', after, hl, hrest⟩ := Sql.separated_eq_some hread
    rw [Sql.literal_space] at hl
    have htail : ∃ tail, rowText ((x :: values).map (pyFormat reprStr)) = pyFormat reprStr x ++ tail ∧
        Sql.Ends tail := by
      cases values with
      | nil => exact ⟨_, rfl, ends_close⟩
      | cons y more => exact ⟨_, rfl, ends_comma _⟩
    obtain ⟨tail, hrow, hends⟩ := htail
    have hplain : Plain x := by
      rcases hx with hx | hx
      · rcases denotes_cases hx with hx | rfl | ⟨s, rfl, rfl⟩
        · exact hx
        · rw [hrow] at hl
          exact absurd ((literal_none hends).symm.trans hl) (by simp)
        · exact (text_false hread hclose hfits).elim
      · exact hx
    rw [List.forall_mem_cons]
    refine ⟨hplain, ?_⟩
    obtain ⟨l'', hl'', -⟩ := literal_plain reprStr hplain hends
    rw [hrow, hl'', Option.some.injEq, Prod.mk.injEq] at hl
    obtain ⟨rfl, rfl⟩ := hl
    obtain ⟨hls, rfl⟩ | ⟨fuel', right, ls', hcomma, hmore, hls⟩ := hrest
    · obtain ⟨-, rfl⟩ := List.cons.inj hls
      cases hxs
      exact fun _ h => absurd h List.not_mem_nil
    obtain ⟨rfl, rfl⟩ := List.cons.inj hls
    cases values with
    | nil => cases hxs; exact absurd rfl (Sql.separated_ne_nil hmore)
    | cons y more =>
      rw [rowText_map_cons] at hrow
      obtain rfl := List.append_cancel_left hrow
      obtain rfl := Option.some.inj hcomma
      exact ih hmore

variable (reprStr) in
/-- Plain values are read back. -/
theorem row_read {values : List Json} (hne : values ≠ []) (hplain : ∀ x ∈ values, Plain x) {fuel : Nat}
    (hfuel : values.length ≤ fuel) : ∃ ls,
      Sql.separated Sql.literal fuel (codePoint ' ' :: rowText (values.map (pyFormat reprStr))) =
        some (ls, py " );") ∧ List.Forall₂ Denotes ls values := by
  induction values generalizing fuel with
  | nil => exact absurd rfl hne
  | cons x values ih =>
    rw [List.forall_mem_cons] at hplain
    obtain ⟨fuel, rfl⟩ : ∃ k, fuel = k + 1 := ⟨fuel - 1, by rw [List.length_cons] at hfuel; omega⟩
    cases values with
    | nil =>
      obtain ⟨l, hl, hdenotes⟩ := literal_plain reprStr hplain.1 ends_close
      have hrow : Sql.literal (codePoint ' ' :: rowText ([x].map (pyFormat reprStr))) = some (l, py " );") := hl
      have hlast : Sql.symbol (codePoint ',') (py " );") = none := by decide
      refine ⟨[l], ?_, .cons hdenotes .nil⟩
      rw [Sql.separated, hrow]
      simp only [Option.bind_eq_bind, Option.bind_some, hlast]
    | cons y more =>
      obtain ⟨ls, hread, hdenotes⟩ := ih (List.cons_ne_nil _ _) hplain.2
        (Nat.le_of_succ_le_succ hfuel)
      obtain ⟨l, hl, hx⟩ := literal_plain reprStr hplain.1
        (ends_comma (rowText ((y :: more).map (pyFormat reprStr))))
      have hrow : Sql.literal (codePoint ' ' :: rowText ((x :: y :: more).map (pyFormat reprStr))) = _ := hl
      have hcomma : Sql.symbol (codePoint ',') (py ", " ++ rowText ((y :: more).map (pyFormat reprStr))) =
        some (codePoint ' ' :: rowText ((y :: more).map (pyFormat reprStr))) := rfl
      refine ⟨l :: ls, ?_, .cons hx hdenotes⟩
      rw [Sql.separated, hrow]
      simp only [Option.bind_eq_bind, Option.bind_some, hcomma, hread, Option.map_some]

end Values

/-! ### The statement -/

/-- Up to its row the statement is the one in the source. -/
theorem insert_statement (row : List CodePoint) : Sql.insert (statementHead ++ row) =
    (Sql.separated (Sql.parenthesized Sql.literal (statementHead ++ row).length)
        (statementHead ++ row).length (py " (" ++ row)).bind fun r =>
      if Sql.skip ((Sql.symbol (codePoint ';') r.2).getD r.2) = some [] then
        some ⟨py "events", [py "endpoint_id", py "event_time", py "message", py "event_type", py "pid"], r.1⟩
      else none := by
  rfl

/-- A row is what stands between its parentheses. -/
theorem row_eq_some {fuel : Nat} {row rest : List CodePoint} {ls : List Sql.Literal}
    (h : Sql.parenthesized Sql.literal fuel (py " (" ++ row) = some (ls, rest)) :
    ∃ fuel left, Sql.separated Sql.literal fuel row = some (ls, left) ∧
      Sql.symbol (codePoint ')') left = some rest := by
  have hopen : Sql.symbol (codePoint '(') (py " (" ++ row) = some row := rfl
  simp only [Sql.parenthesized, hopen, Option.bind_eq_bind, Option.bind_some, Option.bind_eq_some_iff] at h
  obtain ⟨⟨ls', left⟩, hread, close, hclose, heq⟩ := h
  obtain ⟨rfl, rfl⟩ := Prod.mk.inj (Option.some.inj heq)
  exact ⟨fuel, left, hread, hclose⟩

/-- The statement over a row that is closed right. -/
theorem insert_row {row : List CodePoint} {ls : List Sql.Literal}
    (h : Sql.separated Sql.literal (statementHead ++ row).length row = some (ls, py " );")) :
    Sql.insert (statementHead ++ row) = some ⟨py "events",
      [py "endpoint_id", py "event_time", py "message", py "event_type", py "pid"], [ls]⟩ := by
  have hopen : Sql.symbol (codePoint '(') (py " (" ++ row) = some row := rfl
  have hclose : Sql.symbol (codePoint ')') (py " );") = some (py ";") := by decide
  have hsingle : Sql.symbol (codePoint ',') (py ";") = none := by decide
  have hend : Sql.skip ((Sql.symbol (codePoint ';') (py ";")).getD (py ";")) = some [] := by decide
  have hrow : Sql.parenthesized Sql.literal (statementHead ++ row).length (py " (" ++ row) = some (ls, py ";") := by
    simp only [Sql.parenthesized, hopen, Option.bind_eq_bind, Option.bind_some, h, hclose]
    rfl
  rw [insert_statement]
  generalize (statementHead ++ row).length = fuel at h hrow ⊢
  cases fuel with
  | zero => cases h
  | succ fuel =>
    rw [Sql.separated, hrow]
    simp only [Option.bind_eq_bind, Option.bind_some, hsingle, hend, if_true]

section Shape
variable {reprStr : List CodePoint → List CodePoint} {endpointId timestamp type pid : Json}

/-- The values the statement is made of. -/
abbrev rowValues (endpointId timestamp type pid : Json) : List Json := [endpointId, timestamp, .int 0, type, pid]

/-- The statement over these values. -/
abbrev statementText (reprStr : List CodePoint → List CodePoint) (endpointId timestamp type pid : Json) :
    List CodePoint :=
  statementHead ++ codePoint ' ' :: rowText ((rowValues endpointId timestamp type pid).map (pyFormat reprStr))

/-- The f-string is the statement over the values it formats. -/
theorem insertStatement_text (reprStr : List CodePoint → List CodePoint) (endpointId timestamp type pid : Json) :
    py "INSERT INTO events (endpoint_id, event_time, message, event_type, pid) VALUES ( " ++
        pyFormat reprStr endpointId ++ py ", " ++ pyFormat reprStr timestamp ++ py ", 0, " ++
        pyFormat reprStr type ++ py ", " ++ pyFormat reprStr pid ++ py " );" =
      statementText reprStr endpointId timestamp type pid := by
  have hhead : py "INSERT INTO events (endpoint_id, event_time, message, event_type, pid) VALUES ( " =
      statementHead ++ [codePoint ' '] :=
    py_append "INSERT INTO events (endpoint_id, event_time, message, event_type, pid) VALUES (" " "
  have hthird : py ", 0, " = py ", " ++ (py "0" ++ py ", ") := by
    simp only [← py_append, String.reduceAppend]
  have hzero : pyFormat reprStr (.int 0) = py "0" := rfl
  simp only [statementText, rowValues, rowText, List.map_cons, List.map_nil, hhead, hthird, hzero,
    List.append_assoc, List.cons_append, List.nil_append]

theorem insertStatement_eq_ok {host : LogsHost} {event : Json} {statement : List CodePoint} :
    insertStatement host endpointId event = .ok statement ↔ ∃ timestamp type pid,
      EventFields event timestamp type pid ∧ statement = statementText host.reprStr endpointId timestamp type pid := by
  unfold insertStatement
  constructor
  · intro h
    cases htimestamp : subscriptName event "timestamp" with
    | error e => rw [htimestamp] at h; cases h
    | ok timestamp =>
      cases htype : subscriptName event "type" with
      | error e => rw [htimestamp, htype] at h; cases h
      | ok type =>
        cases hpid : subscriptName event "pid" with
        | error e => rw [htimestamp, htype, hpid] at h; cases h
        | ok pid =>
          rw [htimestamp, htype, hpid] at h
          refine ⟨timestamp, type, pid, ⟨htimestamp, htype, hpid⟩, ?_⟩
          rw [← insertStatement_text]
          exact (Except.ok.inj h).symm
  · intro ⟨timestamp, type, pid, ⟨htimestamp, htype, hpid⟩, hstatement⟩
    rw [htimestamp, htype, hpid, hstatement, ← insertStatement_text]
    rfl

/-- The statement keeps its shape exactly for plain values. -/
theorem keepsShape_iff :
    KeepsShape (statementText reprStr endpointId timestamp type pid) endpointId timestamp type pid ↔
      Plain endpointId ∧ Plain timestamp ∧ Plain type ∧ Plain pid := by
  unfold KeepsShape
  refine ⟨fun ⟨id, time, message, kind, process, hinsert, hid, htime, hkind, hprocess⟩ => ?_, fun h => ?_⟩
  · rw [insert_statement, Option.bind_eq_some_iff] at hinsert
    obtain ⟨⟨rows, rest⟩, hrows, hend⟩ := hinsert
    dsimp only at hend
    split_ifs at hend
    obtain rfl := (Sql.Insert.mk.inj (Option.some.inj hend)).2.2
    obtain ⟨fuel, left, hread, hclose⟩ := row_eq_some (Sql.separated_single hrows)
    have hvalues := row_plain hread hclose
      (.cons (.inl hid) (.cons (.inl htime) (.cons (.inr trivial) (.cons (.inl hkind) (.cons (.inl hprocess) .nil)))))
    simp only [List.forall_mem_cons] at hvalues
    exact ⟨hvalues.1, hvalues.2.1, hvalues.2.2.2.1, hvalues.2.2.2.2.1⟩
  · obtain ⟨hid, htime, hkind, hprocess⟩ := h
    have hplain : ∀ x ∈ rowValues endpointId timestamp type pid, Plain x := by
      simp only [List.forall_mem_cons]
      exact ⟨hid, htime, trivial, hkind, hprocess, fun x hx => absurd hx List.not_mem_nil⟩
    have hlength : (rowValues endpointId timestamp type pid).length ≤
        (statementText reprStr endpointId timestamp type pid).length := by
      have hfive : 5 ≤ statementHead.length := by decide
      rw [List.length_append]
      exact Nat.le_add_right_of_le hfive
    obtain ⟨ls, hread, hdenotes⟩ := row_read reprStr (List.cons_ne_nil _ _) hplain hlength
    obtain ⟨id, time, message, kind, process, rfl, h1, h2, -, h4, h5⟩ : ∃ a b c d e, ls = [a, b, c, d, e] ∧
        Denotes a endpointId ∧ Denotes b timestamp ∧ Denotes c (.int 0) ∧ Denotes d type ∧ Denotes e pid := by
      obtain _ | ⟨h1, _ | ⟨h2, _ | ⟨h3, _ | ⟨h4, _ | ⟨h5, ⟨⟩⟩⟩⟩⟩⟩ := hdenotes
      exact ⟨_, _, _, _, _, rfl, h1, h2, h3, h4, h5⟩
    exact ⟨id, time, message, kind, process, insert_row hread, h1, h2, h4, h5⟩

end Shape

/-! ### Requests -/

section Requests
variable (host : LogsHost)

/-- The values `submit_logs` reads from a request, of its first event. -/
def PayloadValues (request : Request) (endpointId timestamp type pid : Json) : Prop :=
  ∃ data event rest, request.json = .ok data ∧ subscript data (.str (py "id")) = some endpointId ∧
    (subscript data (.str (py "events"))).bind elements = some (event :: rest) ∧
    EventFields event timestamp type pid

/-- Whatever is executed is one `INSERT` of the values of the request. -/
def ShapeKept (request : Request) (faults : Nat → Nat → Option (List CodePoint)) (s : List EventRow) : Prop :=
  ∀ statement ∈ (submitLogs host request faults s).executed, ∃ endpointId timestamp type pid,
    PayloadValues request endpointId timestamp type pid ∧ KeepsShape statement endpointId timestamp type pid

variable {host}

theorem Attempts.values {request : Request} {faults : Nat → Nat → Option (List CodePoint)}
    {endpointId event : Json} (h : Attempts host request faults endpointId event) {timestamp type pid : Json}
    (hfields : EventFields event timestamp type pid) : PayloadValues request endpointId timestamp type pid := by
  obtain ⟨data, rest, hjson, hid, hevents⟩ := h.payload
  exact ⟨data, event, rest, hjson, hid, hevents, hfields⟩

/-- A request has one id and one first event. -/
theorem PayloadValues.unique {request : Request} {endpointId timestamp type pid : Json}
    (h : PayloadValues request endpointId timestamp type pid) {endpointId' timestamp' type' pid' : Json}
    (h' : PayloadValues request endpointId' timestamp' type' pid') :
    endpointId = endpointId' ∧ timestamp = timestamp' ∧ type = type' ∧ pid = pid' := by
  obtain ⟨data, event, rest, hjson, hid, hevents, hfields⟩ := h
  obtain ⟨data', event', rest', hjson', hid', hevents', hfields'⟩ := h'
  obtain rfl := Except.ok.inj (hjson.symm.trans hjson')
  obtain rfl := (List.cons.inj (Option.some.inj (hevents.symm.trans hevents'))).1
  exact ⟨Option.some.inj (hid.symm.trans hid'), Except.ok.inj (hfields.timestamp.symm.trans hfields'.timestamp),
    Except.ok.inj (hfields.type.symm.trans hfields'.type), Except.ok.inj (hfields.pid.symm.trans hfields'.pid)⟩

/-- **The statement keeps its shape exactly if the request does not get to it, or its
four values are plain.** -/
theorem submitLogs_shape_iff (request : Request) (faults : Nat → Nat → Option (List CodePoint))
    (s : List EventRow) :
    ShapeKept host request faults s ↔
      ∀ endpointId event timestamp type pid, Attempts host request faults endpointId event →
        EventFields event timestamp type pid →
        Plain endpointId ∧ Plain timestamp ∧ Plain type ∧ Plain pid := by
  unfold ShapeKept
  refine ⟨fun h endpointId event timestamp type pid hattempts hfields => ?_, fun h statement hstatement => ?_⟩
  · have hexecuted : statementText host.reprStr endpointId timestamp type pid ∈
        (submitLogs host request faults s).executed :=
      (submitLogs_executed request faults s _).mpr
        ⟨endpointId, event, hattempts, insertStatement_eq_ok.mpr ⟨_, _, _, hfields, rfl⟩⟩
    obtain ⟨_, _, _, _, hvalues, hshape⟩ := h _ hexecuted
    obtain ⟨rfl, rfl, rfl, rfl⟩ := hvalues.unique (hattempts.values hfields)
    exact keepsShape_iff.mp hshape
  · obtain ⟨endpointId, event, hattempts, hinsert⟩ := (submitLogs_executed request faults s _).mp hstatement
    obtain ⟨timestamp, type, pid, hfields, rfl⟩ := insertStatement_eq_ok.mp hinsert
    exact ⟨endpointId, timestamp, type, pid, hattempts.values hfields,
      keepsShape_iff.mpr (h _ _ _ _ _ hattempts hfields)⟩

end Requests

/-! ### An id that brings a row -/

/-- An id that closes its row and opens another. -/
def secondRowId : Json := .str (py "1, 0, 0, 0, 0), (2")

def secondRowPayload : Json := .obj [(py "id", secondRowId), (py "events", .arr [sampleEvent])]

/-- It is inserted with two rows. -/
theorem secondRow_inserted :
    ¬ ShapeKept sampleHost ⟨none, .ok secondRowPayload⟩ (fun _ => answering) [] := by
  intro h
  have hfields : EventFields sampleEvent (.int 1700000000) (.int 0) (.int 42) := ⟨rfl, rfl, rfl⟩
  have hattempts : Attempts sampleHost ⟨none, .ok secondRowPayload⟩ (fun _ => answering) secondRowId sampleEvent :=
    ⟨⟨secondRowPayload, [], rfl, rfl, rfl⟩, ⟨rfl, rfl⟩, rfl⟩
  have hexecuted : statementText sampleHost.reprStr secondRowId (.int 1700000000) (.int 0) (.int 42) ∈
      (submitLogs sampleHost ⟨none, .ok secondRowPayload⟩ (fun _ => answering) []).executed :=
    (submitLogs_executed _ _ _ _).mpr
      ⟨_, _, hattempts, insertStatement_eq_ok.mpr ⟨_, _, _, hfields, rfl⟩⟩
  have hrows : (Sql.insert (statementText sampleHost.reprStr secondRowId (.int 1700000000) (.int 0) (.int 42))).map
      (·.rows.length) = some 2 := by
    decide +kernel
  obtain ⟨_, _, _, _, -, _, _, _, _, _, hinsert, -⟩ := h _ hexecuted
  rw [hinsert] at hrows
  cases hrows

end EndpointSecurity.Server
