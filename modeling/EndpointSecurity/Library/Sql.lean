import EndpointSecurity.Library.Utf8
import Mathlib.Algebra.Order.Field.Rat
import Mathlib.Data.List.TakeWhile

/-! The text of an `INSERT` statement.

MySQL's lexical rules, as far as an `INSERT` of literals needs them: blanks and
comments (`skip`; a block that starts with an exclamation mark is code, not a comment),
words and numbers by the longest match (`munch` over `Shape`), quoted strings with
their escapes, and the literals `NULL`, `TRUE` and `FALSE` (`literal`). `insert` reads
a whole statement and wants nothing but blanks behind it.

Every reader gives what it read and the rest of its text. A literal never takes more
characters off its text than it stands in (`literal_eq_some`), which is what bounds how
far the characters of one value can reach into the text of the next. -/
namespace EndpointSecurity.Library
namespace Sql

/-! ### Characters -/

def isSpace (p : CodePoint) : Bool := p.val = 32 || (9 ≤ p.val && p.val ≤ 13)

def isDigit (p : CodePoint) : Bool := 48 ≤ p.val && p.val ≤ 57

def isLetter (p : CodePoint) : Bool := (65 ≤ p.val && p.val ≤ 90) || (97 ≤ p.val && p.val ≤ 122)

/-- What an identifier is made of. -/
def isWordPoint (p : CodePoint) : Bool :=
  isDigit p || isLetter p || p = codePoint '_' || p = codePoint '$' || 128 ≤ p.val

def isExponentMark (p : CodePoint) : Bool := p = codePoint 'e' || p = codePoint 'E'

def isSign (p : CodePoint) : Bool := p = codePoint '+' || p = codePoint '-'

def toUpper (p : CodePoint) : CodePoint :=
  if 97 ≤ p.val ∧ p.val ≤ 122 then ⟨p.val - 32, Nat.lt_of_le_of_lt (Nat.sub_le _ _) p.isLt⟩ else p

/-! ### Blanks and comments -/

/-- Where `skip` is. -/
inductive Gap where
  | code
  | line
  /-- Between the two characters that open a block. -/
  | opening
  /-- In a block, right behind a star or not. -/
  | block (star : Bool)

/-- `--` opens a comment if a blank, a control character or nothing follows. -/
def opensLine (rest : List CodePoint) : Bool :=
  rest.head? = some (codePoint '-') && (rest.tail.head?.all fun p => isSpace p || p.val < 32 || p.val = 127)

def opensBlock (rest : List CodePoint) : Bool :=
  rest.head? = some (codePoint '*') && rest.tail.head? != some (codePoint '!')

/-- What is left behind blanks and comments; nothing, if a comment does not end. -/
def skipFrom : Gap → List CodePoint → Option (List CodePoint)
  | .code, [] | .line, [] => some []
  | .opening, [] | .block _, [] => none
  | .code, p :: rest =>
    if isSpace p then skipFrom .code rest
    else if p = codePoint '#' then skipFrom .line rest
    else if p = codePoint '-' ∧ opensLine rest then skipFrom .line rest
    else if p = codePoint '/' ∧ opensBlock rest then skipFrom .opening rest
    else some (p :: rest)
  | .line, p :: rest => if p = codePoint '\n' then skipFrom .code rest else skipFrom .line rest
  | .opening, _ :: rest => skipFrom (.block false) rest
  | .block star, p :: rest =>
    if star ∧ p = codePoint '/' then skipFrom .code rest else skipFrom (.block (p = codePoint '*')) rest

def skip : List CodePoint → Option (List CodePoint) := skipFrom .code

/-- The next character, if it is this one. -/
def symbol (c : CodePoint) (text : List CodePoint) : Option (List CodePoint) := do
  let rest ← skip text
  if rest.head? = some c then some rest.tail else none

/-! ### The longest match -/

/-- As far as the transitions take: what was read, the state, and the rest. -/
def munch {σ α : Type} (next : σ → α → Option σ) : σ → List α → List α × σ × List α
  | q, [] => ([], q, [])
  | q, a :: rest =>
    match next q a with
    | none => ([], q, a :: rest)
    | some q' =>
      let (read, last, rest) := munch next q' rest
      (a :: read, last, rest)

/-- What the characters read so far look like. -/
inductive Shape where
  | start
  | sign
  | integer
  /-- A point without digits. -/
  | point
  | fraction
  | exponentMark
  | exponentSign
  | exponent
  | word
deriving DecidableEq

def Shape.next : Shape → CodePoint → Option Shape
  | .start, p =>
    if isDigit p then some .integer
    else if isWordPoint p then some .word
    else if isSign p then some .sign
    else if p = codePoint '.' then some .point
    else none
  | .sign, p => if isDigit p then some .integer else if p = codePoint '.' then some .point else none
  | .integer, p =>
    if isDigit p then some .integer
    else if p = codePoint '.' then some .fraction
    else if isExponentMark p then some .exponentMark
    else if isWordPoint p then some .word
    else none
  | .point, p => if isDigit p then some .fraction else none
  | .fraction, p =>
    if isDigit p then some .fraction
    else if isExponentMark p then some .exponentMark
    else if isWordPoint p then some .word
    else none
  | .exponentMark, p =>
    if isDigit p then some .exponent
    else if isSign p then some .exponentSign
    else if isWordPoint p then some .word
    else none
  | .exponentSign, p => if isDigit p then some .exponent else none
  | .exponent, p => if isDigit p then some .exponent else if isWordPoint p then some .word else none
  | .word, p => if isWordPoint p then some .word else none

def Shape.isNumber : Shape → Bool
  | .integer | .fraction | .exponent => true
  | _ => false

/-- The text is a number, as a whole. -/
def isNumeral (s : List CodePoint) : Bool := (s.foldlM Shape.next .start).any Shape.isNumber

/-! ### Numbers -/

def decimal (digits : List CodePoint) : Nat := digits.foldl (fun n p => 10 * n + (p.val - 48)) 0

/-- An integer with or without a sign. -/
def integerValue (s : List CodePoint) : Int :=
  if s.head? = some (codePoint '-') then -decimal s.tail
  else if s.head? = some (codePoint '+') then decimal s.tail
  else decimal s

/-- The number a numeral stands for. -/
def numeralValue (s : List CodePoint) : ℚ :=
  let mantissa := s.takeWhile fun p => !isExponentMark p
  let whole := mantissa.takeWhile (· != codePoint '.')
  let fraction := (mantissa.dropWhile (· != codePoint '.')).tail
  integerValue (whole ++ fraction) *
    10 ^ (integerValue ((s.dropWhile fun p => !isExponentMark p).tail) - fraction.length)

/-! ### Strings -/

/-- What a backslash and a character stand for. -/
def unescaped (p : CodePoint) : List CodePoint :=
  if p = codePoint '0' then [codePoint '\x00']
  else if p = codePoint 'b' then [codePoint '\x08']
  else if p = codePoint 'n' then [codePoint '\n']
  else if p = codePoint 'r' then [codePoint '\r']
  else if p = codePoint 't' then [codePoint '\t']
  else if p = codePoint 'Z' then [codePoint '\x1a']
  -- these keep it, for patterns
  else if p = codePoint '%' ∨ p = codePoint '_' then [codePoint '\\', p]
  else [p]

/-- The rest of a string behind its opening quote. -/
def quoted (quote : CodePoint) : List CodePoint → Option (List CodePoint × List CodePoint)
  | [] => none
  | [p] => if p = quote then some ([], []) else none
  | p :: e :: rest =>
    if p = codePoint '\\' then (quoted quote rest).map fun r => (unescaped e ++ r.1, r.2)
    else if p = quote then
      if e = quote then (quoted quote rest).map fun r => (quote :: r.1, r.2) else some ([], e :: rest)
    else (quoted quote (e :: rest)).map fun r => (p :: r.1, r.2)

/-! ### Literals -/

structure Numeral where
  digits : List CodePoint
  valid : isNumeral digits = true
deriving DecidableEq

inductive Literal where
  | null
  | bool (b : Bool)
  | number (numeral : Numeral)
  | text (s : List CodePoint)
deriving DecidableEq

def keywordLiteral (word : List CodePoint) : Option Literal :=
  if word.map toUpper = points "NULL".toList then some .null
  else if word.map toUpper = points "TRUE".toList then some (.bool true)
  else if word.map toUpper = points "FALSE".toList then some (.bool false)
  else none

def isQuote (p : CodePoint) : Bool := p = codePoint '\'' || p = codePoint '"'

def literal (text : List CodePoint) : Option (Literal × List CodePoint) := do
  let start ← skip text
  match start with
  | [] => none
  | p :: rest =>
    if isQuote p then (quoted p rest).map fun r => (.text r.1, r.2)
    else
      let (read, shape, rest) := munch Shape.next .start (p :: rest)
      if h : isNumeral read = true then some (.number ⟨read, h⟩, rest)
      else if shape = .word then (keywordLiteral read).map (·, rest)
      else none

/-! ### Statements -/

def word (text : List CodePoint) : Option (List CodePoint × List CodePoint) := do
  let start ← skip text
  let (read, shape, rest) := munch Shape.next .start start
  if shape = .word then some (read, rest) else none

def keyword (name : List CodePoint) (text : List CodePoint) : Option (List CodePoint) := do
  let (read, rest) ← word text
  if read.map toUpper = name then some rest else none

/-- One or more, with commas between them. -/
def separated {β : Type} (read : List CodePoint → Option (β × List CodePoint)) :
    Nat → List CodePoint → Option (List β × List CodePoint)
  | 0, _ => none
  | fuel + 1, text => do
    let (b, rest) ← read text
    match symbol (codePoint ',') rest with
    | none => some ([b], rest)
    | some rest => (separated read fuel rest).map fun r => (b :: r.1, r.2)

def parenthesized {β : Type} (read : List CodePoint → Option (β × List CodePoint)) (fuel : Nat)
    (text : List CodePoint) : Option (List β × List CodePoint) := do
  let rest ← symbol (codePoint '(') text
  let (bs, rest) ← separated read fuel rest
  let rest ← symbol (codePoint ')') rest
  return (bs, rest)

structure Insert where
  table : List CodePoint
  columns : List (List CodePoint)
  rows : List (List Literal)
deriving DecidableEq

/-- `INSERT INTO table (columns) VALUES rows`, and nothing else. -/
def insert (text : List CodePoint) : Option Insert := do
  let rest ← keyword (points "INSERT".toList) text
  let rest ← keyword (points "INTO".toList) rest
  let (table, rest) ← word rest
  let (columns, rest) ← parenthesized word text.length rest
  let rest ← keyword (points "VALUES".toList) rest
  let (rows, rest) ← separated (parenthesized literal text.length) text.length rest
  if skip ((symbol (codePoint ';') rest).getD rest) = some [] then some ⟨table, columns, rows⟩ else none

/-! ### What is left behind a reader -/

theorem skipFrom_suffix {gap : Gap} {text rest : List CodePoint} (h : skipFrom gap text = some rest) :
    rest <:+ text := by
  induction text generalizing gap with
  | nil => cases gap <;> simp_all [skipFrom]
  | cons p text ih =>
    have hlater : ∀ {gap}, skipFrom gap text = some rest → rest <:+ p :: text :=
      fun h => (ih h).trans (List.suffix_cons p text)
    cases gap with
    | code =>
      simp only [skipFrom] at h
      split_ifs at h
      · exact hlater h
      · exact hlater h
      · exact hlater h
      · exact hlater h
      · exact Option.some.inj h ▸ List.suffix_rfl
    | line =>
      simp only [skipFrom] at h
      split_ifs at h <;> exact hlater h
    | opening => exact hlater h
    | block star =>
      simp only [skipFrom] at h
      split_ifs at h <;> exact hlater h

theorem symbol_suffix {c : CodePoint} {text rest : List CodePoint} (h : symbol c text = some rest) :
    (c :: rest) <:+ text := by
  unfold symbol at h
  cases hskip : skip text with
  | none => simp [hskip] at h
  | some left =>
    simp only [hskip, Option.bind_eq_bind, Option.bind_some] at h
    split_ifs at h with hhead
    obtain rfl := Option.some.inj h
    obtain ⟨tail, rfl⟩ := List.head?_eq_some_iff.mp hhead
    exact skipFrom_suffix hskip

theorem munch_append {σ α : Type} (next : σ → α → Option σ) (q : σ) (l : List α) :
    (munch next q l).1 ++ (munch next q l).2.2 = l := by
  induction l generalizing q with
  | nil => rfl
  | cons a l ih =>
    simp only [munch]
    cases next q a with
    | none => rfl
    | some q' => exact congrArg (a :: ·) (ih q')

/-- What was read leads to the state the match ends in. -/
theorem munch_fold {σ α : Type} (next : σ → α → Option σ) (q : σ) (l : List α) :
    (munch next q l).1.foldlM next q = some (munch next q l).2.1 := by
  induction l generalizing q with
  | nil => rfl
  | cons a l ih =>
    simp only [munch]
    cases hnext : next q a with
    | none => rfl
    | some q' =>
      simp only [List.foldlM_cons, hnext, Option.bind_eq_bind, Option.bind_some]
      exact ih q'

/-- The match reads exactly as far as there are transitions. -/
theorem munch_eq {σ α : Type} {next : σ → α → Option σ} {q q' : σ} {w rest : List α}
    (hw : w.foldlM next q = some q') (hstop : ∀ a ∈ rest.head?, next q' a = none) :
    munch next q (w ++ rest) = (w, q', rest) := by
  induction w generalizing q with
  | nil =>
    obtain rfl := Option.some.inj hw
    cases rest with
    | nil => rfl
    | cons a rest => simp only [List.nil_append, munch, hstop a rfl]
  | cons a w ih =>
    simp only [List.foldlM_cons, Option.bind_eq_bind, Option.bind_eq_some_iff] at hw
    obtain ⟨q1, hnext, hw⟩ := hw
    simp only [List.cons_append, munch, hnext, ih hw]

theorem unescaped_length (p : CodePoint) : (unescaped p).length ≤ 2 := by
  unfold unescaped
  split_ifs <;> simp

/-- A string is shorter than what it is written as. -/
theorem quoted_eq_some {quote : CodePoint} {text s rest : List CodePoint} (h : quoted quote text = some (s, rest)) :
    ∃ raw, text = raw ++ rest ∧ s.length < raw.length := by
  induction text using quoted.induct quote generalizing s with
  | case1 => cases h
  | case2 =>
    simp only [quoted, if_true, Option.some.injEq, Prod.mk.injEq] at h
    obtain ⟨rfl, rfl⟩ := h
    exact ⟨[quote], rfl, Nat.zero_lt_one⟩
  | case3 p hp => simp only [quoted, if_neg hp, reduceCtorEq] at h
  | case4 e text ih =>
    rw [quoted, if_pos rfl, Option.map_eq_some_iff] at h
    obtain ⟨⟨s', rest'⟩, hread, heq⟩ := h
    obtain ⟨rfl, rfl⟩ := Prod.mk.inj heq
    obtain ⟨raw, rfl, hlength⟩ := ih hread
    refine ⟨codePoint '\\' :: e :: raw, rfl, ?_⟩
    have hshort := unescaped_length e
    simp only [List.length_append, List.length_cons]
    omega
  | case5 text hquote ih =>
    rw [quoted, if_neg hquote, if_pos rfl, if_pos rfl, Option.map_eq_some_iff] at h
    obtain ⟨⟨s', rest'⟩, hread, heq⟩ := h
    obtain ⟨rfl, rfl⟩ := Prod.mk.inj heq
    obtain ⟨raw, rfl, hlength⟩ := ih hread
    refine ⟨quote :: quote :: raw, rfl, ?_⟩
    simp only [List.length_cons]
    omega
  | case6 e text he hquote =>
    rw [quoted, if_neg hquote, if_pos rfl, if_neg he, Option.some.injEq, Prod.mk.injEq] at h
    obtain ⟨rfl, rfl⟩ := h
    exact ⟨[quote], rfl, Nat.zero_lt_one⟩
  | case7 p e text hp hquote ih =>
    rw [quoted, if_neg hp, if_neg hquote, Option.map_eq_some_iff] at h
    obtain ⟨⟨s', rest'⟩, hread, heq⟩ := h
    obtain ⟨rfl, rfl⟩ := Prod.mk.inj heq
    obtain ⟨raw, hraw, hlength⟩ := ih hread
    refine ⟨p :: raw, by rw [hraw, List.cons_append], ?_⟩
    simp only [List.length_cons]
    omega

theorem keywordLiteral_text {w : List CodePoint} {l : Literal} (h : keywordLiteral w = some l) :
    ∀ s, l ≠ .text s := by
  unfold keywordLiteral at h
  split_ifs at h <;> cases h <;> simp

/-- **A literal stands in at least as many characters as it has**, and two more if it is
a string. -/
theorem literal_eq_some {text rest : List CodePoint} {l : Literal} (h : literal text = some (l, rest)) :
    ∃ raw, skip text = some (raw ++ rest) ∧ raw ≠ [] ∧ ∀ s, l = .text s → s.length + 2 ≤ raw.length := by
  unfold literal at h
  cases hskip : skip text with
  | none => simp [hskip] at h
  | some start =>
    cases start with
    | nil => simp [hskip] at h
    | cons p left =>
      simp only [hskip, Option.bind_eq_bind, Option.bind_some] at h
      by_cases hquote : isQuote p = true
      · rw [if_pos hquote, Option.map_eq_some_iff] at h
        obtain ⟨⟨s, rest'⟩, hread, heq⟩ := h
        obtain ⟨rfl, rfl⟩ := Prod.mk.inj heq
        obtain ⟨raw, rfl, hlength⟩ := quoted_eq_some hread
        refine ⟨p :: raw, rfl, List.cons_ne_nil _ _, fun t ht => ?_⟩
        have hst : s = t := Literal.text.inj ht
        subst hst
        rw [List.length_cons]
        omega
      rw [if_neg hquote] at h
      have hread := munch_append Shape.next .start (p :: left)
      have hfold := munch_fold Shape.next .start (p :: left)
      generalize munch Shape.next .start (p :: left) = m at h hread hfold
      obtain ⟨read, shape, left'⟩ := m
      dsimp only at h hread hfold
      by_cases hnumber : isNumeral read = true
      · rw [dif_pos hnumber, Option.some.injEq, Prod.mk.injEq] at h
        obtain ⟨rfl, rfl⟩ := h
        refine ⟨read, by rw [hread], fun hnil => ?_, fun t ht => by cases ht⟩
        rw [hnil] at hnumber
        cases hnumber
      rw [dif_neg hnumber] at h
      by_cases hword : shape = .word
      · rw [if_pos hword, Option.map_eq_some_iff] at h
        obtain ⟨l', hkeyword, heq⟩ := h
        obtain ⟨rfl, rfl⟩ := Prod.mk.inj heq
        refine ⟨read, by rw [hread], fun hnil => ?_, fun t ht => absurd ht (keywordLiteral_text hkeyword t)⟩
        rw [hnil, hword] at hfold
        cases hfold
      · rw [if_neg hword] at h
        cases h

/-- The text behind a literal, from the text the literal is read off. -/
theorem literal_left {text left : List CodePoint} {l : Literal} (h : literal text = some (l, left)) :
    left <:+ text ∧ left.length + 1 ≤ text.length ∧ ∀ s, l = .text s → left.length + s.length + 2 ≤ text.length := by
  obtain ⟨raw, hskip, hraw, htext⟩ := literal_eq_some h
  have hsuffix : (raw ++ left) <:+ text := skipFrom_suffix hskip
  have hlength := hsuffix.length_le
  rw [List.length_append] at hlength
  have hpos := List.length_pos_of_ne_nil hraw
  refine ⟨(List.suffix_append raw left).trans hsuffix, by omega, fun s hs => ?_⟩
  have hbound := htext s hs
  omega

/-- A list that ends another and starts with what the front of that does not have ends
the rest of it. -/
theorem suffix_of_not_mem {α : Type} {a : α} {l front back : List α} (h : (a :: l) <:+ front ++ back)
    (ha : a ∉ front) : (a :: l) <:+ back := by
  obtain ⟨before, heq⟩ := h
  rcases List.append_eq_append_iff.mp heq with ⟨mid, hfront, hback⟩ | ⟨mid, -, hback⟩
  · cases mid with
    | nil => exact hback ▸ List.suffix_rfl
    | cons b mid =>
      obtain ⟨rfl, -⟩ := List.cons.inj hback
      exact absurd (hfront ▸ List.mem_append_right _ (List.mem_cons_self ..)) ha
  · exact ⟨mid, hback.symm⟩

/-! ### What stands at the start -/

theorem literal_space (text : List CodePoint) : literal (codePoint ' ' :: text) = literal text := rfl

/-- A comma or a blank ends whatever is being read. -/
theorem next_stop (q : Shape) : q.next (codePoint ',') = none ∧ q.next (codePoint ' ') = none := by
  cases q <;> decide

theorem next_space {p : CodePoint} (h : isSpace p = true) : Shape.next .start p = none := by
  have hval : p.val = 32 ∨ 9 ≤ p.val ∧ p.val ≤ 13 := by simpa [isSpace] using h
  have hne : ∀ c : Char, 32 < c.toNat → p ≠ codePoint c := fun c hc hp => by
    have : p.val = c.toNat := congrArg Fin.val hp
    omega
  have hdigit : isDigit p = false := by
    simp only [isDigit, Bool.and_eq_false_iff, decide_eq_false_iff_not]
    omega
  have hletter : isLetter p = false := by
    simp only [isLetter, Bool.or_eq_false_iff, Bool.and_eq_false_iff, decide_eq_false_iff_not]
    omega
  have hhigh : ¬ 128 ≤ p.val := by omega
  simp only [Shape.next, isWordPoint, isSign, hdigit, hletter, hhigh, hne '_' (by decide), hne '$' (by decide),
    hne '+' (by decide), hne '-' (by decide), hne '.' (by decide), decide_false, Bool.or_false,
    Bool.false_eq_true, if_false]

theorem next_punctuation : ∀ c ∈ ['#', '/', '\'', '"'], Shape.next .start (codePoint c) = none := by
  simp only [List.forall_mem_cons]
  exact ⟨rfl, rfl, rfl, rfl, fun _ hc => absurd hc List.not_mem_nil⟩

/-- What a number or a word starts with is neither a blank nor a quote, and opens no
comment unless it is a minus. -/
theorem start_next {p : CodePoint} {q : Shape} (h : Shape.next .start p = some q) :
    isSpace p = false ∧ p ≠ codePoint '#' ∧ p ≠ codePoint '/' ∧ isQuote p = false ∧
      (p = codePoint '-' → q = .sign) := by
  have hne : ∀ c ∈ ['#', '/', '\'', '"'], p ≠ codePoint c := by
    intro c hc hp
    rw [hp, next_punctuation c hc] at h
    cases h
  refine ⟨?_, hne '#' (by decide), hne '/' (by decide), ?_, fun hp => ?_⟩
  · by_contra hspace
    rw [next_space (Bool.not_eq_false _ ▸ hspace)] at h
    cases h
  · simp only [isQuote, hne '\'' (by decide), hne '"' (by decide), decide_false, Bool.or_false]
  · rw [hp] at h
    exact (Option.some.inj h).symm

theorem skip_word {p : CodePoint} {w rest : List CodePoint} {q : Shape} (h : (p :: w).foldlM Shape.next .start = some q)
    (hq : q ≠ .sign) : skip (p :: (w ++ rest)) = some (p :: (w ++ rest)) := by
  simp only [List.foldlM_cons, Option.bind_eq_bind, Option.bind_eq_some_iff] at h
  obtain ⟨q1, hstart, hw⟩ := h
  obtain ⟨hspace, hhash, hslash, -, hminus⟩ := start_next hstart
  have hline : ¬ (p = codePoint '-' ∧ opensLine (w ++ rest) = true) := by
    intro ⟨hp, hopens⟩
    obtain rfl := hminus hp
    cases w with
    | nil => exact hq (Option.some.inj hw).symm
    | cons e w =>
      simp only [List.foldlM_cons, Option.bind_eq_bind, Option.bind_eq_some_iff] at hw
      obtain ⟨q2, hnext, -⟩ := hw
      have he : e = codePoint '-' := by
        have hhead := (Bool.and_eq_true _ _ ▸ hopens).1
        simpa using hhead
      have hnone : Shape.next .sign (codePoint '-') = none := by decide
      rw [he, hnone] at hnext
      cases hnext
  have hblock : ¬ (p = codePoint '/' ∧ opensBlock (w ++ rest) = true) := fun h => hslash h.1
  rw [skip, skipFrom, if_neg (by rw [hspace]; exact Bool.false_ne_true), if_neg hhash, if_neg hline, if_neg hblock]

/-- What follows a value: a comma or a blank, or nothing. -/
def Ends (rest : List CodePoint) : Prop := ∀ p ∈ rest.head?, p = codePoint ',' ∨ p = codePoint ' '

theorem Ends.stop {rest : List CodePoint} (h : Ends rest) (q : Shape) : ∀ p ∈ rest.head?, q.next p = none := by
  intro p hp
  obtain ⟨hcomma, hblank⟩ := next_stop q
  rcases h p hp with rfl | rfl
  · exact hcomma
  · exact hblank

/-- A number or a word is read as a whole, whatever value follows it. -/
theorem literal_eq {w rest : List CodePoint} {q : Shape} (hw : w.foldlM Shape.next .start = some q)
    (hq : q.isNumber = true ∨ q = .word) (hrest : Ends rest) :
    literal (w ++ rest) =
      if h : isNumeral w = true then some (.number ⟨w, h⟩, rest)
      else if q = .word then (keywordLiteral w).map (·, rest) else none := by
  cases w with
  | nil =>
    obtain rfl := Option.some.inj hw
    simp [Shape.isNumber] at hq
  | cons p w =>
    have hsign : q ≠ .sign := by
      rintro rfl
      simp [Shape.isNumber] at hq
    have hskip : skip (p :: (w ++ rest)) = _ := skip_word hw hsign
    have hmunch : munch Shape.next .start (p :: (w ++ rest)) = (p :: w, q, rest) := munch_eq hw (hrest.stop q)
    have hquote : isQuote p = false := by
      simp only [List.foldlM_cons, Option.bind_eq_bind, Option.bind_eq_some_iff] at hw
      obtain ⟨q1, hstart, -⟩ := hw
      exact (start_next hstart).2.2.2.1
    rw [List.cons_append, literal, hskip]
    simp only [Option.bind_eq_bind, Option.bind_some, hquote, Bool.false_eq_true, if_false, hmunch]

theorem isNumeral_eq {s : List CodePoint} (hs : isNumeral s = true) :
    ∃ q, s.foldlM Shape.next .start = some q ∧ q.isNumber = true := by
  unfold isNumeral at hs
  cases hfold : s.foldlM Shape.next .start with
  | none => rw [hfold] at hs; cases hs
  | some q =>
    rw [hfold] at hs
    exact ⟨q, rfl, hs⟩

theorem literal_numeral {s rest : List CodePoint} (hs : isNumeral s = true) (hrest : Ends rest) :
    literal (s ++ rest) = some (.number ⟨s, hs⟩, rest) := by
  obtain ⟨q, hfold, hnumber⟩ := isNumeral_eq hs
  rw [literal_eq hfold (.inl hnumber) hrest, dif_pos hs]

theorem literal_word {w rest : List CodePoint} (hw : w.foldlM Shape.next .start = some .word)
    (hrest : Ends rest) : literal (w ++ rest) = (keywordLiteral w).map (·, rest) := by
  have hnot : ¬ isNumeral w = true := by
    intro h
    rw [isNumeral, hw] at h
    cases h
  rw [literal_eq hw (.inr rfl) hrest, dif_neg hnot, if_pos rfl]

/-- No number or word has a comma. -/
theorem no_comma {w : List CodePoint} {q q' : Shape} (h : w.foldlM Shape.next q = some q') : codePoint ',' ∉ w := by
  induction w generalizing q with
  | nil => exact List.not_mem_nil
  | cons p w ih =>
    simp only [List.foldlM_cons, Option.bind_eq_bind, Option.bind_eq_some_iff] at h
    obtain ⟨q1, hnext, hw⟩ := h
    refine List.not_mem_cons_of_ne_of_not_mem (fun hp => ?_) (ih hw)
    rw [← hp, (next_stop q).1] at hnext
    cases hnext

theorem separated_eq_some {β : Type} {read : List CodePoint → Option (β × List CodePoint)} {fuel : Nat}
    {text rest : List CodePoint} {bs : List β} (h : separated read fuel text = some (bs, rest)) :
    ∃ b left, read text = some (b, left) ∧ ((bs = [b] ∧ rest = left) ∨
      ∃ fuel' right bs', symbol (codePoint ',') left = some right ∧
        separated read fuel' right = some (bs', rest) ∧ bs = b :: bs') := by
  cases fuel with
  | zero => cases h
  | succ fuel =>
    simp only [separated, Option.bind_eq_bind, Option.bind_eq_some_iff] at h
    obtain ⟨⟨b, left⟩, hread, h⟩ := h
    refine ⟨b, left, hread, ?_⟩
    dsimp only at h
    cases hcomma : symbol (codePoint ',') left with
    | none =>
      rw [hcomma] at h
      obtain ⟨rfl, rfl⟩ := Prod.mk.inj (Option.some.inj h)
      exact .inl ⟨rfl, rfl⟩
    | some right =>
      rw [hcomma, Option.map_eq_some_iff] at h
      obtain ⟨⟨bs', rest'⟩, hmore, heq⟩ := h
      obtain ⟨rfl, rfl⟩ := Prod.mk.inj heq
      exact .inr ⟨fuel, right, bs', rfl, hmore, rfl⟩

theorem separated_ne_nil {β : Type} {read : List CodePoint → Option (β × List CodePoint)} {fuel : Nat}
    {text rest : List CodePoint} {bs : List β} (h : separated read fuel text = some (bs, rest)) : bs ≠ [] := by
  obtain ⟨b, left, -, ⟨rfl, -⟩ | ⟨_, _, bs', -, -, rfl⟩⟩ := separated_eq_some h <;> exact List.cons_ne_nil _ _

theorem separated_single {β : Type} {read : List CodePoint → Option (β × List CodePoint)} {fuel : Nat}
    {text rest : List CodePoint} {b : β} (h : separated read fuel text = some ([b], rest)) :
    read text = some (b, rest) := by
  obtain ⟨b', left, hread, ⟨hb, rfl⟩ | ⟨_, _, _, -, hmore, hb⟩⟩ := separated_eq_some h
  · obtain ⟨rfl, -⟩ := List.cons.inj hb
    exact hread
  · exact absurd (List.cons.inj hb).2.symm (separated_ne_nil hmore)

/-! ### Integers -/

theorem decimal_points (ds : List Char) : decimal (points ds) = Nat.ofDigitChars 10 ds 0 := by
  unfold decimal points Nat.ofDigitChars
  rw [List.foldl_map]
  rfl

theorem isDigit_codePoint {c : Char} (h : c.isDigit = true) : isDigit (codePoint c) = true := by
  have hval : 48 ≤ c.toNat ∧ c.toNat ≤ 57 := by
    simp only [Char.isDigit, Bool.and_eq_true, decide_eq_true_eq] at h
    exact ⟨h.1, h.2⟩
  simp only [isDigit, Bool.and_eq_true, decide_eq_true_eq]
  exact hval

theorem fold_digits {ds : List CodePoint} (h : ∀ p ∈ ds, isDigit p = true) :
    ds.foldlM Shape.next .integer = some .integer := by
  induction ds with
  | nil => rfl
  | cons p ds ih =>
    rw [List.forall_mem_cons] at h
    have hnext : Shape.next .integer p = some .integer := by simp only [Shape.next, h.1, if_true]
    rw [List.foldlM_cons, hnext]
    exact ih h.2

/-- Without a point and an exponent a numeral stands for its integer. -/
theorem numeralValue_integer {s : List CodePoint} (h : ∀ p ∈ s, isExponentMark p = false ∧ p ≠ codePoint '.') :
    numeralValue s = integerValue s := by
  have hmark : s.takeWhile (fun p => !isExponentMark p) = s :=
    List.takeWhile_eq_self_iff.mpr fun p hp => by rw [(h p hp).1]; rfl
  have hnone : s.dropWhile (fun p => !isExponentMark p) = [] :=
    List.dropWhile_eq_nil_iff.mpr fun p hp => by rw [(h p hp).1]; rfl
  have hwhole : s.takeWhile (· != codePoint '.') = s :=
    List.takeWhile_eq_self_iff.mpr fun p hp => bne_iff_ne.mpr (h p hp).2
  have hpoint : s.dropWhile (· != codePoint '.') = [] :=
    List.dropWhile_eq_nil_iff.mpr fun p hp => bne_iff_ne.mpr (h p hp).2
  have hzero : integerValue [] = 0 := rfl
  unfold numeralValue
  simp only [hmark, hnone, hwhole, hpoint, List.tail_nil, List.append_nil, hzero, List.length_nil,
    Nat.cast_zero, sub_zero, zpow_zero, mul_one]

theorem digit_ne {p : CodePoint} (h : isDigit p = true) (c : Char) (hc : c.toNat < 48 ∨ 57 < c.toNat) :
    p ≠ codePoint c := by
  intro hp
  have hval : 48 ≤ p.val ∧ p.val ≤ 57 := by simpa [isDigit] using h
  have heq : p.val = c.toNat := congrArg Fin.val hp
  omega

theorem digit_plain {p : CodePoint} (h : isDigit p = true) : isExponentMark p = false ∧ p ≠ codePoint '.' := by
  refine ⟨?_, digit_ne h '.' (by decide)⟩
  simp only [isExponentMark, digit_ne h 'e' (by decide), digit_ne h 'E' (by decide), decide_false, Bool.or_false]

theorem integerValue_digits {ds : List CodePoint} (h : ∀ p ∈ ds, isDigit p = true) : integerValue ds = decimal ds := by
  have hhead : ∀ c : Char, c.toNat < 48 → ds.head? ≠ some (codePoint c) := fun c hc hp =>
    digit_ne (h _ (List.mem_of_mem_head? hp)) c (.inl hc) rfl
  rw [integerValue, if_neg (hhead '-' (by decide)), if_neg (hhead '+' (by decide))]

end Sql
end EndpointSecurity.Library
