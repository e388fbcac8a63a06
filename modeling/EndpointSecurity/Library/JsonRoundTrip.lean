import EndpointSecurity.Library.JsonText

/-! `json.loads` reads a tree back from its text.

A value is scanned with what follows it left over, so each lemma is about a text
with a rest behind it. Inside a tree the rest starts with punctuation, where a
number ends (`Stops`). -/
namespace EndpointSecurity.Library
namespace Json

/-! ### Strings -/

theorem hexValue_digitChar : ∀ k, k < 16 → hexValue (Nat.digitChar k) = some k := by decide

/-- Four hexadecimal digits of which only the last two count are no surrogate. -/
theorem scanUnicode_byte {c : Char} (h : c.toNat < 256) (rest : List Char) :
    scanUnicode ('0' :: '0' :: Nat.digitChar (c.toNat / 16) :: Nat.digitChar (c.toNat % 16) :: rest) =
      some (codePoint c, rest) := by
  have hzero : hexValue '0' = some 0 := by decide
  have hhigh := hexValue_digitChar (c.toNat / 16) (by omega)
  have hlow := hexValue_digitChar (c.toNat % 16) (by omega)
  have hsum : 4096 * 0 + 256 * 0 + 16 * (c.toNat / 16) + c.toNat % 16 = c.toNat := by omega
  have hsurrogate : ¬ (0xD800 ≤ c.toNat ∧ c.toNat ≤ 0xDBFF ∧ rest.take 2 = ['\\', 'u']) := by omega
  have hpoint : Fin.ofNat 1114112 c.toNat = codePoint c :=
    Fin.ext (Nat.mod_eq_of_lt (char_toNat_lt c))
  simp only [scanUnicode, scanHex4, hzero, hhigh, hlow, Option.bind_eq_bind, Option.bind_some,
    Option.pure_def, hsum, if_neg hsurrogate, hpoint]

/-- Every escape the writer uses is read back. -/
theorem scanEscape_escapeChar {c : Char} {w : List Char} (h : escapeChar c = '\\' :: w)
    (rest : List Char) : scanEscape (w ++ rest) = some (codePoint c, rest) := by
  unfold escapeChar at h
  -- the escapes of one letter
  iterate 7
    split at h
    · next hc =>
      subst hc
      cases h
      rfl
  split at h
  · next hlt =>
    cases h
    exact scanUnicode_byte (Nat.lt_trans hlt (by decide)) rest
  · cases h
    contradiction

/-- A character is written as an escape, or as itself. -/
theorem escapeChar_cases (c : Char) : (∃ w, escapeChar c = '\\' :: w) ∨
    (escapeChar c = [c] ∧ c ≠ '"' ∧ c ≠ '\\' ∧ ¬ c.toNat < 32) := by
  unfold escapeChar
  split_ifs <;> simp_all

theorem scanString_char (c : Char) (fuel : Nat) (rest : List Char) :
    scanString (fuel + 1) (escapeChar c ++ rest) =
      (scanString fuel rest).map fun r => (codePoint c :: r.1, r.2) := by
  rcases escapeChar_cases c with ⟨w, hw⟩ | ⟨hself, hquote, hback, hlow⟩
  · rw [hw, List.cons_append, scanString, if_neg (by decide), if_pos rfl,
      scanEscape_escapeChar hw]
    show (scanString fuel rest >>= fun r => some (codePoint c :: r.1, r.2)) = _
    cases scanString fuel rest <;> rfl
  · rw [hself, List.singleton_append, scanString, if_neg hquote, if_neg hback, if_neg hlow]
    cases scanString fuel rest <;> rfl

theorem scanString_quoted (s : List Char) (rest : List Char) {fuel : Nat} (h : s.length < fuel) :
    scanString fuel (s.flatMap escapeChar ++ '"' :: rest) = some (points s, rest) := by
  induction s generalizing fuel with
  | nil =>
    obtain ⟨fuel, rfl⟩ := Nat.exists_eq_succ_of_ne_zero (Nat.ne_of_gt h)
    rfl
  | cons c s ih =>
    obtain ⟨fuel, rfl⟩ := Nat.exists_eq_succ_of_ne_zero (Nat.ne_of_gt (Nat.zero_lt_of_lt h))
    rw [List.flatMap_cons, List.append_assoc, scanString_char, ih (Nat.lt_of_succ_lt_succ h)]
    rfl

theorem length_le_escaped (s : List Char) : s.length ≤ (s.flatMap escapeChar).length := by
  induction s with
  | nil => exact Nat.le_refl _
  | cons c s ih =>
    have hc : 0 < (escapeChar c).length := by
      rcases escapeChar_cases c with ⟨w, hw⟩ | ⟨hself, _⟩
      · rw [hw]
        exact Nat.succ_pos _
      · rw [hself]
        exact Nat.succ_pos _
    rw [List.flatMap_cons, List.length_append, List.length_cons]
    omega

/-- The fuel a string gets is enough. -/
theorem scanString_fuel (s : List Char) (rest : List Char) (extra : Nat) :
    scanString ((s.flatMap escapeChar ++ '"' :: rest).length + 1 + extra) (s.flatMap escapeChar ++ '"' :: rest) =
      some (points s, rest) := by
  apply scanString_quoted
  have hle := length_le_escaped s
  rw [List.length_append]
  omega

/-! ### Numbers -/

/-- Punctuation, where every value ends. -/
def Stops (rest : List Char) : Prop := ∀ c ∈ rest.head?, c = ',' ∨ c = ']' ∨ c = '}'

theorem Stops.nil : Stops [] := fun _ h => by cases h

theorem Stops.cons {c : Char} (h : c = ',' ∨ c = ']' ∨ c = '}') (rest : List Char) :
    Stops (c :: rest) := fun d hd => by
  obtain rfl : c = d := Option.some.inj hd
  exact h

theorem Stops.noDigit {rest : List Char} (h : Stops rest) : ∀ c ∈ rest.head?, c.isDigit = false := by
  intro c hc
  rcases h c hc with rfl | rfl | rfl <;> decide

theorem takeWhile_of_head {α : Type} {p : α → Bool} {l rest : List α} (hl : ∀ a ∈ l, p a = true)
    (hrest : ∀ a ∈ rest.head?, p a = false) :
    (l ++ rest).takeWhile p = l ∧ (l ++ rest).dropWhile p = rest := by
  have hstop : rest.takeWhile p = [] ∧ rest.dropWhile p = rest := by
    cases rest with
    | nil => exact ⟨rfl, rfl⟩
    | cons a rest => simp [hrest a rfl]
  rw [List.takeWhile_append_of_pos hl, List.dropWhile_append_of_pos hl, hstop.1, hstop.2,
    List.append_nil]
  exact ⟨rfl, rfl⟩

theorem scanFraction_stops {rest : List Char} (h : Stops rest) : scanFraction rest = ([], rest) := by
  have hpoint : rest.head? ≠ some '.' := fun hc => by
    rcases h '.' hc with hc | hc | hc <;> exact absurd hc (by decide)
  simp [scanFraction, hpoint]

theorem scanExponent_stops {rest : List Char} (h : Stops rest) : scanExponent rest = ([], rest) := by
  have hmark : ∀ c, c = 'e' ∨ c = 'E' → rest.head? ≠ some c := fun c hc hhead => by
    rcases hc with rfl | rfl <;> rcases h _ hhead with hc | hc | hc <;> exact absurd hc (by decide)
  simp [scanExponent, hmark 'e' (.inl rfl), hmark 'E' (.inr rfl)]

theorem digitChar_ne_zero : ∀ k, k < 10 → 0 < k → Nat.digitChar k ≠ '0' := by decide

/-- Only zero starts with a zero. -/
theorem toDigits_head (n : Nat) (hn : 0 < n) :
    ∃ c ds, Nat.toDigits 10 n = c :: ds ∧ c ≠ '0' := by
  induction n using Nat.strongRecOn with
  | _ n ih =>
    rw [Nat.toDigits_eq_if (by decide)]
    split
    · next hlt => exact ⟨_, [], rfl, digitChar_ne_zero n hlt hn⟩
    · next hge =>
      obtain ⟨c, ds, heq, hc⟩ := ih (n / 10) (by omega) (by omega)
      exact ⟨c, ds ++ [(n % 10).digitChar], by rw [heq]; rfl, hc⟩

theorem scanDigits_toDigits (n : Nat) {rest : List Char} (h : Stops rest) :
    scanDigits (Nat.toDigits 10 n ++ rest) = some (Nat.toDigits 10 n, rest) := by
  rcases Nat.eq_zero_or_pos n with rfl | hn
  · rfl
  · obtain ⟨c, ds, heq, hc⟩ := toDigits_head n hn
    have hdigit : ∀ d ∈ c :: ds, d.isDigit = true := fun d hd =>
      Nat.isDigit_of_mem_toDigits (by decide) (by decide) (heq ▸ hd)
    obtain ⟨htake, hdrop⟩ := takeWhile_of_head (fun d hd => hdigit d (List.mem_cons_of_mem _ hd)) h.noDigit
    rw [heq, List.cons_append, scanDigits, if_neg hc, if_pos (hdigit c (List.mem_cons_self ..)),
      htake, hdrop]

theorem toString_ofNat (n : Nat) : (toString (Int.ofNat n)).toList = Nat.toDigits 10 n :=
  Nat.toList_repr

theorem toString_negSucc (n : Nat) :
    (toString (Int.negSucc n)).toList = '-' :: Nat.toDigits 10 (n + 1) := by
  show ("-" ++ (n + 1).repr).toList = _
  rw [String.toList_append, Nat.toList_repr]
  rfl

theorem toDigits_cons (n : Nat) : ∃ c ds, Nat.toDigits 10 n = c :: ds ∧ c.isDigit = true := by
  cases heq : Nat.toDigits 10 n with
  | nil => exact absurd heq Nat.toDigits_ne_nil
  | cons c ds =>
    have hc := Nat.isDigit_of_mem_toDigits (by decide) (by decide) (heq ▸ List.mem_cons_self ..)
    exact ⟨c, ds, rfl, hc⟩

section Scanner
variable (pyFloat : List Char → List CodePoint)

/-- A number is read as an integer where nothing but punctuation follows. -/
theorem scanNumber_digits (sign : List Char) {n : Nat} (hn : (Nat.toDigits 10 n).length ≤ maxStrDigits)
    {rest : List Char} (h : Stops rest)
    (hsign : ((sign ++ (Nat.toDigits 10 n ++ rest)).take 1).filter (· == '-') = sign) :
    scanNumber pyFloat (sign ++ (Nat.toDigits 10 n ++ rest)) =
      some (.int (if sign.isEmpty then n else -n), rest) := by
  unfold scanNumber
  simp only [hsign, List.drop_left, scanDigits_toDigits n h, Option.bind_eq_bind, Option.bind_some,
    scanFraction_stops h, scanExponent_stops h, Nat.ofDigitChars_ten_toDigits, if_pos hn]
  rfl

theorem scanNumber_toString (n : ShortInt) {rest : List Char} (h : Stops rest) :
    scanNumber pyFloat ((toString n.val).toList ++ rest) = some (.int n.val, rest) := by
  obtain ⟨n, hn⟩ := n
  cases n with
  | ofNat n =>
    obtain ⟨c, ds, heq, hc⟩ := toDigits_cons n
    have hne : c ≠ '-' := fun he => by
      rw [he] at hc
      exact absurd hc (by decide)
    rw [toString_ofNat]
    exact scanNumber_digits pyFloat [] hn h (by simp [heq, hne])
  | negSucc n =>
    rw [toString_negSucc]
    exact scanNumber_digits pyFloat ['-'] hn h rfl

/-! ### Values -/

/-- No name starts like a number. -/
theorem scanConstant_digit {c : Char} (h : c.isDigit = true) (tail : List Char) :
    scanConstant (c :: tail) = none ∧ scanConstant ('-' :: c :: tail) = none := by
  have hne : ∀ d, d.isDigit = false → d ≠ c := fun d hd he => by
    rw [he, h] at hd
    cases hd
  simp [scanConstant, constants, hne 'n' rfl, hne 't' rfl, hne 'f' rfl, hne 'N' rfl, hne 'I' rfl,
    hne '-' rfl]

/-- What the text of a number starts with. -/
theorem toString_starts (n : Int) : ∃ c tail, (toString n).toList = c :: tail ∧
    (c.isDigit = true ∨ c = '-') ∧ ∀ rest, scanConstant (c :: tail ++ rest) = none := by
  cases n with
  | ofNat n =>
    obtain ⟨c, ds, heq, hc⟩ := toDigits_cons n
    exact ⟨c, ds, by rw [toString_ofNat, heq], .inl hc, fun rest => (scanConstant_digit hc _).1⟩
  | negSucc n =>
    obtain ⟨c, ds, heq, hc⟩ := toDigits_cons (n + 1)
    exact ⟨'-', c :: ds, by rw [toString_negSucc, heq], .inr rfl, fun rest => (scanConstant_digit hc _).2⟩

/-- A text that is not skipped and does not close an array or an object. -/
def Starts (s : List Char) : Prop := ∃ c tail, s = c :: tail ∧ isSpace c = false ∧ c ≠ ']' ∧ c ≠ '}'

theorem Starts.append {s : List Char} (h : Starts s) (rest : List Char) : Starts (s ++ rest) := by
  obtain ⟨c, tail, rfl, hc⟩ := h
  exact ⟨c, tail ++ rest, rfl, hc⟩

theorem Starts.skipSpace {s : List Char} (h : Starts s) : skipSpace s = s := by
  obtain ⟨c, tail, rfl, hc, _⟩ := h
  rw [Json.skipSpace, List.dropWhile_cons, hc]
  rfl

theorem Starts.head_ne {s : List Char} (h : Starts s) : s.head? ≠ some ']' ∧ s.head? ≠ some '}' := by
  obtain ⟨c, tail, rfl, _, hitem, hmember⟩ := h
  exact ⟨fun he => hitem (Option.some.inj he), fun he => hmember (Option.some.inj he)⟩

theorem skipSpace_cons {c : Char} (h : isSpace c = false) (rest : List Char) :
    skipSpace (c :: rest) = c :: rest := by
  rw [Json.skipSpace, List.dropWhile_cons, h]
  rfl

theorem quoted_starts (s : List Char) : Starts (quoted s) :=
  ⟨'"', _, rfl, rfl, by decide, by decide⟩

theorem digit_starts {c : Char} (h : c.isDigit = true ∨ c = '-') (tail : List Char) : Starts (c :: tail) := by
  refine ⟨c, tail, rfl, ?_⟩
  rcases h with h | rfl
  · have hne : ∀ d, d.isDigit = false → c ≠ d := fun d hd he => by
      rw [← he, h] at hd
      cases hd
    simp [isSpace, hne ' ' rfl, hne '\t' rfl, hne '\n' rfl, hne '\r' rfl, hne ']' rfl, hne '}' rfl]
  · decide

theorem scanOnce_int (n : ShortInt) {fuel : Nat} (hfuel : 0 < fuel) {rest : List Char} (h : Stops rest) :
    scanOnce pyFloat fuel ((toString n.val).toList ++ rest) = some (.int n.val, rest) := by
  obtain ⟨fuel, rfl⟩ := Nat.exists_eq_succ_of_ne_zero (Nat.ne_of_gt hfuel)
  have hnumber := scanNumber_toString pyFloat n h
  obtain ⟨c, tail, heq, hc, hconstant⟩ := toString_starts n.val
  have hne : ∀ d, d.isDigit = false → d ≠ '-' → c ≠ d := fun d hd hminus he => by
    rcases hc with hc | hc
    · rw [he, hd] at hc
      cases hc
    · exact hminus (he ▸ hc)
  rw [heq] at hnumber ⊢
  rw [List.cons_append, scanOnce, if_neg (hne _ rfl (by decide)), if_neg (hne _ rfl (by decide)),
    if_neg (hne _ rfl (by decide)), ← List.cons_append, hconstant, hnumber]
  rfl

theorem scanOnce_quoted (s : List Char) {fuel : Nat} (hfuel : 0 < fuel) (rest : List Char) :
    scanOnce pyFloat fuel (quoted s ++ rest) = some (.str (points s), rest) := by
  obtain ⟨fuel, rfl⟩ := Nat.exists_eq_succ_of_ne_zero (Nat.ne_of_gt hfuel)
  have htext : quoted s ++ rest = '"' :: (s.flatMap escapeChar ++ '"' :: rest) := by simp [quoted]
  have hscan := scanString_fuel s rest 0
  rw [htext, scanOnce, if_pos rfl]
  rw [Nat.add_zero] at hscan
  rw [hscan]
  rfl

end Scanner
end Json

namespace Tree
open Json
variable (pyFloat : List Char → List CodePoint)

theorem text_starts (t : Tree) : Starts t.text := by
  cases t with
  | int n =>
    obtain ⟨c, tail, heq, hc, _⟩ := toString_starts n.val
    rw [text, heq]
    exact digit_starts hc tail
  | str s => exact quoted_starts s
  | arr items => exact ⟨'[', _, by rw [text], rfl, by decide, by decide⟩
  | obj members => exact ⟨'{', _, by rw [text], rfl, by decide, by decide⟩

theorem itemsText_starts (item : Tree) (rest : List Tree) : Starts (itemsText (item :: rest)) := by
  rw [itemsText, List.append_assoc]
  exact item.text_starts.append _

theorem membersText_starts (name : List Char) (item : Tree) (rest : List (List Char × Tree)) :
    Starts (membersText ((name, item) :: rest)) := by
  simp only [membersText, List.append_assoc]
  exact (quoted_starts name).append _

/-- The loop over members has read a name and its value. -/
theorem scanMembers_member (name : List Char) (item : Tree) {fuel : Nat} {rest : List Char}
    (h : scanOnce pyFloat fuel (item.text ++ rest) = some (item.json, rest)) :
    scanMembers pyFloat (fuel + 1) (quoted name ++ ':' :: (item.text ++ rest)) =
      if (skipSpace rest).head? = some '}' then
        some ([(points name, item.json)], (skipSpace rest).tail)
      else if (skipSpace rest).head? = some ',' then
        (scanMembers pyFloat fuel (skipSpace (skipSpace rest).tail)).map
          fun r => ((points name, item.json) :: r.1, r.2)
      else none := by
  have hitem := item.text_starts.append rest
  have htext : quoted name ++ ':' :: (item.text ++ rest) =
      '"' :: (name.flatMap escapeChar ++ '"' :: ':' :: (item.text ++ rest)) := by
    simp [quoted]
  have hname := scanString_fuel name (':' :: (item.text ++ rest)) 1
  rw [htext, scanMembers]
  simp only [List.head?_cons, if_true, List.tail_cons, List.length_cons] at hname ⊢
  simp only [hname, Option.bind_eq_bind, Option.bind_some, skipSpace_cons (c := ':') rfl,
    List.head?_cons, if_true, List.tail_cons, hitem.skipSpace, h]
  split
  · rfl
  split
  · cases scanMembers pyFloat fuel (skipSpace (skipSpace rest).tail) <;> rfl
  · rfl

mutual
/-- A value is read back from its text, whatever stands behind it. -/
theorem scanOnce_text : ∀ (t : Tree) {fuel : Nat} (rest : List Char), Stops rest →
    t.text.length < fuel → scanOnce pyFloat fuel (t.text ++ rest) = some (t.json, rest)
  | .int n, _, rest, hstop, hfuel => by
    rw [text] at hfuel ⊢
    exact scanOnce_int pyFloat n (Nat.zero_lt_of_lt hfuel) hstop
  | .str s, _, rest, _, hfuel => by
    rw [text] at hfuel ⊢
    exact scanOnce_quoted pyFloat s (Nat.zero_lt_of_lt hfuel) rest
  | .arr [], fuel + 1, rest, _, _ => rfl
  | .arr (item :: items), fuel + 1, rest, _, hfuel => by
    have hstarts := (itemsText_starts item items).append (']' :: rest)
    have hlength : (itemsText (item :: items)).length + 1 < fuel := by
      simp only [text, List.length_cons, List.length_append] at hfuel
      omega
    have hitems := scanItems_text item items rest hlength
    have htext : (arr (item :: items)).text ++ rest =
        '[' :: (itemsText (item :: items) ++ ']' :: rest) := by
      simp [text]
    rw [htext, scanOnce, if_neg (by decide), if_pos rfl, hstarts.skipSpace, if_neg hstarts.head_ne.1,
      hitems]
    rfl
  | .obj [], fuel + 1, rest, _, _ => rfl
  | .obj ((name, item) :: members), fuel + 1, rest, _, hfuel => by
    have hstarts := (membersText_starts name item members).append ('}' :: rest)
    have hlength : (membersText ((name, item) :: members)).length + 1 < fuel := by
      simp only [text, List.length_cons, List.length_append] at hfuel
      omega
    have hmembers := scanMembers_text name item members rest hlength
    have htext : (obj ((name, item) :: members)).text ++ rest =
        '{' :: (membersText ((name, item) :: members) ++ '}' :: rest) := by
      simp [text]
    rw [htext, scanOnce, if_neg (by decide), if_neg (by decide), if_pos rfl, hstarts.skipSpace,
      if_neg hstarts.head_ne.2, hmembers]
    rfl

theorem scanItems_text : ∀ (item : Tree) (items : List Tree) {fuel : Nat} (rest : List Char),
    (itemsText (item :: items)).length + 1 < fuel →
    scanItems pyFloat fuel (itemsText (item :: items) ++ ']' :: rest) =
      some (itemsJson (item :: items), rest)
  | item, [], fuel + 1, rest, hfuel => by
    have hstop : Stops (']' :: rest) := .cons (.inr (.inl rfl)) rest
    have hlength : item.text.length < fuel := by
      simp only [itemsText, List.isEmpty_nil, if_true, List.append_nil] at hfuel
      omega
    have htext : itemsText [item] ++ ']' :: rest = item.text ++ ']' :: rest := by
      simp [itemsText]
    rw [htext, scanItems, scanOnce_text item _ hstop hlength]
    rfl
  | item, next :: items, fuel + 1, rest, hfuel => by
    have hstop : Stops (',' :: (itemsText (next :: items) ++ ']' :: rest)) := .cons (.inl rfl) _
    have hsplit : (itemsText (item :: next :: items)) =
        item.text ++ ',' :: itemsText (next :: items) := by
      rw [itemsText]
      simp
    have htext : itemsText (item :: next :: items) ++ ']' :: rest =
        item.text ++ ',' :: (itemsText (next :: items) ++ ']' :: rest) := by
      rw [hsplit, List.append_assoc, List.cons_append]
    rw [hsplit, List.length_append, List.length_cons] at hfuel
    have hstarts := (itemsText_starts next items).append (']' :: rest)
    have hitems : scanItems pyFloat fuel (itemsText (next :: items) ++ ']' :: rest) = _ :=
      scanItems_text next items rest (by omega)
    rw [htext, scanItems, scanOnce_text item _ hstop (by omega)]
    simp only [Option.bind_eq_bind, Option.bind_some, skipSpace_cons (c := ',') rfl, List.head?_cons,
      List.tail_cons, hstarts.skipSpace, hitems]
    rfl

theorem scanMembers_text : ∀ (name : List Char) (item : Tree) (members : List (List Char × Tree))
    {fuel : Nat} (rest : List Char), (membersText ((name, item) :: members)).length + 1 < fuel →
    scanMembers pyFloat fuel (membersText ((name, item) :: members) ++ '}' :: rest) =
      some (membersJson ((name, item) :: members), rest)
  | name, item, [], fuel + 1, rest, hfuel => by
    have hstop : Stops ('}' :: rest) := .cons (.inr (.inr rfl)) rest
    have hsplit : membersText [(name, item)] = quoted name ++ ':' :: item.text := by
      simp [membersText]
    rw [hsplit, List.length_append, List.length_cons] at hfuel
    rw [hsplit, List.append_assoc, List.cons_append,
      scanMembers_member pyFloat name item (scanOnce_text item _ hstop (by omega))]
    rfl
  | name, item, (next, value) :: members, fuel + 1, rest, hfuel => by
    have hstop : Stops (',' :: (membersText ((next, value) :: members) ++ '}' :: rest)) :=
      .cons (.inl rfl) _
    have hsplit : membersText ((name, item) :: (next, value) :: members) =
        quoted name ++ ':' :: (item.text ++ ',' :: membersText ((next, value) :: members)) := by
      rw [membersText]
      simp
    have htext : membersText ((name, item) :: (next, value) :: members) ++ '}' :: rest =
        quoted name ++ ':' :: (item.text ++ ',' :: (membersText ((next, value) :: members) ++ '}' :: rest)) := by
      rw [hsplit]
      simp only [List.append_assoc, List.cons_append]
    rw [hsplit] at hfuel
    simp only [List.length_append, List.length_cons] at hfuel
    have hstarts := (membersText_starts next value members).append ('}' :: rest)
    have hmembers : scanMembers pyFloat fuel (membersText ((next, value) :: members) ++ '}' :: rest) = _ :=
      scanMembers_text next value members rest (by omega)
    rw [htext, scanMembers_member pyFloat name item (scanOnce_text item _ hstop (by omega))]
    simp only [skipSpace_cons (c := ',') rfl, List.head?_cons, List.tail_cons, hstarts.skipSpace,
      hmembers]
    rfl
end

theorem itemsJson_eq (items : List Tree) : itemsJson items = items.map json := by
  induction items with
  | nil => rfl
  | cons item items ih => rw [itemsJson, ih, List.map_cons]

/-- **`json.loads` reads every tree back from its text.** -/
theorem loads_text (t : Tree) : loads pyFloat t.text = some t.json := by
  have hscan : scanOnce pyFloat (t.text.length + 1) (t.text ++ []) = _ :=
    scanOnce_text pyFloat t [] .nil (Nat.lt_succ_self _)
  rw [List.append_nil] at hscan
  rw [loads, t.text_starts.skipSpace, hscan]
  rfl

end Tree
end EndpointSecurity.Library
