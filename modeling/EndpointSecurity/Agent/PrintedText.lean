import EndpointSecurity.Agent.CJson
import EndpointSecurity.Library.JsonText
import EndpointSecurity.Library.PartialRead

/-! The text cJSON prints, as characters.

cJSON knows bytes only. Where every string of a tree is UTF-8, what it prints is the
encoding of a JSON text (`render_tree`); a string that is not stays visible in the
bytes, escaped as it may be (`isUtf8_of_escaped`). The number of bytes is a sum over
the tree (`length_renderItems`). -/
namespace EndpointSecurity.Agent
open Library

/-- A whole number is short. -/
def Whole.tree (d : Whole) : Tree := .int ⟨d.val, by
  have hdigits := (Nat.length_toDigits_le_iff (b := 10) (by decide) (by decide)).mpr d.small
  exact Nat.le_trans hdigits (by decide)⟩

mutual
/-- The tree with its strings decoded, if they all can be. -/
def CJson.tree : CJson → Option Tree
  | .number d => some d.tree
  | .string s => do
    let s ← decodeUtf8 s
    return .str s
  | .array items => do
    let items ← itemsTree items
    return .arr items
  | .object members => do
    let members ← membersTree members
    return .obj members

def itemsTree : List CJson → Option (List Tree)
  | [] => some []
  | item :: rest => do
    let item ← item.tree
    let rest ← itemsTree rest
    return item :: rest

def membersTree : List (List UInt8 × CJson) → Option (List (List Char × Tree))
  | [] => some []
  | (name, item) :: rest => do
    let name ← decodeUtf8 name
    let item ← item.tree
    let rest ← membersTree rest
    return (name, item) :: rest
end

/-! ### Escaping -/

theorem escaped_append (a b : List UInt8) : escaped (a ++ b) = escaped a ++ escaped b :=
  List.flatMap_append

theorem escapeByte_high {b : UInt8} (h : 128 ≤ b.toNat) : escapeByte b = [b] := by
  have hlow : (31 : UInt8) < b := UInt8.lt_iff_toNat_lt.mpr (Nat.lt_of_lt_of_le (by decide) h)
  have hne : ∀ d : UInt8, d.toNat < 128 → b ≠ d := fun d hd he => by
    rw [he] at h
    exact absurd hd (Nat.not_lt_of_ge h)
  rw [escapeByte, if_pos ⟨hlow, hne 34 (by decide), hne 92 (by decide)⟩]

theorem escaped_high {bs : List UInt8} (h : ∀ b ∈ bs, 128 ≤ b.toNat) : escaped bs = bs := by
  induction bs with
  | nil => rfl
  | cons b bs ih =>
    obtain ⟨hb, hbs⟩ := List.forall_mem_cons.mp h
    have hsplit : escaped (b :: bs) = escapeByte b ++ escaped bs := rfl
    rw [hsplit, escapeByte_high hb, ih hbs]
    rfl

theorem escaped_ascii : ∀ n, n < 128 → escaped (String.utf8EncodeChar (Char.ofNat n)) =
    utf8 (Json.escapeChar (Char.ofNat n)) := by
  decide

theorem escapeChar_high {c : Char} (h : 128 ≤ c.toNat) : Json.escapeChar c = [c] := by
  have hne : ∀ d : Char, d.toNat < 128 → c ≠ d := fun d hd he => by
    rw [he] at h
    exact absurd hd (Nat.not_lt_of_ge h)
  have hlow : ¬ c.toNat < 32 := by omega
  rw [Json.escapeChar, if_neg (hne _ (by decide)), if_neg (hne _ (by decide)), if_neg (hne _ (by decide)),
    if_neg (hne _ (by decide)), if_neg (hne _ (by decide)), if_neg (hne _ (by decide)),
    if_neg (hne _ (by decide)), if_neg hlow]

/-- Byte by byte, cJSON escapes a text as it is escaped character by character. -/
theorem escaped_utf8 (s : List Char) : escaped (utf8 s) = utf8 (s.flatMap Json.escapeChar) := by
  induction s with
  | nil => rfl
  | cons c s ih =>
    rw [utf8_cons, escaped_append, ih, List.flatMap_cons, utf8_append]
    congr 1
    by_cases hc : c.toNat < 128
    · have hascii := escaped_ascii c.toNat hc
      rwa [Char.ofNat_toNat] at hascii
    · have hhigh : 128 ≤ c.toNat := Nat.le_of_not_lt hc
      rw [escaped_high fun b hb => utf8EncodeChar_high hhigh hb, escapeChar_high hhigh]
      simp

theorem stringText_utf8 (s : List Char) : stringText (utf8 s) = utf8 (Json.quoted s) := by
  have hquote : utf8 ['"'] = [34] := by decide
  have hquoted : Json.quoted s = ['"'] ++ s.flatMap Json.escapeChar ++ ['"'] := by
    simp [Json.quoted]
  rw [stringText, escaped_utf8, hquoted, utf8_append, utf8_append, hquote]

theorem escapeByte_ascii (b : UInt8) : escapeByte b = [b] ∨
    (b.toNat < 128 ∧ escapeByte b = 92 :: (escapeByte b).tail ∧
      ∀ d ∈ (escapeByte b).tail, d.toNat < 128) := by
  revert b
  apply forall_byte
  decide +kernel

/-- A byte is written as itself, or is ASCII and written in ASCII. -/
theorem escapeByte_cases (b : UInt8) : escapeByte b = [b] ∨
    (b.toNat < 128 ∧ ∃ w, escapeByte b = 92 :: w ∧ ∀ d ∈ w, d.toNat < 128) := by
  rcases escapeByte_ascii b with hself | ⟨hb, hw, hascii⟩
  · exact .inl hself
  · exact .inr ⟨hb, _, hw, hascii⟩

/-- Escaping hides no byte that does not belong to a text. -/
theorem isUtf8_of_escaped {before s : List UInt8} (h : isUtf8 (before ++ escaped s) = true) :
    isUtf8 (before ++ s) = true := by
  induction s generalizing before with
  | nil => exact h
  | cons b s ih =>
    have hsplit : escaped (b :: s) = escapeByte b ++ escaped s := rfl
    rw [hsplit] at h
    rcases escapeByte_cases b with hself | ⟨hb, w, hescape, hascii⟩
    · -- a byte written as itself joins what stands before it
      rw [hself, ← List.append_assoc] at h
      rw [List.append_cons]
      exact ih h
    · rw [hescape, List.cons_append] at h
      obtain ⟨hbefore, hrest⟩ := isUtf8_split (by decide) h
      have hs : isUtf8 s = true := @ih [] (isUtf8_ascii hascii hrest)
      have hchar : isUtf8 [b] = true :=
        isUtf8_iff.mpr ⟨[Char.ofNat b.toNat], by
          rw [utf8_cons, utf8EncodeChar_ascii (by rwa [toNat_ofNat_ascii _ hb]), toNat_ofNat_ascii _ hb,
            UInt8.ofNat_toNat]
          rfl⟩
      rw [List.append_cons]
      exact isUtf8_append (isUtf8_append hbefore hchar) hs

/-! ### Printing -/

mutual
/-- **cJSON prints the encoding of the decoded tree's text.** -/
theorem render_tree : ∀ {c : CJson} {t : Tree}, c.tree = some t → render c = utf8 t.text
  | .number d, t, h => by
    obtain rfl := Option.some.inj h
    rw [render, Whole.tree, Tree.text]
    rfl
  | .string s, t, h => by
    obtain ⟨s, hs, h⟩ := Option.bind_eq_some_iff.mp h
    obtain rfl := Option.some.inj h
    rw [decodeUtf8_eq_some.mp hs, render, stringText_utf8, Tree.text]
  | .array items, t, h => by
    obtain ⟨trees, htrees, h⟩ := Option.bind_eq_some_iff.mp h
    obtain rfl := Option.some.inj h
    have htext : (Tree.arr trees).text = ['['] ++ Tree.itemsText trees ++ [']'] := by
      simp [Tree.text]
    rw [render, (renderItems_tree htrees).1, htext, utf8_append, utf8_append]
    rfl
  | .object members, t, h => by
    obtain ⟨trees, htrees, h⟩ := Option.bind_eq_some_iff.mp h
    obtain rfl := Option.some.inj h
    have htext : (Tree.obj trees).text = ['{'] ++ Tree.membersText trees ++ ['}'] := by
      simp [Tree.text]
    rw [render, (renderMembers_tree htrees).1, htext, utf8_append, utf8_append]
    rfl

theorem renderItems_tree : ∀ {items : List CJson} {ts : List Tree}, itemsTree items = some ts →
    renderItems items = utf8 (Tree.itemsText ts) ∧ ts.isEmpty = items.isEmpty
  | [], ts, h => by
    obtain rfl := Option.some.inj h
    exact ⟨rfl, rfl⟩
  | item :: rest, ts, h => by
    obtain ⟨t, ht, h⟩ := Option.bind_eq_some_iff.mp h
    obtain ⟨trees, htrees, h⟩ := Option.bind_eq_some_iff.mp h
    obtain rfl := Option.some.inj h
    obtain ⟨hrest, hempty⟩ := renderItems_tree htrees
    refine ⟨?_, rfl⟩
    rw [renderItems, Tree.itemsText, utf8_append, utf8_append, render_tree ht, hrest, hempty]
    cases rest.isEmpty <;> rfl

theorem renderMembers_tree : ∀ {members : List (List UInt8 × CJson)} {ts : List (List Char × Tree)},
    membersTree members = some ts →
    renderMembers members = utf8 (Tree.membersText ts) ∧ ts.isEmpty = members.isEmpty
  | [], ts, h => by
    obtain rfl := Option.some.inj h
    exact ⟨rfl, rfl⟩
  | (name, item) :: rest, ts, h => by
    obtain ⟨s, hs, h⟩ := Option.bind_eq_some_iff.mp h
    obtain ⟨t, ht, h⟩ := Option.bind_eq_some_iff.mp h
    obtain ⟨trees, htrees, h⟩ := Option.bind_eq_some_iff.mp h
    obtain rfl := Option.some.inj h
    obtain ⟨hrest, hempty⟩ := renderMembers_tree htrees
    refine ⟨?_, rfl⟩
    rw [renderMembers, Tree.membersText, decodeUtf8_eq_some.mp hs, stringText_utf8, render_tree ht,
      hrest, hempty]
    simp only [utf8_append]
    cases rest.isEmpty <;> rfl
end

theorem itemsTree_eq (items : List CJson) : itemsTree items = items.mapM CJson.tree := by
  induction items with
  | nil => rfl
  | cons item items ih => rw [itemsTree, ih, List.mapM_cons]

theorem itemsTree_strings (texts : List (List Char)) :
    itemsTree ((texts.map utf8).map .string) = some (texts.map .str) := by
  induction texts with
  | nil => rfl
  | cons s texts ih =>
    rw [List.map_cons, List.map_cons, itemsTree, ih, CJson.tree, decodeUtf8_utf8]
    rfl

/-! ### How long a text is -/

/-- Lengths put together with commas between them. -/
def separated (lengths : List Nat) : Nat := lengths.sum + (lengths.length - 1)

theorem length_stringText (s : List UInt8) :
    (stringText s).length = s.length + escapeCharacters s + 2 := by
  simp only [stringText, List.length_append, length_escaped, List.length_singleton]
  omega

theorem length_renderItems (items : List CJson) :
    (renderItems items).length = separated (items.map fun item => (render item).length) := by
  induction items with
  | nil => rfl
  | cons item rest ih =>
    rw [renderItems, List.length_append, List.length_append, ih]
    cases rest with
    | nil => simp [separated]
    | cons next rest =>
      simp only [separated, List.isEmpty_cons, Bool.false_eq_true, if_false, List.map_cons,
        List.sum_cons, List.length_cons, List.length_nil, List.length_map]
      omega

end EndpointSecurity.Agent
