import Mathlib.Data.List.Basic

/-! UTF-8.

`utf8` is the encoding of a text as bytes. A character below 128 is its own byte,
every byte of any other is 128 or more, so an ASCII byte occurs in the encoding
exactly where its character occurs in the text. `decodeUtf8` is its strict inverse.
A string of code points may also hold surrogates, which have no encoding. -/
namespace EndpointSecurity.Library

/-- The UTF-8 encoding of a text. -/
def utf8 (s : List Char) : List UInt8 := s.flatMap String.utf8EncodeChar

@[simp] theorem utf8_nil : utf8 [] = [] := rfl

@[simp] theorem utf8_cons (c : Char) (s : List Char) :
    utf8 (c :: s) = String.utf8EncodeChar c ++ utf8 s := rfl

@[simp] theorem utf8_append (a b : List Char) : utf8 (a ++ b) = utf8 a ++ utf8 b :=
  List.flatMap_append

theorem toNat_ofNat_ascii : ∀ n, n < 128 → (Char.ofNat n).toNat = n := by decide

theorem utf8EncodeChar_ascii {c : Char} (h : c.toNat < 128) :
    String.utf8EncodeChar c = [UInt8.ofNat c.toNat] := by
  have hle : c.val.toNat ≤ 127 := Nat.le_of_lt_succ h
  simp only [String.utf8EncodeChar, if_pos hle]
  rfl

/-- Every byte of a character outside ASCII is outside ASCII. -/
theorem utf8EncodeChar_high {c : Char} (h : 128 ≤ c.toNat) {b : UInt8}
    (hb : b ∈ String.utf8EncodeChar c) : 128 ≤ b.toNat := by
  have hgt : ¬ c.val.toNat ≤ 127 := Nat.not_le_of_gt h
  simp only [String.utf8EncodeChar, if_neg hgt] at hb
  split at hb
  · simp only [List.mem_cons, List.not_mem_nil, or_false] at hb
    rcases hb with rfl | rfl <;> simp only [UInt8.toNat_ofNat'] <;> omega
  · split at hb
    · simp only [List.mem_cons, List.not_mem_nil, or_false] at hb
      rcases hb with rfl | rfl | rfl <;> simp only [UInt8.toNat_ofNat'] <;> omega
    · simp only [List.mem_cons, List.not_mem_nil, or_false] at hb
      rcases hb with rfl | rfl | rfl | rfl <;> simp only [UInt8.toNat_ofNat'] <;> omega

/-- An ASCII byte among the bytes of a character is that character. -/
theorem mem_utf8EncodeChar {c : Char} {b : UInt8} (hb : b.toNat < 128) :
    b ∈ String.utf8EncodeChar c ↔ c = Char.ofNat b.toNat := by
  constructor
  · intro h
    have hc : c.toNat < 128 := by
      by_contra hc
      exact absurd (utf8EncodeChar_high (Nat.le_of_not_lt hc) h) (Nat.not_le_of_gt hb)
    rw [utf8EncodeChar_ascii hc, List.mem_singleton] at h
    rw [h, UInt8.toNat_ofNat', Nat.mod_eq_of_lt (by omega), Char.ofNat_toNat]
  · rintro rfl
    have hval := toNat_ofNat_ascii b.toNat hb
    rw [utf8EncodeChar_ascii (by rw [hval]; exact hb), hval, List.mem_singleton, UInt8.ofNat_toNat]

/-- An ASCII byte among the bytes of a text is one of its characters. -/
theorem mem_utf8 {s : List Char} {b : UInt8} (hb : b.toNat < 128) :
    b ∈ utf8 s ↔ Char.ofNat b.toNat ∈ s := by
  simp only [utf8, List.mem_flatMap, mem_utf8EncodeChar hb]
  constructor
  · rintro ⟨c, hc, rfl⟩
    exact hc
  · intro h
    exact ⟨_, h, rfl⟩

/-- A text of ASCII characters is as long as its encoding. -/
theorem length_utf8_ascii {s : List Char} (h : ∀ c ∈ s, c.toNat < 128) : (utf8 s).length = s.length := by
  induction s with
  | nil => rfl
  | cons c s ih =>
    obtain ⟨hc, hs⟩ := List.forall_mem_cons.mp h
    rw [utf8_cons, utf8EncodeChar_ascii hc, List.length_append, ih hs, List.length_cons]
    exact Nat.add_comm ..

/-! ### Decoding -/

/-- Strict decoding: no text unless the bytes are the encoding of one. -/
def decodeUtf8 (bs : List UInt8) : Option (List Char) :=
  bs.toByteArray.utf8Decode?.map Array.toList

theorem toByteArray_utf8 (s : List Char) : (utf8 s).toByteArray = s.utf8Encode := rfl

theorem decodeUtf8_utf8 (s : List Char) : decodeUtf8 (utf8 s) = some s := by
  rw [decodeUtf8, toByteArray_utf8, List.utf8Decode?_utf8Encode]
  rfl

theorem decodeUtf8_eq_some {bs : List UInt8} {s : List Char} : decodeUtf8 bs = some s ↔ bs = utf8 s := by
  refine ⟨fun h => ?_, fun h => h ▸ decodeUtf8_utf8 s⟩
  obtain ⟨a, ha, rfl⟩ := Option.map_eq_some_iff.mp h
  have hvalid : bs.toByteArray.utf8Decode?.isSome = true := ha ▸ rfl
  obtain ⟨t, ht⟩ := ByteArray.isSome_utf8Decode?_iff.mp hvalid
  obtain rfl : bs = utf8 t := List.toByteArray_inj.mp ht
  have hdecode := decodeUtf8_utf8 t
  rw [h] at hdecode
  rw [Option.some.inj hdecode]

theorem utf8_inj {s t : List Char} : utf8 s = utf8 t ↔ s = t := by
  refine ⟨fun h => ?_, fun h => h ▸ rfl⟩
  have hs := decodeUtf8_utf8 s
  rw [h, decodeUtf8_utf8] at hs
  exact (Option.some.inj hs).symm

/-- The bytes are the encoding of a text. -/
def isUtf8 (bs : List UInt8) : Bool := (decodeUtf8 bs).isSome

theorem isUtf8_iff {bs : List UInt8} : isUtf8 bs = true ↔ ∃ s, bs = utf8 s := by
  simp only [isUtf8, Option.isSome_iff_exists, decodeUtf8_eq_some]

theorem isUtf8_append {a b : List UInt8} (ha : isUtf8 a = true) (hb : isUtf8 b = true) :
    isUtf8 (a ++ b) = true := by
  obtain ⟨s, rfl⟩ := isUtf8_iff.mp ha
  obtain ⟨t, rfl⟩ := isUtf8_iff.mp hb
  exact isUtf8_iff.mpr ⟨s ++ t, (utf8_append s t).symm⟩

theorem forall_isUtf8 {l : List (List UInt8)} (h : ∀ bs ∈ l, isUtf8 bs = true) :
    ∃ texts : List (List Char), l = texts.map utf8 := by
  induction l with
  | nil => exact ⟨[], rfl⟩
  | cons bs l ih =>
    obtain ⟨hbs, hl⟩ := List.forall_mem_cons.mp h
    obtain ⟨s, rfl⟩ := isUtf8_iff.mp hbs
    obtain ⟨texts, rfl⟩ := ih hl
    exact ⟨s :: texts, rfl⟩

/-- An ASCII byte splits an encoding where its character splits the text. -/
theorem utf8_split {t : List Char} {a c : List UInt8} {b : UInt8} (hb : b.toNat < 128)
    (h : utf8 t = a ++ b :: c) : isUtf8 a = true ∧ isUtf8 c = true := by
  induction t generalizing a with
  | nil => simp at h
  | cons d t ih =>
    rw [utf8_cons] at h
    rcases List.append_eq_append_iff.mp h with ⟨w, hw, ht⟩ | ⟨w, hw, ht⟩
    · -- the byte is behind the first character
      obtain ⟨ha, hc⟩ := ih ht
      have hd : isUtf8 (String.utf8EncodeChar d) = true := isUtf8_iff.mpr ⟨[d], by simp⟩
      exact ⟨hw ▸ isUtf8_append hd ha, hc⟩
    · -- or it is that character
      cases w with
      | nil =>
        obtain ⟨-, hc⟩ := ih (a := []) ht.symm
        have hd : isUtf8 (String.utf8EncodeChar d) = true := isUtf8_iff.mpr ⟨[d], by simp⟩
        rw [List.append_nil] at hw
        exact ⟨hw ▸ hd, hc⟩
      | cons b' w =>
        obtain ⟨rfl, hc⟩ := List.cons.inj ht
        have hmem : b ∈ String.utf8EncodeChar d := hw ▸ List.mem_append_right _ (List.mem_cons_self ..)
        have hd := (mem_utf8EncodeChar hb).mp hmem
        have hascii : d.toNat < 128 := by
          rw [hd, toNat_ofNat_ascii _ hb]
          exact hb
        rw [utf8EncodeChar_ascii hascii] at hw
        obtain ⟨rfl, hrest⟩ := List.append_eq_singleton_iff.mp hw.symm |>.resolve_right (by simp)
        obtain rfl : w = [] := (List.cons.inj hrest).2
        exact ⟨rfl, isUtf8_iff.mpr ⟨t, by simpa using hc⟩⟩

theorem isUtf8_split {a c : List UInt8} {b : UInt8} (hb : b.toNat < 128)
    (h : isUtf8 (a ++ b :: c) = true) : isUtf8 a = true ∧ isUtf8 c = true := by
  obtain ⟨t, ht⟩ := isUtf8_iff.mp h
  exact utf8_split hb ht.symm

theorem isUtf8_ascii {w : List UInt8} (hw : ∀ b ∈ w, b.toNat < 128) {rest : List UInt8}
    (h : isUtf8 (w ++ rest) = true) : isUtf8 rest = true := by
  induction w with
  | nil => exact h
  | cons b w ih =>
    obtain ⟨hb, hrest⟩ := List.forall_mem_cons.mp hw
    exact ih hrest (isUtf8_split (a := []) hb h).2

/-! ### Code points -/

abbrev CodePoint : Type := Fin 1114112

theorem char_toNat_lt (c : Char) : c.toNat < 1114112 := by
  rcases c.valid with h | ⟨_, h⟩
  · exact Nat.lt_trans h (by decide)
  · exact h

def codePoint (c : Char) : CodePoint := ⟨c.toNat, char_toNat_lt c⟩

/-- The code points of a text. -/
def points (s : List Char) : List CodePoint := s.map codePoint

theorem points_append (a b : List Char) : points (a ++ b) = points a ++ points b := List.map_append

/-- The character at a code point, if it is not a surrogate. -/
def scalar (p : CodePoint) : Option Char :=
  if p.val.isValidChar then some (Char.ofNat p.val) else none

theorem scalar_codePoint (c : Char) : scalar (codePoint c) = some c := by
  have hvalid : (codePoint c).val.isValidChar := c.valid
  rw [scalar, if_pos hvalid]
  show some (Char.ofNat c.toNat) = some c
  rw [Char.ofNat_toNat]

/-- Strict encoding: no bytes for a string with a surrogate in it. -/
def encodeUtf8 (s : List CodePoint) : Option (List UInt8) := (s.mapM scalar).map utf8

theorem encodeUtf8_points (s : List Char) : encodeUtf8 (points s) = some (utf8 s) := by
  have hscalars : (points s).mapM scalar = some s := by
    induction s with
    | nil => rfl
    | cons c s ih =>
      rw [points] at ih
      rw [points, List.map_cons, List.mapM_cons, scalar_codePoint, ih]
      rfl
  rw [encodeUtf8, hscalars]
  rfl

theorem encodeUtf8_isUtf8 {s : List CodePoint} {bs : List UInt8} (h : encodeUtf8 s = some bs) :
    isUtf8 bs = true := by
  obtain ⟨t, -, rfl⟩ := Option.map_eq_some_iff.mp h
  exact isUtf8_iff.mpr ⟨t, rfl⟩

end EndpointSecurity.Library
