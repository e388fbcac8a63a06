import Mathlib.Data.List.Basic
import Mathlib.Data.List.TakeWhile

/-! C strings and fixed arrays of bytes.

A C string is what stands before the first NUL of some bytes. `CArray n` is an
array of exactly `n` bytes, whatever they are; `strncpy`, `store` and reading the
string back are the C operations on it. `holding s` is the array that `strncpy`
of `n - 1` bytes is meant to leave: `s` cut to `n - 1` bytes and NULs behind it.
It is reached either by storing the last NUL (`strncpy_store`) or because the last
byte was NUL before (`strncpy_closed`), and the string it holds is `s` as far as it
was kept (`holding_string`). -/
namespace EndpointSecurity.Library

/-- What holds of the 256 bytes one by one holds of every byte. -/
theorem forall_byte {P : UInt8 → Prop} (h : ∀ n, n < 256 → P (UInt8.ofNat n)) (b : UInt8) : P b := by
  have hb := h b.toNat b.toNat_lt
  rwa [UInt8.ofNat_toNat] at hb

/-- The C string some bytes start with: what stands before the first NUL. -/
def cString (bs : List UInt8) : List UInt8 := bs.takeWhile (· != 0)

theorem cString_noNul (bs : List UInt8) : 0 ∉ cString bs := by
  intro h
  simpa using List.mem_takeWhile_imp h

theorem cString_of_noNul {bs : List UInt8} (h : 0 ∉ bs) : cString bs = bs := by
  apply List.takeWhile_eq_self_iff.mpr
  intro b hb
  simpa using fun h0 : b = 0 => h (h0 ▸ hb)

/-- The string is what the bytes start with. -/
theorem take_cString (bs : List UInt8) : bs.take (cString bs).length = cString bs :=
  (List.prefix_iff_eq_take.mp (List.takeWhile_prefix _)).symm

/-- What is behind a NUL does not count. -/
theorem cString_zero_rest (s rest : List UInt8) : cString (s ++ 0 :: rest) = cString s := by
  induction s with
  | nil => rfl
  | cons b s ih =>
    by_cases hb : b = 0
    · simp [cString, hb]
    · simpa [cString, hb] using ih

/-- A NUL ends the string before it. -/
theorem cString_append_nul {s : List UInt8} (h : 0 ∉ s) (rest : List UInt8) :
    cString (s ++ 0 :: rest) = s := by
  rw [cString_zero_rest, cString_of_noNul h]

/-- A string has its NUL behind it. -/
theorem length_cString_lt {bs : List UInt8} (h : 0 ∈ bs) : (cString bs).length < bs.length := by
  have hle := (List.takeWhile_prefix (· != 0) (l := bs)).length_le
  refine Nat.lt_of_le_of_ne hle fun heq => ?_
  have hself := take_cString bs
  rw [List.take_of_length_le (Nat.le_of_eq heq.symm)] at hself
  exact cString_noNul bs (hself ▸ h)

/-- A NUL written into a string cuts it there. -/
theorem cString_set {bs : List UInt8} {k : Nat} (hk : k ≤ (cString bs).length) (hlt : k < bs.length) :
    cString (bs.set k 0) = (cString bs).take k := by
  have hprefix : bs.take k = (cString bs).take k := by
    rw [← take_cString bs, List.take_take, Nat.min_eq_left hk]
  rw [List.set_eq_take_append_cons_drop, if_pos hlt, hprefix]
  exact cString_append_nul (fun h => cString_noNul bs (List.mem_of_mem_take h)) _

/-- An array of `n` bytes. -/
@[ext] structure CArray (n : Nat) where
  bytes : List UInt8
  size : bytes.length = n
deriving DecidableEq

namespace CArray
variable {n : Nat}

/-- Static storage starts out as NULs. -/
def zero (n : Nat) : CArray n := ⟨List.replicate n 0, List.length_replicate ..⟩

/-- The C string in an array, all of it when it holds no NUL. -/
def string (a : CArray n) : List UInt8 := cString a.bytes

/-- The array holds a NUL, so that reading its string stays inside it. -/
def Terminated (a : CArray n) : Prop := 0 ∈ a.bytes

instance (a : CArray n) : Decidable a.Terminated := inferInstanceAs (Decidable (0 ∈ a.bytes))

/-- `a[i] = b`. -/
def store (a : CArray n) (i : Nat) (b : UInt8) : CArray n :=
  ⟨a.bytes.set i b, by rw [List.length_set, a.size]⟩

/-- `strncpy(a, src, k)`: at most `k` bytes of the string `src`, and NULs up to `k`. -/
def strncpy (a : CArray n) (src : List UInt8) (k : Nat) (hk : k ≤ n := by decide) : CArray n :=
  ⟨src.take k ++ List.replicate (k - src.length) 0 ++ a.bytes.drop k, by
    simp only [List.length_append, List.length_take, List.length_replicate, List.length_drop, a.size]
    omega⟩

/-- `s` written over the start of an array, as much of it as fits; the rest stays. -/
def overwrite (a : CArray n) (s : List UInt8) : CArray n :=
  ⟨(s ++ a.bytes.drop s.length).take n, by
    simp only [List.length_take, List.length_append, List.length_drop, a.size]
    omega⟩

/-- The array that holds `s`, cut so that a NUL still fits behind it, and NULs. -/
def holding (n : Nat) (s : List UInt8) : CArray n :=
  ⟨s.take (n - 1) ++ List.replicate (n - min (n - 1) s.length) 0, by
    simp only [List.length_append, List.length_take, List.length_replicate]
    omega⟩

/-- The last byte is NUL. -/
def Closed (a : CArray n) : Prop := a.bytes.drop (n - 1) = [0]

theorem Closed.terminated {a : CArray n} (h : a.Closed) : a.Terminated :=
  List.mem_of_mem_drop (h ▸ List.mem_singleton_self 0)

/-- A string written with its NUL is the string read back, whatever stood there. -/
theorem overwrite_nul (a : CArray n) {s : List UInt8} (h : 0 ∉ s) (hn : s.length < n) :
    (a.overwrite (s ++ [0])).string = s ∧ (a.overwrite (s ++ [0])).Terminated := by
  have hbytes : (a.overwrite (s ++ [0])).bytes =
      s ++ 0 :: (a.bytes.drop (s ++ [0]).length).take (n - (s ++ [0]).length) := by
    show List.take n _ = _
    rw [List.take_append, List.take_of_length_le (by rw [List.length_append]; exact hn),
      List.append_assoc]
    rfl
  refine ⟨?_, ?_⟩
  · rw [string, hbytes]
    exact cString_append_nul h _
  · rw [Terminated, hbytes]
    exact List.mem_append_right _ (List.mem_cons_self ..)

theorem zero_string (n : Nat) : (zero n).string = [] := by
  cases n <;> rfl

theorem zero_closed (hn : 0 < n) : (zero n).Closed := by
  show (List.replicate n 0).drop (n - 1) = [0]
  rw [List.drop_replicate, show n - (n - 1) = 1 by omega]
  rfl

theorem holding_nil (n : Nat) : holding n [] = zero n := by
  ext1
  simp [holding, zero]

theorem holding_closed (hn : 0 < n) (s : List UInt8) : (holding n s).Closed := by
  show (s.take (n - 1) ++ List.replicate (n - min (n - 1) s.length) 0).drop (n - 1) = [0]
  have hlen : (s.take (n - 1)).length ≤ n - 1 := List.length_take_le ..
  rw [List.drop_append, List.drop_of_length_le hlen, List.drop_replicate, List.nil_append,
    List.length_take, show n - min (n - 1) s.length - (n - 1 - min (n - 1) s.length) = 1 by omega]
  rfl

/-- The string an array holds, cut to leave room for its NUL. -/
theorem holding_string {s : List UInt8} (hn : 0 < n) (h : 0 ∉ s) :
    (holding n s).string = s.take (n - 1) := by
  have hrep : n - min (n - 1) s.length = (n - min (n - 1) s.length - 1) + 1 := by omega
  show cString (s.take (n - 1) ++ List.replicate (n - min (n - 1) s.length) 0) = _
  rw [hrep, List.replicate_succ]
  exact cString_append_nul (fun h0 => h (List.mem_of_mem_take h0)) _

/-- Behind the string it holds there is nothing else. -/
theorem holding_rest {s : List UInt8} (hn : 0 < n) (h : 0 ∉ s) :
    ∀ b ∈ (holding n s).bytes.drop (holding n s).string.length, b = 0 := by
  intro b hb
  rw [holding_string hn h] at hb
  simp only [holding, List.drop_left] at hb
  exact List.eq_of_mem_replicate hb

/-- The padding of `strncpy` and the bytes it leaves make up the tail of `holding`. -/
private theorem strncpy_bytes (a : CArray n) (src : List UInt8) (hn : 0 < n) :
    (a.strncpy src (n - 1) (Nat.sub_le n 1)).bytes =
      src.take (n - 1) ++ List.replicate (n - 1 - src.length) 0 ++ a.bytes.drop (n - 1) ∧
    (holding n src).bytes =
      src.take (n - 1) ++ List.replicate (n - 1 - src.length) 0 ++ [0] := by
  refine ⟨rfl, ?_⟩
  have hrep : n - min (n - 1) src.length = (n - 1 - src.length) + 1 := by omega
  simp only [holding, hrep, List.replicate_add, List.append_assoc]
  rfl

/-- `strncpy` of all but the last byte, then the NUL in the last byte. -/
theorem strncpy_store (a : CArray n) (src : List UInt8) (hn : 0 < n) :
    (a.strncpy src (n - 1) (Nat.sub_le n 1)).store (n - 1) 0 = holding n src := by
  obtain ⟨hcopy, hhold⟩ := strncpy_bytes a src hn
  have hlast : (a.bytes.drop (n - 1)).length = 1 := by
    rw [List.length_drop, a.size]
    omega
  obtain ⟨b, hb⟩ := List.length_eq_one_iff.mp hlast
  have hlen : (src.take (n - 1) ++ List.replicate (n - 1 - src.length) (0 : UInt8)).length = n - 1 := by
    simp only [List.length_append, List.length_take, List.length_replicate]
    omega
  ext1
  show List.set _ (n - 1) 0 = _
  rw [hcopy, hhold, hb, List.set_append_right _ _ (by rw [hlen]), hlen, Nat.sub_self]
  rfl

/-- `strncpy` of all but the last byte into an array whose last byte is NUL. -/
theorem strncpy_closed {a : CArray n} (ha : a.Closed) (src : List UInt8) (hn : 0 < n) :
    a.strncpy src (n - 1) (Nat.sub_le n 1) = holding n src := by
  obtain ⟨hcopy, hhold⟩ := strncpy_bytes a src hn
  ext1
  rw [hcopy, hhold, ha]

/-- Storing the NUL that already closes an array changes nothing. -/
theorem store_closed {a : CArray n} (ha : a.Closed) (hn : 0 < n) : a.store (n - 1) 0 = a := by
  have hsplit : a.bytes = a.bytes.take (n - 1) ++ [0] := by
    conv => lhs; rw [← List.take_append_drop (n - 1) a.bytes, ha]
  have hlen : (a.bytes.take (n - 1)).length = n - 1 := by
    rw [List.length_take, a.size]
    omega
  ext1
  show a.bytes.set (n - 1) 0 = a.bytes
  rw [hsplit, List.set_append_right _ _ (by rw [hlen]), hlen, Nat.sub_self]
  rfl

end CArray

end EndpointSecurity.Library
