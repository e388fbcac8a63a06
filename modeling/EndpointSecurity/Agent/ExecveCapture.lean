import EndpointSecurity.Agent.RecordSafety
import Mathlib.Order.Bounds.Basic

/-! What an `execve` record says of the arguments of the call.

The loop copies the arguments it can read, in their places, whatever the slot held.
Their number it adds to the `argc` the slot came with, which no handler clears: the
record is exact on a slot with a count of zero and on no other (`capture_exact_iff`). -/
namespace EndpointSecurity.Agent
open Library

/-- Where the arguments to capture end: at `MAX_ARGS`, a null pointer, or a pointer or
a string that cannot be read. -/
def ArgsEnd (argv : Nat → ArgPtr) (k : Nat) : Prop :=
  k = MAX_ARGS ∨ argv k = .null ∨ argv k = .fault ∨ argv k = .ptr none

/-- The record has the first `k` arguments, each cut to its array, and counts them. -/
structure ExactCapture (argv : Nat → ArgPtr) (k : Nat) (e : Event) : Prop where
  argc : e.argc.toNat = k
  argv : ∀ j : Fin MAX_ARGS, j.val < k → ∃ s, argv j = .ptr (some s) ∧
    (e.argv j).string = s.bytes.take (ARG_LEN - 1) ∧ (e.argv j).Terminated

theorem not_captures (a : ArgPtr) :
    a.captures = false ↔ a = .null ∨ a = .fault ∨ a = .ptr none := by
  cases a with
  | fault => simp [ArgPtr.captures]
  | null => simp [ArgPtr.captures]
  | ptr s => cases s <;> simp [ArgPtr.captures]

theorem captures_string {a : ArgPtr} (h : a.captures = true) : ∃ s, a = .ptr (some s) := by
  cases a with
  | fault => simp [ArgPtr.captures] at h
  | null => simp [ArgPtr.captures] at h
  | ptr s =>
    cases s with
    | none => simp [ArgPtr.captures] at h
    | some s => exact ⟨s, rfl⟩

theorem captures_of_lt {argv : Nat → ArgPtr} {j : Fin MAX_ARGS} (h : j.val < captured argv) :
    (argv j).captures = true := by
  have hmem := List.mem_takeWhile_imp ((mem_captured argv j).mpr h)
  exact hmem

/-- The loop captures the arguments up to the first end. -/
theorem captured_isLeast (argv : Nat → ArgPtr) : IsLeast {k | ArgsEnd argv k} (captured argv) := by
  refine ⟨?_, fun k hk => ?_⟩
  · rcases Nat.lt_or_eq_of_le (captured_le argv) with hlt | heq
    · right
      rw [← not_captures]
      have hhead := (head_uncaptured argv ⟨captured argv, hlt⟩).mpr rfl
      have hnot := List.head?_dropWhile_not (captures argv) (List.finRange MAX_ARGS)
      rw [hhead] at hnot
      exact hnot
    · exact .inl heq
  · by_contra hlt
    have hlt : k < captured argv := Nat.lt_of_not_le hlt
    have hmax : k < MAX_ARGS := Nat.lt_of_lt_of_le hlt (captured_le argv)
    have hcaptures := captures_of_lt (j := ⟨k, hmax⟩) hlt
    rcases hk with rfl | hend
    · exact absurd hmax (Nat.lt_irrefl _)
    · rw [(not_captures (argv k)).mpr hend] at hcaptures
      cases hcaptures

/-- The arguments are in their places on any slot. -/
theorem execveRecord_args (filename : Option UserString) (argv : Nat → ArgPtr) (k : Kernel)
    (task : Task) (slot : Event) {j : Fin MAX_ARGS} (hj : j.val < captured argv) :
    ∃ s, argv j = .ptr (some s) ∧
      ((execveRecord filename argv k task slot).argv j).string = s.bytes.take (ARG_LEN - 1) ∧
      ((execveRecord filename argv k task slot).argv j).Terminated := by
  obtain ⟨s, hs⟩ := captures_string (captures_of_lt hj)
  have hwrites : writes argv j = true := by
    rw [writes, decide_eq_true hj, Bool.true_or]
  have hwritten : (writeArgs argv (writes argv) slot j).string = copied ARG_LEN (argv j).string ∧
      (writeArgs argv (writes argv) slot j).Terminated := writeArgs_written slot hwrites
  obtain ⟨hstring, hterminated⟩ := hwritten
  rw [hs] at hstring
  exact ⟨s, hs, hstring, hterminated⟩

/-- **The record `handle_execve` submits is exact exactly when its slot came with a
count of zero.** -/
theorem capture_exact_iff {filename : Option UserString} {argv : Nat → ArgPtr} {kernel : Kernel}
    {slot e : Event} {k : Nat} (hk : IsLeast {k | ArgsEnd argv k} k)
    (he : (handleExecve filename argv kernel (some slot)).submitted = some e) :
    ExactCapture argv k e ↔ slot.argc = 0 := by
  obtain rfl : k = captured argv := hk.unique (captured_isLeast argv)
  cases htask : kernel.currentTask with
  | none =>
    rw [handleExecve, htask] at he
    cases he
  | some task =>
    rw [handleExecve_submitted filename argv kernel task htask] at he
    obtain rfl := Option.some.inj he
    have hcount : (UInt32.ofNat (captured argv)).toNat = captured argv := by
      rw [UInt32.toNat_ofNat']
      exact Nat.mod_eq_of_lt (Nat.lt_of_le_of_lt (captured_le argv) (by decide))
    refine ⟨fun h => ?_, fun hzero => ⟨?_, fun j hj => execveRecord_args _ _ _ _ _ hj⟩⟩
    · have hargc : slot.argc + UInt32.ofNat (captured argv) = 0 + UInt32.ofNat (captured argv) := by
        rw [UInt32.zero_add]
        exact UInt32.toNat_inj.mp (h.argc.trans hcount.symm)
      exact (UInt32.add_left_inj _).mp hargc
    · show (slot.argc + UInt32.ofNat (captured argv)).toNat = _
      rw [hzero, UInt32.zero_add, hcount]

/-! ### A shell and its command -/

/-- `sh -c` and 200 characters of a command; the string behind them cannot be read. -/
def shellArgs : Nat → ArgPtr
  | 0 => .ptr (some ⟨[115, 104], by decide⟩)
  | 1 => .ptr (some ⟨[45, 99], by decide⟩)
  | 2 => .ptr (some ⟨List.replicate 200 120, by decide⟩)
  | 3 => .ptr none
  | _ => .null

/-- A slot full of an older record's strings. -/
def usedSlot (argc : UInt32) : Event :=
  {Event.zero with argc := argc, argv := fun _ => (CArray.zero ARG_LEN).store 0 88}

theorem shellArgs_isLeast : IsLeast {k | ArgsEnd shellArgs k} 3 := by
  have hcaptured : captured shellArgs = 3 := by decide
  exact hcaptured ▸ captured_isLeast shellArgs

theorem shellArgs_submitted (slot : Event) :
    (handleExecve none shellArgs ⟨0, 0, some ⟨none⟩⟩ (some slot)).submitted =
      some (execveRecord none shellArgs ⟨0, 0, some ⟨none⟩⟩ ⟨none⟩ slot) :=
  handleExecve_submitted none _ _ ⟨none⟩ rfl slot

/-- On a slot that counts none of its old strings, the three are captured. -/
theorem shellArgs_exact : ∃ e,
    (handleExecve none shellArgs ⟨0, 0, some ⟨none⟩⟩ (some (usedSlot 0))).submitted = some e ∧
      ExactCapture shellArgs 3 e :=
  ⟨_, shellArgs_submitted _, (capture_exact_iff shellArgs_isLeast (shellArgs_submitted _)).mpr rfl⟩

/-- On a slot that counts one, they are reported as four. -/
theorem shellArgs_inexact : ∃ e,
    (handleExecve none shellArgs ⟨0, 0, some ⟨none⟩⟩ (some (usedSlot 1))).submitted = some e ∧
      IsLeast {k | ArgsEnd shellArgs k} 3 ∧ ¬ ExactCapture shellArgs 3 e := by
  refine ⟨_, shellArgs_submitted _, shellArgs_isLeast, fun h => ?_⟩
  have hfour : ((1 : UInt32) + UInt32.ofNat (captured shellArgs)).toNat = 4 := by decide
  exact absurd (hfour.symm.trans h.argc) (by decide)

end EndpointSecurity.Agent
