import Mathlib.Data.List.DropRight
import Mathlib.Data.List.TakeWhile

/-! Memory as a pointer into a buffer sees it, and a loop that runs down it.

Offsets count from the first byte of the buffer. Below zero is memory that belongs
to someone else: `before` says what is found there, a byte or, where nothing is
mapped, a fault; past its end every access counts as a fault. `scanBack` is the loop
`while (p(*end)) end--` test by test, with every offset it reads; it has no bound but
the bytes it meets. Started at the last of some bytes of the buffer it stays among
them and stops at the last byte that `p` refuses, if there is one (`scanBack_stopped`,
`scanBack_inside`), which leaves the longest prefix that does not end in a byte it
passes (`rdropWhile_longest`). If there is none it goes on before the buffer, whatever
stands there (`scanBack_through`). -/
namespace EndpointSecurity.Library

/-- The bytes of a buffer, and what stands before it: `before k` is found at the
offset `-1 - k`. -/
structure Memory where
  before : Nat → Option UInt8
  buffer : List UInt8

/-- Where a scan has got to: the offsets it read, and the one it stopped at. -/
structure Scan where
  reads : List Int
  stopped : Option Int
deriving DecidableEq

namespace Memory

/-- `p[a]`, unless the access faults. -/
def load (m : Memory) : Int → Option UInt8
  | .ofNat i => m.buffer[i]?
  | .negSucc k => m.before k

/-- The memory with another byte at an offset. -/
def set (m : Memory) (a : Int) (b : UInt8) : Memory :=
  match a with
  | .ofNat i => {m with buffer := m.buffer.set i b}
  | .negSucc k => {m with before := fun j => if j = k then some b else m.before j}

/-- `p[a] = b`, unless the access faults. -/
def store (m : Memory) (a : Int) (b : UInt8) : Option Memory := (m.load a).map fun _ => m.set a b

theorem load_buffer {m : Memory} {i : Nat} (h : i < m.buffer.length) :
    m.load i = some m.buffer[i] := List.getElem?_eq_getElem h

theorem store_buffer {m : Memory} {i : Nat} (h : i < m.buffer.length) (b : UInt8) :
    m.store i b = some {m with buffer := m.buffer.set i b} := by
  rw [store, load_buffer h]
  rfl

/-- The loop `while (p(*end)) end--`, for so many tests at most. -/
def scanBack (p : UInt8 → Bool) (m : Memory) : Nat → Int → Scan
  | 0, _ => ⟨[], none⟩
  | tests + 1, e =>
    match m.load e with
    | none => ⟨[e], none⟩
    | some b =>
      if p b then
        let rest := scanBack p m tests (e - 1)
        ⟨e :: rest.reads, rest.stopped⟩
      else ⟨[e], some e⟩

section ScanBack
variable {p : UInt8 → Bool} {m : Memory} {n : Nat}

/-- One test at a byte of the buffer. -/
theorem scanBack_succ (hn : n < m.buffer.length) (tests : Nat) :
    m.scanBack p (tests + 1) ((n + 1 : Nat) - 1) =
      if p m.buffer[n] then
        ⟨n :: (m.scanBack p tests (n - 1)).reads, (m.scanBack p tests (n - 1)).stopped⟩
      else ⟨[n], some n⟩ := by
  rw [Int.natCast_succ, Int.add_sub_cancel, scanBack, load_buffer hn]

/-- Where the last byte passes, one before it is refused. -/
private theorem refused_before (hn : n < m.buffer.length) (hb : p m.buffer[n] = true)
    (h : ∃ b ∈ m.buffer.take (n + 1), p b = false) : ∃ b ∈ m.buffer.take n, p b = false := by
  obtain ⟨b, hmem, hp⟩ := h
  rw [List.take_succ_eq_append_getElem hn, List.mem_append, List.mem_singleton] at hmem
  obtain hmem | rfl := hmem
  · exact ⟨b, hmem, hp⟩
  · rw [hb] at hp
    cases hp

/-- **Where the scan stops**: at the last byte that is refused, after a test for it and
one for each byte behind it. -/
theorem scanBack_stopped (hn : n ≤ m.buffer.length) (h : ∃ b ∈ m.buffer.take n, p b = false)
    (tests : Nat) :
    (m.scanBack p tests (n - 1)).stopped =
      if n < tests + ((m.buffer.take n).rdropWhile p).length then
        some ((((m.buffer.take n).rdropWhile p).length : Int) - 1)
      else none := by
  induction n generalizing tests with
  | zero => simp at h
  | succ n ih =>
    have hlt : n < m.buffer.length := hn
    have htake := List.take_succ_eq_append_getElem hlt
    have hshort := (List.rdropWhile_prefix p (l := m.buffer.take (n + 1))).length_le
    have hlen : (m.buffer.take (n + 1)).length = n + 1 := List.length_take_of_le hn
    cases tests with
    | zero =>
      rw [if_neg (by omega)]
      rfl
    | succ tests =>
      rw [scanBack_succ hlt]
      cases hb : p m.buffer[n] with
      | true =>
        have hdrop := List.rdropWhile_concat_pos p (m.buffer.take n) _ hb
        have htests : n + 1 < tests + 1 + ((m.buffer.take n).rdropWhile p).length ↔
            n < tests + ((m.buffer.take n).rdropWhile p).length := by omega
        rw [if_pos rfl, htake, hdrop, if_congr htests rfl rfl]
        exact ih (Nat.le_of_lt hlt) (refused_before hlt hb h) tests
      | false =>
        have hdrop := List.rdropWhile_concat_neg p (m.buffer.take n) m.buffer[n] (by simp [hb])
        rw [htake, hdrop, ← htake, hlen, if_neg (by decide), if_pos (by omega)]
        simp

/-- A scan that finds a byte to stop at stays among the bytes it scans. -/
theorem scanBack_inside (hn : n ≤ m.buffer.length) (h : ∃ b ∈ m.buffer.take n, p b = false)
    (tests : Nat) : ∀ a ∈ (m.scanBack p tests (n - 1)).reads, 0 ≤ a ∧ a ≤ (n : Int) - 1 := by
  induction n generalizing tests with
  | zero => simp at h
  | succ n ih =>
    have hlt : n < m.buffer.length := hn
    cases tests with
    | zero => simp [scanBack]
    | succ tests =>
      rw [scanBack_succ hlt]
      intro a ha
      cases hb : p m.buffer[n] with
      | true =>
        rw [hb, if_pos rfl] at ha
        obtain rfl | ha := List.mem_cons.mp ha
        · omega
        · have hrest := ih (Nat.le_of_lt hlt) (refused_before hlt hb h) tests a ha
          omega
      | false =>
        rw [hb, if_neg (by decide)] at ha
        obtain rfl := List.mem_singleton.mp ha
        omega

/-- A scan that finds none goes on before the buffer, where it knows nothing. -/
theorem scanBack_through (hn : n ≤ m.buffer.length) (h : ∀ b ∈ m.buffer.take n, p b = true)
    (tests : Nat) :
    (m.scanBack p (n + tests) (n - 1)).stopped = (m.scanBack p tests (-1)).stopped ∧
      (m.scanBack p tests (-1)).reads ⊆ (m.scanBack p (n + tests) (n - 1)).reads := by
  induction n with
  | zero =>
    rw [Nat.zero_add]
    exact ⟨rfl, fun _ ha => ha⟩
  | succ n ih =>
    have hlt : n < m.buffer.length := hn
    rw [List.take_succ_eq_append_getElem hlt, List.forall_mem_append] at h
    obtain ⟨hstopped, hreads⟩ := ih (Nat.le_of_lt hlt) h.1
    rw [Nat.add_right_comm, scanBack_succ hlt, if_pos (h.2 _ (List.mem_singleton_self _))]
    exact ⟨hstopped, fun a ha => List.mem_cons_of_mem _ (hreads ha)⟩

/-- It has read the byte before the buffer then. -/
theorem scanBack_leaves (hn : n ≤ m.buffer.length) (h : ∀ b ∈ m.buffer.take n, p b = true) :
    -1 ∈ (m.scanBack p (n + 1) (n - 1)).reads := by
  apply (scanBack_through hn h 1).2
  unfold scanBack
  split
  · exact List.mem_singleton_self _
  · split <;> exact List.mem_cons_self ..

end ScanBack

end Memory

/-! ### Longest prefixes -/

section LongestPrefix
variable {α : Type}

/-- The longest prefix of a list with a property. -/
structure LongestPrefix (P : List α → Prop) (s t : List α) : Prop where
  isPrefix : t <+: s
  holds : P t
  longest : ∀ u, u <+: s → P u → u.length ≤ t.length

/-- Dropping from the end what `p` takes leaves the longest prefix that does not end in it. -/
theorem rdropWhile_longest (p : α → Bool) (s : List α) :
    LongestPrefix (fun t => ∀ b ∈ t.getLast?, p b = false) s (s.rdropWhile p) := by
  refine ⟨List.rdropWhile_prefix p s, fun b hb => ?_, fun u hu hlast => ?_⟩
  · have hne : s.rdropWhile p ≠ [] := fun h => by simp [h] at hb
    have hnot := List.rdropWhile_last_not p s hne
    rw [List.getLast?_eq_some_getLast hne, Option.mem_some_iff] at hb
    simpa [hb] using hnot
  · obtain ⟨v, rfl⟩ := hu
    -- what is dropped of `u ++ v` ends within `v`
    induction v using List.reverseRecOn with
    | nil =>
      have hself : u.rdropWhile p = u := List.rdropWhile_eq_self_iff.mpr fun hne => by
        simp [hlast _ (List.getLast?_eq_some_getLast hne)]
      rw [List.append_nil, hself]
    | append_singleton v b ih =>
      rw [← List.append_assoc, List.rdropWhile_concat]
      split
      · exact ih
      · simp only [List.length_append]
        omega

end LongestPrefix

end EndpointSecurity.Library
