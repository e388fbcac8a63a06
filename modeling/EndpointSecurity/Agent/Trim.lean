import EndpointSecurity.Agent.ConfigLoad
import EndpointSecurity.Library.BackwardScan

/-! `trim` in memory.

`trim` gets the buffer that `getline` fills, and its loop walks back from the end of
the string without looking for where the buffer begins. Here it runs on the bytes of
the buffer and on whatever stands before them. `TrimsInside` is what `load_config`
relies on; it holds of exactly the lines whose string has a byte that is not blank
(`trimsInside_iff`), and the lines the loop means to skip as empty have none. The
`trim` of the line alone is this one as far as it stays in the buffer (`trim_inside`),
so `load_config` is defined on just the files it reads within their lines
(`readable_inside`). -/
namespace EndpointSecurity.Agent
open Library

/-- The buffer after `getline`: the line and a NUL, and what else was in there. -/
def lineMemory (before : Nat → Option UInt8) (line rest : List UInt8) : Memory :=
  ⟨before, line ++ 0 :: rest⟩

/-- `strlen(*str)`. -/
def strlen (m : Memory) : Nat := (cString m.buffer).length

theorem take_strlen (m : Memory) : m.buffer.take (strlen m) = cString m.buffer := take_cString m.buffer

theorem strlen_lt {m : Memory} (hnul : 0 ∈ m.buffer) : strlen m < m.buffer.length :=
  length_cString_lt hnul

/-- The loop of `trim`, for so many tests at most. -/
def trimLoop (m : Memory) (tests : Nat) : Scan := m.scanBack isBlank tests (strlen m - 1)

/-- `trim`: the memory with a NUL at `end + 1`, if the loop ends in so many tests. -/
def trimMemory (m : Memory) (tests : Nat) : Option Memory :=
  (trimLoop m tests).stopped.bind fun e => m.store (e + 1) 0

/-- Does not end in a space, a tab, a newline or a carriage return. -/
def Solid (s : List UInt8) : Prop := ∀ b ∈ s.getLast?, isBlank b = false

/-- `trim` keeps to the line, and leaves what `load_config` goes on with. -/
structure TrimsInside (m : Memory) : Prop where
  reads : ∀ tests, ∀ a ∈ (trimLoop m tests).reads, 0 ≤ a ∧ a ≤ (strlen m : Int) - 1
  ends : ∃ tests, (trimMemory m tests).isSome = true
  overwrites : ∀ tests, ∀ e ∈ (trimLoop m tests).stopped, 0 ≤ e + 1 ∧ e + 1 < m.buffer.length
  result : ∀ tests, ∀ m' ∈ trimMemory m tests,
    LongestPrefix Solid (cString m.buffer) (cString m'.buffer)
  /-- The test `line[0] == '\0'`. -/
  empty : ∀ tests, ∀ m' ∈ trimMemory m tests,
    m'.load 0 = some 0 ↔ ∀ b ∈ cString m.buffer, isBlank b = true

/-- A NUL at the start of the buffer is the empty string. -/
theorem cString_of_load {m : Memory} (h : m.load 0 = some 0) : cString m.buffer = [] := by
  obtain ⟨before, buffer⟩ := m
  cases buffer with
  | nil => rfl
  | cons b bs =>
    obtain rfl := Option.some.inj h
    rfl

/-! ### Lines with something on them -/

section Solid
variable {m : Memory} (hnul : 0 ∈ m.buffer) (hsolid : ∃ b ∈ cString m.buffer, isBlank b = false)
include hnul hsolid

/-- The loop stops at the last byte that is not blank. -/
theorem trimLoop_stopped (tests : Nat) :
    (trimLoop m tests).stopped =
      if strlen m < tests + ((cString m.buffer).rdropWhile isBlank).length then
        some ((((cString m.buffer).rdropWhile isBlank).length : Int) - 1)
      else none := by
  have hstopped := Memory.scanBack_stopped (m := m) (Nat.le_of_lt (strlen_lt hnul))
    (by rwa [take_strlen]) tests
  rwa [take_strlen] at hstopped

/-- What `trim` leaves: the string without its blanks, and the bytes behind it. -/
theorem trimMemory_solid (tests : Nat) :
    trimMemory m tests =
      if strlen m < tests + ((cString m.buffer).rdropWhile isBlank).length then
        some {m with buffer := m.buffer.set ((cString m.buffer).rdropWhile isBlank).length 0}
      else none := by
  have hlen := (List.rdropWhile_prefix isBlank (l := cString m.buffer)).length_le
  have hstore := Memory.store_buffer (Nat.lt_of_le_of_lt hlen (strlen_lt hnul)) 0
  rw [trimMemory, trimLoop_stopped hnul hsolid]
  split
  · rw [Option.bind_some, Int.sub_add_cancel, hstore]
  · rfl

theorem cString_trimMemory {tests : Nat} {m' : Memory} (h : m' ∈ trimMemory m tests) :
    cString m'.buffer = (cString m.buffer).rdropWhile isBlank := by
  have hprefix := List.rdropWhile_prefix isBlank (l := cString m.buffer)
  rw [trimMemory_solid hnul hsolid] at h
  split at h
  · obtain rfl := Option.mem_some_iff.mp h
    have hlt := Nat.lt_of_le_of_lt hprefix.length_le (strlen_lt hnul)
    rw [cString_set hprefix.length_le hlt, ← List.prefix_iff_eq_take.mp hprefix]
  · cases h

theorem trimsInside_solid : TrimsInside m := by
  have hlt := strlen_lt hnul
  have hle : ((cString m.buffer).rdropWhile isBlank).length ≤ strlen m :=
    (List.rdropWhile_prefix isBlank _).length_le
  refine ⟨fun tests => ?_, ⟨strlen m + 1, ?_⟩, fun tests e he => ?_, fun tests m' h => ?_,
    fun tests m' h => ⟨fun hload => ?_, fun hblank => ?_⟩⟩
  · exact Memory.scanBack_inside (Nat.le_of_lt hlt) (by rwa [take_strlen]) tests
  · rw [trimMemory_solid hnul hsolid, if_pos (by omega)]
    rfl
  · rw [trimLoop_stopped hnul hsolid] at he
    split at he
    · obtain rfl := Option.mem_some_iff.mp he
      omega
    · cases he
  · rw [cString_trimMemory hnul hsolid h]
    exact rdropWhile_longest isBlank _
  · rw [← List.rdropWhile_eq_nil_iff, ← cString_trimMemory hnul hsolid h]
    exact cString_of_load hload
  · obtain ⟨b, hb, hnot⟩ := hsolid
    rw [hblank b hb] at hnot
    cases hnot

end Solid

/-! ### Blank lines -/

section Blank
variable {m : Memory} (hnul : 0 ∈ m.buffer) (hblank : ∀ b ∈ cString m.buffer, isBlank b = true)
include hnul hblank

/-- The loop reads the byte before the buffer. -/
theorem blank_reads : -1 ∈ (trimLoop m (strlen m + 1)).reads :=
  Memory.scanBack_leaves (Nat.le_of_lt (strlen_lt hnul)) (by rwa [take_strlen])

theorem blank_outside : ¬ TrimsInside m := fun h =>
  absurd (h.reads _ _ (blank_reads hnul hblank)).1 (by decide)

/-- Where it ends is up to the bytes before the buffer. -/
theorem blank_stopped (tests : Nat) :
    (trimLoop m (strlen m + tests)).stopped = (m.scanBack isBlank tests (-1)).stopped :=
  (Memory.scanBack_through (Nat.le_of_lt (strlen_lt hnul)) (by rwa [take_strlen]) tests).1

/-- Where the byte before the buffer happens not to be blank, the line comes out empty
all the same. -/
theorem blank_unnoticed {b : UInt8} (hbefore : m.before 0 = some b) (hb : isBlank b = false) :
    trimMemory m (strlen m + 1) = some {m with buffer := m.buffer.set 0 0} := by
  have hone : (m.scanBack isBlank 1 (-1)).stopped = some (-1) := by
    have hload : m.load (-1) = some b := hbefore
    simp [Memory.scanBack, hload, hb]
  rw [trimMemory, blank_stopped hnul hblank, hone]
  exact Memory.store_buffer (List.length_pos_of_mem hnul) 0

end Blank

/-! ### Every line -/

theorem trimsInside_memory {m : Memory} (hnul : 0 ∈ m.buffer) :
    TrimsInside m ↔ ∃ b ∈ cString m.buffer, isBlank b = false := by
  refine ⟨fun h => ?_, trimsInside_solid hnul⟩
  by_contra hnone
  refine blank_outside hnul (fun b hb => ?_) h
  simpa using fun hnot => hnone ⟨b, hb, hnot⟩

section Line
variable (before : Nat → Option UInt8) (line rest : List UInt8)

theorem lineMemory_nul : 0 ∈ (lineMemory before line rest).buffer :=
  List.mem_append_right _ (List.mem_cons_self ..)

theorem lineMemory_string : cString (lineMemory before line rest).buffer = cString line :=
  cString_zero_rest line rest

/-- **`trim` stays inside a line and trims it exactly if its string has a byte that is
not blank**, whatever surrounds it in memory. -/
theorem trimsInside_iff :
    TrimsInside (lineMemory before line rest) ↔ ∃ b ∈ cString line, isBlank b = false := by
  rw [trimsInside_memory (lineMemory_nul before line rest), lineMemory_string]

/-- A blank line of a file, in a buffer of its first size. -/
theorem emptyLine_outside :
    lines (lit "\n") = [lit "\n"] ∧
      ¬ TrimsInside (lineMemory (fun _ => some 0) (lit "\n") (List.replicate 318 0)) := by
  refine ⟨by decide, blank_outside (lineMemory_nul _ _ _) ?_⟩
  rw [lineMemory_string]
  exact List.all_eq_true.mp (by decide)

/-- The `trim` of the line alone is the one in memory, while that keeps to the line. -/
theorem trim_inside (t : List UInt8) :
    trim line = some t ↔ TrimsInside (lineMemory before line rest) ∧
      ∃ tests, ∃ m' ∈ trimMemory (lineMemory before line rest) tests, cString m'.buffer = t := by
  have hnul := lineMemory_nul before line rest
  have hstring := lineMemory_string before line rest
  rw [trimsInside_memory hnul, hstring, trim_eq_some]
  refine and_congr_right fun hsolid => ?_
  rw [← hstring] at hsolid ⊢
  refine ⟨fun ht => ?_, fun ⟨tests, m', hm, ht⟩ => ?_⟩
  · obtain ⟨tests, hends⟩ := (trimsInside_solid hnul hsolid).ends
    obtain ⟨m', hm⟩ := Option.isSome_iff_exists.mp hends
    exact ⟨tests, m', hm, (cString_trimMemory hnul hsolid hm).trans ht⟩
  · rw [← cString_trimMemory hnul hsolid hm, ht]

end Line

/-- `load_config` is defined on the files whose lines `trim` keeps to. -/
theorem readable_inside (before : Nat → Option UInt8) (rest : List UInt8) (ls : List (List UInt8)) :
    Readable ls ↔ ∀ l ∈ ls, TrimsInside (lineMemory before l rest) := by
  refine forall₂_congr fun l _ => ⟨fun h => ?_, fun h => ?_⟩
  · obtain ⟨t, ht⟩ := Option.isSome_iff_exists.mp h
    exact ((trim_inside before l rest t).mp ht).1
  · obtain ⟨tests, hends⟩ := h.ends
    obtain ⟨m', hm⟩ := Option.isSome_iff_exists.mp hends
    rw [(trim_inside before l rest _).mpr ⟨h, tests, m', hm, rfl⟩]
    rfl

end EndpointSecurity.Agent
