import EndpointSecurity.Library.CString
import EndpointSecurity.Library.Options
import EndpointSecurity.Library.Utf8
import Mathlib.Algebra.Order.Ring.Int
import Mathlib.Data.List.DropRight

/-! The agent's configuration: `struct config` and `load_config`.

The file is read line by line. `trim` scans backwards from the last byte of the
line's C string and has no lower bound of its own: on a line that is empty or
blank up to its first NUL it leaves the line's buffer, which C leaves undefined,
and so does the model (`none`). Every other line is a comment, is skipped, or is
cut at its first `=` and sets one option. -/
namespace EndpointSecurity.Agent
open Library

/-- A string literal of the agent's source. -/
def lit (s : String) : List UInt8 := utf8 s.toList

/-- C `int`: 32 bits, two's complement. -/
def int32 (x : Int) : Int := x.bmod (2 ^ 32)

structure Config where
  api : CArray 256
  key : CArray 128
  name : CArray 64
  id : CArray 64
  bufferSize : Int
  batchSize : Int
deriving DecidableEq

/-- The global `config` before anything is read. -/
def Config.zero : Config := ⟨.zero 256, .zero 128, .zero 64, .zero 64, 0, 0⟩

/-! ### `trim` -/

/-- The bytes `trim` takes off the end of a line. -/
def isBlank (b : UInt8) : Bool := b == 32 || b == 10 || b == 9 || b == 13

/-- The backward scan, with `end + 1` as its argument: the index that gets the NUL.
At zero it would read the byte before the line. -/
def trimScan (s : List UInt8) : Nat → Option Nat
  | 0 => none
  | n + 1 => if isBlank (s.getD n 0) then trimScan s n else some (n + 1)

/-- `trim`: the line's C string after it. -/
def trim (line : List UInt8) : Option (List UInt8) :=
  (trimScan (cString line) (cString line).length).map (cString line).take

theorem trimScan_eq (s : List UInt8) (n : Nat) (hn : n ≤ s.length) :
    trimScan s n =
      if (s.take n).all isBlank then none else some ((s.take n).rdropWhile isBlank).length := by
  induction n with
  | zero => simp [trimScan]
  | succ n ih =>
    have hlt : n < s.length := hn
    have htake : s.take (n + 1) = s.take n ++ [s.getD n 0] := by
      rw [List.take_add_one, List.getD_eq_getElem?_getD, List.getElem?_eq_getElem hlt]
      rfl
    have hdrop := List.rdropWhile_concat isBlank (s.take n) (s.getD n 0)
    rw [trimScan, htake, hdrop, List.all_append]
    cases hb : isBlank (s.getD n 0)
    · simp only [List.all_cons, hb, Bool.false_and, Bool.and_false, Bool.false_eq_true, if_false,
        List.length_append, List.length_take, List.length_singleton]
      rw [Nat.min_eq_left (Nat.le_of_lt hlt)]
    · simp only [List.all_cons, hb, List.all_nil, Bool.and_true, if_true]
      exact ih (Nat.le_of_lt hlt)

/-- What `trim` does: nothing defined on a blank line, else the blanks at the end
of the C string are gone. -/
theorem trim_eq (line : List UInt8) :
    trim line = if (cString line).all isBlank then none
      else some ((cString line).rdropWhile isBlank) := by
  rw [trim, trimScan_eq _ _ (Nat.le_refl _), List.take_length]
  split
  · rfl
  · have hprefix := List.rdropWhile_prefix isBlank (l := cString line)
    rw [Option.map_some, ← List.prefix_iff_eq_take.mp hprefix]

theorem trim_eq_some {line t : List UInt8} :
    trim line = some t ↔
      (∃ b ∈ cString line, isBlank b = false) ∧ (cString line).rdropWhile isBlank = t := by
  have hsolid : (∃ b ∈ cString line, isBlank b = false) ↔ ¬ (cString line).all isBlank = true := by
    simp
  rw [trim_eq, hsolid]
  split
  · rename_i hall
    simp [hall]
  · rename_i hnot
    simp [hnot]

/-! ### Numbers -/

/-- `isspace` in the C locale. -/
def isSpace (b : UInt8) : Bool := b == 32 || (9 ≤ b && b ≤ 13)

def isDigit (b : UInt8) : Bool := 48 ≤ b && b ≤ 57

/-- The number the leading digits spell. -/
def digits (s : List UInt8) : Nat :=
  (s.takeWhile isDigit).foldl (fun n b => 10 * n + (b.toNat - 48)) 0

/-- `strtol` in base ten, which stops at the ends of a 64-bit `long`. -/
def strtol (s : List UInt8) : Int :=
  let s := s.dropWhile isSpace
  let x : Int :=
    if s.head? = some 45 then -(digits s.tail : Int)
    else if s.head? = some 43 then digits s.tail
    else digits s
  max (-2 ^ 63) (min x (2 ^ 63 - 1))

/-- `atoi`, which the C library defines as `(int) strtol(s, NULL, 10)`. -/
def atoi (s : List UInt8) : Int := int32 (strtol s)

/-! ### `load_config` -/

/-- The lines the loop skips: empty lines, comments, leading whitespace. -/
def skipped (line : List UInt8) : Bool :=
  match line with
  | [] => true
  | b :: _ => b == 35 || b == 32 || b == 9 || b == 13 || b == 10

/-- The split at the first `=`: key and value, or nothing to do. -/
def assignment (line : List UInt8) : Option (List UInt8 × List UInt8) :=
  if skipped line then none
  else match line.dropWhile (· != 61) with
    | [] => none
    | _ :: value => some (line.takeWhile (· != 61), value)

/-- The chain of `strcmp` branches. The `name` and `id` branches close `key` where
the other two close the array they wrote. -/
def setOption (c : Config) (a : List UInt8 × List UInt8) : Config :=
  let key := a.1
  let value := a.2
  if key = lit "api" then {c with api := (c.api.strncpy value 255).store 255 0}
  else if key = lit "key" then {c with key := (c.key.strncpy value 127).store 127 0}
  else if key = lit "name" then {c with name := c.name.strncpy value 63, key := c.key.store 127 0}
  else if key = lit "id" then {c with id := c.id.strncpy value 63, key := c.key.store 127 0}
  else if key = lit "buffer_size" then
    let s := atoi value
    {c with bufferSize := if s < 32 then 32 else s}
  else if key = lit "batch_size" then
    let s := atoi value
    {c with batchSize := if s < 1 then 1 else s}
  else c

/-- One pass of the loop over a line `getline` returned. -/
def loadLine (c : Config) (line : List UInt8) : Option Config :=
  (trim line).map fun line =>
    match assignment line with
    | none => c
    | some a => setOption c a

/-- `validate_config`: what it prints when it returns -1. -/
def validateConfig (c : Config) : Option String :=
  if c.api.string.length = 0 then some "Config Error: API endpoint is not set.\n"
  else if c.key.string.length = 0 then some "Config Error: API key is not set.\n"
  else if c.name.string.length = 0 then some "Config Error: Endpoint name is not set.\n"
  else if c.id.string.length = 0 then some "Config Error: Endpoint ID is not set.\n"
  else if c.bufferSize ≤ 16 then some "Config Error: Invalid buffer size.\n"
  else if c.batchSize ≤ 1 then some "Config Error: Invalid batch size.\n"
  else none

/-- "ensure the buffer is large enough", with the product in `int`. -/
def ensureBuffer (c : Config) : Config :=
  if c.bufferSize < int32 (c.batchSize * 2) then {c with bufferSize := int32 (c.batchSize * 2)}
  else c

/-- What a call of `load_config` leaves: its value, what it printed on `stderr`,
and the global `config`. -/
structure Loaded where
  ret : Int
  stderr : Option String
  config : Config
deriving DecidableEq

/-- The end of `load_config`, after the loop. -/
def finishLoad (c : Config) : Loaded :=
  match validateConfig (ensureBuffer c) with
  | some complaint => ⟨-1, some complaint, ensureBuffer c⟩
  | none => ⟨0, none, ensureBuffer c⟩

/-- `load_config` on the bytes of the file, or without a file that can be opened. -/
def loadConfig (file : Option (List UInt8)) : Option Loaded :=
  match file with
  | none => some ⟨-1, some "Error: Unable to open config file!\n", .zero⟩
  | some bytes => ((lines bytes).foldlM loadLine Config.zero).map finishLoad

end EndpointSecurity.Agent
