import EndpointSecurity.Agent.Config

/-! cJSON trees and `cJSON_PrintUnformatted`.

Printing appends to a buffer that `ensure` grows on demand, up to `INT_MAX` bytes;
past that it fails and there is no text at all. `render` is the text without the
buffer, and `printUnformatted_eq` says what the buffer costs: the text, if it and
two bytes more fit `INT_MAX`. Strings are bytes: only quotes, backslashes and bytes
below 0x20 are escaped, every other byte is copied. -/
namespace EndpointSecurity.Agent
open Library

/-- A double that holds a whole number of at most fifteen digits, which is what
both formats of `print_number` spell in full. -/
structure Whole where
  val : Int
  small : val.natAbs < 10 ^ 15

inductive CJson where
  | number (d : Whole)
  | string (s : List UInt8)
  | array (items : List CJson)
  | object (members : List (List UInt8 × CJson))

abbrev INT_MAX : Nat := 2147483647

/-! ### Pieces of text -/

/-- `print_number`: `%d` where the double is its `valueint`, else `%1.15g`. -/
def numberText (d : Whole) : List UInt8 := lit (toString d.val)

/-- A hexadecimal digit, as `%04x` prints it. -/
def hexDigit (n : Nat) : UInt8 := if n < 10 then UInt8.ofNat (48 + n) else UInt8.ofNat (87 + n)

/-- What `print_string_ptr` writes for one byte of a string. -/
def escapeByte (b : UInt8) : List UInt8 :=
  if 31 < b ∧ b ≠ 34 ∧ b ≠ 92 then [b]
  else if b = 92 then [92, 92]
  else if b = 34 then [92, 34]
  else if b = 8 then [92, 98]
  else if b = 12 then [92, 102]
  else if b = 10 then [92, 110]
  else if b = 13 then [92, 114]
  else if b = 9 then [92, 116]
  else [92, 117, 48, 48, hexDigit (b.toNat / 16), hexDigit (b.toNat % 16)]

def escaped (s : List UInt8) : List UInt8 := s.flatMap escapeByte

/-- The first pass of `print_string_ptr`: the bytes that escaping adds. -/
def escapeCharacters (s : List UInt8) : Nat :=
  (s.map fun b =>
    if b = 34 ∨ b = 92 ∨ b = 8 ∨ b = 12 ∨ b = 10 ∨ b = 13 ∨ b = 9 then 1
    else if b < 32 then 5
    else 0).sum

theorem length_escapeByte (b : UInt8) : (escapeByte b).length =
    1 + if b = 34 ∨ b = 92 ∨ b = 8 ∨ b = 12 ∨ b = 10 ∨ b = 13 ∨ b = 9 then 1
      else if b < 32 then 5 else 0 := by
  revert b
  apply forall_byte
  decide +kernel

/-- The two passes agree on the length of the escaped string. -/
theorem length_escaped (s : List UInt8) : (escaped s).length = s.length + escapeCharacters s := by
  induction s with
  | nil => rfl
  | cons b s ih =>
    have hsplit : escaped (b :: s) = escapeByte b ++ escaped s := rfl
    rw [hsplit, List.length_append, ih, length_escapeByte]
    simp only [escapeCharacters, List.map_cons, List.sum_cons, List.length_cons]
    omega

def stringText (s : List UInt8) : List UInt8 := [34] ++ escaped s ++ [34]

mutual
/-- The text of a tree. -/
def render : CJson → List UInt8
  | .number d => numberText d
  | .string s => stringText s
  | .array items => [91] ++ renderItems items ++ [93]
  | .object members => [123] ++ renderMembers members ++ [125]

def renderItems : List CJson → List UInt8
  | [] => []
  | item :: rest => render item ++ (if rest.isEmpty then [] else [44]) ++ renderItems rest

def renderMembers : List (List UInt8 × CJson) → List UInt8
  | [] => []
  | (name, item) :: rest =>
    stringText name ++ [58] ++ render item ++ (if rest.isEmpty then [] else [44]) ++ renderMembers rest
end

/-! ### The print buffer -/

/-- `ensure`: room for `needed` bytes more behind what is printed. The allocator
does not fail. -/
def ensure (out : List UInt8) (needed : Nat) : Option Unit :=
  if out.length + needed + 1 ≤ INT_MAX then some () else none

/-- `print_string_ptr`. -/
def printStringPtr (s : List UInt8) (out : List UInt8) : Option (List UInt8) := do
  ensure out (s.length + escapeCharacters s + 3)
  return out ++ stringText s

mutual
/-- `print_value`. -/
def printValue : CJson → List UInt8 → Option (List UInt8)
  | .number d, out => do
    ensure out ((numberText d).length + 1)
    return out ++ numberText d
  | .string s, out => printStringPtr s out
  | .array items, out => do
    ensure out 1
    let out ← printItems items (out ++ [91])
    ensure out 2
    return out ++ [93]
  | .object members, out => do
    ensure out 2
    let out ← printMembers members (out ++ [123])
    ensure out 2
    return out ++ [125]

/-- The loop of `print_array`. -/
def printItems : List CJson → List UInt8 → Option (List UInt8)
  | [], out => some out
  | item :: rest, out => do
    let out ← printValue item out
    if rest.isEmpty then printItems rest out
    else do
      ensure out 2
      printItems rest (out ++ [44])

/-- The loop of `print_object`. -/
def printMembers : List (List UInt8 × CJson) → List UInt8 → Option (List UInt8)
  | [], out => some out
  | (name, item) :: rest, out => do
    let out ← printStringPtr name out
    ensure out 1
    let out ← printValue item (out ++ [58])
    if rest.isEmpty then do
      ensure out 1
      printMembers rest out
    else do
      ensure out 2
      printMembers rest (out ++ [44])
end

/-- `cJSON_PrintUnformatted`. -/
def printUnformatted (item : CJson) : Option (List UInt8) := printValue item []

/-! ### What the buffer costs -/

/-- A text the buffer can hold with `extra` bytes to spare. -/
def fitted (extra : Nat) (text : List UInt8) : Option (List UInt8) :=
  if text.length + extra ≤ INT_MAX then some text else none

theorem ensure_bind {α : Type} (out : List UInt8) (needed : Nat) (k : Unit → Option α) :
    (ensure out needed >>= k) = if out.length + needed + 1 ≤ INT_MAX then k () else none := by
  unfold ensure
  split <;> rfl

theorem fitted_bind {α : Type} (extra : Nat) (text : List UInt8) (k : List UInt8 → Option α) :
    (fitted extra text >>= k) = if text.length + extra ≤ INT_MAX then k text else none := by
  unfold fitted
  split <;> rfl

/-- Room that the whole text needs anyway is not asked for twice. -/
theorem fitted_guard {extra : Nat} {text : List UInt8} {p : Prop} [Decidable p]
    (h : text.length + extra ≤ INT_MAX → p) :
    (if p then fitted extra text else none) = fitted extra text := by
  unfold fitted
  by_cases hfit : text.length + extra ≤ INT_MAX
  · rw [if_pos (h hfit)]
  · simp [hfit]

theorem printStringPtr_eq (s out : List UInt8) :
    printStringPtr s out = fitted 2 (out ++ stringText s) := by
  have hlen : (out ++ stringText s).length = out.length + (s.length + escapeCharacters s) + 2 := by
    simp only [stringText, List.length_append, length_escaped, List.length_singleton]
    omega
  rw [printStringPtr, ensure_bind, fitted, hlen]
  rfl

/-- The step every loop ends in: closing what the rest of the list printed. -/
def closing (close : UInt8) (r : Option (List UInt8)) : Option (List UInt8) := do
  let out ← r
  ensure out 2
  return out ++ [close]

theorem closing_some (close : UInt8) (out : List UInt8) :
    closing close (some out) = fitted 2 (out ++ [close]) := by
  show (ensure out 2 >>= _) = _
  rw [ensure_bind, fitted, List.length_append]
  rfl

theorem closing_ite (close : UInt8) (p : Prop) [Decidable p] (r : Option (List UInt8)) :
    closing close (if p then r else none) = if p then closing close r else none := by
  split <;> rfl

mutual
/-- `print_value` prints the text of its tree or runs out of room. -/
theorem printValue_eq : ∀ (item : CJson) (out : List UInt8),
    printValue item out = fitted 2 (out ++ render item)
  | .number d, out => by
    rw [printValue, render, ensure_bind, fitted, List.length_append]
    rfl
  | .string s, out => by
    rw [printValue, render, printStringPtr_eq]
  | .array items, out => by
    have hitems := printItems_eq items 93 (out ++ [91])
    have htext : out ++ render (.array items) = out ++ [91] ++ renderItems items ++ [93] := by
      simp only [render, List.append_assoc]
    rw [printValue, ensure_bind, htext]
    show (if _ then closing 93 (printItems items (out ++ [91])) else none) = _
    rw [hitems]
    apply fitted_guard
    simp only [List.length_append, List.length_singleton]
    omega
  | .object members, out => by
    have hmembers := printMembers_eq members 125 (out ++ [123])
    have htext : out ++ render (.object members) = out ++ [123] ++ renderMembers members ++ [125] := by
      simp only [render, List.append_assoc]
    rw [printValue, ensure_bind, htext]
    show (if _ then closing 125 (printMembers members (out ++ [123])) else none) = _
    rw [hmembers]
    apply fitted_guard
    simp only [List.length_append, List.length_singleton]
    omega

theorem printItems_eq : ∀ (items : List CJson) (close : UInt8) (out : List UInt8),
    closing close (printItems items out) = fitted 2 (out ++ renderItems items ++ [close])
  | [], close, out => by
    rw [printItems, renderItems, closing_some, List.append_nil]
  | item :: rest, close, out => by
    have hrest := printItems_eq rest close
    rw [printItems, printValue_eq item out, fitted_bind, closing_ite, renderItems]
    cases hempty : rest.isEmpty
    · simp only [Bool.false_eq_true, if_false]
      rw [ensure_bind, closing_ite, hrest, fitted_guard, fitted_guard]
      · simp only [List.append_assoc]
      · simp only [List.length_append, List.length_singleton]
        omega
      · simp only [List.length_append, List.length_singleton]
        omega
    · simp only [if_true]
      rw [hrest, fitted_guard]
      · simp only [List.append_assoc, List.append_nil]
      · simp only [List.length_append, List.length_singleton]
        omega

theorem printMembers_eq : ∀ (members : List (List UInt8 × CJson)) (close : UInt8) (out : List UInt8),
    closing close (printMembers members out) = fitted 2 (out ++ renderMembers members ++ [close])
  | [], close, out => by
    rw [printMembers, renderMembers, closing_some, List.append_nil]
  | (name, item) :: rest, close, out => by
    have hrest := printMembers_eq rest close
    rw [printMembers, printStringPtr_eq, fitted_bind, closing_ite, ensure_bind, closing_ite,
      printValue_eq item, fitted_bind, closing_ite, renderMembers]
    cases hempty : rest.isEmpty
    · simp only [Bool.false_eq_true, if_false]
      rw [ensure_bind, closing_ite, hrest, fitted_guard, fitted_guard, fitted_guard, fitted_guard]
      · simp only [List.append_assoc]
      all_goals
        simp only [List.length_append, List.length_singleton]
        omega
    · simp only [if_true]
      rw [ensure_bind, closing_ite, hrest, fitted_guard, fitted_guard, fitted_guard, fitted_guard]
      · simp only [List.append_assoc, List.append_nil]
      all_goals
        simp only [List.length_append, List.length_singleton]
        omega
end

/-- **`cJSON_PrintUnformatted` gives the text of the tree**, as long as two bytes more
than the text fit the buffer. -/
theorem printUnformatted_eq (item : CJson) :
    printUnformatted item = if (render item).length + 2 ≤ INT_MAX then some (render item) else none :=
  printValue_eq item []

end EndpointSecurity.Agent
