import EndpointSecurity.Server.Flask

/-! Statement parameters on their way through PyMySQL into MySQL.

PyMySQL writes a parameter into the statement as a literal: `escape`. It refuses
dictionaries and the floats SQL has no literal for, writes a list as a parenthesised
list, and encodes the statement with `surrogateescape`. MySQL reads the literal back
(`Literal.value`): a parenthesised list of one is its element, and text has to be
UTF-8. What a `VARCHAR` column stores, and what equals it, is up to MySQL, whose
collation and number rules are a parameter (`Mysql`). -/
namespace EndpointSecurity.Server
open Library

/-- A number as PyMySQL writes it. -/
inductive SqlNumber where
  | int (n : Int)
  | float (repr : List CodePoint)
deriving DecidableEq

/-- Why PyMySQL or MySQL refuses a statement. -/
inductive SqlError where
  | dictParameter
  | floatParameter
  | unencodable
  | syntaxError
  | invalidText
  | operandColumns
  | columnNull
  | dataTooLong
  | outOfRange
  | duplicateEntry
deriving DecidableEq

/-- What stands in a statement in place of `%s`. -/
inductive Literal where
  | null
  | number (n : SqlNumber)
  | text (s : List CodePoint)
  | sequence (items : List Literal)

/-- The value of an operand. -/
inductive SqlValue where
  | null
  | number (n : SqlNumber)
  | text (s : List Char)
deriving DecidableEq

/-- The database server, as far as the views depend on it: the collation of its text
columns, how `=` compares them with numbers, how a number is stored in one, and the
texts of the exceptions. -/
structure Mysql where
  collation : Setoid (List Char)
  decideSame : DecidableRel collation.r
  equalsNumber : List Char → SqlNumber → Bool
  numberText : SqlNumber → List Char
  message : SqlError → List Json → List CodePoint

/-- `=` between texts. -/
def Mysql.Same (db : Mysql) (s t : List Char) : Prop := db.collation.r s t

instance (db : Mysql) (s t : List Char) : Decidable (db.Same s t) := db.decideSame s t

theorem Mysql.same_refl (db : Mysql) (s : List Char) : db.Same s s := db.collation.refl s

/-! ### Parameters -/

mutual
/-- `literal` of a parameter. -/
def escape : Json → Except SqlError Literal
  | .null => .ok .null
  | .bool b => .ok (.number (.int b.toNat))
  | .int n => .ok (.number (.int n))
  | .float repr =>
    if repr = py "inf" ∨ repr = py "-inf" ∨ repr = py "nan" then .error .floatParameter
    else .ok (.number (.float repr))
  | .str s => .ok (.text s)
  | .arr items => (escapeItems items).map .sequence
  | .obj _ => .error .dictParameter

/-- `escape_sequence`. -/
def escapeItems : List Json → Except SqlError (List Literal)
  | [] => .ok []
  | x :: rest => do
    let x ← escape x
    let rest ← escapeItems rest
    return x :: rest
end

/-- A code point under `encode("utf8", "surrogateescape")`. -/
def encodePoint (p : CodePoint) : Option (List UInt8) :=
  match scalar p with
  | some c => some (String.utf8EncodeChar c)
  | none => if 0xDC80 ≤ p.val ∧ p.val ≤ 0xDCFF then some [UInt8.ofNat (p.val - 0xDC00)] else none

/-- A string in a statement, as MySQL gets it. -/
def textValue (s : List CodePoint) : Except SqlError (List Char) :=
  match s.mapM encodePoint with
  | none => .error .unencodable
  | some bytes =>
    match decodeUtf8 bytes.flatten with
    | none => .error .invalidText
    | some t => .ok t

/-- What an operand written as a literal is. -/
def Literal.value : Literal → Except SqlError SqlValue
  | .null => .ok .null
  | .number n => .ok (.number n)
  | .text s => (textValue s).map .text
  | .sequence [] => .error .syntaxError
  | .sequence [x] => x.value
  | .sequence (_ :: _ :: _) => .error .operandColumns

/-- The operand one parameter becomes. -/
def operand (x : Json) : Except SqlError SqlValue := do
  let l ← escape x
  l.value

/-- A statement with one parameter. -/
def Mysql.statement1 {β : Type} (db : Mysql) (x : Json) (f : SqlValue → Except SqlError β) :
    Except (List CodePoint) β :=
  ((operand x).bind f).mapError (db.message · [x])

/-- A statement with two: both are escaped before the server sees either. -/
def Mysql.statement2 {β : Type} (db : Mysql) (x y : Json)
    (f : SqlValue → SqlValue → Except SqlError β) : Except (List CodePoint) β :=
  (do
    let x ← escape x
    let y ← escape y
    let u ← x.value
    let v ← y.value
    f u v).mapError (db.message · [x, y])

theorem Mysql.statement1_eq_ok {β : Type} {db : Mysql} {x : Json}
    {f : SqlValue → Except SqlError β} {b : β} :
    db.statement1 x f = .ok b ↔ ∃ u, operand x = .ok u ∧ f u = .ok b := by
  unfold statement1
  cases operand x with
  | error e => simp [Except.bind, Except.mapError]
  | ok u => cases hf : f u <;> simp [Except.bind, Except.mapError, hf]

theorem Mysql.statement2_eq_ok {β : Type} {db : Mysql} {x y : Json}
    {f : SqlValue → SqlValue → Except SqlError β} {b : β} :
    db.statement2 x y f = .ok b ↔
      ∃ u v, operand x = .ok u ∧ operand y = .ok v ∧ f u v = .ok b := by
  unfold statement2 operand
  cases hx : escape x with
  | error e => simp [bind, Except.bind, Except.mapError]
  | ok k =>
    cases hy : escape y with
    | error e => simp [bind, Except.bind, Except.mapError]
    | ok l =>
      cases hu : k.value with
      | error e => simp [bind, Except.bind, Except.mapError, hu]
      | ok u =>
        cases hv : l.value with
        | error e => simp [bind, Except.bind, Except.mapError, hu, hv]
        | ok v => cases hf : f u v <;> simp [bind, Except.bind, Except.mapError, hu, hv, hf]

theorem encodePoint_codePoint (c : Char) :
    encodePoint (codePoint c) = some (String.utf8EncodeChar c) := by
  rw [encodePoint, scalar_codePoint]

/-- A string of characters reaches MySQL as it is. -/
theorem textValue_points (s : List Char) : textValue (points s) = .ok s := by
  have hbytes : (points s).mapM encodePoint = some (s.map String.utf8EncodeChar) := by
    induction s with
    | nil => rfl
    | cons c s ih =>
      rw [points] at ih
      rw [points, List.map_cons, List.mapM_cons, encodePoint_codePoint, ih]
      rfl
  have hflat : (s.map String.utf8EncodeChar).flatten = utf8 s := rfl
  rw [textValue, hbytes]
  simp only [hflat, decodeUtf8_utf8]

theorem operand_str (s : List Char) : operand (.str (points s)) = .ok (.text s) := by
  show (textValue (points s)).map SqlValue.text = _
  rw [textValue_points]
  rfl

/-- A list of one is its element. -/
theorem operand_singleton (x : Json) : operand (.arr [x]) = operand x := by
  unfold operand
  simp only [escape, escapeItems]
  cases escape x <;> rfl

/-! ### Text columns -/

/-- What `VARCHAR(n)` stores: text that is too long is refused in strict mode, unless
only spaces are lost. -/
def varchar (n : Nat) (s : List Char) : Except SqlError (List Char) :=
  if s.length ≤ n then .ok s
  else if (s.drop n).all (· == ' ') then .ok (s.take n)
  else .error .dataTooLong

/-- What a text column of `n` characters makes of an operand. -/
def columnText (db : Mysql) (n : Nat) : SqlValue → Except SqlError (Option (List Char))
  | .null => .ok none
  | .number x => (varchar n (db.numberText x)).map some
  | .text s => (varchar n s).map some

/-- `column = operand`, where the column holds `s`. -/
def Mysql.equals (db : Mysql) (s : List Char) : SqlValue → Bool
  | .null => false
  | .number x => db.equalsNumber s x
  | .text t => decide (db.Same s t)

theorem varchar_fits {n : Nat} {s : List Char} (h : s.length ≤ n) : varchar n s = .ok s := if_pos h

end EndpointSecurity.Server
