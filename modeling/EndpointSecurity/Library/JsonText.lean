import EndpointSecurity.Library.Json
import Mathlib.Data.List.TakeWhile

/-! JSON text: what `json.loads` reads, and a writer it reads back.

The scanner follows CPython's: `scanOnce` reads one value and says where it
stopped, blanks are skipped only around the punctuation of arrays and objects, and
`loads` wants nothing but blanks behind the value. The fuel is the length of the
text: a level of nesting takes two units of it, and the two characters that open
and close it. Of a number that is not an integer the scanner knows the text alone;
the float it stands for is a parameter.

`Tree` is the JSON that holds no floats and no surrogates, `Tree.text` its text
without blanks, with every character from the space on written as itself, except
quotes and backslashes. -/
namespace EndpointSecurity.Library
namespace Json

/-! ### Strings -/

def hexValue (c : Char) : Option Nat :=
  if c.isDigit then some (c.toNat - 48)
  else if 'a' ≤ c ∧ c ≤ 'f' then some (c.toNat - 87)
  else if 'A' ≤ c ∧ c ≤ 'F' then some (c.toNat - 55)
  else none

def scanHex4 : List Char → Option (Nat × List Char)
  | a :: b :: c :: d :: rest => do
    let a ← hexValue a
    let b ← hexValue b
    let c ← hexValue c
    let d ← hexValue d
    return (4096 * a + 256 * b + 16 * c + d, rest)
  | _ => none

/-- What follows `\u`. A high surrogate is joined with a low one escaped right
behind it, and stays alone otherwise. -/
def scanUnicode (s : List Char) : Option (CodePoint × List Char) := do
  let (p, rest) ← scanHex4 s
  if 0xD800 ≤ p ∧ p ≤ 0xDBFF ∧ rest.take 2 = ['\\', 'u'] then do
    let (q, more) ← scanHex4 (rest.drop 2)
    if 0xDC00 ≤ q ∧ q ≤ 0xDFFF then
      return (Fin.ofNat _ (0x10000 + (p - 0xD800) * 1024 + (q - 0xDC00)), more)
    else return (Fin.ofNat _ p, rest)
  else return (Fin.ofNat _ p, rest)

/-- The character a backslash and `c` stand for. -/
def simpleEscape (c : Char) : Option Char :=
  if c = '"' ∨ c = '\\' ∨ c = '/' then some c
  else if c = 'b' then some '\x08'
  else if c = 'f' then some '\x0c'
  else if c = 'n' then some '\n'
  else if c = 'r' then some '\r'
  else if c = 't' then some '\t'
  else none

/-- What follows a backslash. -/
def scanEscape : List Char → Option (CodePoint × List Char)
  | [] => none
  | c :: rest =>
    if c = 'u' then scanUnicode rest else (simpleEscape c).map fun d => (codePoint d, rest)

/-- `scanstring`, strict: the rest of a string whose opening quote was read. -/
def scanString : Nat → List Char → Option (List CodePoint × List Char)
  | 0, _ => none
  | _, [] => none
  | fuel + 1, c :: rest =>
    if c = '"' then some ([], rest)
    else if c = '\\' then do
      let (p, rest) ← scanEscape rest
      let (s, rest) ← scanString fuel rest
      return (p :: s, rest)
    else if c.toNat < 32 then none
    else do
      let (s, rest) ← scanString fuel rest
      return (codePoint c :: s, rest)

/-! ### Numbers -/

/-- An integer without its sign: nothing follows a leading zero. -/
def scanDigits : List Char → Option (List Char × List Char)
  | [] => none
  | c :: rest =>
    if c = '0' then some ([c], rest)
    else if c.isDigit then some (c :: rest.takeWhile Char.isDigit, rest.dropWhile Char.isDigit)
    else none

/-- A fraction, if a digit follows the point. -/
def scanFraction (s : List Char) : List Char × List Char :=
  let digits := s.tail.takeWhile Char.isDigit
  if s.head? = some '.' ∧ digits ≠ [] then ('.' :: digits, s.tail.dropWhile Char.isDigit) else ([], s)

/-- An exponent, if a digit follows its mark and sign. -/
def scanExponent (s : List Char) : List Char × List Char :=
  let sign := s.tail.take 1 |>.filter fun c => c == '+' || c == '-'
  let digits := (s.tail.drop sign.length).takeWhile Char.isDigit
  if (s.head? = some 'e' ∨ s.head? = some 'E') ∧ digits ≠ [] then
    (s.take 1 ++ sign ++ digits, (s.tail.drop sign.length).dropWhile Char.isDigit)
  else ([], s)

/-- The digits of the longest integer Python reads: `sys.int_info.default_max_str_digits`. -/
abbrev maxStrDigits : Nat := 4300

section Scanner
variable (pyFloat : List Char → List CodePoint)

/-- `_match_number`. -/
def scanNumber (s : List Char) : Option (Json × List Char) := do
  let sign := s.take 1 |>.filter (· == '-')
  let (digits, s) ← scanDigits (s.drop sign.length)
  let (fraction, s) := scanFraction s
  let (exponent, s) := scanExponent s
  let n := Nat.ofDigitChars 10 digits 0
  if fraction.isEmpty && exponent.isEmpty then
    if digits.length ≤ maxStrDigits then return (.int (if sign.isEmpty then n else -n), s) else none
  else return (.float (pyFloat (sign ++ digits ++ fraction ++ exponent)), s)

/-! ### Values -/

/-- The names of values; the last three are Python's own. -/
def constants : List (String × Json) :=
  [("null", .null), ("true", .bool true), ("false", .bool false),
    ("NaN", .float (points "nan".toList)), ("Infinity", .float (points "inf".toList)),
    ("-Infinity", .float (points "-inf".toList))]

def scanConstant (s : List Char) : Option (Json × List Char) :=
  (constants.find? fun c => c.1.toList.isPrefixOf s).map fun c => (c.2, s.drop c.1.length)

def isSpace (c : Char) : Bool := c == ' ' || c == '\t' || c == '\n' || c == '\r'

def skipSpace (s : List Char) : List Char := s.dropWhile isSpace

mutual
/-- `scan_once`. -/
def scanOnce : Nat → List Char → Option (Json × List Char)
  | 0, _ => none
  | _, [] => none
  | fuel + 1, c :: rest =>
    if c = '"' then do
      let (s, rest) ← scanString (rest.length + 1) rest
      return (.str s, rest)
    else if c = '[' then
      if (skipSpace rest).head? = some ']' then some (.arr [], (skipSpace rest).tail)
      else do
        let (items, rest) ← scanItems fuel (skipSpace rest)
        return (.arr items, rest)
    else if c = '{' then
      if (skipSpace rest).head? = some '}' then some (.obj [], (skipSpace rest).tail)
      else do
        let (members, rest) ← scanMembers fuel (skipSpace rest)
        return (.obj members, rest)
    else scanConstant (c :: rest) <|> scanNumber pyFloat (c :: rest)

/-- The loop of `_parse_array`, on an array that is not empty. -/
def scanItems : Nat → List Char → Option (List Json × List Char)
  | 0, _ => none
  | fuel + 1, s => do
    let (item, rest) ← scanOnce fuel s
    let rest := skipSpace rest
    if rest.head? = some ']' then return ([item], rest.tail)
    else if rest.head? = some ',' then do
      let (items, rest) ← scanItems fuel (skipSpace rest.tail)
      return (item :: items, rest)
    else none

/-- The loop of `_parse_object`, on an object that is not empty. -/
def scanMembers : Nat → List Char → Option (List (List CodePoint × Json) × List Char)
  | 0, _ => none
  | fuel + 1, s =>
    if s.head? = some '"' then do
      let (name, rest) ← scanString (s.length + 1) s.tail
      let rest := skipSpace rest
      if rest.head? = some ':' then do
        let (item, rest) ← scanOnce fuel (skipSpace rest.tail)
        let rest := skipSpace rest
        if rest.head? = some '}' then return ([(name, item)], rest.tail)
        else if rest.head? = some ',' then do
          let (members, rest) ← scanMembers fuel (skipSpace rest.tail)
          return ((name, item) :: members, rest)
        else none
      else none
    else none
end

/-- `json.loads`. -/
def loads (s : List Char) : Option Json := do
  let (x, rest) ← scanOnce pyFloat (s.length + 1) (skipSpace s)
  if skipSpace rest = [] then return x else none

end Scanner

/-! ### The writer -/

/-- The character `c` inside a string. -/
def escapeChar (c : Char) : List Char :=
  if c = '"' then ['\\', '"']
  else if c = '\\' then ['\\', '\\']
  else if c = '\x08' then ['\\', 'b']
  else if c = '\x0c' then ['\\', 'f']
  else if c = '\n' then ['\\', 'n']
  else if c = '\r' then ['\\', 'r']
  else if c = '\t' then ['\\', 't']
  else if c.toNat < 32 then
    ['\\', 'u', '0', '0', Nat.digitChar (c.toNat / 16), Nat.digitChar (c.toNat % 16)]
  else [c]

def quoted (s : List Char) : List Char := '"' :: (s.flatMap escapeChar ++ ['"'])

end Json

/-- An integer that is not too long to be read. -/
structure ShortInt where
  val : Int
  short : (Nat.toDigits 10 val.natAbs).length ≤ Json.maxStrDigits

/-- JSON without floats, surrogates and long integers. -/
inductive Tree where
  | int (n : ShortInt)
  | str (s : List Char)
  | arr (items : List Tree)
  | obj (members : List (List Char × Tree))

namespace Tree
open Json

mutual
/-- The value a tree is. -/
def json : Tree → Json
  | int n => .int n.val
  | str s => .str (points s)
  | arr items => .arr (itemsJson items)
  | obj members => .obj (membersJson members)

def itemsJson : List Tree → List Json
  | [] => []
  | item :: rest => item.json :: itemsJson rest

def membersJson : List (List Char × Tree) → List (List CodePoint × Json)
  | [] => []
  | (name, item) :: rest => (points name, item.json) :: membersJson rest
end

mutual
/-- The text of a tree, without blanks. -/
def text : Tree → List Char
  | int n => (toString n.val).toList
  | str s => quoted s
  | arr items => '[' :: (itemsText items ++ [']'])
  | obj members => '{' :: (membersText members ++ ['}'])

def itemsText : List Tree → List Char
  | [] => []
  | item :: rest => item.text ++ (if rest.isEmpty then [] else [',']) ++ itemsText rest

def membersText : List (List Char × Tree) → List Char
  | [] => []
  | (name, item) :: rest =>
    quoted name ++ [':'] ++ item.text ++ (if rest.isEmpty then [] else [',']) ++ membersText rest
end

end Tree

end EndpointSecurity.Library
