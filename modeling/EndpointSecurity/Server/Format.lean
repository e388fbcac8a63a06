import EndpointSecurity.Server.Flask

/-! Python values as text, the way an f-string or a `print` formats them.

Strings stand for themselves at the top and are quoted inside of anything else; how
Python quotes a string is a parameter. -/
namespace EndpointSecurity.Server
open Library

/-- A dictionary out of its members: each name where it came first, with its last value. -/
def asDict {β : Type} (members : List (List CodePoint × β)) : List (List CodePoint × β) :=
  (members.map Prod.fst).eraseDups.filterMap fun k => (lastAssigned k members).map (k, ·)

/-- Texts with a comma between them. -/
def commaJoin (texts : List (List CodePoint)) : List CodePoint :=
  (texts.intersperse (py ", ")).flatten

section Formatting
variable (reprStr : List CodePoint → List CodePoint)

mutual
/-- `repr(x)`. -/
def pyRepr : Json → List CodePoint
  | .null => py "None"
  | .bool b => if b then py "True" else py "False"
  | .int n => py (toString n)
  | .float repr => repr
  | .str s => reprStr s
  | .arr items => py "[" ++ commaJoin (pyReprItems items) ++ py "]"
  | .obj members =>
    py "\x7b" ++ commaJoin ((asDict (pyReprMembers members)).map fun m => reprStr m.1 ++ py ": " ++ m.2) ++
      py "\x7d"

def pyReprItems : List Json → List (List CodePoint)
  | [] => []
  | x :: rest => pyRepr x :: pyReprItems rest

def pyReprMembers : List (List CodePoint × Json) → List (List CodePoint × List CodePoint)
  | [] => []
  | (name, x) :: rest => (name, pyRepr x) :: pyReprMembers rest
end

/-- `str(x)`, which is also what an f-string formats. -/
def pyFormat : Json → List CodePoint
  | .str s => s
  | x => pyRepr reprStr x

end Formatting

end EndpointSecurity.Server
