import EndpointSecurity.Library.Options
import EndpointSecurity.Library.Utf8

/-! JSON values.

A string is a sequence of code points, surrogates included: an escape may put one
where no character is. Integers are unbounded, every other number is known by the
shortest text that reads back as it. An object is its list of members, and a name
stands for its last one. -/
namespace EndpointSecurity.Library

inductive Json where
  | null
  | bool (b : Bool)
  | int (n : Int)
  | float (repr : List CodePoint)
  | str (s : List CodePoint)
  | arr (items : List Json)
  | obj (members : List (List CodePoint × Json))

namespace Json

/-- The member of an object that a name stands for. -/
def member (name : List CodePoint) : Json → Option Json
  | obj members => lastAssigned name members
  | _ => none

end Json

end EndpointSecurity.Library
