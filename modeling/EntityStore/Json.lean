/-!
JSON documents as data, and the reading of records from them.

A record may be written as an object, whose members are found by their names,
or as an array, whose items are its members in order; `Json.members` reads
both forms alike.
-/

namespace EntityStore

/-- A JSON document.  A number is `mantissa * 10 ^ (-exponent)`. -/
inductive Json where
  | null
  | bool (b : Bool)
  | number (mantissa : Int) (exponent : Nat)
  | string (s : String)
  | array (items : List Json)
  | object (members : List (String × Json))
  deriving Inhabited

namespace Json

/-- The member of an object with a name. -/
def member? (name : String) (members : List (String × Json)) : Option Json :=
  (members.find? (·.1 == name)).map (·.2)

/-- The members of a record, each of them possibly left out.  In an array only
trailing members can be left out, and no more items than members may stand. -/
def members (names : List String) : Json → Option (List (Option Json))
  | .object entries => some (names.map (member? · entries))
  | .array items =>
      if items.length ≤ names.length then
        some (items.map some ++ List.replicate (names.length - items.length) none)
      else none
  | _ => none

/-- The text of a string. -/
def asString? : Json → Option String
  | .string s => some s
  | _ => none

/-- Every item of an array, read alike. -/
def listOf {α : Type} (read : Json → Option α) : Json → Option (List α)
  | .array items => items.mapM read
  | _ => none

/-- A name out of a fixed set: a string, or an object whose single member has
the name and holds null. -/
def asName? : Json → Option String
  | .string name => some name
  | .object [(name, .null)] => some name
  | _ => none

/-- A member that must not be left out. -/
def required {α : Type} (read : Json → Option α) (member : Option Json) : Option α :=
  member.bind read

/-- A member that stands for something when it is left out. -/
def withDefault {α : Type} (default : α) (read : Json → Option α) : Option Json → Option α
  | none => some default
  | some document => read document

end Json

end EntityStore
