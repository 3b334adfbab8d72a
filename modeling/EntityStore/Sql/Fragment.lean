import EntityStore.Value.Order

/-!
Pieces of a query.

A `Fragment` is text in which each question mark outside quoted identifiers
stands for one parameter, together with the parameters in that order.  So
pieces can be put together in any order before `Fragment.numbered` gives the
parameters their numbers.
-/

namespace EntityStore.Sql

/-- The characters with the markers outside quotes numbered from `next` on;
`quoted` tells whether the text so far has left a quote open. -/
def numberFrom (quoted : Bool) (next : Nat) : List Char → List Char
  | [] => []
  | c :: rest =>
      if c = '"' then c :: numberFrom (!quoted) next rest
      else if c = '?' ∧ quoted = false then
        '$' :: ((toString next).toList ++ numberFrom quoted (next + 1) rest)
      else c :: numberFrom quoted next rest

/-- The text with its markers numbered from `$1` on. -/
def numberPlaceholders (text : String) : String := String.ofList (numberFrom false 1 text.toList)

/-- Text with markers, and the parameters that they stand for. -/
structure Fragment where
  text : String
  values : List Value
  deriving DecidableEq, Inhabited

namespace Fragment

/-- The number of parameters. -/
def parameterCount (f : Fragment) : Nat := f.values.length

/-- Whether there is no text. -/
def isEmpty (f : Fragment) : Bool := f.text.isEmpty

/-- The fragment with numbers in place of its markers. -/
def numbered (f : Fragment) : Fragment := { f with text := numberPlaceholders f.text }

/-- The fragment as one term in parentheses. -/
def grouped (f : Fragment) : Fragment := { f with text := "(" ++ f.text ++ ")" }

end Fragment

end EntityStore.Sql
