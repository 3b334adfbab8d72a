import EntityStore.Condition.Basic
import EntityStore.Sql.Fragment
import EntityStore.Sql.Quoting

/-!
Tests of one column.

A `ColumnTest` is a predicate on a column, possibly read as a point in time.
`ColumnTest.fragment` writes it for PostgreSQL.  Nothing equals null there, so
equality with null becomes `IS NULL`, and nulls among the operands of a list
are left out of it and asked for apart.
-/

namespace EntityStore.Sql

/-- A predicate on a column of a table.  Where both sides of a comparison are
points in time, `asTime` asks for them to be compared as such; a check for null
compares nothing. -/
structure ColumnTest where
  table : String
  column : String
  predicate : Predicate
  asTime : Bool
  deriving DecidableEq

namespace ColumnTest

/-- Whether operands are compared as points in time. -/
def comparesTime (t : ColumnTest) : Bool := t.asTime && !t.predicate.isNullCheck

/-- The name of the test where it is refused. -/
def kindName (t : ColumnTest) : String :=
  if t.comparesTime then t.predicate.kindName ++ "-as-time" else t.predicate.kindName

/-- The quoted column. -/
def columnText (t : ColumnTest) : String := quoteColumn t.table t.column

/-- The marker of an operand. -/
def marker (t : ColumnTest) : String := if t.comparesTime then "?::timestamptz" else "?"

/-- A comparison with one operand. -/
def comparison (t : ColumnTest) (operator : String) (operand : Value) : Fragment :=
  ⟨t.columnText ++ " " ++ operator ++ " " ++ t.marker, [operand]⟩

/-- The check for null. -/
def nullCheck (t : ColumnTest) : Fragment := ⟨t.columnText ++ " IS NULL", []⟩

/-- The test for one of a list of operands. -/
def membership (t : ColumnTest) (operands : List Value) : Fragment :=
  let present := operands.filter fun operand => !operand.isNull
  let hasNull := operands.any Value.isNull
  if present.isEmpty then
    if hasNull then t.nullCheck else ⟨"FALSE", []⟩
  else
    let list := t.columnText ++ " IN (" ++
      ", ".intercalate (List.replicate present.length t.marker) ++ ")"
    if hasNull then ⟨"(" ++ list ++ " OR " ++ t.columnText ++ " IS NULL)", present⟩
    else ⟨list, present⟩

/-- The test as PostgreSQL text with its parameters. -/
def fragment (t : ColumnTest) : Fragment :=
  match t.predicate with
  | .equals operand => if operand.isNull then t.nullCheck else t.comparison "=" operand
  | .before limit => t.comparison "<" limit
  | .after limit => t.comparison ">" limit
  | .between first last =>
      ⟨t.columnText ++ " BETWEEN " ++ t.marker ++ " AND " ++ t.marker, [first, last]⟩
  | .oneOf operands => t.membership operands
  | .isNull => t.nullCheck
  | .isNotNull => ⟨t.columnText ++ " IS NOT NULL", []⟩

end ColumnTest

end EntityStore.Sql
