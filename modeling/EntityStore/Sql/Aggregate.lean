import EntityStore.Sql.Fragment
import EntityStore.Sql.Quoting
import EntityStore.Value.Text

/-!
Columns and aggregates over them.

A `ColumnReference` has no parameters.  An `Aggregate` wraps the fragment that
its formula was when it was set; what happens to the source afterwards does not
show in it.
-/

namespace EntityStore.Sql

/-- A column of a table, or all of them. -/
structure ColumnReference where
  table : String
  column : Option String
  deriving DecidableEq

/-- The reference as a fragment. -/
def ColumnReference.fragment (r : ColumnReference) : Fragment :=
  match r.column with
  | some column => ⟨quoteColumn r.table column, []⟩
  | none => ⟨quoteTable r.table ++ ".*", []⟩

/-- The aggregate functions. -/
inductive AggregateFunction where
  | arrayAgg
  | jsonbAgg
  deriving DecidableEq

namespace AggregateFunction

/-- The name of the function in SQL. -/
def sqlName : AggregateFunction → String
  | .arrayAgg => "array_agg"
  | .jsonbAgg => "jsonb_agg"

/-- The name of the function's builder. -/
def builderName : AggregateFunction → String
  | .arrayAgg => "PgArrayAggBuilder"
  | .jsonbAgg => "PgJsonAggBuilder"

end AggregateFunction

/-- An aggregate function applied to a formula. -/
structure Aggregate where
  function : AggregateFunction
  distinct : Bool
  formula : Fragment
  deriving DecidableEq

namespace Aggregate

/-- Replaces the formula. -/
def setFormula (a : Aggregate) (formula : Fragment) : Aggregate := { a with formula := formula }

/-- The aggregate as a fragment. -/
def fragment (a : Aggregate) : Fragment :=
  { a.formula with
    text := a.function.sqlName ++ "(" ++ (if a.distinct then "DISTINCT " else "") ++
      a.formula.text ++ ")" }

/-- The finished text with its parameters. -/
def build (a : Aggregate) : Fragment := a.fragment.numbered

/-- The written form: the builder, the finished text and the parameters. -/
protected def toString (a : Aggregate) : String :=
  a.function.builderName ++ " \"" ++ a.build.text ++ "\" with " ++
    " ".intercalate (a.build.values.map toString)

instance : ToString Aggregate := ⟨Aggregate.toString⟩

end Aggregate

end EntityStore.Sql
