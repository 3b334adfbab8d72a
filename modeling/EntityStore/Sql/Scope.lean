import EntityStore.Metadata.Basic
import EntityStore.Sql.ColumnTest

/-!
What the properties of a condition stand for in a query.

A `Scope` gives a table, the columns of its fields and the properties that hold
points in time.  `Scope.resolve` turns a test of a property into a test of a
column; `Scope.ofMetadata` is the scope of a described table.  `QueryError` says
why a condition cannot be built.
-/

namespace EntityStore.Sql

/-- Why a condition cannot be built. -/
inductive QueryError where
  /-- The builder has no form of a test. -/
  | unsupported (predicate builder : String)
  /-- The description of the table is at fault. -/
  | invalid (error : Error)
  deriving DecidableEq

/-- The wording of an error. -/
def QueryError.message : QueryError → String
  | .unsupported predicate builder =>
      builder ++ " does not support the \"" ++ predicate ++ "\" predicate"
  | .invalid error => error.message

/-- What the properties of a condition stand for: a table, the columns of its
fields, and the properties that hold points in time. -/
structure Scope where
  table : String
  fields : List Field
  temporals : List TemporalProperty
  deriving DecidableEq

namespace Scope

/-- The test of a property as a test of the column of the first field for it. -/
def resolve (scope : Scope) (test : PropertyTest) : Except QueryError ColumnTest :=
  match scope.fields.find? (·.property == test.property) with
  | none => .error (.invalid (.unknownProperty scope.table test.property))
  | some field =>
      .ok ⟨scope.table, field.column, test.predicate,
        scope.temporals.any (·.property == test.property)⟩

/-- The scope of a described table, its columns qualified by the table name and
a schema. -/
def ofMetadata (schema : Option String) (m : Metadata) : Scope :=
  ⟨qualifiedTable schema m.table, m.fields, m.temporals⟩

end Scope

end EntityStore.Sql
