import EntityStore.Sql.Backend

/-!
Conditions as the body of a `WHERE` clause: a chain joined by AND on the
columns of a described table, with its parameters numbered.
-/

namespace EntityStore.Sql

/-- The condition as PostgreSQL text with its parameters. -/
def whereClause (schema : Option String) (m : Metadata) (condition : Condition) :
    Except QueryError Fragment :=
  match (Chain.empty .and).addCondition (Scope.ofMetadata schema m) condition with
  | (.error error, _) => .error error
  | (.ok (), chain) => .ok chain.build

end EntityStore.Sql
