import EntityStore.Sql.Chain
import EntityStore.Sql.Scope

/-!
Building a condition into builders.

A `Backend` is what conditions can be built into: it makes builders of type
`β`, adds tests of columns to them and attaches finished ones to each other,
with a state `σ` that all its builders share.  `Backend.build` walks a
condition once from left to right:

* a test goes to the builder at hand, on the column of its property;
* the members of a group of all go to the builder at hand, one after the other;
* a group of any gets an OR builder of its own.  Each member is built into an
  AND builder that is then attached to it, except that a group of any among the
  members is built with the OR builder at hand.  The OR builder is attached
  last.

So no test ever goes to an OR builder made on the way, and nothing is done to a
builder once it has been attached.  The first failure ends the walk; the builder
keeps what it got before.
-/

namespace EntityStore.Sql

/-- Something that conditions can be built into. -/
structure Backend (β σ : Type) where
  /-- Makes a builder without terms. -/
  create : Connective → σ → β × σ
  /-- Adds a test of a column to a builder. -/
  add : ColumnTest → β → σ → Except QueryError Unit × β × σ
  /-- Adds a fragment to a builder as one term. -/
  attach : Fragment → β → σ → β × σ
  /-- The builder as it is, for attaching. -/
  fragment : β → Fragment

namespace Backend

variable {β σ : Type}

mutual

/-- Builds a condition into a builder. -/
def build (backend : Backend β σ) (scope : Scope) :
    Condition → β → σ → Except QueryError Unit × β × σ
  | .leaf test, builder, shared =>
      match scope.resolve test with
      | .error error => (.error error, builder, shared)
      | .ok test => backend.add test builder shared
  | .all members, builder, shared => backend.buildAll scope members builder shared
  | .any members, builder, shared =>
      match backend.create .or shared with
      | (alternatives, shared) =>
          match backend.buildAlternatives scope members alternatives shared with
          | (.error error, _, shared) => (.error error, builder, shared)
          | (.ok (), alternatives, shared) =>
              match backend.attach (backend.fragment alternatives) builder shared with
              | (builder, shared) => (.ok (), builder, shared)

/-- Builds conditions into a builder, one after the other. -/
def buildAll (backend : Backend β σ) (scope : Scope) :
    List Condition → β → σ → Except QueryError Unit × β × σ
  | [], builder, shared => (.ok (), builder, shared)
  | member :: members, builder, shared =>
      match backend.build scope member builder shared with
      | (.error error, builder, shared) => (.error error, builder, shared)
      | (.ok (), builder, shared) => backend.buildAll scope members builder shared

/-- Builds the members of a group of any into its OR builder. -/
def buildAlternatives (backend : Backend β σ) (scope : Scope) :
    List Condition → β → σ → Except QueryError Unit × β × σ
  | [], alternatives, shared => (.ok (), alternatives, shared)
  | member :: members, alternatives, shared =>
      if member.isAny then
        match backend.build scope member alternatives shared with
        | (.error error, alternatives, shared) => (.error error, alternatives, shared)
        | (.ok (), alternatives, shared) =>
            backend.buildAlternatives scope members alternatives shared
      else
        match backend.create .and shared with
        | (own, shared) =>
            match backend.build scope member own shared with
            | (.error error, _, shared) => (.error error, alternatives, shared)
            | (.ok (), own, shared) =>
                match backend.attach (backend.fragment own) alternatives shared with
                | (alternatives, shared) =>
                    backend.buildAlternatives scope members alternatives shared

end

end Backend

/-! ## Chains -/

/-- Conditions are built into chains; every test has a form there. -/
def chains : Backend Chain Unit where
  create connective _ := (Chain.empty connective, ())
  add test chain _ := (.ok (), chain.add test, ())
  attach source chain _ := (chain.attach source, ())
  fragment := Chain.fragment

/-- Builds a condition into a chain. -/
def Chain.addCondition (c : Chain) (scope : Scope) (condition : Condition) :
    Except QueryError Unit × Chain :=
  match chains.build scope condition c () with
  | (result, c, _) => (result, c)

end EntityStore.Sql
