import EntityStore.Sql.Aggregate
import EntityStore.Sql.Chain

/-!
Builders under names.

A `Bench` holds builders of every kind, each under a name.  A `BenchStep` puts a
new builder under a name or changes the one that is there.  What a step takes from
another builder is the fragment that this one is at the time, so a chain can be
attached to itself; a step that asks for what is not there changes nothing.
-/

namespace EntityStore.Sql

/-- A builder of any kind. -/
inductive Builder where
  | chain (c : Chain)
  | column (r : ColumnReference)
  | fragment (f : Fragment)
  | aggregate (a : Aggregate)

namespace Builder

/-- The builder as it is at the time. -/
def toFragment : Builder → Fragment
  | .chain c => c.fragment
  | .column r => r.fragment
  | .fragment f => f
  | .aggregate a => a.fragment

/-- Whether the builder numbers markers when it is finished. -/
def numbersMarkers : Builder → Bool
  | .chain _ => true
  | .aggregate _ => true
  | _ => false

/-- The finished text with its parameters. -/
def build : Builder → Fragment
  | .chain c => c.build
  | .aggregate a => a.build
  | builder => builder.toFragment

/-- The fragments that the builder is put together from. -/
def terms : Builder → List Fragment
  | .chain c => c.terms
  | .column _ => []
  | .fragment f => [f]
  | .aggregate a => [a.formula]

end Builder

/-- Builders under names; the latest under a name counts. -/
structure Bench where
  builders : List (String × Builder)

/-- A call that makes a builder under a name or changes the one that is there. -/
inductive BenchStep where
  | chain (name : String) (connective : Connective)
  | column (name : String) (reference : ColumnReference)
  | fragment (name : String) (fragment : Fragment)
  | capture (name source : String)
  | aggregate (name : String) (function : AggregateFunction) (distinct : Bool) (source : String)
  | setFormula (name source : String)
  | set (name : String) (test : ColumnTest)
  | attach (name source : String)

namespace Bench

/-- No builders. -/
def empty : Bench := ⟨[]⟩

/-- The builder under a name. -/
def builder? (bench : Bench) (name : String) : Option Builder := bench.builders.lookup name

/-- Puts a builder under a name. -/
def put (bench : Bench) (name : String) (builder : Builder) : Bench :=
  ⟨(name, builder) :: bench.builders⟩

/-- Carries out a call. -/
def step (bench : Bench) : BenchStep → Bench
  | .chain name connective => bench.put name (.chain (.empty connective))
  | .column name reference => bench.put name (.column reference)
  | .fragment name fragment => bench.put name (.fragment fragment)
  | .capture name source =>
      match bench.builder? source with
      | some builder => bench.put name (.fragment builder.toFragment)
      | none => bench
  | .aggregate name function distinct source =>
      match bench.builder? source with
      | some builder => bench.put name (.aggregate ⟨function, distinct, builder.toFragment⟩)
      | none => bench
  | .setFormula name source =>
      match bench.builder? name, bench.builder? source with
      | some (.aggregate a), some builder =>
          bench.put name (.aggregate (a.setFormula builder.toFragment))
      | _, _ => bench
  | .set name test =>
      match bench.builder? name with
      | some (.chain c) => bench.put name (.chain (c.add test))
      | _ => bench
  | .attach name source =>
      match bench.builder? name, bench.builder? source with
      | some (.chain c), some builder => bench.put name (.chain (c.attach builder.toFragment))
      | _, _ => bench

/-- Carries out calls one after the other. -/
def run (bench : Bench) (steps : List BenchStep) : Bench := steps.foldl step bench

@[simp] theorem builder?_put (bench : Bench) (name name' : String) (builder : Builder) :
    (bench.put name builder).builder? name' =
      if name' = name then some builder else bench.builder? name' := by
  unfold builder? put
  by_cases same : name' = name
  · simp [same]
  · have other : (name' == name) = false := beq_false_of_ne same
    rw [List.lookup_cons, other, if_neg same]

end Bench

end EntityStore.Sql
