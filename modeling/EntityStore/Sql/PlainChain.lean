import EntityStore.Sql.Backend

/-!
Chains that know few tests.

A `PlainChain` is a chain under a name of its own that has no form of the check
for not being null, nor of comparisons as points in time: those are refused
with the name of the test and of the chain, and leave the chain as it was.
-/

namespace EntityStore.Sql

/-- A chain under a name of its own that refuses some tests. -/
structure PlainChain where
  name : String
  chain : Chain
  deriving DecidableEq

namespace PlainChain

/-- Whether a plain chain has a form of a test. -/
def supports (test : ColumnTest) : Bool :=
  !test.comparesTime && test.predicate != .isNotNull

/-- Adds a test of a column. -/
def add (c : PlainChain) (test : ColumnTest) : Except QueryError Unit × PlainChain :=
  if supports test then (.ok (), { c with chain := c.chain.add test })
  else (.error (.unsupported test.kindName c.name), c)

/-- Adds a fragment as one term in parentheses. -/
def attach (c : PlainChain) (source : Fragment) : PlainChain :=
  { c with chain := c.chain.attach source }

/-- The plain chain as a fragment. -/
def fragment (c : PlainChain) : Fragment := c.chain.fragment

end PlainChain

/-- Conditions are built into plain chains of one name. -/
def plainChains (name : String) : Backend PlainChain Unit where
  create connective _ := (⟨name, Chain.empty connective⟩, ())
  add test chain _ :=
    match chain.add test with
    | (result, chain) => (result, chain, ())
  attach source chain _ := (chain.attach source, ())
  fragment := PlainChain.fragment

/-- Builds a condition into a plain chain. -/
def PlainChain.addCondition (c : PlainChain) (scope : Scope) (condition : Condition) :
    Except QueryError Unit × PlainChain :=
  match (plainChains c.name).build scope condition c () with
  | (result, c, _) => (result, c)

end EntityStore.Sql
