import EntityStore.Sql.ColumnTest

/-!
Chains of terms.

A `Chain` joins terms by one connective.  Without terms it is the neutral
element of its connective, `TRUE` or `FALSE`.  What is attached to a chain
becomes one term in parentheses, so the connectives of chains inside chains
never mix.
-/

namespace EntityStore.Sql

/-- How the terms of a chain are joined. -/
inductive Connective where
  | and
  | or
  deriving DecidableEq

namespace Connective

/-- What stands between two terms. -/
def separator : Connective → String
  | .and => " AND "
  | .or => " OR "

/-- What stands for no terms. -/
def neutral : Connective → String
  | .and => "TRUE"
  | .or => "FALSE"

end Connective

/-- Terms joined by a connective. -/
structure Chain where
  connective : Connective
  terms : List Fragment
  deriving DecidableEq

namespace Chain

/-- The chain without terms. -/
def empty (connective : Connective) : Chain := ⟨connective, []⟩

/-- Whether the chain has no terms. -/
def isEmpty (c : Chain) : Bool := c.terms.isEmpty

/-- The name of the chain's builder. -/
def name (c : Chain) : String :=
  match c.connective with
  | .and => "PgAndChainBuilder"
  | .or => "PgOrChainBuilder"

/-- The terms with the connective between them. -/
def text (c : Chain) : String :=
  if c.terms.isEmpty then c.connective.neutral
  else c.connective.separator.intercalate (c.terms.map (·.text))

/-- The parameters of the terms, in order. -/
def values (c : Chain) : List Value := c.terms.flatMap (·.values)

/-- The chain as a fragment. -/
def fragment (c : Chain) : Fragment := ⟨c.text, c.values⟩

/-- The finished text with its parameters. -/
def build (c : Chain) : Fragment := c.fragment.numbered

/-- Adds a term. -/
def push (c : Chain) (term : Fragment) : Chain := { c with terms := c.terms ++ [term] }

/-- Adds a test of a column. -/
def add (c : Chain) (test : ColumnTest) : Chain := c.push test.fragment

/-- Adds a fragment as one term in parentheses. -/
def attach (c : Chain) (source : Fragment) : Chain := c.push source.grouped

end Chain

end EntityStore.Sql
