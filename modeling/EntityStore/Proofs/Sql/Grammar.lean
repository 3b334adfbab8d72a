import EntityStore.Proofs.Sql.Tokens

/-!
Reading and evaluating a condition in SQL.

A disjunction is made of conjunctions, and a conjunction of terms: `OR` binds
weaker than `AND`.  A term is a truth value, a disjunction in parentheses, or a
comparison, and `BETWEEN` takes the first `AND` that follows it.  A dotted
reference denotes the column of its last identifier, whatever table stands
before it.

Truth has three values.  A comparison with null is unknown, and so is one of
values that are incomparable.
-/

namespace EntityStore.Sql

/-- What a comparison compares. -/
inductive Scalar where
  | column (name : String)
  | parameter (n : Nat)
  deriving DecidableEq

/-- The operators of comparisons. -/
inductive Comparison where
  | equal
  | less
  | greater
  deriving DecidableEq

/-- A condition in SQL. -/
inductive Expr where
  | truth (b : Bool)
  | compare (operator : Comparison) (left right : Scalar)
  | between (value first last : Scalar)
  | memberOf (value : Scalar) (list : List Scalar)
  | isNull (value : Scalar)
  | isNotNull (value : Scalar)
  | and (left right : Expr)
  | or (left right : Expr)
  deriving DecidableEq

/-! ## Evaluation -/

/-- A truth value; the missing one is unknown. -/
abbrev Truth := Option Bool

namespace Truth

/-- False if one side is, and else unknown if one side is. -/
def and : Truth → Truth → Truth
  | some false, _ => some false
  | _, some false => some false
  | some true, some true => some true
  | _, _ => none

/-- True if one side is, and else unknown if one side is. -/
def or : Truth → Truth → Truth
  | some true, _ => some true
  | _, some true => some true
  | some false, some false => some false
  | _, _ => none

@[simp] theorem and_eq_true {a b : Truth} :
    a.and b = some true ↔ a = some true ∧ b = some true := by
  rcases a with _ | _ | _ <;> rcases b with _ | _ | _ <;> decide

@[simp] theorem or_eq_true {a b : Truth} :
    a.or b = some true ↔ a = some true ∨ b = some true := by
  rcases a with _ | _ | _ <;> rcases b with _ | _ | _ <;> decide

theorem map_eq_true {α : Type} {o : Option α} {p : α → Bool} :
    o.map p = some true ↔ o.any p = true := by
  cases o <;> simp

theorem map_beq_eq_true {o : Option Ordering} {a : Ordering} :
    o.map (· == a) = some true ↔ o = some a := by
  cases o <;> simp

end Truth

/-- The value of a scalar; parameters are numbered from 1 on, and one that is not
given is null. -/
def Scalar.value (row : String → Value) (values : List Value) : Scalar → Value
  | .column name => row name
  | .parameter 0 => .null
  | .parameter (n + 1) => values[n]?.getD .null

/-- Whether a comparison holds. -/
def Comparison.holds : Comparison → Value → Value → Truth
  | .equal, a, b => if a.isNull || b.isNull then none else some (a == b)
  | .less, a, b => (a.compare? b).map (· == .lt)
  | .greater, a, b => (a.compare? b).map (· == .gt)

/-- Whether a condition holds in a row. -/
def Expr.eval (row : String → Value) (values : List Value) : Expr → Truth
  | .truth b => some b
  | .compare operator left right =>
      operator.holds (left.value row values) (right.value row values)
  | .between value first last =>
      Truth.and (((value.value row values).compare? (first.value row values)).map Ordering.isGE)
        (((value.value row values).compare? (last.value row values)).map Ordering.isLE)
  | .memberOf value list =>
      list.foldr (fun item found =>
        Truth.or (Comparison.equal.holds (value.value row values) (item.value row values)) found)
        (some false)
  | .isNull value => some (value.value row values).isNull
  | .isNotNull value => some !(value.value row values).isNull
  | .and left right => Truth.and (left.eval row values) (right.eval row values)
  | .or left right => Truth.or (left.eval row values) (right.eval row values)

/-! ## Reading -/

/-- The last identifier of a dotted reference, and the tokens after it. -/
def readColumn : List Token → Option (String × List Token)
  | .identifier _ :: .dot :: rest => readColumn rest
  | .identifier name :: rest => some (name, rest)
  | _ => none

/-- The tokens after casts to a point in time. -/
def skipCasts : List Token → List Token
  | .cast :: .timestamptz :: rest => skipCasts rest
  | rest => rest

/-- A column or a parameter, possibly cast, and the tokens after it. -/
def readScalar : List Token → Option (Scalar × List Token)
  | .parameter n :: rest => some (.parameter n, skipCasts rest)
  | rest => (readColumn rest).map fun read => (.column read.1, skipCasts read.2)

/-- Scalars with commas between them up to a closing parenthesis.  The fuel bounds
their number, here and below the depth of the reading. -/
def readList : Nat → List Token → Option (List Scalar × List Token)
  | 0, _ => none
  | fuel + 1, text =>
      match readScalar text with
      | some (first, .close :: rest) => some ([first], rest)
      | some (first, .comma :: rest) =>
          (readList fuel rest).map fun read => (first :: read.1, read.2)
      | _ => none

/-- A comparison that begins with a scalar. -/
def readComparison (fuel : Nat) (text : List Token) : Option (Expr × List Token) :=
  match readScalar text with
  | some (value, .equal :: rest) =>
      (readScalar rest).map fun read => (.compare .equal value read.1, read.2)
  | some (value, .less :: rest) =>
      (readScalar rest).map fun read => (.compare .less value read.1, read.2)
  | some (value, .greater :: rest) =>
      (readScalar rest).map fun read => (.compare .greater value read.1, read.2)
  | some (value, .between :: rest) =>
      match readScalar rest with
      | some (first, .and :: rest) =>
          (readScalar rest).map fun read => (.between value first read.1, read.2)
      | _ => none
  | some (value, .memberOf :: .open :: rest) =>
      (readList fuel rest).map fun read => (.memberOf value read.1, read.2)
  | some (value, .is :: .null :: rest) => some (.isNull value, rest)
  | some (value, .is :: .not :: .null :: rest) => some (.isNotNull value, rest)
  | _ => none

mutual

/-- A truth value, a disjunction in parentheses or a comparison. -/
def readTerm : Nat → List Token → Option (Expr × List Token)
  | 0, _ => none
  | _ + 1, .truth b :: rest => some (.truth b, rest)
  | fuel + 1, .open :: rest =>
      match readDisjunction fuel rest with
      | some (inner, .close :: rest) => some (inner, rest)
      | _ => none
  | fuel + 1, rest => readComparison fuel rest

/-- Terms with `AND` between them. -/
def readConjunction : Nat → List Token → Option (Expr × List Token)
  | 0, _ => none
  | fuel + 1, text =>
      match readTerm fuel text with
      | some (left, .and :: rest) =>
          (readConjunction fuel rest).map fun read => (.and left read.1, read.2)
      | read => read

/-- Conjunctions with `OR` between them. -/
def readDisjunction : Nat → List Token → Option (Expr × List Token)
  | 0, _ => none
  | fuel + 1, text =>
      match readConjunction fuel text with
      | some (left, .or :: rest) =>
          (readDisjunction fuel rest).map fun read => (.or left read.1, read.2)
      | read => read

end

/-- The condition that a text is, if it is one. -/
def parse (text : String) : Option Expr :=
  match readDisjunction (3 * (tokens text).length + 2) (tokens text) with
  | some (expr, []) => some expr
  | _ => none

example : parse "TRUE OR \"t\".\"a\" BETWEEN $1 AND $2 AND FALSE" =
    some (.or (.truth true)
      (.and (.between (.column "a") (.parameter 1) (.parameter 2)) (.truth false))) := by
  decide +kernel

end EntityStore.Sql
