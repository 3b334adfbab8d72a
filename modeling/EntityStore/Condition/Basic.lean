import EntityStore.Value.Order
import EntityStore.Value.Text

/-!
Conditions on the properties of an entity.

A `Condition` is a tree: a test of one property at each leaf, and groups that
ask for all or for any of their members.  `Condition.tests` lists the leaves
from left to right.
-/

namespace EntityStore

/-- What a test asks of the value of a property. -/
inductive Predicate where
  | equals (operand : Value)
  | before (limit : Value)
  | after (limit : Value)
  | between (first last : Value)
  | oneOf (operands : List Value)
  | isNull
  | isNotNull
  deriving DecidableEq

namespace Predicate

/-- The name of a predicate's kind. -/
def kindName : Predicate → String
  | .equals _ => "equals"
  | .before _ => "before"
  | .after _ => "after"
  | .between _ _ => "between"
  | .oneOf _ => "in"
  | .isNull => "is-null"
  | .isNotNull => "is-not-null"

/-- The values that a predicate compares with, in order. -/
def operands : Predicate → List Value
  | .equals operand => [operand]
  | .before limit => [limit]
  | .after limit => [limit]
  | .between first last => [first, last]
  | .oneOf operands => operands
  | .isNull => []
  | .isNotNull => []

/-- Whether the predicate only asks if there is a value. -/
def isNullCheck : Predicate → Bool
  | .isNull => true
  | .isNotNull => true
  | _ => false

end Predicate

/-- A predicate on one property. -/
structure PropertyTest where
  property : String
  predicate : Predicate
  deriving DecidableEq

/-- A condition on an entity. -/
inductive Condition where
  | leaf (test : PropertyTest)
  | all (members : List Condition)
  | any (members : List Condition)

namespace Condition

instance : Inhabited Condition := ⟨.all []⟩

/-- Whether the condition is a group of any. -/
def isAny : Condition → Bool
  | .any _ => true
  | _ => false

/-! ## Conditions on one property -/

/-- The property holds exactly this value. -/
def propertyEquals (property : String) (operand : Value) : Condition :=
  .leaf ⟨property, .equals operand⟩

/-- The property holds a lesser value. -/
def propertyBefore (property : String) (limit : Value) : Condition :=
  .leaf ⟨property, .before limit⟩

/-- The property holds a greater value. -/
def propertyAfter (property : String) (limit : Value) : Condition :=
  .leaf ⟨property, .after limit⟩

/-- The property holds a value from the first to the last, both included. -/
def propertyBetween (property : String) (first last : Value) : Condition :=
  .leaf ⟨property, .between first last⟩

/-- The property holds one of these values. -/
def propertyIn (property : String) (operands : List Value) : Condition :=
  .leaf ⟨property, .oneOf operands⟩

/-- The property is absent or null. -/
def propertyIsNull (property : String) : Condition := .leaf ⟨property, .isNull⟩

/-- The property is present and not null. -/
def propertyIsNotNull (property : String) : Condition := .leaf ⟨property, .isNotNull⟩

/-! ## Leaves -/

mutual

/-- The tests at the leaves, from left to right. -/
def tests : Condition → List PropertyTest
  | .leaf test => [test]
  | .all members => testsOfAll members
  | .any members => testsOfAll members

/-- The tests at the leaves of a list of conditions. -/
def testsOfAll : List Condition → List PropertyTest
  | [] => []
  | member :: members => tests member ++ testsOfAll members

end

mutual

/-- The number of leaves. -/
def testCount : Condition → Nat
  | .leaf _ => 1
  | .all members => testCountOfAll members
  | .any members => testCountOfAll members

/-- The number of leaves of a list of conditions. -/
def testCountOfAll : List Condition → Nat
  | [] => 0
  | member :: members => testCount member + testCountOfAll members

end

mutual

/-- The leaves counted are the leaves listed. -/
theorem length_tests : ∀ c : Condition, c.tests.length = c.testCount
  | .leaf _ => rfl
  | .all members => length_testsOfAll members
  | .any members => length_testsOfAll members

/-- The same for lists of conditions. -/
theorem length_testsOfAll : ∀ members : List Condition,
    (testsOfAll members).length = testCountOfAll members
  | [] => rfl
  | member :: members => by
      simp [testsOfAll, testCountOfAll, length_tests member, length_testsOfAll members]

end

/-! ## Equality -/

mutual

/-- Decides whether two conditions are the same tree. -/
def decEq : (a b : Condition) → Decidable (a = b)
  | .leaf test, .leaf test' =>
      if same : test = test' then isTrue (by rw [same])
      else isFalse fun equal => same (by cases equal; rfl)
  | .all members, .all members' =>
      match decEqMembers members members' with
      | isTrue same => isTrue (by rw [same])
      | isFalse other => isFalse fun equal => other (by cases equal; rfl)
  | .any members, .any members' =>
      match decEqMembers members members' with
      | isTrue same => isTrue (by rw [same])
      | isFalse other => isFalse fun equal => other (by cases equal; rfl)
  | .leaf _, .all _ => isFalse nofun
  | .leaf _, .any _ => isFalse nofun
  | .all _, .leaf _ => isFalse nofun
  | .all _, .any _ => isFalse nofun
  | .any _, .leaf _ => isFalse nofun
  | .any _, .all _ => isFalse nofun

/-- Decides whether two lists of conditions are the same. -/
def decEqMembers : (a b : List Condition) → Decidable (a = b)
  | [], [] => isTrue rfl
  | [], _ :: _ => isFalse nofun
  | _ :: _, [] => isFalse nofun
  | member :: rest, member' :: rest' =>
      match decEq member member', decEqMembers rest rest' with
      | isTrue same, isTrue sameRest => isTrue (by rw [same, sameRest])
      | isFalse other, _ => isFalse fun equal => other (by cases equal; rfl)
      | _, isFalse other => isFalse fun equal => other (by cases equal; rfl)

end

instance : DecidableEq Condition := decEq

end Condition

end EntityStore
