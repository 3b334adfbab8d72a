import EntityStore.Condition.Basic

/-!
How conditions are written: tests in infix form, groups in parentheses with
their connective between the members.
-/

namespace EntityStore

/-- The written form of a test. -/
protected def PropertyTest.toString (test : PropertyTest) : String :=
  match test.predicate with
  | .equals operand => test.property ++ " = " ++ toString operand
  | .before limit => test.property ++ " < " ++ toString limit
  | .after limit => test.property ++ " > " ++ toString limit
  | .between first last =>
      test.property ++ " between " ++ toString first ++ " and " ++ toString last
  | .oneOf operands => test.property ++ " in " ++ toString (Value.array operands)
  | .isNull => test.property ++ " is null"
  | .isNotNull => test.property ++ " is not null"

namespace Condition

mutual

/-- The written form of a condition. -/
protected def toString : Condition → String
  | .leaf test => test.toString
  | .all members => "(" ++ " and ".intercalate (memberTexts members) ++ ")"
  | .any members => "(" ++ " or ".intercalate (memberTexts members) ++ ")"

/-- The written forms of the members of a group. -/
def memberTexts : List Condition → List String
  | [] => []
  | member :: members => Condition.toString member :: memberTexts members

end

instance : ToString Condition := ⟨Condition.toString⟩

end Condition

end EntityStore
