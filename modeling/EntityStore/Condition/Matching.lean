import EntityStore.Condition.Basic
import EntityStore.Entity

/-!
Which entities a condition accepts.

A test reads its property from the entity.  A comparison needs the property to
be present and comparable with the operand; equality is equality of values, so
a null operand equals a property that is present and null, and no other.  The
group of all of no conditions accepts everything, the group of any of none
accepts nothing.
-/

namespace EntityStore

/-- Whether a predicate holds of the value of a property, which may be missing. -/
def Predicate.holds : Predicate → Option Value → Bool
  | .equals operand, value => value == some operand
  | .before limit, value => value.bind (·.compare? limit) == some .lt
  | .after limit, value => value.bind (·.compare? limit) == some .gt
  | .between first last, value =>
      (value.bind (·.compare? first)).any Ordering.isGE &&
        (value.bind (·.compare? last)).any Ordering.isLE
  | .oneOf operands, value => value.any operands.contains
  | .isNull, value => value.all Value.isNull
  | .isNotNull, value => value.any fun v => !v.isNull

/-- Whether a test holds of an entity. -/
def PropertyTest.holds (test : PropertyTest) (e : Entity) : Bool :=
  test.predicate.holds (e.get? test.property)

namespace Condition

mutual

/-- Whether the condition accepts the entity. -/
def accepts : Condition → Entity → Bool
  | .leaf test, e => test.holds e
  | .all members, e => acceptsAll members e
  | .any members, e => acceptsAny members e

/-- Whether every one of the conditions accepts the entity. -/
def acceptsAll : List Condition → Entity → Bool
  | [], _ => true
  | member :: members, e => accepts member e && acceptsAll members e

/-- Whether some of the conditions accepts the entity. -/
def acceptsAny : List Condition → Entity → Bool
  | [], _ => false
  | member :: members, e => accepts member e || acceptsAny members e

end

/-- A condition that may be left out; the missing one accepts everything. -/
def acceptsOptional (condition : Option Condition) (e : Entity) : Bool :=
  condition.all (·.accepts e)

@[simp] theorem accepts_leaf (test : PropertyTest) (e : Entity) :
    (Condition.leaf test).accepts e = test.holds e := rfl

theorem acceptsAll_eq_all (members : List Condition) (e : Entity) :
    acceptsAll members e = members.all (·.accepts e) := by
  induction members with
  | nil => rfl
  | cons member members ih => simp [acceptsAll, ih]

theorem acceptsAny_eq_any (members : List Condition) (e : Entity) :
    acceptsAny members e = members.any (·.accepts e) := by
  induction members with
  | nil => rfl
  | cons member members ih => simp [acceptsAny, ih]

@[simp] theorem accepts_all (members : List Condition) (e : Entity) :
    (Condition.all members).accepts e = members.all (·.accepts e) :=
  acceptsAll_eq_all members e

@[simp] theorem accepts_any (members : List Condition) (e : Entity) :
    (Condition.any members).accepts e = members.any (·.accepts e) :=
  acceptsAny_eq_any members e

end Condition

end EntityStore
