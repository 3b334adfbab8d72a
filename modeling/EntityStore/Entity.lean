import EntityStore.SortedMap.Basic
import EntityStore.Value.Order

/-!
Entities: the records that a store keeps and hands out.

An `Entity` names the table it belongs to and holds two maps, its properties
and its relations.  Relations hold other entities, so their map is a plain list
of pairs in name order, read and written with the operations of `Entries`; the
laws `relation?_setRelation` and `get?_set` say that both behave as maps.
-/

namespace EntityStore

/-- What stands under a relation of an entity: the one entity that it refers
to, if any, or the many that refer to it. -/
inductive Related (ε : Type) where
  | one (target : Option ε)
  | many (targets : List ε)

/-- A record of a table. -/
structure Entity where
  table : String
  properties : SortedMap String Value
  relations : List (String × Related Entity)

namespace Entity

/-- An entity without properties and relations. -/
def ofTable (table : String) : Entity := ⟨table, ∅, []⟩

instance : Inhabited Entity := ⟨ofTable ""⟩

/-! ## Properties -/

/-- The value of a property; a property that is null is present. -/
def get? (e : Entity) (property : String) : Option Value := e.properties.get? property

/-- Whether a property is present. -/
def has (e : Entity) (property : String) : Bool := e.properties.contains property

/-- Gives a property a value. -/
def set (e : Entity) (property : String) (value : Value) : Entity :=
  { e with properties := e.properties.insert property value }

/-- Takes a property away. -/
def remove (e : Entity) (property : String) : Entity :=
  { e with properties := e.properties.erase property }

/-- Gives a property a value, or takes it away. -/
def assign (e : Entity) (property : String) : Option Value → Entity
  | some value => e.set property value
  | none => e.remove property

/-- The value of a property if it is truthy, and so identifies something. -/
def reference? (e : Entity) (property : String) : Option Value :=
  (e.get? property).filter Value.isTruthy

theorem reference?_eq_some_iff {e : Entity} {property : String} {id : Value} :
    e.reference? property = some id ↔ e.get? property = some id ∧ id.isTruthy = true :=
  Option.filter_eq_some_iff

/-! ## Relations -/

/-- What stands under a relation. -/
def relation? (e : Entity) (name : String) : Option (Related Entity) :=
  Entries.get? name e.relations

/-- The entity under a relation to one. -/
def relatedOne? (e : Entity) (name : String) : Option Entity :=
  match e.relation? name with
  | some (.one target) => target
  | _ => none

/-- The entities under a relation to many; none where there is no such relation. -/
def relatedMany (e : Entity) (name : String) : List Entity :=
  match e.relation? name with
  | some (.many targets) => targets
  | _ => []

/-- Puts something under a relation. -/
def setRelation (e : Entity) (name : String) (related : Related Entity) : Entity :=
  { e with relations := Entries.insert name related e.relations }

/-- Whether anything stands under any relation. -/
def hasRelations (e : Entity) : Bool := !e.relations.isEmpty

/-- The entity with its properties alone. -/
def withoutRelations (e : Entity) : Entity := { e with relations := [] }

/-! ## How writes show in reads -/

@[simp] theorem get?_set (e : Entity) (property name : String) (value : Value) :
    (e.set property value).get? name = if name = property then some value else e.get? name :=
  SortedMap.get?_insert e.properties property name value

@[simp] theorem get?_remove (e : Entity) (property name : String) :
    (e.remove property).get? name = if name = property then none else e.get? name :=
  SortedMap.get?_erase e.properties property name

@[simp] theorem get?_assign (e : Entity) (property name : String) (value : Option Value) :
    (e.assign property value).get? name = if name = property then value else e.get? name := by
  cases value <;> simp [assign]

@[simp] theorem relation?_setRelation (e : Entity) (relation name : String)
    (related : Related Entity) :
    (e.setRelation relation related).relation? name =
      if name = relation then some related else e.relation? name :=
  Entries.get?_insert relation name related e.relations

@[simp] theorem get?_setRelation (e : Entity) (relation name : String)
    (related : Related Entity) : (e.setRelation relation related).get? name = e.get? name := rfl

@[simp] theorem get?_withoutRelations (e : Entity) (name : String) :
    e.withoutRelations.get? name = e.get? name := rfl

@[simp] theorem withoutRelations_withoutRelations (e : Entity) :
    e.withoutRelations.withoutRelations = e.withoutRelations := rfl

@[simp] theorem withoutRelations_setRelation (e : Entity) (relation : String)
    (related : Related Entity) :
    (e.setRelation relation related).withoutRelations = e.withoutRelations := rfl

/-! ## Equality -/

mutual

/-- Decides equality of entities, relations included. -/
def decEq : (a b : Entity) → Decidable (a = b)
  | ⟨table, properties, relations⟩, ⟨table', properties', relations'⟩ =>
      if own : table = table' ∧ properties = properties' then
        match decEqRelations relations relations' with
        | isTrue same => isTrue (by rw [own.1, own.2, same])
        | isFalse other => isFalse fun same => other (by cases same; rfl)
      else isFalse fun same => own (by cases same; exact ⟨rfl, rfl⟩)

/-- Decides equality of relation lists. -/
def decEqRelations : (a b : List (String × Related Entity)) → Decidable (a = b)
  | [], [] => isTrue rfl
  | [], _ :: _ => isFalse nofun
  | _ :: _, [] => isFalse nofun
  | (name, related) :: rest, (name', related') :: rest' =>
      if sameName : name = name' then
        match decEqRelated related related', decEqRelations rest rest' with
        | isTrue same, isTrue sameRest => isTrue (by rw [sameName, same, sameRest])
        | isFalse other, _ => isFalse fun same => other (by cases same; rfl)
        | _, isFalse other => isFalse fun same => other (by cases same; rfl)
      else isFalse fun same => sameName (by cases same; rfl)

/-- Decides equality of what stands under a relation. -/
def decEqRelated : (a b : Related Entity) → Decidable (a = b)
  | .one none, .one none => isTrue rfl
  | .one none, .one (some _) => isFalse nofun
  | .one (some _), .one none => isFalse nofun
  | .one (some target), .one (some target') =>
      match decEq target target' with
      | isTrue same => isTrue (by rw [same])
      | isFalse other => isFalse fun same => other (by cases same; rfl)
  | .one _, .many _ => isFalse nofun
  | .many _, .one _ => isFalse nofun
  | .many targets, .many targets' =>
      match decEqTargets targets targets' with
      | isTrue same => isTrue (by rw [same])
      | isFalse other => isFalse fun same => other (by cases same; rfl)

/-- Decides equality of lists of entities. -/
def decEqTargets : (a b : List Entity) → Decidable (a = b)
  | [], [] => isTrue rfl
  | [], _ :: _ => isFalse nofun
  | _ :: _, [] => isFalse nofun
  | target :: rest, target' :: rest' =>
      match decEq target target', decEqTargets rest rest' with
      | isTrue same, isTrue sameRest => isTrue (by rw [same, sameRest])
      | isFalse other, _ => isFalse fun same => other (by cases same; rfl)
      | _, isFalse other => isFalse fun same => other (by cases same; rfl)

end

instance : DecidableEq Entity := decEq

instance : DecidableEq (Related Entity) := decEqRelated

end Entity

end EntityStore
