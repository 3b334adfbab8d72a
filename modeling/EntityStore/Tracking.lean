import EntityStore.Metadata.Basic

/-!
Change tracking.

A `Tracking` remembers, for tables and ids, which values the fields of an
entity had when it was last handed out.  The key is the table of the
description in use and the id that it reads from the entity; the table that the
entity itself names does not matter.  `Tracking.changedFields` compares an
entity with what is remembered; without a memory of it every field counts as
changed.
-/

namespace EntityStore

/-- The values that an entity's fields had; a field that was absent is absent. -/
abbrev Snapshot := SortedMap String Value

/-- The values that the declared fields of an entity have. -/
def Metadata.snapshot (m : Metadata) (e : Entity) : Snapshot :=
  SortedMap.ofList (m.fields.filterMap fun field =>
    (e.get? field.property).map fun value => (field.property, value))

namespace Tracking

/-- A table and the id of an entity in it. -/
structure Key where
  table : String
  id : Value
  deriving DecidableEq

namespace Key

/-- By table, then by id. -/
instance : Ord Key := ⟨compareLex (compareOn table) (compareOn id)⟩

instance : Std.TransOrd Key :=
  inferInstanceAs (Std.TransCmp (compareLex (compareOn table) (compareOn id)))

instance : Std.LawfulEqOrd Key where
  eq_of_compare {a b} same := by
    have parts : compare a.table b.table = .eq ∧ compare a.id b.id = .eq :=
      compareLex_eq_eq.mp same
    cases a; cases b
    simp_all

end Key

end Tracking

/-- What is remembered of the entities handed out. -/
structure Tracking where
  snapshots : SortedMap Tracking.Key Snapshot
  deriving DecidableEq

namespace Tracking

/-- Nothing is remembered. -/
def empty : Tracking := ⟨∅⟩

instance : EmptyCollection Tracking := ⟨empty⟩

instance : Inhabited Tracking := ⟨empty⟩

/-- What is remembered for a table and an id. -/
def snapshot? (t : Tracking) (table : String) (id : Value) : Option Snapshot :=
  t.snapshots.get? ⟨table, id⟩

/-- Whether anything is remembered for a table and an id. -/
def isTracked (t : Tracking) (table : String) (id : Value) : Bool :=
  (t.snapshot? table id).isSome

/-- Remembers the fields of an entity; one without an id is not remembered. -/
def save (t : Tracking) (m : Metadata) (e : Entity) : Tracking :=
  match m.idOf? e with
  | some id => ⟨t.snapshots.insert ⟨m.table, id⟩ (m.snapshot e)⟩
  | none => t

/-- Remembers entities one after the other. -/
def saveAll (t : Tracking) (m : Metadata) (entities : List Entity) : Tracking :=
  entities.foldl (·.save m) t

/-- The fields whose values are not the ones remembered, in the order of the
description. -/
def changedFields (t : Tracking) (m : Metadata) (e : Entity) : List Field :=
  match (m.idOf? e).bind (t.snapshot? m.table) with
  | some snapshot =>
      m.fields.filter fun field => e.get? field.property ≠ snapshot.get? field.property
  | none => m.fields

/-- Forgets one entity. -/
def forget (t : Tracking) (table : String) (id : Value) : Tracking :=
  ⟨t.snapshots.erase ⟨table, id⟩⟩

/-- Forgets several entities of a table. -/
def forgetAll (t : Tracking) (table : String) (ids : List Value) : Tracking :=
  ids.foldl (·.forget table) t

/-- Forgets every entity of a table. -/
def forgetTable (t : Tracking) (table : String) : Tracking :=
  ⟨t.snapshots.filterKeys (·.table ≠ table)⟩

/-! ## How the operations show in the memory -/

@[simp] theorem snapshot?_empty (table : String) (id : Value) :
    (∅ : Tracking).snapshot? table id = none := rfl

/-- Remembering an entity shows for its own table and id alone. -/
theorem snapshot?_save (t : Tracking) (m : Metadata) (e : Entity) (table : String) (id : Value) :
    (t.save m e).snapshot? table id =
      if m.idOf? e = some id ∧ m.table = table then some (m.snapshot e)
      else t.snapshot? table id := by
  unfold save
  cases identified : m.idOf? e with
  | none => simp
  | some own =>
      simp only [snapshot?, SortedMap.get?_insert, Key.mk.injEq, Option.some.injEq]
      by_cases same : own = id ∧ m.table = table
      · simp [same]
      · rw [if_neg same, if_neg (by grind)]

/-- Forgetting an entity shows for its table and id alone. -/
theorem snapshot?_forget (t : Tracking) (table table' : String) (id id' : Value) :
    (t.forget table id).snapshot? table' id' =
      if table' = table ∧ id' = id then none else t.snapshot? table' id' := by
  simp [forget, snapshot?, SortedMap.get?_erase]

/-- Forgetting a table shows for that table alone. -/
theorem snapshot?_forgetTable (t : Tracking) (table table' : String) (id : Value) :
    (t.forgetTable table).snapshot? table' id =
      if table' = table then none else t.snapshot? table' id := by
  by_cases same : table' = table <;>
    simp [forgetTable, snapshot?, SortedMap.get?_filterKeys, same]

/-- Memories that answer alike are equal. -/
theorem ext {a b : Tracking} (agree : ∀ table id, a.snapshot? table id = b.snapshot? table id) :
    a = b := by
  cases a; cases b
  congr
  exact SortedMap.ext fun key => agree key.table key.id

end Tracking

end EntityStore
