import EntityStore.Proofs.Misconfiguration
import EntityStore.Samples

/-!
What a relation to many finds through a field.

A relation to many may be mapped by a field of the other table.  That field gives a column, and the
rows are looked up by a property that is kept in it: that of the first field of the column.  Where
the column is no other field's before, this is the field that the relation is mapped by; where it
is, the rows are found by another property than the one named
(`OneToMany.findsBy_mappedBy_iff`).
-/

namespace EntityStore

/-- The field is the first of all those that are kept in its column. -/
def Field.FirstOfColumn (field : Field) (fields : List Field) : Prop :=
  ∃ before after, fields = before ++ field :: after ∧
    ∀ other ∈ before, other.column ≠ field.column

/-- Filling in the relation succeeds for every entity with an id, and finds the rows of the mapped
table that hold the id under a property: their entities, in the order of the rows and without
relations. -/
def OneToMany.FindsBy (registry : Registry) (m : Metadata) (relation : OneToMany)
    (property : String) : Prop :=
  ∀ tables e id, m.idOf? e = some id →
    relation.related registry tables m e =
      .ok (.many (((tables.rows relation.mappedTable).filter fun row =>
        row.entity.get? property == some id).map (·.entity.withoutRelations)))

/-! ## Fields and their columns -/

theorem Field.firstOfColumn_iff {field : Field} {fields : List Field} :
    field.FirstOfColumn fields ↔ fields.find? (·.column == field.column) = some field := by
  simp [FirstOfColumn, List.find?_eq_some_iff_append]

instance (field : Field) (fields : List Field) : Decidable (field.FirstOfColumn fields) :=
  decidable_of_iff _ Field.firstOfColumn_iff.symm

theorem Field.FirstOfColumn.mem {field : Field} {fields : List Field}
    (first : field.FirstOfColumn fields) : field ∈ fields := by
  obtain ⟨before, after, rfl, -⟩ := first
  exact List.mem_append_cons_self

/-- Some field is the first of the column of a field. -/
theorem Field.exists_firstOfColumn {field : Field} {fields : List Field}
    (declared : field ∈ fields) :
    ∃ first : Field, first.FirstOfColumn fields ∧ first.column = field.column := by
  cases found : fields.find? (·.column == field.column) with
  | none => simpa using List.find?_eq_none.mp found field declared
  | some first =>
      have same : first.column = field.column := by simpa using List.find?_some found
      exact ⟨first, firstOfColumn_iff.mpr (same ▸ found), same⟩

/-- In a valid description a property has the column of its field. -/
theorem Metadata.columnOf?_of_mem {m : Metadata} (valid : m.validate = .ok ()) {field : Field}
    (declared : field ∈ m.fields) : m.columnOf? field.property = some field.column := by
  have found : m.fields.find? (·.property == field.property) = some field :=
    find?_eq_some_of_distinct (nodup_of_validate valid) declared
  rw [columnOf?, fieldOf?, found]
  rfl

/-- Under every description some entity has an id. -/
theorem Metadata.exists_idOf? (m : Metadata) : ∃ e, m.idOf? e = some (.bool true) :=
  ⟨(Entity.ofTable m.table).set m.idProperty (.bool true), by
    simp [idOf?, Entity.reference?, Value.isTruthy]⟩

/-! ## What the relation finds -/

namespace OneToMany

variable {registry : Registry} {m linked : Metadata} {relation : OneToMany}

/-- A relation that is mapped by a field refers back by the first field of its column. -/
theorem foreignKey_of_field (named : relation.mappedTable ≠ "")
    (registered : registry.metadataOf? relation.mappedTable = some linked)
    (valid : linked.validate = .ok ()) {field first : Field} (declared : field ∈ linked.fields)
    (leadsBack : field.property = relation.mappedBy)
    (isFirst : first.FirstOfColumn linked.fields) (sameColumn : first.column = field.column) :
    relation.foreignKey registry m = .ok first.property := by
  have joined : linked.joinColumn? relation.mappedBy = some first.column := by
    rw [Metadata.joinColumn?, ← leadsBack, Metadata.columnOf?_of_mem valid declared, sameColumn]
    rfl
  have key : linked.propertyOf? first.column = some first.property := by
    rw [Metadata.propertyOf?, Field.firstOfColumn_iff.mp isFirst]
    rfl
  rw [foreignKey, Registry.linked_eq_ok_iff.mpr ⟨named, registered⟩]
  simp only [joined, key]

theorem findsBy_of_foreignKey {property : String}
    (key : relation.foreignKey registry m = .ok property) :
    relation.FindsBy registry m property := by
  intro tables e id identified
  rw [related, key, identified]
  rfl

/-- A relation finds rows by one property only. -/
theorem FindsBy.unique {property property' : String} (finds : relation.FindsBy registry m property)
    (finds' : relation.FindsBy registry m property') : property = property' := by
  obtain ⟨owner, identified⟩ := m.exists_idOf?
  -- one row that refers to the owner by the first property alone
  let row : Row := ⟨.bool true, (Entity.ofTable relation.mappedTable).set property (.bool true)⟩
  let tables : Tables := (∅ : Tables).put relation.mappedTable [row]
  have stored : tables.rows relation.mappedTable = [row] := by simp [tables]
  have holds : row.entity.get? property = some (.bool true) := by simp [row]
  have same := (finds tables owner _ identified).symm.trans (finds' tables owner _ identified)
  rw [stored, List.filter_cons_of_pos (by simp [holds])] at same
  refine Decidable.byContradiction fun other => ?_
  have lacks : row.entity.get? property' = none := by
    rw [Entity.get?_set, if_neg (Ne.symm other)]
    rfl
  rw [List.filter_cons_of_neg (by simp [lacks])] at same
  cases same

theorem named_of_findsBy {property : String} (finds : relation.FindsBy registry m property) :
    relation.mappedTable ≠ "" := by
  intro empty
  obtain ⟨owner, identified⟩ := m.exists_idOf?
  have found := finds ∅ owner _ identified
  rw [related, foreignKey, Registry.linked_of_empty empty] at found
  cases found

/-- A relation that leads to a table and is mapped by a field finds the rows that refer back by that
field exactly if the field is the first of its column.  Otherwise it finds, just as well, those that
refer back by the first field of the column. -/
theorem findsBy_mappedBy_iff (registry : Registry) (m : Metadata) (relation : OneToMany)
    {linked : Metadata} (registered : registry.metadataOf? relation.mappedTable = some linked)
    (valid : linked.validate = .ok ()) {field : Field} (declared : field ∈ linked.fields)
    (leadsBack : field.property = relation.mappedBy) :
    (relation.FindsBy registry m relation.mappedBy ↔
        relation.mappedTable ≠ "" ∧ field.FirstOfColumn linked.fields) ∧
      ∃ first : Field, first.FirstOfColumn linked.fields ∧ first.column = field.column ∧
        (relation.mappedTable ≠ "" → relation.FindsBy registry m first.property) := by
  have finds : ∀ first : Field, first.FirstOfColumn linked.fields → first.column = field.column →
      relation.mappedTable ≠ "" → relation.FindsBy registry m first.property :=
    fun first isFirst sameColumn named => findsBy_of_foreignKey
      (foreignKey_of_field named registered valid declared leadsBack isFirst sameColumn)
  obtain ⟨first, isFirst, sameColumn⟩ := Field.exists_firstOfColumn declared
  refine ⟨⟨fun follows => ?_, fun ⟨named, isFirst⟩ => ?_⟩, first, isFirst, sameColumn,
    finds first isFirst sameColumn⟩
  · have named := named_of_findsBy follows
    have sameProperty : first.property = field.property :=
      (finds first isFirst sameColumn named).unique (leadsBack ▸ follows)
    have same : first = field := by
      have distinct := Metadata.nodup_of_validate valid
      have found := find?_eq_some_of_distinct distinct isFirst.mem
      rw [sameProperty, find?_eq_some_of_distinct distinct declared] at found
      exact (Option.some.inj found).symm
    exact ⟨named, same ▸ isFirst⟩
  · rw [← leadsBack]
    exact finds field isFirst rfl named

end OneToMany

/-! ## Two fields in one column -/

namespace Samples

/-- The table of owners, who have pets. -/
def owners : Metadata where
  table := "owners"
  idProperty := "id"
  fields := [field "id" "id"]
  oneToMany := [⟨"pets", "ownerId", "pets"⟩]
  manyToOne := []
  temporals := []

/-- The table of pets. -/
def pets : Metadata where
  table := "pets"
  idProperty := "id"
  fields := [field "id" "id", field "ownerId" "owner_id"]
  oneToMany := []
  manyToOne := []
  temporals := []

/-- The table of pets that have keepers, kept in the column for their owners. -/
def keptPets : Metadata :=
  { pets with fields := [field "id" "id", field "keeperId" "owner_id", field "ownerId" "owner_id"] }

end Samples

namespace OneToMany

/-- The pets of an owner are found by the field that their relation is mapped by, unless an earlier
field shares its column. -/
theorem findsBy_mappedBy_iff_samples :
    let relation : OneToMany := ⟨"pets", "ownerId", "pets"⟩
    let field := Samples.field "ownerId" "owner_id"
    Samples.pets.validate = .ok () ∧ field ∈ Samples.pets.fields ∧
      relation.FindsBy ((∅ : Registry).register Samples.pets) Samples.owners "ownerId" ∧
      Samples.keptPets.validate = .ok () ∧ field ∈ Samples.keptPets.fields ∧
      ¬relation.FindsBy ((∅ : Registry).register Samples.keptPets) Samples.owners "ownerId" := by
  intro relation field
  have valid : Samples.pets.validate = .ok () := by rfl
  have declared : field ∈ Samples.pets.fields := by decide
  have validKept : Samples.keptPets.validate = .ok () := by rfl
  have declaredKept : field ∈ Samples.keptPets.fields := by decide
  obtain ⟨follows, -⟩ := findsBy_mappedBy_iff ((∅ : Registry).register Samples.pets)
    Samples.owners relation (by decide) valid declared rfl
  obtain ⟨followsKept, -⟩ := findsBy_mappedBy_iff ((∅ : Registry).register Samples.keptPets)
    Samples.owners relation (by decide) validKept declaredKept rfl
  have isFirst : field.FirstOfColumn Samples.pets.fields := by decide
  have notFirst : ¬field.FirstOfColumn Samples.keptPets.fields := by decide
  exact ⟨valid, declared, follows.mpr ⟨by decide, isFirst⟩, validKept, declaredKept,
    fun finds => notFirst (followsKept.mp finds).2⟩

/-- A pet that names its owner under the property that the relation is mapped by is not found where
the column of that property is an earlier field's. -/
theorem related_of_shared_column :
    let owner := (Entity.ofTable "owners").set "id" "o1"
    let pet := ((Entity.ofTable "pets").set "id" "p1").set "ownerId" "o1"
    let store := ((Session.start .text .start).run
      [.register Samples.owners, .register Samples.keptPets, .insert Samples.owners owner,
        .insert Samples.keptPets pet]).store
    Samples.keptPets.validate = .ok () ∧
      store.registry.metadataOf? "pets" = some Samples.keptPets ∧
      Samples.field "ownerId" "owner_id" ∈ Samples.keptPets.fields ∧
      Samples.owners.idOf? owner = some (.text "o1") ∧
      store.tables.rows "pets" = [⟨"p1", pet⟩] ∧ pet.get? "ownerId" = some (.text "o1") ∧
      OneToMany.related store.registry store.tables Samples.owners ⟨"pets", "ownerId", "pets"⟩
        owner = .ok (.many []) := by
  exact ⟨by rfl, by rfl, by decide, by rfl, by rfl, by rfl, by rfl⟩

end OneToMany

end EntityStore
