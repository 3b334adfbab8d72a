import EntityStore.Proofs.Faults
import EntityStore.Proofs.Relations

/-!
Which relations cannot be filled in.

A relation may be misconfigured: it leads to no table, or to one that nothing is registered for, or
no field joins the two tables (`DeclaredRelation.Misconfigured`).  Then it fails for every entity,
whatever is stored.  A relation to one that is not misconfigured fails for an entity whose reference
names no stored row (`DeclaredRelation.Fails`), and nothing else can fail.  Population goes through
the declared relations in order, those to many first, and what it fails with is the fault of the
first that fails (`Metadata.populate_fails_iff`).
-/

namespace EntityStore

/-- A declared relation, to many or to one. -/
inductive DeclaredRelation where
  | many (relation : OneToMany)
  | one (relation : ManyToOne)

/-- The property under which the related entities stand. -/
def DeclaredRelation.property : DeclaredRelation → String
  | .many relation => relation.property
  | .one relation => relation.property

/-- The table that the relation leads to. -/
def DeclaredRelation.mappedTable : DeclaredRelation → String
  | .many relation => relation.mappedTable
  | .one relation => relation.mappedTable

/-- The declared relations, in the order in which they are filled in. -/
def Metadata.relations (m : Metadata) : List DeclaredRelation :=
  m.oneToMany.map .many ++ m.manyToOne.map .one

/-! ## Failing relations -/

/-- The relation cannot be filled in for any entity, on account of the descriptions; with the error
that says why. -/
inductive DeclaredRelation.Misconfigured (registry : Registry) (m : Metadata) :
    DeclaredRelation → Error → Prop
  /-- It leads to no table. -/
  | noTable {relation : DeclaredRelation} (empty : relation.mappedTable = "") :
      Misconfigured registry m relation (.missingRelationLink m.table relation.property)
  /-- Nothing is registered for the table that it leads to. -/
  | unregistered {relation : DeclaredRelation} (named : relation.mappedTable ≠ "")
      (absent : registry.metadataOf? relation.mappedTable = none) :
      Misconfigured registry m relation
        (.missingMetadata m.table relation.property relation.mappedTable)
  /-- The other table has neither a field nor a relation to one of the name that leads back. -/
  | noWayBack {relation : OneToMany} {linked : Metadata} (named : relation.mappedTable ≠ "")
      (registered : registry.metadataOf? relation.mappedTable = some linked)
      (noField : ∀ field ∈ linked.fields, field.property ≠ relation.mappedBy)
      (noRelation : ∀ back ∈ linked.manyToOne, back.property ≠ relation.mappedBy) :
      Misconfigured registry m (.many relation)
        (.missingJoinField m.table relation.property relation.mappedTable relation.mappedBy)
  /-- The other table has no field for the column that leads back. -/
  | noFieldBack {relation : OneToMany} {linked : Metadata} {column : String}
      (named : relation.mappedTable ≠ "")
      (registered : registry.metadataOf? relation.mappedTable = some linked)
      (joined : linked.joinColumn? relation.mappedBy = some column)
      (noField : ∀ field ∈ linked.fields, field.column ≠ column) :
      Misconfigured registry m (.many relation)
        (.missingJoinField m.table relation.property relation.mappedTable column)
  /-- The entity's own table has no field for the join column. -/
  | noReference {relation : ManyToOne} {linked : Metadata} (named : relation.mappedTable ≠ "")
      (registered : registry.metadataOf? relation.mappedTable = some linked)
      (noField : ∀ field ∈ m.fields, field.column ≠ relation.joinColumn) :
      Misconfigured registry m (.one relation)
        (.missingJoinField m.table relation.property relation.mappedTable relation.joinColumn)

/-- A relation to one leads from an entity to an id under which no row is stored. -/
structure ManyToOne.Dangles (tables : Tables) (m : Metadata) (e : Entity) (relation : ManyToOne)
    (id : Value) : Prop where
  refers : ∃ property, m.propertyOf? relation.joinColumn = some property ∧
    e.get? property = some id ∧ id.isTruthy = true
  missing : ∀ row ∈ tables.rows relation.mappedTable, row.id ≠ id

/-- The relation cannot be filled in for an entity; with the error that says why. -/
inductive DeclaredRelation.Fails (registry : Registry) (tables : Tables) (m : Metadata)
    (e : Entity) : DeclaredRelation → Error → Prop
  | misconfigured {relation : DeclaredRelation} {error : Error}
      (wrong : relation.Misconfigured registry m error) : Fails registry tables m e relation error
  | dangling {relation : ManyToOne} {id : Value}
      (configured : ∀ error, ¬(DeclaredRelation.one relation).Misconfigured registry m error)
      (dangles : relation.Dangles tables m e id) :
      Fails registry tables m e (.one relation)
        (.danglingReference relation.property relation.mappedTable id)

/-! ## Misconfigured relations have no foreign key -/

section Misconfigured

variable {registry : Registry} {m : Metadata} {error : Error}

theorem Registry.linked_eq_ok_iff {property mappedTable : String} {other : Metadata} :
    registry.linked m property mappedTable = .ok other ↔
      mappedTable ≠ "" ∧ registry.metadataOf? mappedTable = some other := by
  unfold linked
  split
  · rename_i empty
    simp [empty]
  · rename_i named
    cases registry.metadataOf? mappedTable <;> simp [named]

theorem Registry.linked_of_empty {property mappedTable : String} (empty : mappedTable = "") :
    registry.linked m property mappedTable = .error (.missingRelationLink m.table property) :=
  if_pos empty

theorem Registry.linked_of_unregistered {property mappedTable : String} (named : mappedTable ≠ "")
    (absent : registry.metadataOf? mappedTable = none) :
    registry.linked m property mappedTable =
      .error (.missingMetadata m.table property mappedTable) := by
  rw [linked, if_neg named, absent]

/-- A relation whose table is not found is misconfigured, of either kind. -/
theorem DeclaredRelation.misconfigured_of_unlinked {relation : DeclaredRelation}
    (unlinked : registry.linked m relation.property relation.mappedTable = .error error) :
    relation.Misconfigured registry m error := by
  by_cases empty : relation.mappedTable = ""
  · rw [Registry.linked_of_empty empty] at unlinked
    cases unlinked
    exact .noTable empty
  · cases registered : registry.metadataOf? relation.mappedTable with
    | none =>
        rw [Registry.linked_of_unregistered empty registered] at unlinked
        cases unlinked
        exact .unregistered empty registered
    | some other =>
        rw [Registry.linked_eq_ok_iff.mpr ⟨empty, registered⟩] at unlinked
        cases unlinked

theorem Metadata.columnOf?_eq_none_iff {property : String} :
    m.columnOf? property = none ↔ ∀ field ∈ m.fields, field.property ≠ property := by
  simp [columnOf?, fieldOf?]

theorem Metadata.propertyOf?_eq_none_iff {column : String} :
    m.propertyOf? column = none ↔ ∀ field ∈ m.fields, field.column ≠ column := by
  simp [propertyOf?]

theorem Metadata.joinColumn?_eq_none_iff {name : String} :
    m.joinColumn? name = none ↔
      (∀ field ∈ m.fields, field.property ≠ name) ∧
        ∀ back ∈ m.manyToOne, back.property ≠ name := by
  rw [joinColumn?, Option.or_eq_none_iff, columnOf?_eq_none_iff]
  simp

/-- A relation to many has no foreign key exactly if it is misconfigured. -/
theorem OneToMany.foreignKey_eq_error_iff {relation : OneToMany} :
    relation.foreignKey registry m = .error error ↔
      (DeclaredRelation.many relation).Misconfigured registry m error := by
  unfold foreignKey
  constructor
  · intro failed
    split at failed
    · rename_i error' unlinked
      cases failed
      exact DeclaredRelation.misconfigured_of_unlinked unlinked
    · rename_i other leads
      obtain ⟨named, registered⟩ := Registry.linked_eq_ok_iff.mp leads
      split at failed
      · rename_i unjoined
        cases failed
        obtain ⟨noField, noRelation⟩ := Metadata.joinColumn?_eq_none_iff.mp unjoined
        exact .noWayBack named registered noField noRelation
      · rename_i column joined
        split at failed
        · rename_i unnamed
          cases failed
          exact .noFieldBack named registered joined (Metadata.propertyOf?_eq_none_iff.mp unnamed)
        · cases failed
  · intro wrong
    cases wrong with
    | noTable empty =>
        rw [Registry.linked_of_empty (show relation.mappedTable = "" from empty)]
        rfl
    | unregistered named absent =>
        rw [Registry.linked_of_unregistered (show relation.mappedTable ≠ "" from named) absent]
        rfl
    | noWayBack named registered noField noRelation =>
        rw [Registry.linked_eq_ok_iff.mpr ⟨named, registered⟩]
        simp only [Metadata.joinColumn?_eq_none_iff.mpr ⟨noField, noRelation⟩]
    | noFieldBack named registered joined noField =>
        rw [Registry.linked_eq_ok_iff.mpr ⟨named, registered⟩]
        simp only [joined, Metadata.propertyOf?_eq_none_iff.mpr noField]

/-- A relation to one has no foreign key exactly if it is misconfigured. -/
theorem ManyToOne.foreignKey_eq_error_iff {relation : ManyToOne} :
    relation.foreignKey registry m = .error error ↔
      (DeclaredRelation.one relation).Misconfigured registry m error := by
  unfold foreignKey
  constructor
  · intro failed
    split at failed
    · rename_i error' unlinked
      cases failed
      exact DeclaredRelation.misconfigured_of_unlinked unlinked
    · rename_i other leads
      obtain ⟨named, registered⟩ := Registry.linked_eq_ok_iff.mp leads
      split at failed
      · rename_i unnamed
        cases failed
        exact .noReference named registered (Metadata.propertyOf?_eq_none_iff.mp unnamed)
      · cases failed
  · intro wrong
    cases wrong with
    | noTable empty =>
        rw [Registry.linked_of_empty (show relation.mappedTable = "" from empty)]
        rfl
    | unregistered named absent =>
        rw [Registry.linked_of_unregistered (show relation.mappedTable ≠ "" from named) absent]
        rfl
    | noReference named registered noField =>
        rw [Registry.linked_eq_ok_iff.mpr ⟨named, registered⟩]
        simp only [Metadata.propertyOf?_eq_none_iff.mpr noField]

end Misconfigured

/-! ## The first relation that fails -/

section Population

variable {registry : Registry} {tables : Tables} {m : Metadata} {e : Entity} {error : Error}

/-- The fault of a relation, as population finds it. -/
def DeclaredRelation.fault? (registry : Registry) (stores : String → Value → Bool) (m : Metadata)
    (e : Entity) : DeclaredRelation → Option Error
  | .many relation => relation.fault? registry m
  | .one relation => relation.fault? registry stores m e

theorem Metadata.fault?_eq_findSome? {stores : String → Value → Bool} :
    m.fault? registry stores e = m.relations.findSome? (·.fault? registry stores m e) := by
  rw [fault?, relations, List.findSome?_append, List.findSome?_map, List.findSome?_map]
  rfl

theorem ManyToOne.dangles_iff {relation : ManyToOne} {id : Value} {property : String}
    (key : m.propertyOf? relation.joinColumn = some property) :
    relation.Dangles tables m e id ↔
      e.reference? property = some id ∧ tables.stores relation.mappedTable id = false := by
  have missing : (∀ row ∈ tables.rows relation.mappedTable, row.id ≠ id) ↔
      tables.stores relation.mappedTable id = false := by
    rw [← Row.find?_eq_none_iff, Tables.stores, Option.isSome_eq_false_iff,
      Option.isNone_iff_eq_none]
    rfl
  constructor
  · rintro ⟨⟨property', key', refers⟩, unstored⟩
    cases key.symm.trans key'
    exact ⟨Entity.reference?_eq_some_iff.mpr refers, missing.mp unstored⟩
  · rintro ⟨refers, unstored⟩
    exact ⟨⟨property, key, Entity.reference?_eq_some_iff.mp refers⟩, missing.mpr unstored⟩

/-- A relation to one that has a foreign key fails on a dangling reference. -/
theorem ManyToOne.fault?_of_foreignKey {relation : ManyToOne} {property : String}
    (key : relation.foreignKey registry m = .ok property) :
    relation.fault? registry tables.stores m e = some error ↔
      ∃ id, relation.Dangles tables m e id ∧
        error = .danglingReference relation.property relation.mappedTable id := by
  simp only [dangles_iff (relation.propertyOf?_of_foreignKey key), fault?, key]
  cases e.reference? property with
  | none => simp
  | some id =>
      simp only [Option.some.injEq, and_assoc, exists_eq_left']
      cases tables.stores relation.mappedTable id with
      | false => simpa using eq_comm
      | true => simp

/-- A relation has a fault exactly if it fails. -/
theorem DeclaredRelation.fault?_eq_some_iff {relation : DeclaredRelation} :
    relation.fault? registry tables.stores m e = some error ↔
      relation.Fails registry tables m e error := by
  cases relation with
  | many relation =>
      have described : relation.fault? registry m = some error ↔
          relation.foreignKey registry m = .error error := by
        unfold OneToMany.fault?
        cases relation.foreignKey registry m <;> simp
      rw [fault?, described, OneToMany.foreignKey_eq_error_iff]
      constructor
      · exact .misconfigured
      · rintro ⟨wrong⟩
        exact wrong
  | one relation =>
      rw [fault?]
      cases key : relation.foreignKey registry m with
      | error error' =>
          have wrong := ManyToOne.foreignKey_eq_error_iff.mp key
          have found : relation.fault? registry tables.stores m e = some error' := by
            rw [ManyToOne.fault?, key]
          rw [found, Option.some.injEq]
          constructor
          · rintro rfl
            exact .misconfigured wrong
          · intro fails
            cases fails with
            | misconfigured wrong' =>
                rw [ManyToOne.foreignKey_eq_error_iff.mpr wrong'] at key
                cases key
                rfl
            | dangling configured dangles => exact (configured _ wrong).elim
      | ok property =>
          have configured : ∀ error,
              ¬(DeclaredRelation.one relation).Misconfigured registry m error := by
            intro error wrong
            rw [ManyToOne.foreignKey_eq_error_iff.mpr wrong] at key
            cases key
          rw [relation.fault?_of_foreignKey key]
          constructor
          · rintro ⟨id, dangles, rfl⟩
            exact .dangling configured dangles
          · intro fails
            cases fails with
            | misconfigured wrong => exact (configured _ wrong).elim
            | dangling _ dangles => exact ⟨_, dangles, rfl⟩

theorem DeclaredRelation.fault?_eq_none_iff {relation : DeclaredRelation} :
    relation.fault? registry tables.stores m e = none ↔
      ∀ error, ¬relation.Fails registry tables m e error := by
  simp only [Option.eq_none_iff_forall_ne_some, ne_eq, fault?_eq_some_iff]

/-- Population fails with an error exactly if that is what the first failing relation fails with. -/
theorem Metadata.populate_eq_error_iff_first :
    m.populate registry tables e = .error error ↔
      ∃ before relation after, m.relations = before ++ relation :: after ∧
        (∀ earlier ∈ before, ∀ fault, ¬earlier.Fails registry tables m e fault) ∧
        relation.Fails registry tables m e error := by
  rw [populate_eq_error_iff, fault?_eq_findSome?, List.findSome?_eq_some_iff]
  simp only [DeclaredRelation.fault?_eq_some_iff, DeclaredRelation.fault?_eq_none_iff]
  constructor
  · rintro ⟨before, relation, after, split, fails, sound⟩
    exact ⟨before, relation, after, split, sound, fails⟩
  · rintro ⟨before, relation, after, split, sound, fails⟩
    exact ⟨before, relation, after, split, fails, sound⟩

theorem Metadata.exists_populate_error_iff :
    (∃ error, m.populate registry tables e = .error error) ↔
      ∃ relation ∈ m.relations, ∃ error, relation.Fails registry tables m e error := by
  simp only [populate_eq_error_iff, fault?_eq_findSome?]
  rw [← Option.isSome_iff_exists, List.findSome?_isSome_iff]
  simp only [Option.isSome_iff_exists, DeclaredRelation.fault?_eq_some_iff]

/-- A populated entity differs under the names of declared relations alone. -/
theorem Metadata.relation?_populate_of_undeclared {populated : Entity} {name : String}
    (undeclared : name ∉ m.relationNames) (ok : m.populate registry tables e = .ok populated) :
    populated.relation? name = e.relation? name := by
  obtain ⟨between, okMany, okOne⟩ := exists_of_populate ok
  rw [relationNames, List.mem_append, not_or] at undeclared
  rw [populateMany_eq_fillIn] at okMany
  rw [populateOne_eq_fillIn] at okOne
  rw [Entity.relation?_fillIn_of_not_mem undeclared.2 okOne,
    Entity.relation?_fillIn_of_not_mem undeclared.1 okMany]

end Population

namespace Metadata

/-- A misconfigured relation fails for every entity, whatever is stored.  Without one, population
fails with dangling references only, and exactly if the entity has one.  It always fails with what
the first failing relation fails with, those to many coming before those to one, and where it
succeeds it changes nothing but the declared relations. -/
theorem populate_fails_iff (registry : Registry) (m : Metadata) :
    (∀ relation ∈ m.relations, ∀ fault, relation.Misconfigured registry m fault →
        ∀ tables e, ∃ error, m.populate registry tables e = .error error) ∧
      ((∀ relation ∈ m.relations, ∀ fault, ¬relation.Misconfigured registry m fault) →
        ∀ tables e,
          (∀ error, m.populate registry tables e = .error error →
            ∃ property table id, error = .danglingReference property table id) ∧
          ((∃ error, m.populate registry tables e = .error error) ↔
            ∃ relation ∈ m.manyToOne, ∃ id, relation.Dangles tables m e id)) ∧
      ∀ tables e,
        (∀ error, m.populate registry tables e = .error error ↔
          ∃ before relation after, m.relations = before ++ relation :: after ∧
            (∀ earlier ∈ before, ∀ fault, ¬earlier.Fails registry tables m e fault) ∧
            relation.Fails registry tables m e error) ∧
        ∀ populated, m.populate registry tables e = .ok populated →
          populated.withoutRelations = e.withoutRelations ∧
            ∀ name ∉ m.relationNames, populated.relation? name = e.relation? name := by
  refine ⟨fun relation declared fault wrong tables e => ?_, fun configured tables e => ?_,
    fun tables e => ⟨fun error => populate_eq_error_iff_first, fun populated ok => ?_⟩⟩
  · exact exists_populate_error_iff.mpr ⟨relation, declared, fault, .misconfigured wrong⟩
  · refine ⟨fun error failed => ?_, ?_⟩
    · obtain ⟨before, relation, after, split, -, fails⟩ := populate_eq_error_iff_first.mp failed
      have declared : relation ∈ m.relations := split ▸ List.mem_append_cons_self
      cases fails with
      | misconfigured wrong => exact (configured relation declared _ wrong).elim
      | dangling _ _ => exact ⟨_, _, _, rfl⟩
    · rw [exists_populate_error_iff]
      constructor
      · rintro ⟨relation, declared, error, fails⟩
        cases fails with
        | misconfigured wrong => exact (configured relation declared _ wrong).elim
        | @dangling one id _ dangles =>
            have isOne : one ∈ m.manyToOne := by simpa [relations] using declared
            exact ⟨one, isOne, id, dangles⟩
      · rintro ⟨one, isOne, id, dangles⟩
        have declared : DeclaredRelation.one one ∈ m.relations := by simpa [relations] using isOne
        exact ⟨_, declared, _, .dangling (configured _ declared) dangles⟩
  · exact ⟨withoutRelations_populate ok, fun name undeclared =>
      relation?_populate_of_undeclared undeclared ok⟩

/-- While nothing is registered for the table of carts, no user can be populated.  With the sample
tables registered, only one whose contact is not stored cannot. -/
theorem populate_fails_iff_samples :
    let store := ((Session.start .text .start).run Samples.calls).store
    let unregistered : Registry := (∅ : Registry).register Samples.users
    let many : DeclaredRelation := .many ⟨"carts", "user", "carts"⟩
    many.Misconfigured unregistered Samples.users (.missingMetadata "users" "carts" "carts") ∧
      (∀ tables e, ∃ error, Samples.users.populate unregistered tables e = .error error) ∧
      (∀ relation ∈ Samples.users.relations, ∀ fault,
        ¬relation.Misconfigured store.registry Samples.users fault) ∧
      ManyToOne.Dangles store.tables Samples.users (Samples.userOf "u2" "c2")
        ⟨"contact", "contact_id", "contacts"⟩ "c2" ∧
      ∃ error, Samples.users.populate store.registry store.tables (Samples.userOf "u2" "c2") =
        .error error := by
  intro store unregistered many
  have wrong : many.Misconfigured unregistered Samples.users
      (.missingMetadata "users" "carts" "carts") := .unregistered (by decide) (by decide +kernel)
  have isMany : many ∈ Samples.users.relations := List.mem_cons_self
  have configured : ∀ relation ∈ Samples.users.relations, ∀ fault,
      ¬relation.Misconfigured store.registry Samples.users fault := by
    intro relation declared fault wrong
    rcases List.mem_cons.mp declared with rfl | declared
    · have key : OneToMany.foreignKey store.registry Samples.users ⟨"carts", "user", "carts"⟩ =
        .ok "userId" := rfl
      cases key.symm.trans (OneToMany.foreignKey_eq_error_iff.mpr wrong)
    · cases List.mem_singleton.mp declared
      have key : ManyToOne.foreignKey store.registry Samples.users
        ⟨"contact", "contact_id", "contacts"⟩ = .ok "contactId" := rfl
      cases key.symm.trans (ManyToOne.foreignKey_eq_error_iff.mpr wrong)
  have dangles : ManyToOne.Dangles store.tables Samples.users (Samples.userOf "u2" "c2")
      ⟨"contact", "contact_id", "contacts"⟩ "c2" :=
    ⟨⟨"contactId", rfl, rfl, rfl⟩, by decide +kernel⟩
  obtain ⟨always, -⟩ := populate_fails_iff unregistered Samples.users
  obtain ⟨-, exactly, -⟩ := populate_fails_iff store.registry Samples.users
  obtain ⟨-, dangling⟩ := exactly configured store.tables (Samples.userOf "u2" "c2")
  exact ⟨wrong, always many isMany _ wrong, configured, dangles,
    dangling.mpr ⟨_, List.mem_singleton_self _, _, dangles⟩⟩

end Metadata

end EntityStore
