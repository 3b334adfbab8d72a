import EntityStore.Proofs.Rows

/-!
What filling in relations fails on.

Whether an entity can be populated, and on what it fails, is decided by the descriptions, by the
references that the entity holds, and by which ids are stored in which tables.  `Metadata.fault?`
finds the fault from these alone; population fails on it and on nothing else
(`Metadata.populate_eq_error_iff`).  What the rows hold under their ids makes no difference
(`Metadata.map_withoutRelations_populate`), and more rows make no fault
(`Metadata.fault?_eq_none_of_stores`).
-/

namespace EntityStore

/-- Whether a table has a row stored under an id. -/
def Tables.stores (t : Tables) (table : String) (id : Value) : Bool := (t.row? table id).isSome

theorem Tables.stores_iff {t : Tables} {table : String} {id : Value} :
    t.stores table id = true ↔ id ∈ t.ids table := by
  rw [stores, Option.isSome_iff_ne_none, ne_eq, row?_eq_none_iff, Decidable.not_not]

/-! ## Faults -/

/-- The fault of a relation to many: it is not described.  No row can be at fault. -/
def OneToMany.fault? (registry : Registry) (m : Metadata) (relation : OneToMany) :
    Option Error :=
  match relation.foreignKey registry m with
  | .error error => some error
  | .ok _ => none

/-- The fault of a relation to one: it is not described, or it refers to an id without a row. -/
def ManyToOne.fault? (registry : Registry) (stores : String → Value → Bool) (m : Metadata)
    (e : Entity) (relation : ManyToOne) : Option Error :=
  match relation.foreignKey registry m with
  | .error error => some error
  | .ok property =>
      match e.reference? property with
      | none => none
      | some id =>
          if stores relation.mappedTable id then none
          else some (.danglingReference relation.property relation.mappedTable id)

/-- The first fault of an entity's relations, those to many before those to one. -/
def Metadata.fault? (registry : Registry) (stores : String → Value → Bool) (m : Metadata)
    (e : Entity) : Option Error :=
  (m.oneToMany.findSome? (·.fault? registry m)).or
    (m.manyToOne.findSome? (·.fault? registry stores m e))

/-- A result that fails on exactly the fault succeeds only without one. -/
theorem fault_eq_none_of_ok {α : Type} {result : Except Error α} {fault : Option Error} {value : α}
    (fails : ∀ error, result = .error error ↔ fault = some error) (ok : result = .ok value) :
    fault = none := by
  rw [Option.eq_none_iff_forall_ne_some]
  intro error found
  rw [(fails error).mpr found] at ok
  cases ok

section Population

variable {registry : Registry} {tables : Tables} {m : Metadata} {e : Entity} {error : Error}

theorem OneToMany.related_eq_error_iff {relation : OneToMany} :
    relation.related registry tables m e = .error error ↔
      relation.fault? registry m = some error := by
  unfold related fault?
  cases relation.foreignKey registry m with
  | error error' => simp
  | ok property => simp

theorem ManyToOne.related_eq_error_iff {relation : ManyToOne} :
    relation.related registry tables m e = .error error ↔
      relation.fault? registry tables.stores m e = some error := by
  unfold related fault? target
  cases relation.foreignKey registry m with
  | error error' => simp
  | ok property =>
      simp only
      cases e.reference? property with
      | none => simp
      | some id =>
          unfold Tables.stores
          simp only
          cases tables.row? relation.mappedTable id with
          | none => simp
          | some row => simp

/-- References are kept as relations are filled in, so a relation has the fault that it has at
first. -/
theorem ManyToOne.fault?_eq_of_withoutRelations {stores : String → Value → Bool} {e' : Entity}
    (same : e'.withoutRelations = e.withoutRelations) (relation : ManyToOne) :
    relation.fault? registry stores m e' = relation.fault? registry stores m e := by
  unfold fault? Entity.reference?
  simp only [Entity.get?_eq_of_withoutRelations same]

/-- Filling in relations fails on the first that fails. -/
theorem Entity.fillIn_eq_error_iff {ρ : Type} {name : ρ → String}
    {find : ρ → Entity → Except Error (Related Entity)} {fault? : ρ → Option Error}
    (faults : ∀ relation e' error', e'.withoutRelations = e.withoutRelations →
      (find relation e' = .error error' ↔ fault? relation = some error'))
    (relations : List ρ) :
    e.fillIn name find relations = .error error ↔ relations.findSome? fault? = some error := by
  induction relations generalizing e with
  | nil => simp [fillIn]
  | cons relation relations ih =>
      have first := fun error' => faults relation e error' rfl
      rw [fillIn, List.findSome?_cons]
      cases found : find relation e with
      | error error' =>
          rw [(first error').mp found]
          simp
      | ok related =>
          rw [fault_eq_none_of_ok first found]
          exact ih fun relation' e' error' same => faults relation' e' error' same

theorem Metadata.populateMany_eq_error_iff (relations : List OneToMany) :
    m.populateMany registry tables relations e = .error error ↔
      relations.findSome? (·.fault? registry m) = some error := by
  rw [populateMany_eq_fillIn]
  apply Entity.fillIn_eq_error_iff
  exact fun relation e' error' _ => OneToMany.related_eq_error_iff

theorem Metadata.populateOne_eq_error_iff (relations : List ManyToOne) :
    m.populateOne registry tables relations e = .error error ↔
      relations.findSome? (·.fault? registry tables.stores m e) = some error := by
  rw [populateOne_eq_fillIn]
  apply Entity.fillIn_eq_error_iff
  intro relation e' error' same
  rw [ManyToOne.related_eq_error_iff, ManyToOne.fault?_eq_of_withoutRelations same]

/-- Population fails on the fault of the entity's relations, and on nothing else. -/
theorem Metadata.populate_eq_error_iff :
    m.populate registry tables e = .error error ↔
      m.fault? registry tables.stores e = some error := by
  have many : ∀ error', m.populateMany registry tables m.oneToMany e = .error error' ↔
      m.oneToMany.findSome? (·.fault? registry m) = some error' :=
    fun error' => populateMany_eq_error_iff m.oneToMany
  unfold populate fault?
  cases filled : m.populateMany registry tables m.oneToMany e with
  | error error' =>
      rw [(many error').mp filled]
      simp
  | ok between =>
      have same := withoutRelations_populateMany filled
      rw [fault_eq_none_of_ok many filled, Option.none_or]
      simp only
      rw [populateOne_eq_error_iff]
      simp only [ManyToOne.fault?_eq_of_withoutRelations same]

theorem Metadata.exists_populate_iff :
    (∃ populated, m.populate registry tables e = .ok populated) ↔
      m.fault? registry tables.stores e = none := by
  constructor
  · rintro ⟨populated, ok⟩
    exact fault_eq_none_of_ok (fun error => populate_eq_error_iff) ok
  · intro sound
    cases outcome : m.populate registry tables e with
    | error error =>
        rw [populate_eq_error_iff, sound] at outcome
        cases outcome
    | ok populated => exact ⟨populated, rfl⟩

/-- But for relations, what population answers is decided by the fault. -/
theorem Metadata.map_withoutRelations_populate :
    (m.populate registry tables e).map Entity.withoutRelations =
      match m.fault? registry tables.stores e with
      | some error => .error error
      | none => .ok e.withoutRelations := by
  cases outcome : m.populate registry tables e with
  | error error =>
      rw [populate_eq_error_iff.mp outcome]
      rfl
  | ok populated =>
      rw [exists_populate_iff.mp ⟨populated, outcome⟩]
      exact congrArg Except.ok (withoutRelations_populate outcome)

end Population

/-! ## More rows -/

theorem ManyToOne.fault?_eq_none_of_stores {registry : Registry}
    {stores stores' : String → Value → Bool} {m : Metadata} {e : Entity} {relation : ManyToOne}
    (more : ∀ table id, stores table id = true → stores' table id = true)
    (sound : relation.fault? registry stores m e = none) :
    relation.fault? registry stores' m e = none := by
  unfold fault? at sound ⊢
  cases key : relation.foreignKey registry m with
  | error error =>
      rw [key] at sound
      cases sound
  | ok property =>
      simp only [key] at sound ⊢
      cases reference : e.reference? property with
      | none => rfl
      | some id =>
          simp only [reference] at sound ⊢
          split at sound
          · rename_i stored
            rw [if_pos (more _ _ stored)]
          · cases sound

/-- Where more ids are stored, an entity without faults has none. -/
theorem Metadata.fault?_eq_none_of_stores {registry : Registry}
    {stores stores' : String → Value → Bool} {m : Metadata} {e : Entity}
    (more : ∀ table id, stores table id = true → stores' table id = true)
    (sound : m.fault? registry stores e = none) : m.fault? registry stores' e = none := by
  unfold fault? at sound ⊢
  rw [Option.or_eq_none_iff] at sound ⊢
  refine ⟨sound.1, List.findSome?_eq_none_iff.mpr fun relation member => ?_⟩
  exact ManyToOne.fault?_eq_none_of_stores more
    (List.findSome?_eq_none_iff.mp sound.2 relation member)

/-! ## Errors of population -/

/-- Whether filling in relations may fail with the error. -/
def Error.concernsRelations : Error → Bool
  | .missingRelationLink .. => true
  | .missingMetadata .. => true
  | .missingJoinField .. => true
  | .danglingReference .. => true
  | _ => false

section Errors

variable {registry : Registry} {tables : Tables} {m : Metadata} {e : Entity} {error : Error}

theorem Registry.concernsRelations_of_linked {property mappedTable : String}
    (failed : registry.linked m property mappedTable = .error error) :
    error.concernsRelations = true := by
  unfold linked at failed
  split at failed
  · cases failed
    rfl
  · split at failed
    · cases failed
    · cases failed
      rfl

theorem OneToMany.concernsRelations_of_foreignKey {relation : OneToMany}
    (failed : relation.foreignKey registry m = .error error) : error.concernsRelations = true := by
  unfold foreignKey at failed
  split at failed
  · rename_i linked
    cases failed
    exact Registry.concernsRelations_of_linked linked
  · split at failed
    · cases failed
      rfl
    · split at failed
      · cases failed
        rfl
      · cases failed

theorem ManyToOne.concernsRelations_of_foreignKey {relation : ManyToOne}
    (failed : relation.foreignKey registry m = .error error) : error.concernsRelations = true := by
  unfold foreignKey at failed
  split at failed
  · rename_i linked
    cases failed
    exact Registry.concernsRelations_of_linked linked
  · split at failed
    · cases failed
      rfl
    · cases failed

/-- A fault lies in how a relation is described or in a reference that dangles. -/
theorem Metadata.concernsRelations_of_fault? {stores : String → Value → Bool}
    (fault : m.fault? registry stores e = some error) : error.concernsRelations = true := by
  unfold fault? at fault
  rw [Option.or_eq_some_iff] at fault
  rcases fault with many | ⟨-, one⟩
  · obtain ⟨relation, -, found⟩ := List.exists_of_findSome?_eq_some many
    unfold OneToMany.fault? at found
    split at found
    · rename_i failed
      cases found
      exact relation.concernsRelations_of_foreignKey failed
    · cases found
  · obtain ⟨relation, -, found⟩ := List.exists_of_findSome?_eq_some one
    unfold ManyToOne.fault? at found
    split at found
    · rename_i failed
      cases found
      exact relation.concernsRelations_of_foreignKey failed
    · split at found
      · cases found
      · split at found
        · cases found
        · cases found
          rfl

theorem Metadata.concernsRelations_of_populate
    (failed : m.populate registry tables e = .error error) : error.concernsRelations = true :=
  concernsRelations_of_fault? (populate_eq_error_iff.mp failed)

theorem Metadata.concernsRelations_of_populateAll {entities : List Entity}
    (failed : m.populateAll registry tables entities = .error error) :
    error.concernsRelations = true := by
  induction entities with
  | nil => cases failed
  | cons e rest ih =>
      rw [populateAll] at failed
      split at failed
      · rename_i first
        cases failed
        exact concernsRelations_of_populate first
      · split at failed
        · rename_i later
          cases failed
          exact ih later
        · cases failed

end Errors

end EntityStore
