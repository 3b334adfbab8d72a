import EntityStore.Store.Operation

/-!
What filling in relations keeps, and what it looks at.

A populated entity is the entity itself but for its relations, so change
tracking sees no difference between the two (`Tracking.saveAll_populateAll`).
Population reads rows only through `Tables.rows`, so tables with the same rows
populate alike (`Metadata.populate_congr`).
-/

namespace EntityStore

variable {registry : Registry} {tables tables' : Tables} {m : Metadata}

/-! ## Entities that differ in their relations alone -/

theorem Entity.get?_eq_of_withoutRelations {a b : Entity}
    (same : a.withoutRelations = b.withoutRelations) (property : String) :
    a.get? property = b.get? property := by
  rw [← Entity.get?_withoutRelations a, same, Entity.get?_withoutRelations]

theorem Metadata.idOf?_eq_of_withoutRelations {a b : Entity}
    (same : a.withoutRelations = b.withoutRelations) : m.idOf? a = m.idOf? b := by
  unfold Metadata.idOf? Entity.reference?
  rw [Entity.get?_eq_of_withoutRelations same]

theorem Metadata.snapshot_eq_of_withoutRelations {a b : Entity}
    (same : a.withoutRelations = b.withoutRelations) : m.snapshot a = m.snapshot b := by
  unfold Metadata.snapshot
  simp only [Entity.get?_eq_of_withoutRelations same]

theorem Tracking.save_eq_of_withoutRelations {a b : Entity} (t : Tracking)
    (same : a.withoutRelations = b.withoutRelations) : t.save m a = t.save m b := by
  unfold Tracking.save
  rw [Metadata.idOf?_eq_of_withoutRelations same, Metadata.snapshot_eq_of_withoutRelations same]

/-! ## Filling in -/

/-- Puts what is found for each relation under its name, one relation after the other. -/
def Entity.fillIn {ρ : Type} (name : ρ → String)
    (find : ρ → Entity → Except Error (Related Entity)) : List ρ → Entity → Except Error Entity
  | [], e => .ok e
  | relation :: relations, e =>
      match find relation e with
      | .error error => .error error
      | .ok found => fillIn name find relations (e.setRelation (name relation) found)

theorem Entity.withoutRelations_fillIn {ρ : Type} {name : ρ → String}
    {find : ρ → Entity → Except Error (Related Entity)} {relations : List ρ} {e filled : Entity}
    (ok : e.fillIn name find relations = .ok filled) :
    filled.withoutRelations = e.withoutRelations := by
  induction relations generalizing e with
  | nil =>
      cases ok
      rfl
  | cons relation relations ih =>
      rw [fillIn] at ok
      split at ok
      · cases ok
      · exact (ih ok).trans (withoutRelations_setRelation e _ _)

theorem Metadata.populateMany_eq_fillIn (relations : List OneToMany) (e : Entity) :
    m.populateMany registry tables relations e =
      e.fillIn (·.property) (·.related registry tables m) relations := by
  induction relations generalizing e with
  | nil => rfl
  | cons relation relations ih =>
      rw [populateMany, Entity.fillIn]
      cases relation.related registry tables m e with
      | error error => rfl
      | ok related => exact ih _

theorem Metadata.populateOne_eq_fillIn (relations : List ManyToOne) (e : Entity) :
    m.populateOne registry tables relations e =
      e.fillIn (·.property) (·.related registry tables m) relations := by
  induction relations generalizing e with
  | nil => rfl
  | cons relation relations ih =>
      rw [populateOne, Entity.fillIn]
      cases relation.related registry tables m e with
      | error error => rfl
      | ok related => exact ih _

/-! ## What population keeps -/

theorem Metadata.withoutRelations_populateMany {relations : List OneToMany}
    {e populated : Entity} (ok : m.populateMany registry tables relations e = .ok populated) :
    populated.withoutRelations = e.withoutRelations := by
  rw [populateMany_eq_fillIn] at ok
  exact Entity.withoutRelations_fillIn ok

theorem Metadata.withoutRelations_populateOne {relations : List ManyToOne}
    {e populated : Entity} (ok : m.populateOne registry tables relations e = .ok populated) :
    populated.withoutRelations = e.withoutRelations := by
  rw [populateOne_eq_fillIn] at ok
  exact Entity.withoutRelations_fillIn ok

/-- A populated entity is the entity itself but for its relations. -/
theorem Metadata.withoutRelations_populate {e populated : Entity}
    (ok : m.populate registry tables e = .ok populated) :
    populated.withoutRelations = e.withoutRelations := by
  unfold Metadata.populate at ok
  split at ok
  · cases ok
  · rename_i many okMany
    exact (withoutRelations_populateOne ok).trans (withoutRelations_populateMany okMany)

/-- Filling in the relations of several entities succeeds for the first and for the others. -/
theorem Metadata.exists_of_populateAll_cons {e : Entity} {rest populated : List Entity}
    (ok : m.populateAll registry tables (e :: rest) = .ok populated) :
    ∃ first others, m.populate registry tables e = .ok first ∧
      m.populateAll registry tables rest = .ok others ∧ populated = first :: others := by
  rw [Metadata.populateAll] at ok
  split at ok
  · cases ok
  · rename_i first okFirst
    split at ok
    · cases ok
    · rename_i others okRest
      cases ok
      exact ⟨first, others, okFirst, okRest, rfl⟩

theorem Metadata.map_withoutRelations_populateAll {entities : List Entity} :
    ∀ {populated : List Entity},
      m.populateAll registry tables entities = .ok populated →
      populated.map Entity.withoutRelations = entities.map Entity.withoutRelations := by
  induction entities with
  | nil =>
      intro populated ok
      cases ok
      rfl
  | cons e rest ih =>
      intro populated ok
      obtain ⟨first, others, okFirst, okRest, rfl⟩ := exists_of_populateAll_cons ok
      rw [List.map_cons, List.map_cons, withoutRelations_populate okFirst, ih okRest]

theorem Metadata.length_populateAll {entities populated : List Entity}
    (ok : m.populateAll registry tables entities = .ok populated) :
    populated.length = entities.length := by
  simpa using congrArg List.length (map_withoutRelations_populateAll ok)

theorem Tracking.saveAll_eq_of_withoutRelations {as bs : List Entity} :
    ∀ {t : Tracking},
      as.map Entity.withoutRelations = bs.map Entity.withoutRelations →
      t.saveAll m as = t.saveAll m bs := by
  induction as generalizing bs with
  | nil =>
      intro t same
      cases bs with
      | nil => rfl
      | cons b bs => cases same
  | cons a as ih =>
      intro t same
      cases bs with
      | nil => cases same
      | cons b bs =>
          obtain ⟨first, rest⟩ := List.cons.inj same
          calc t.saveAll m (a :: as) = (t.save m a).saveAll m as := rfl
            _ = (t.save m a).saveAll m bs := ih rest
            _ = (t.save m b).saveAll m bs := by rw [Tracking.save_eq_of_withoutRelations t first]

/-- Remembering what is handed out remembers what is stored. -/
theorem Tracking.saveAll_populateAll (t : Tracking) {entities populated : List Entity}
    (ok : m.populateAll registry tables entities = .ok populated) :
    t.saveAll m populated = t.saveAll m entities :=
  saveAll_eq_of_withoutRelations (Metadata.map_withoutRelations_populateAll ok)

/-! ## What population looks at -/

section SameRows

variable (agree : ∀ table, tables.rows table = tables'.rows table)

include agree

theorem Tables.row?_congr (table : String) (id : Value) :
    tables.row? table id = tables'.row? table id := by
  unfold Tables.row?
  rw [agree]

theorem OneToMany.related_congr (relation : OneToMany) (e : Entity) :
    relation.related registry tables m e = relation.related registry tables' m e := by
  unfold OneToMany.related
  cases relation.foreignKey registry m with
  | error error => rfl
  | ok property =>
      cases m.idOf? e with
      | none => rfl
      | some id => simp only [OneToMany.referring, agree]

theorem ManyToOne.related_congr (relation : ManyToOne) (e : Entity) :
    relation.related registry tables m e = relation.related registry tables' m e := by
  unfold ManyToOne.related
  cases relation.foreignKey registry m with
  | error error => rfl
  | ok property =>
      have target : ∀ id, relation.target tables id = relation.target tables' id := by
        intro id
        cases id with
        | none => rfl
        | some id => simp only [ManyToOne.target, Tables.row?_congr agree]
      simp only [target]

theorem Metadata.populateMany_congr (relations : List OneToMany) (e : Entity) :
    m.populateMany registry tables relations e = m.populateMany registry tables' relations e := by
  rw [populateMany_eq_fillIn, populateMany_eq_fillIn]
  congr 1
  funext relation e
  exact OneToMany.related_congr agree relation e

theorem Metadata.populateOne_congr (relations : List ManyToOne) (e : Entity) :
    m.populateOne registry tables relations e = m.populateOne registry tables' relations e := by
  rw [populateOne_eq_fillIn, populateOne_eq_fillIn]
  congr 1
  funext relation e
  exact ManyToOne.related_congr agree relation e

/-- Tables with the same rows populate alike, whether or not they keep empty tables. -/
theorem Metadata.populate_congr (e : Entity) :
    m.populate registry tables e = m.populate registry tables' e := by
  simp only [Metadata.populate, populateMany_congr agree, populateOne_congr agree]

theorem Metadata.populateAll_congr (entities : List Entity) :
    m.populateAll registry tables entities = m.populateAll registry tables' entities := by
  induction entities with
  | nil => rfl
  | cons e rest ih => simp only [Metadata.populateAll, populate_congr agree, ih]

theorem Tables.matching_congr (table : String) (condition : Option Condition) :
    tables.matching table condition = tables'.matching table condition := by
  unfold Tables.matching
  rw [agree]

theorem Tables.select_congr (table : String) (condition : Option Condition)
    (sorting : Option Sorting) :
    tables.select table condition sorting = tables'.select table condition sorting := by
  unfold Tables.select
  rw [Tables.matching_congr agree]

end SameRows

end EntityStore
