import EntityStore.Proofs.Faults
import EntityStore.Proofs.Readings
import EntityStore.Proofs.ReadYourWrites
import EntityStore.Proofs.Relations
import EntityStore.Proofs.Storage

/-!
Stored data stays readable.

Only the entities that a call writes are populated by it, yet every other row stays readable: a
write takes no row away, so no reference of another row is lost by it (`Tables.stores_append`,
`Tables.stores_write`), and a write that is taken back leaves the rows as they were.  So from the
first write on, as long as nothing is deleted and no other description is registered, every row can
be populated (`Session.run_readable`), and with it whatever a reading selects
(`Session.stored_stays_readable`).
-/

namespace EntityStore

/-- Every stored entity can be populated by the description of its table. -/
def Store.Readable (describe : String → Metadata) (s : Store) : Prop :=
  ∀ table, ∀ row ∈ s.tables.rows table, ∃ populated,
    s.populate (describe table) row.entity = .ok populated

/-! ## Readable entities -/

theorem Metadata.exists_populateAll_iff {registry : Registry} {tables : Tables} {m : Metadata}
    {entities : List Entity} :
    (∃ populated, m.populateAll registry tables entities = .ok populated) ↔
      ∀ e ∈ entities, ∃ populated, m.populate registry tables e = .ok populated := by
  induction entities with
  | nil => exact ⟨fun _ => nofun, fun _ => ⟨[], rfl⟩⟩
  | cons e rest ih =>
      constructor
      · rintro ⟨populated, ok⟩ e' member
        obtain ⟨first, others, okFirst, okRest, -⟩ := exists_of_populateAll_cons ok
        rcases List.mem_cons.mp member with rfl | member
        · exact ⟨first, okFirst⟩
        · exact ih.mp ⟨others, okRest⟩ e' member
      · intro each
        obtain ⟨first, okFirst⟩ := each e List.mem_cons_self
        obtain ⟨others, okRest⟩ := ih.mpr fun e' member => each e' (List.mem_cons_of_mem _ member)
        exact ⟨first :: others, by rw [populateAll, okFirst, okRest]⟩

/-- Where every id stored before is still stored, an entity is as readable as before. -/
theorem Metadata.exists_populate_of_stores {registry : Registry} {tables tables' : Tables}
    {m : Metadata} {e : Entity}
    (more : ∀ table id, tables.stores table id = true → tables'.stores table id = true)
    (readable : ∃ populated, m.populate registry tables e = .ok populated) :
    ∃ populated, m.populate registry tables' e = .ok populated :=
  exists_populate_iff.mpr (fault?_eq_none_of_stores more (exists_populate_iff.mp readable))

namespace Tables

theorem stores_append (t : Tables) (table : String) (added : List Row) (table' : String)
    (id : Value) (stored : t.stores table' id = true) :
    (t.append table added).stores table' id = true := by
  rw [stores_iff] at stored ⊢
  unfold ids at stored ⊢
  rw [rows_append]
  split
  · rename_i own
    subst own
    rw [List.map_append]
    exact List.mem_append_left _ stored
  · exact stored

theorem stores_write (t : Tables) (table : String) (id : Value) (e : Entity) (fields : List Field)
    (table' : String) (id' : Value) (stored : t.stores table' id' = true) :
    (t.write table id e fields).tables.stores table' id' = true := by
  rw [stores_iff] at stored ⊢
  rw [ids_write]
  exact List.mem_append_left _ stored

end Tables

/-! ## Writes -/

namespace Store

variable {describe : String → Metadata} {s : Store} {m : Metadata}

/-- Stores with the same rows and descriptions are equally readable. -/
theorem Readable.of_rows_eq {s' : Store} (readable : s.Readable describe)
    (rows : ∀ table, s'.tables.rows table = s.tables.rows table)
    (registry : s'.registry = s.registry) : s'.Readable describe := by
  intro table row member
  rw [rows] at member
  obtain ⟨populated, ok⟩ := readable table row member
  refine ⟨populated, ?_⟩
  unfold populate at ok ⊢
  rw [registry, Metadata.populate_congr rows, ok]

/-- New rows are populated from all the rows there are, so they are as readable as the others. -/
theorem Readable.insertAll (readable : s.Readable describe) (follows : describe m.table = m)
    (entities : List Entity) (ids : IdSequence) :
    (s.insertAll m entities ids).2.1.Readable describe := by
  have described := s.registry_insertAll m entities ids
  rcases s.rows_insertAll m entities ids with same | ⟨rows, -, filled, after⟩
  · exact readable.of_rows_eq same described
  · intro table row member
    unfold populate
    rw [after, Tables.rows_append] at member
    rw [after, described]
    have old : ∀ row ∈ s.tables.rows table, ∃ populated,
        (describe table).populate s.registry (s.tables.append m.table rows) row.entity =
          .ok populated :=
      fun row stored => Metadata.exists_populate_of_stores (s.tables.stores_append m.table rows)
        (readable table row stored)
    split at member
    · rename_i own
      rcases List.mem_append.mp member with stored | new
      · exact old row (own ▸ stored)
      · rw [own, follows]
        exact Metadata.exists_populateAll_iff.mp filled row.entity (List.mem_map_of_mem new)
    · exact old row member

/-- The entity written is populated from the rows as they are with it. -/
theorem Readable.update (readable : s.Readable describe) (follows : describe m.table = m)
    (e : Entity) : (s.update m e).2.Readable describe := by
  have described := s.registry_update m e
  rcases s.rows_update m e with same | ⟨id, fields, -, -, filled, after⟩
  · exact readable.of_rows_eq same described
  · intro table row member
    unfold populate
    rw [after] at member
    rw [after, described]
    rcases Tables.mem_rows_write member with old | ⟨rfl, rfl⟩
    · exact Metadata.exists_populate_of_stores (s.tables.stores_write m.table id e fields)
        (readable table row old)
    · rw [follows]
      exact filled

end Store

/-! ## Runs -/

namespace Session

variable {describe : String → Metadata} {c : Session}

theorem step_readable (readable : c.store.Readable describe) {operation : Operation}
    (follows : operation.Follows describe) (noRemoval : operation.isRemoval = false)
    (noRegistration : operation.registered? = none) :
    (c.step operation).2.store.Readable describe := by
  have unwritten : operation.isWrite = false → ∀ table,
      (c.step operation).2.store.tables.rows table = c.store.tables.rows table :=
    fun noWrite => c.rows_step_of_reading noWrite noRemoval
  cases operation with
  | register m => cases noRegistration
  | count m condition => exact readable
  | hasMatch m condition => exact readable
  | findAll m condition sorting =>
      exact readable.of_rows_eq (unwritten rfl) (c.store.registry_findAll m condition sorting)
  | findBy m condition sorting =>
      exact readable.of_rows_eq (unwritten rfl) (c.store.registry_findBy m condition sorting)
  | insert m e =>
      show (c.store.insert m e c.ids).2.1.Readable describe
      rw [Store.insert_snd]
      exact readable.insertAll (follows m rfl) [e] c.ids
  | insertAll m entities => exact readable.insertAll (follows m rfl) entities c.ids
  | update m e => exact readable.update (follows m rfl) e
  | delete m condition => cases noRemoval
  | destroy => cases noRemoval

/-- Rows stay readable along a run that removes none, provided that there are no rows yet or no
registration is to come. -/
theorem run_readable {operations : List Operation}
    (follows : ∀ operation ∈ operations, operation.Follows describe)
    (noRemoval : ∀ operation ∈ operations, operation.isRemoval = false)
    (registersFirst : operations.Pairwise fun earlier later =>
      earlier.isWrite = true → later.registered? = none)
    (readable : c.store.Readable describe)
    (settled : (∀ table, c.store.tables.rows table = []) ∨
      ∀ operation ∈ operations, operation.registered? = none) :
    (c.run operations).store.Readable describe := by
  induction operations generalizing c with
  | nil => exact readable
  | cons operation operations ih =>
      have first : operation.isRemoval = false := noRemoval operation List.mem_cons_self
      have next := step_readable readable (follows operation List.mem_cons_self) first
      obtain ⟨afterWrite, registersFirstLater⟩ := List.pairwise_cons.mp registersFirst
      have rest := @ih (c.step operation).2
        (fun later member => follows later (List.mem_cons_of_mem _ member))
        (fun later member => noRemoval later (List.mem_cons_of_mem _ member)) registersFirstLater
      cases written : operation.isWrite with
      | true =>
          have noRegistration : operation.registered? = none := by
            cases operation <;> first | rfl | cases written
          exact rest (next noRegistration)
            (.inr fun later member => afterWrite later member written)
      | false =>
          rcases settled with empty | noRegistration
          -- Before the first write there is nothing to be read, whatever is registered.
          · have stillEmpty : ∀ table, (c.step operation).2.store.tables.rows table = [] :=
              fun table => (c.rows_step_of_reading written first table).trans (empty table)
            refine rest (fun table row member => ?_) (.inl stillEmpty)
            rw [stillEmpty] at member
            cases member
          · exact rest (next (noRegistration operation List.mem_cons_self))
              (.inr fun later member => noRegistration later (List.mem_cons_of_mem _ member))

/-- As long as every table is used by one description, nothing is registered after the first write
and nothing is deleted: every stored entity can be populated, readings never fail, and neither does
an update with an entity whose fields are those stored. -/
theorem stored_stays_readable (describe : String → Metadata) (idForm : IdForm) (ids : IdSequence)
    (operations : List Operation)
    (follows : ∀ operation ∈ operations, operation.Follows describe)
    (registersFirst : operations.Pairwise fun earlier later =>
      earlier.isWrite = true → later.registered? = none)
    (noRemoval : ∀ operation ∈ operations, operation.isRemoval = false) :
    let store := ((start idForm ids).run operations).store
    (∀ table, ∀ row ∈ store.tables.rows table, ∃ populated,
        store.populate (describe table) row.entity = .ok populated) ∧
      ∀ m, describe m.table = m →
        (∀ condition sorting, ∃ found, (store.findAll m condition sorting).1 = .ok found) ∧
        (∀ condition sorting, ∃ found, (store.findBy m condition sorting).1 = .ok found) ∧
        ∀ row ∈ store.tables.rows m.table, ∀ e, e.table = m.table →
          m.idProperty ∈ m.fields.map (·.property) → m.idOf? e = some row.id →
          (∀ field ∈ m.fields, e.get? field.property = row.entity.get? field.property) →
          ∃ updated, (store.update m e).1 = .ok updated := by
  intro store
  have mirrors : store.tracking.Mirrors describe store.tables := run_mirrors idForm ids follows
  have readable : store.Readable describe :=
    run_readable follows noRemoval registersFirst
      (fun _ _ member => (List.not_mem_nil member).elim) (.inl fun _ => rfl)
  refine ⟨readable, fun m given => ?_⟩
  have found : ∀ condition sorting, ∃ found, (store.findAll m condition sorting).1 = .ok found := by
    intro condition sorting
    rw [Store.findAll_fst]
    refine Metadata.exists_populateAll_iff.mpr fun e member => ?_
    obtain ⟨row, stored, rfl⟩ := Tables.exists_row_of_mem_select member
    obtain ⟨populated, filled⟩ := readable m.table row stored
    rw [given] at filled
    rw [(mirrors.regular.rows m.table row stored).withoutRelations]
    exact ⟨populated, filled⟩
  refine ⟨found, fun condition sorting => ?_, ?_⟩
  · obtain ⟨all, ok⟩ := found (some condition) sorting
    exact ⟨all.head?, Store.findBy_of_findAll ok⟩
  · intro row stored e own declared identified unchanged
    obtain ⟨populated, filled⟩ := readable m.table row stored
    rw [given] at filled
    exact ⟨populated, congrArg Prod.fst
      (Store.update_of_unchanged mirrors given stored filled declared own identified unchanged)⟩

/-- A user who is moved to another contact, one who leads to no contact, and a failed move to a
contact that is missing: all users can still be read, and the first can be updated as he is. -/
theorem stored_stays_readable_samples :
    let moved := Samples.userOf "u1" "c2"
    let calls := Samples.calls ++
      [.insert Samples.contacts ((Samples.contact "bo@example.org").set "id" "c2"),
        .insert Samples.users (Samples.user "Bo" "Oulu" 20), .update Samples.users moved,
        .update Samples.users (Samples.userOf "u1" "c3")]
    let store := ((start .text .start).run calls).store
    (∀ operation ∈ calls, operation.Follows Samples.describe) ∧
      (calls.Pairwise fun earlier later => earlier.isWrite = true → later.registered? = none) ∧
      (∀ operation ∈ calls, operation.isRemoval = false) ∧
      store.tables.ids "users" = [.text "u1", .text "1"] ∧
      (∃ found, (store.findAll Samples.users none (some (.byProperty "name" .ascending))).1 =
        .ok found) ∧
      ∃ updated, (store.update Samples.users (moved.set "note" "VIP")).1 = .ok updated := by
  intro moved calls store
  have follows : ∀ operation ∈ calls, operation.Follows Samples.describe := by decide
  have registersFirst : calls.Pairwise fun earlier later =>
      earlier.isWrite = true → later.registered? = none := by decide
  have noRemoval : ∀ operation ∈ calls, operation.isRemoval = false := by decide
  obtain ⟨-, readings⟩ := stored_stays_readable Samples.describe .text .start calls follows
    registersFirst noRemoval
  obtain ⟨found, -, updates⟩ := readings Samples.users rfl
  have stored : store.tables.row? "users" "u1" = some ⟨"u1", moved⟩ := by decide +kernel
  have first := Tables.mem_of_row? stored
  have users : store.tables.ids "users" = [.text "u1", .text "1"] := by decide +kernel
  have identified : Samples.users.idOf? (moved.set "note" "VIP") = some (.text "u1") := by rfl
  have sorted := found none (some (.byProperty "name" .ascending))
  have updated := updates ⟨"u1", moved⟩ first (moved.set "note" "VIP") rfl (by decide) identified
    (by decide)
  exact ⟨follows, registersFirst, noRemoval, users, sorted, updated⟩

end Session

end EntityStore
