import EntityStore.Proofs.Insertion

/-!
Batches and single inserts.

Two batches that can be inserted one after the other can be inserted as one
(`Store.insertAll_append`): the second pass of the one batch populates with more rows in place than
the passes of the two, and more rows make no fault.  So entities that can be inserted one by one can
be inserted as a batch, with the same rows, memory, numbers and counts (`Session.inserts_as_batch`).
The converse fails: in a batch an entity may refer to a later one.
-/

namespace EntityStore

namespace Metadata

variable {m : Metadata} {form : IdForm} {e : Entity} {first second entities : List Entity}
  {taken taken' : List Value} {ids ids₁ ids₂ : IdSequence} {rows others : List Row}

/-- New rows depend on which ids are taken, not on their order. -/
theorem newRows_congr (same : ∀ id, id ∈ taken ↔ id ∈ taken') (entities : List Entity)
    (ids : IdSequence) :
    m.newRows form taken entities ids = m.newRows form taken' entities ids := by
  induction entities generalizing taken taken' ids with
  | nil => rfl
  | cons e rest ih =>
      have behind : ∀ row : Row, ∀ id, id ∈ row.id :: taken ↔ id ∈ row.id :: taken' := by
        intro row id
        rw [List.mem_cons, List.mem_cons, same]
      simp only [newRows, same, fun row ids => ih (behind row) ids]

/-- Where a batch is accepted, and then another, they are accepted as one. -/
theorem newRows_append (okFirst : m.newRows form taken first ids = (.ok rows, ids₁))
    (okSecond : m.newRows form (taken ++ rows.map (·.id)) second ids₁ = (.ok others, ids₂)) :
    m.newRows form taken (first ++ second) ids = (.ok (rows ++ others), ids₂) := by
  induction first generalizing taken ids rows with
  | nil =>
      cases okFirst
      rwa [List.map_nil, List.append_nil] at okSecond
  | cons e rest ih =>
      obtain ⟨row, ids', behind, own, made, free, okRest, rfl⟩ := newRows_cons_of_ok okFirst
      have okBoth := @ih (row.id :: taken) ids' behind okRest (by
        rw [← okSecond]
        refine newRows_congr (fun id => ?_) second ids₁
        simp only [List.map_cons, List.mem_append, List.mem_cons]
        rw [or_assoc]
        exact or_left_comm)
      rw [List.cons_append, newRows, if_neg (Decidable.not_not.mpr own), made]
      simp only [if_neg free, okBoth, List.cons_append]

end Metadata

/-! ## Joining batches -/

theorem Tables.rows_append_append (t : Tables) (table table' : String) (rows others : List Row) :
    ((t.append table rows).append table others).rows table' =
      (t.append table (rows ++ others)).rows table' := by
  simp only [rows_append, if_true, List.append_assoc]
  split
  · rfl
  · rfl

theorem Tables.ids_append (t : Tables) (table : String) (rows : List Row) :
    (t.append table rows).ids table = t.ids table ++ rows.map (·.id) := by
  simp [ids]

theorem Tracking.saveAll_append (t : Tracking) (m : Metadata) (first second : List Entity) :
    t.saveAll m (first ++ second) = (t.saveAll m first).saveAll m second :=
  List.foldl_append

/-- Rows that were populated before and rows that are populated now are populated together. -/
theorem Metadata.exists_populateAll_append {registry : Registry} {tables : Tables} {m : Metadata}
    {rows others : List Row} {added addedOthers : List Entity}
    (filled : m.populateAll registry (tables.append m.table rows) (rows.map (·.entity)) =
      .ok added)
    (filledOthers : m.populateAll registry ((tables.append m.table rows).append m.table others)
      (others.map (·.entity)) = .ok addedOthers) :
    ∃ together, m.populateAll registry (tables.append m.table (rows ++ others))
      ((rows ++ others).map (·.entity)) = .ok together := by
  simp only [← populateAll_congr (tables.rows_append_append m.table · rows others)]
  rw [exists_populateAll_iff, List.map_append]
  intro e member
  rcases List.mem_append.mp member with first | second
  · exact exists_populate_of_stores ((tables.append m.table rows).stores_append m.table others)
      (exists_populateAll_iff.mp ⟨added, filled⟩ e first)
  · exact exists_populateAll_iff.mp ⟨addedOthers, filledOthers⟩ e second

namespace Store

variable {s s₁ s₂ : Store} {m : Metadata} {first second added others : List Entity}
  {ids ids₁ ids₂ : IdSequence}

/-- Batches that can be inserted one after the other can be inserted as one. -/
theorem insertAll_append (okFirst : s.insertAll m first ids = (.ok added, s₁, ids₁))
    (okSecond : s₁.insertAll m second ids₁ = (.ok others, s₂, ids₂)) :
    ∃ together joined, s.insertAll m (first ++ second) ids = (.ok together, joined, ids₂) ∧
      together.map Entity.withoutRelations = (added ++ others).map Entity.withoutRelations ∧
      joined.Alike s₂ ∧ joined.counters = s₂.counters := by
  obtain ⟨rows, _, accepted, filled, after⟩ := insertAll_of_ok (congrArg Prod.fst okFirst)
  rw [okFirst] at after
  cases after
  obtain ⟨rowsSecond, _, acceptedSecond, filledSecond, after⟩ :=
    insertAll_of_ok (congrArg Prod.fst okSecond)
  rw [okSecond] at after
  cases after
  simp only [countWrites, Tables.ids_append] at acceptedSecond filledSecond
  obtain ⟨together, filledBoth⟩ := Metadata.exists_populateAll_append filled filledSecond
  have acceptedBoth := Metadata.newRows_append accepted acceptedSecond
  have ok : (s.insertAll m (first ++ second) ids).1 = .ok together := by
    rw [insertAll_fst, acceptedBoth]
    exact filledBoth
  obtain ⟨_, _, acceptedJoined, -, after⟩ := insertAll_of_ok ok
  cases acceptedJoined.symm.trans acceptedBoth
  have handedOut : together.map Entity.withoutRelations =
      (added ++ others).map Entity.withoutRelations := by
    rw [Metadata.map_withoutRelations_populateAll filledBoth, List.map_append, List.map_append,
      List.map_append, ← Metadata.map_withoutRelations_populateAll filled,
      ← Metadata.map_withoutRelations_populateAll filledSecond]
  have counted : together.length = added.length + others.length := by
    simpa using congrArg List.length handedOut
  have counters : s.counters.writes + together.length =
      s.counters.writes + added.length + others.length := by omega
  refine ⟨together, _, Prod.ext ok after, handedOut, ?_, ?_⟩
  · refine ⟨rfl, fun table => (s.tables.rows_append_append m.table table rows rowsSecond).symm,
      rfl, ?_, counters, rfl⟩
    simp only [countWrites, List.map_append, Tracking.saveAll_append]
  · simp only [countWrites, counters]

/-- An entity that is inserted is a batch of its own. -/
theorem insertAll_of_insert {e one : Entity} (ok : (s.insert m e ids).1 = .ok one) :
    s.insertAll m [e] ids = (.ok [one], (s.insert m e ids).2) := by
  obtain ⟨others, batch⟩ := insertAll_of_insert_ok ok
  obtain ⟨rows, _, accepted, filled, -⟩ := insertAll_of_ok batch
  have single : others.length + 1 = 1 := by
    simpa [Metadata.length_newRows accepted] using Metadata.length_populateAll filled
  have alone : others = [] := List.eq_nil_of_length_eq_zero (Nat.succ.inj single)
  rw [alone] at batch
  rw [insert_snd, ← batch]

end Store

namespace Session

variable {c : Session} {m : Metadata}

/-- Entities that can be inserted one by one can be inserted as a batch. -/
theorem insertAll_of_inserts {entities added : List Entity}
    (inserted : c.answers (entities.map (.insert m)) = added.map fun e => .ok (.entity e)) :
    let single := c.run (entities.map (.insert m))
    ∃ together joined, c.store.insertAll m entities c.ids = (.ok together, joined, single.ids) ∧
      together.map Entity.withoutRelations = added.map Entity.withoutRelations ∧
      joined.Alike single.store ∧ joined.counters = single.store.counters := by
  induction entities generalizing c added with
  | nil =>
      have none : added = [] := List.map_eq_nil_iff.mp inserted.symm
      subst none
      have rows : ∀ table,
          (c.store.tables.append m.table []).rows table = c.store.tables.rows table := by
        intro table
        rw [Tables.rows_append, List.append_nil]
        split
        · rename_i own
          rw [own]
        · rfl
      exact ⟨[], _, rfl, rfl, ⟨rfl, rows, rfl, rfl, rfl, rfl⟩, rfl⟩
  | cons e rest ih =>
      cases added with
      | nil => cases inserted
      | cons one others =>
          obtain ⟨first, behind⟩ := List.cons.inj inserted
          have ok : (c.store.insert m e c.ids).1 = .ok one := by
            obtain ⟨_, ok, same⟩ := exists_of_map_eq_ok first
            cases same
            exact ok
          obtain ⟨together, joined, okRest, handedOut, alike, counters⟩ := ih behind
          obtain ⟨all, joinedAll, okAll, handedOutAll, alikeAll, countersAll⟩ :=
            Store.insertAll_append (Store.insertAll_of_insert ok) okRest
          refine ⟨all, joinedAll, okAll, ?_, alikeAll.trans alike, countersAll.trans counters⟩
          rw [handedOutAll, List.cons_append, List.nil_append, List.map_cons, handedOut,
            List.map_cons]

/-- Entities that are inserted one by one, each with success, are inserted by one batch as well: it
hands out entities with the same properties, in the same order, and leaves the same rows, the same
memory, the same numbers to be drawn, and the same counts.  So no call can tell afterwards which of
the two it was. -/
theorem inserts_as_batch (c : Session) (m : Metadata) (entities added : List Entity)
    (inserted : c.answers (entities.map (.insert m)) = added.map fun e => .ok (.entity e)) :
    let batch := c.step (.insertAll m entities)
    let single := c.run (entities.map (.insert m))
    (∃ together, batch.1 = .ok (.entities together) ∧
        together.map (·.properties) = added.map (·.properties)) ∧
      (∀ table, batch.2.store.tables.rows table = single.store.tables.rows table) ∧
      batch.2.store.tracking = single.store.tracking ∧ batch.2.ids = single.ids ∧
      batch.2.store.counters = single.store.counters ∧
      ∀ later, batch.2.answers later = single.answers later := by
  intro batch single
  obtain ⟨together, joined, ok, handedOut, alike, counters⟩ := insertAll_of_inserts inserted
  have carried : batch = (.ok (.entities together), ⟨joined, single.ids⟩) := by
    show c.step (.insertAll m entities) = _
    rw [step, ok]
    rfl
  have properties : together.map (·.properties) = added.map (·.properties) := by
    have same := congrArg (List.map (·.properties)) handedOut
    rwa [List.map_map, List.map_map] at same
  rw [carried]
  refine ⟨⟨together, rfl, properties⟩, alike.rows, alike.tracking, rfl, counters, fun later => ?_⟩
  have sessions : Session.Alike ⟨joined, single.ids⟩ single := ⟨alike, rfl⟩
  exact (run_alike sessions later).1

/-- Two carts of the sample user, the first without an id. -/
theorem inserts_as_batch_samples :
    let c := (start .number .start).run Samples.calls
    let carts := [Samples.cart "u1" "groceries" 20, (Samples.cart "u1" "books" 30).set "id" "k1"]
    let owner : Related Entity := .one (some (Samples.userOf "u1" "c1"))
    let added := [((Samples.cart "u1" "groceries" 20).set "id" (1 : Int64)).setRelation "user" owner,
      ((Samples.cart "u1" "books" 30).set "id" "k1").setRelation "user" owner]
    let batch := c.step (.insertAll Samples.carts carts)
    c.answers (carts.map (.insert Samples.carts)) = added.map (fun e => .ok (.entity e)) ∧
      (∃ together, batch.1 = .ok (.entities together) ∧
        together.map (·.properties) = added.map (·.properties)) ∧
      batch.2.store.tables.rows "carts" =
        (c.run (carts.map (.insert Samples.carts))).store.tables.rows "carts" := by
  intro c carts owner added batch
  have inserted : c.answers (carts.map (.insert Samples.carts)) =
      added.map fun e => .ok (.entity e) := by rfl
  obtain ⟨together, rows, -⟩ := inserts_as_batch c Samples.carts carts added inserted
  exact ⟨inserted, together, rows "carts"⟩

end Session

end EntityStore
