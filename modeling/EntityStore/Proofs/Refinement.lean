import EntityStore.Proofs.Faults
import EntityStore.Proofs.Reference

/-!
A store answers as the store without a memory does.

Where the memory mirrors the rows, the fields that an update finds changed are
those in which the entity differs from its row.  Writing these leaves the row
that writing every field leaves (`Tracking.Mirrors.rows_write_changedFields`), and
where there are none the row read is the row that a write would store
(`Session.Agrees.refetch`).  So a step keeps the two stores in agreement
(`Session.Agrees.step`), and so does a run.
-/

namespace EntityStore

/-! ## Changed fields -/

theorem Entity.ext_get? {a b : Entity} (table : a.table = b.table)
    (relations : a.relations = b.relations)
    (properties : ∀ property, a.get? property = b.get? property) : a = b := by
  cases a
  cases b
  cases table
  cases relations
  congr
  exact SortedMap.ext properties

/-- Overwriting fields one by one merges them. -/
theorem Entity.overwriteFields_eq_mergeFields (stored e : Entity) (fields : List Field) :
    stored.overwriteFields e fields = stored.mergeFields e fields := by
  unfold mergeFields
  induction fields generalizing stored with
  | nil => rfl
  | cons field rest ih =>
      rw [overwriteFields, List.foldl_cons]
      cases e.get? field.property with
      | some value => exact ih _
      | none => exact ih _

/-- Fields in which two entities agree need not be merged. -/
theorem Entity.mergeFields_filter (stored e : Entity) (fields : List Field) :
    stored.mergeFields e
        (fields.filter fun field => e.get? field.property ≠ stored.get? field.property) =
      stored.mergeFields e fields := by
  refine Entity.ext_get? ?_ ?_ fun property => ?_
  · rw [table_mergeFields, table_mergeFields]
  · rw [relations_mergeFields, relations_mergeFields]
  · rw [get?_mergeFields, get?_mergeFields]
    by_cases same : e.get? property = stored.get? property
    · rw [same, ite_self, ite_self]
    · have kept : property ∈ ((fields.filter fun field =>
          e.get? field.property ≠ stored.get? field.property).map (·.property)) ↔
          property ∈ fields.map (·.property) := by
        constructor
        · intro member
          obtain ⟨field, memberField, rfl⟩ := List.mem_map.mp member
          exact List.mem_map_of_mem (List.mem_filter.mp memberField).1
        · intro member
          obtain ⟨field, memberField, rfl⟩ := List.mem_map.mp member
          refine List.mem_map_of_mem (List.mem_filter.mpr ⟨memberField, ?_⟩)
          simpa using same
      simp only [kept]

section Mirroring

variable {describe : String → Metadata} {tracking : Tracking} {tables : Tables} {m : Metadata}
  {e : Entity} {id : Value}

/-- The changed fields are those in which the entity differs from its row. -/
theorem Tracking.Mirrors.changedFields_of_row (mirrors : tracking.Mirrors describe tables)
    (follows : describe m.table = m) (identified : m.idOf? e = some id) {row : Row}
    (found : tables.row? m.table id = some row) :
    tracking.changedFields m e =
      m.fields.filter fun field => e.get? field.property ≠ row.entity.get? field.property := by
  unfold Tracking.changedFields
  rw [identified, Option.bind_some, mirrors.remembered_of_idOf? follows identified, found]
  refine List.filter_congr fun field member => ?_
  rw [Metadata.get?_snapshot, if_pos (List.mem_map_of_mem member)]

theorem Tracking.Mirrors.changedFields_of_no_row (mirrors : tracking.Mirrors describe tables)
    (identified : m.idOf? e = some id) (absent : tables.row? m.table id = none) :
    tracking.changedFields m e = m.fields := by
  unfold Tracking.changedFields
  rw [identified, Option.bind_some, mirrors.remembered, absent, Option.map_none, ite_self]

theorem Row.replace_eq_map {rows : List Row} (distinct : (rows.map (·.id)).Nodup) (e : Entity) :
    Row.replace id e rows = rows.map fun row => if row.id = id then ⟨id, e⟩ else row := by
  induction rows with
  | nil => rfl
  | cons first rest ih =>
      rw [List.map_cons, List.nodup_cons] at distinct
      obtain ⟨fresh, distinctRest⟩ := distinct
      by_cases here : first.id = id
      · subst here
        have others : ∀ row ∈ rest, row.id ≠ first.id := by
          intro row member same
          exact fresh (same ▸ List.mem_map_of_mem member)
        have untouched : (rest.map fun row => if row.id = first.id then ⟨first.id, e⟩ else row) =
            rest := by
          refine (List.map_congr_left fun row member => ?_).trans (List.map_id rest)
          exact if_neg (others row member)
        rw [Row.replace, if_pos rfl, List.map_cons, if_pos rfl, untouched]
      · rw [Row.replace, if_neg here, List.map_cons, if_neg here, ih distinctRest]

/-- Writing the changed fields stores what writing every field does. -/
theorem Tracking.Mirrors.stored_write_changedFields (mirrors : tracking.Mirrors describe tables)
    (follows : describe m.table = m) (identified : m.idOf? e = some id) :
    (tables.write m.table id e (tracking.changedFields m e)).stored =
      (m.overwrite id e (tables.rows m.table)).1 := by
  unfold Metadata.overwrite
  cases found : tables.row? m.table id with
  | none =>
      rw [Tables.write_of_row?_eq_none found]
      unfold Tables.row? at found
      rw [found]
  | some row =>
      rw [Tables.write_of_row?_eq_some found,
        mirrors.changedFields_of_row follows identified found, Entity.mergeFields_filter]
      unfold Tables.row? at found
      rw [found, ← Entity.overwriteFields_eq_mergeFields]

theorem Tracking.Mirrors.rows_write_changedFields (mirrors : tracking.Mirrors describe tables)
    (follows : describe m.table = m) (identified : m.idOf? e = some id) (table : String) :
    (tables.write m.table id e (tracking.changedFields m e)).tables.rows table =
      (tables.put m.table (m.overwrite id e (tables.rows m.table)).2).rows table := by
  unfold Metadata.overwrite
  cases found : tables.row? m.table id with
  | none =>
      rw [Tables.write_of_row?_eq_none found]
      unfold Tables.row? at found
      rw [found]
      rfl
  | some row =>
      rw [Tables.write_of_row?_eq_some found,
        mirrors.changedFields_of_row follows identified found, Entity.mergeFields_filter,
        ← Entity.overwriteFields_eq_mergeFields]
      simp only [Tables.rows_modify_replace, Tables.rows_put]
      rw [Row.replace_eq_map (mirrors.regular.distinct m.table)]
      unfold Tables.row? at found
      rw [found]

/-- Where an entity has no changed field, overwriting its row would not change it. -/
theorem Tracking.Mirrors.overwrite_of_unchanged (mirrors : tracking.Mirrors describe tables)
    (follows : describe m.table = m) (identified : m.idOf? e = some id) (declared : m.fields ≠ [])
    (unchanged : tracking.changedFields m e = []) :
    ∃ row, tables.row? m.table id = some row ∧
      m.overwrite id e (tables.rows m.table) = (row.entity, tables.rows m.table) := by
  cases found : tables.row? m.table id with
  | none =>
      rw [mirrors.changedFields_of_no_row identified found] at unchanged
      exact (declared unchanged).elim
  | some row =>
      rw [mirrors.changedFields_of_row follows identified found] at unchanged
      have merged : row.entity.overwriteFields e m.fields = row.entity := by
        rw [Entity.overwriteFields_eq_mergeFields, ← Entity.mergeFields_filter, unchanged]
        rfl
      have stays := Row.replace_of_find? found
      rw [Row.replace_eq_map (mirrors.regular.distinct m.table)] at stays
      unfold Tables.row? at found
      refine ⟨row, rfl, ?_⟩
      unfold Metadata.overwrite
      simp only [found, merged, stays]

/-- An entity has changed fields unless its row agrees with it. -/
theorem Tracking.Mirrors.holdsAlready_iff (mirrors : tracking.Mirrors describe tables)
    (follows : describe m.table = m) (identified : m.idOf? e = some id) (declared : m.fields ≠ []) :
    m.holdsAlready e (tables.rows m.table) = true ↔ tracking.changedFields m e = [] := by
  have holds : m.holdsAlready e (tables.rows m.table) = true ↔
      ∃ row, tables.row? m.table id = some row ∧
        ∀ field ∈ m.fields, row.entity.get? field.property = e.get? field.property := by
    simp only [Metadata.holdsAlready, List.any_eq_true, Bool.and_eq_true, List.all_eq_true,
      beq_iff_eq, identified, Option.some.injEq, mirrors.regular.row?_eq_some_iff]
    constructor
    · rintro ⟨row, member, same, agree⟩
      exact ⟨row, ⟨member, same.symm⟩, agree⟩
    · rintro ⟨row, ⟨member, same⟩, agree⟩
      exact ⟨row, member, same.symm, agree⟩
  rw [holds]
  cases found : tables.row? m.table id with
  | none =>
      rw [mirrors.changedFields_of_no_row identified found]
      constructor
      · rintro ⟨row, missing, -⟩
        cases missing
      · intro none
        exact (declared none).elim
  | some row =>
      rw [mirrors.changedFields_of_row follows identified found, List.filter_eq_nil_iff]
      constructor
      · rintro ⟨other, same, agree⟩ field member
        cases same
        simpa using (agree field member).symm
      · intro none
        refine ⟨row, rfl, fun field member => ?_⟩
        have agree : e.get? field.property = row.entity.get? field.property := by
          simpa using none field member
        exact agree.symm

/-- The condition on an id finds the row with the id and no other. -/
theorem Tracking.Mirrors.select_id (mirrors : tracking.Mirrors describe tables)
    (follows : describe m.table = m) {row : Row} (stored : row ∈ tables.rows m.table)
    (sorting : Option Sorting) :
    tables.select m.table (some (.propertyEquals m.idProperty row.id)) sorting =
      [row.entity] := by
  have accepted : ∀ other ∈ tables.rows m.table,
      Condition.acceptsOptional (some (.propertyEquals m.idProperty row.id)) other.entity =
        (other.id == row.id) := by
    intro other member
    have holds := mirrors.holdsId m.table other member
    rw [follows] at holds
    show (other.entity.get? m.idProperty == some row.id) = (other.id == row.id)
    rw [holds]
    rfl
  have matched : tables.matching m.table (some (.propertyEquals m.idProperty row.id)) = [row] := by
    unfold Tables.matching
    rw [List.filter_congr accepted]
    exact filter_key_eq_singleton (mirrors.regular.distinct m.table) stored
  have plain := (mirrors.regular.rows m.table row stored).withoutRelations
  unfold Tables.select
  rw [matched, List.map_singleton, plain]
  cases sorting with
  | none => rfl
  | some sorting => exact List.mergeSort_singleton _

end Mirroring

theorem Metadata.fields_ne_nil_of_idField {m : Metadata} {idField : Field}
    (declared : m.idField = .ok idField) : m.fields ≠ [] := by
  intro none
  unfold Metadata.idField Metadata.fieldOf? at declared
  rw [none] at declared
  cases declared

/-! ## Steps -/

/-- The two stores hold the same rows and descriptions, and draw the same ids. -/
structure Session.Agrees (c : Session) (r : Reference) : Prop where
  idForm : c.store.idForm = r.idForm
  rows : ∀ table, c.store.tables.rows table = r.tables.rows table
  registry : c.store.registry = r.registry
  ids : c.ids = r.ids

namespace Store

variable {s : Store} {m : Metadata}

theorem findAll_fst (condition : Option Condition) (sorting : Option Sorting) :
    (s.findAll m condition sorting).1 =
      m.populateAll s.registry s.tables (s.tables.select m.table condition sorting) := by
  simp only [findAll, populateAll, countRead]
  split
  · rename_i failed
    exact failed.symm
  · rename_i filled
    exact filled.symm

theorem findBy_fst (condition : Condition) (sorting : Option Sorting) :
    (s.findBy m condition sorting).1 =
      match (s.tables.select m.table (some condition) sorting).head? with
      | none => .ok none
      | some first => (m.populate s.registry s.tables first).map some := by
  simp only [findBy, populate, countRead]
  cases (s.tables.select m.table (some condition) sorting).head? with
  | none => rfl
  | some first =>
      simp only
      cases m.populate s.registry s.tables first with
      | error error => rfl
      | ok found => rfl

/-- Where the memory mirrors the rows, what is fetched again is the row with the id. -/
theorem refetch_of_row {describe : String → Metadata}
    (mirrors : s.tracking.Mirrors describe s.tables) (follows : describe m.table = m) {row : Row}
    (stored : row ∈ s.tables.rows m.table) :
    s.refetch m m.idProperty row.id = (s.populate m row.entity, s.countRead) := by
  have answer := findBy_fst (s := s) (m := m) (.propertyEquals m.idProperty row.id) none
  have after := findBy_snd mirrors follows (.propertyEquals m.idProperty row.id) none
  rw [mirrors.select_id follows stored] at answer
  unfold refetch populate
  generalize s.findBy m (.propertyEquals m.idProperty row.id) none = outcome at answer after ⊢
  obtain ⟨result, counted⟩ := outcome
  cases answer
  cases after
  cases m.populate s.registry s.tables row.entity with
  | error error => rfl
  | ok found => rfl

end Store

namespace Session.Agrees

variable {describe : String → Metadata} {c : Session} {r : Reference} {m : Metadata}

theorem insertAll (agrees : c.Agrees r) (m : Metadata) (entities : List Entity) :
    (c.store.insertAll m entities c.ids).1 = (r.insertAll m entities).1 ∧
      Session.Agrees ⟨(c.store.insertAll m entities c.ids).2.1,
        (c.store.insertAll m entities c.ids).2.2⟩ (r.insertAll m entities).2 := by
  have sameIds : c.store.tables.ids m.table = r.tables.ids m.table := by
    unfold Tables.ids
    rw [agrees.rows]
  simp only [Store.insertAll, Reference.insertAll]
  rw [agrees.idForm, agrees.ids, sameIds]
  cases m.newRows r.idForm (r.tables.ids m.table) entities r.ids with
  | mk accepted ids =>
      cases accepted with
      | error error => exact ⟨rfl, ⟨agrees.idForm, agrees.rows, agrees.registry, rfl⟩⟩
      | ok added =>
          have appended : ∀ table, (c.store.tables.append m.table added).rows table =
              (r.tables.append m.table added).rows table :=
            fun table => Tables.rows_append_congr agrees.rows m.table table added
          simp only [Store.handOutAdded, Store.populateAll]
          rw [agrees.registry, Metadata.populateAll_congr appended]
          cases m.populateAll r.registry (r.tables.append m.table added)
              (added.map (·.entity)) with
          | error error =>
              refine ⟨rfl, ⟨rfl, fun table => ?_, rfl, rfl⟩⟩
              exact (Tables.rows_cut_append _ _ _ _).trans (agrees.rows table)
          | ok populated => exact ⟨rfl, ⟨rfl, appended, rfl, rfl⟩⟩

theorem insert (agrees : c.Agrees r) (m : Metadata) (e : Entity) :
    (c.store.insert m e c.ids).1 = (r.insert m e).1 ∧
      Session.Agrees ⟨(c.store.insert m e c.ids).2.1, (c.store.insert m e c.ids).2.2⟩
        (r.insert m e).2 := by
  have inserted := agrees.insertAll m [e]
  unfold Store.insert Reference.insert
  generalize c.store.insertAll m [e] c.ids = outcome at inserted ⊢
  generalize r.insertAll m [e] = expected at inserted ⊢
  obtain ⟨result, store, ids⟩ := outcome
  obtain ⟨result', r'⟩ := expected
  obtain ⟨rfl, after⟩ := inserted
  match result with
  | .error error => exact ⟨rfl, after⟩
  | .ok [] => exact ⟨rfl, after⟩
  | .ok (added :: others) => exact ⟨rfl, after⟩

/-- Where no field has changed, reading the row answers as overwriting it. -/
theorem refetch (agrees : c.Agrees r) (mirrors : c.store.tracking.Mirrors describe c.store.tables)
    (follows : describe m.table = m) {e : Entity} {id : Value} (identified : m.idOf? e = some id)
    (declared : m.fields ≠ []) (unchanged : c.store.tracking.changedFields m e = []) :
    (c.store.refetch m m.idProperty id).1 = (r.write m id e).1 ∧
      Session.Agrees ⟨(c.store.refetch m m.idProperty id).2, c.ids⟩ (r.write m id e).2 := by
  obtain ⟨row, found, overwritten⟩ :=
    mirrors.overwrite_of_unchanged follows identified declared unchanged
  rw [agrees.rows] at overwritten
  have kept : ∀ table, c.store.tables.rows table =
      (r.tables.put m.table (r.tables.rows m.table)).rows table := by
    intro table
    rw [Tables.rows_put, agrees.rows]
    split
    · rename_i own
      rw [own]
    · rfl
  obtain ⟨stored, rfl⟩ := mirrors.regular.row?_eq_some_iff.mp found
  -- Overwriting would put the same rows back, so both populate the same entity.
  rw [Store.refetch_of_row mirrors follows stored]
  unfold Store.populate Reference.write
  rw [overwritten, Metadata.populate_congr kept, agrees.registry]
  simp only
  cases m.populate r.registry (r.tables.put m.table (r.tables.rows m.table)) row.entity with
  | error error => exact ⟨rfl, ⟨agrees.idForm, agrees.rows, agrees.registry, agrees.ids⟩⟩
  | ok updated => exact ⟨rfl, ⟨agrees.idForm, kept, agrees.registry, agrees.ids⟩⟩

/-- Writing the changed fields answers as overwriting the row. -/
theorem writeChanges (agrees : c.Agrees r)
    (mirrors : c.store.tracking.Mirrors describe c.store.tables) (follows : describe m.table = m)
    {e : Entity} {id : Value} (identified : m.idOf? e = some id) :
    let written := c.store.writeChanges m e id (c.store.tracking.changedFields m e)
    written.1 = (r.write m id e).1 ∧ Session.Agrees ⟨written.2, c.ids⟩ (r.write m id e).2 ∧
      ∀ updated, written.1 = .ok updated →
        written.2.counters.writes = c.store.counters.writes + 1 := by
  intro written
  have kept : ∀ table,
      (c.store.tables.write m.table id e (c.store.tracking.changedFields m e)).tables.rows table =
        (r.tables.put m.table (m.overwrite id e (r.tables.rows m.table)).2).rows table := by
    intro table
    rw [mirrors.rows_write_changedFields follows identified]
    simp only [Tables.rows_put, agrees.rows]
  have stored := mirrors.stored_write_changedFields follows identified
  rw [agrees.rows] at stored
  simp only [written, Store.writeChanges, Store.populate, Reference.write]
  rw [Metadata.populate_congr kept, agrees.registry, stored]
  cases m.populate r.registry (r.tables.put m.table (m.overwrite id e (r.tables.rows m.table)).2)
      (m.overwrite id e (r.tables.rows m.table)).1 with
  | error error =>
      refine ⟨rfl, ⟨agrees.idForm, fun table => ?_, rfl, agrees.ids⟩, fun updated ok => ?_⟩
      · exact (Tables.rows_restore_write _ _ _ _ _ _).trans (agrees.rows table)
      · cases ok
  | ok updated => exact ⟨rfl, ⟨agrees.idForm, kept, rfl, agrees.ids⟩, fun _ _ => rfl⟩

/-- An update answers as if it wrote every declared field, and leaves the rows
that this leaves; it writes exactly if the row was not there already. -/
theorem update (agrees : c.Agrees r) (mirrors : c.store.tracking.Mirrors describe c.store.tables)
    (follows : describe m.table = m) (e : Entity) :
    (c.store.update m e).1 = (r.update m e).1 ∧
      Session.Agrees ⟨(c.store.update m e).2, c.ids⟩ (r.update m e).2 ∧
      ∀ updated, (c.store.update m e).1 = .ok updated →
        (c.store.update m e).2.counters.writes = c.store.counters.writes +
          if m.holdsAlready e (r.tables.rows m.table) then 0 else 1 := by
  unfold Store.update Reference.update
  by_cases foreign : e.table ≠ m.table
  · rw [if_pos foreign, if_pos foreign]
    exact ⟨rfl, agrees, nofun⟩
  · rw [if_neg foreign, if_neg foreign]
    cases declared : m.idField with
    | error error => exact ⟨rfl, agrees, nofun⟩
    | ok idField =>
        cases identified : m.idOf? e with
        | none => exact ⟨rfl, agrees, nofun⟩
        | some id =>
            have someField : m.fields ≠ [] := Metadata.fields_ne_nil_of_idField declared
            have already := mirrors.holdsAlready_iff follows identified someField
            rw [agrees.rows] at already
            simp only
            split
            · rename_i unchanged
              rw [Store.property_of_idField declared]
              obtain ⟨answer, after⟩ :=
                agrees.refetch mirrors follows identified someField unchanged
              refine ⟨answer, after, fun updated _ => ?_⟩
              rw [if_pos (already.mpr unchanged), Store.refetch_snd,
                Store.findBy_snd mirrors follows]
              rfl
            · rename_i changed
              obtain ⟨answer, after, counted⟩ := agrees.writeChanges mirrors follows identified
              refine ⟨answer, after, fun updated ok => ?_⟩
              rw [if_neg (fun holds => changed (already.mp holds))]
              exact counted updated ok

theorem delete (agrees : c.Agrees r) (m : Metadata) (condition : Option Condition) :
    Session.Agrees ⟨c.store.delete m condition, c.ids⟩ (r.delete m condition) := by
  have rows : ∀ table, (c.store.delete m condition).tables.rows table =
      (r.delete m condition).tables.rows table := by
    intro table
    show _ = (r.tables.put m.table ((r.tables.rows m.table).filter fun row =>
      !Condition.acceptsOptional condition row.entity)).rows table
    rw [Store.rows_delete, Tables.rows_put, agrees.rows, agrees.rows]
  cases condition with
  | none => exact ⟨agrees.idForm, rows, agrees.registry, agrees.ids⟩
  | some condition => exact ⟨agrees.idForm, rows, agrees.registry, agrees.ids⟩

/-- Stores in agreement answer alike and stay in agreement. -/
theorem step (agrees : c.Agrees r) (mirrors : c.store.tracking.Mirrors describe c.store.tables)
    {operation : Operation} (follows : operation.Follows describe) :
    (c.step operation).1 = (r.step operation).1 ∧
      (c.step operation).2.Agrees (r.step operation).2 := by
  cases operation with
  | register m =>
      have registered : c.store.registry.register m = r.registry.register m := by
        rw [agrees.registry]
      exact ⟨rfl, ⟨agrees.idForm, agrees.rows, registered, agrees.ids⟩⟩
  | destroy => exact ⟨rfl, ⟨agrees.idForm, fun _ => rfl, rfl, agrees.ids⟩⟩
  | count m condition =>
      have answer : (c.store.tables.matching m.table condition).length =
          (r.tables.matching m.table condition).length := by
        rw [Tables.matching_congr agrees.rows]
      exact ⟨congrArg (fun n => (Except.ok (Answer.number n) : Except Error Answer)) answer,
        ⟨agrees.idForm, agrees.rows, agrees.registry, agrees.ids⟩⟩
  | hasMatch m condition =>
      have answer : (!(c.store.tables.matching m.table (some condition)).isEmpty) =
          !(r.tables.matching m.table (some condition)).isEmpty := by
        rw [Tables.matching_congr agrees.rows]
      exact ⟨congrArg (fun found => (Except.ok (Answer.truth found) : Except Error Answer)) answer,
        ⟨agrees.idForm, agrees.rows, agrees.registry, agrees.ids⟩⟩
  | findAll m condition sorting =>
      have answer : (c.store.findAll m condition sorting).1 = r.findAll m condition sorting := by
        rw [Store.findAll_fst, Metadata.populateAll_congr agrees.rows,
          Tables.select_congr agrees.rows, agrees.registry]
        rfl
      have after := Store.findAll_snd mirrors (follows m rfl) condition sorting
      refine ⟨congrArg (Except.map Answer.entities) answer, ?_⟩
      show Session.Agrees ⟨(c.store.findAll m condition sorting).2, c.ids⟩ r
      rw [after]
      exact ⟨agrees.idForm, agrees.rows, agrees.registry, agrees.ids⟩
  | findBy m condition sorting =>
      have answer : (c.store.findBy m condition sorting).1 = r.findBy m condition sorting := by
        rw [Store.findBy_fst, Tables.select_congr agrees.rows, agrees.registry]
        simp only [Metadata.populate_congr agrees.rows]
        rfl
      have after := Store.findBy_snd mirrors (follows m rfl) condition sorting
      refine ⟨congrArg (Except.map Answer.optionalEntity) answer, ?_⟩
      show Session.Agrees ⟨(c.store.findBy m condition sorting).2, c.ids⟩ r
      rw [after]
      exact ⟨agrees.idForm, agrees.rows, agrees.registry, agrees.ids⟩
  | insert m e =>
      obtain ⟨answer, after⟩ := agrees.insert m e
      exact ⟨congrArg (Except.map Answer.entity) answer, after⟩
  | insertAll m entities =>
      obtain ⟨answer, after⟩ := agrees.insertAll m entities
      exact ⟨congrArg (Except.map Answer.entities) answer, after⟩
  | update m e =>
      obtain ⟨answer, after, -⟩ := agrees.update mirrors (follows m rfl) e
      exact ⟨congrArg (Except.map Answer.entity) answer, after⟩
  | delete m condition => exact ⟨rfl, agrees.delete m condition⟩

end Session.Agrees

/-! ## Runs -/

namespace Session

variable {describe : String → Metadata}

theorem run_agrees_from {operations : List Operation} :
    ∀ {c : Session} {r : Reference}, c.Agrees r →
      c.store.tracking.Mirrors describe c.store.tables →
      (∀ operation ∈ operations, operation.Follows describe) →
      (c.run operations).Agrees (r.run operations) := by
  induction operations with
  | nil =>
      intro c r agrees _ _
      exact agrees
  | cons operation operations ih =>
      intro c r agrees mirrors follows
      have first := follows operation List.mem_cons_self
      exact ih (agrees.step mirrors first).2 (step_mirrors mirrors first)
        fun later member => follows later (List.mem_cons_of_mem _ member)

theorem start_agrees (idForm : IdForm) (ids : IdSequence) :
    (start idForm ids).Agrees (Reference.start idForm ids) :=
  ⟨rfl, fun _ => rfl, rfl, rfl⟩

end Session

theorem Reference.update_ne_entityNotFound {r : Reference} {m : Metadata} {e : Entity}
    {table : String} {id : Value} : (r.update m e).1 ≠ .error (.entityNotFound table id) := by
  unfold Reference.update
  split
  · nofun
  · split
    · rename_i error failed
      intro missing
      cases missing
      unfold Metadata.idField at failed
      split at failed
      · cases failed
      · cases failed
    · split
      · nofun
      · unfold Reference.write
        simp only
        split
        · rename_i error failed
          intro missing
          cases missing
          cases Metadata.concernsRelations_of_populate failed
        · nofun

/-- After every run in which each table is used by one description, a call answers
as in the store without a memory, and leaves tables of the same sizes.  An
update never misses its entity, and it writes once unless its row agreed with the
entity already. -/
theorem Session.step_eq_reference_step (describe : String → Metadata) (idForm : IdForm)
    (ids : IdSequence) (operations : List Operation) (operation : Operation)
    (follows : ∀ call ∈ operation :: operations, call.Follows describe) :
    let c := (Session.start idForm ids).run operations
    let r := (Reference.start idForm ids).run operations
    (c.step operation).1 = (r.step operation).1 ∧
      (∀ table,
        (c.step operation).2.store.tableSize table = (r.step operation).2.tables.size table) ∧
      ∀ m e, operation = .update m e →
        (∀ table id, (c.step operation).1 ≠ .error (.entityNotFound table id)) ∧
        ∀ answer, (c.step operation).1 = .ok answer →
          (c.step operation).2.store.counters.writes = c.store.counters.writes +
            if m.holdsAlready e (r.tables.rows m.table) then 0 else 1 := by
  intro c r
  have earlier : ∀ call ∈ operations, call.Follows describe :=
    fun call member => follows call (List.mem_cons_of_mem _ member)
  have last : operation.Follows describe := follows operation List.mem_cons_self
  have mirrors : c.store.tracking.Mirrors describe c.store.tables :=
    run_mirrors idForm ids earlier
  have agrees : c.Agrees r := run_agrees_from (start_agrees idForm ids) .empty earlier
  obtain ⟨answer, after⟩ := agrees.step mirrors last
  refine ⟨answer, fun table => congrArg List.length (after.rows table), ?_⟩
  rintro m e rfl
  obtain ⟨updated, -, counted⟩ := agrees.update mirrors (last m rfl) e
  have stepped : (c.step (.update m e)).1 = (c.store.update m e).1.map .entity := rfl
  rw [stepped]
  cases result : (c.store.update m e).1 with
  | error error =>
      refine ⟨fun table id missing => ?_, nofun⟩
      cases missing
      exact Reference.update_ne_entityNotFound (updated.symm.trans result)
  | ok e' => exact ⟨nofun, fun _ _ => counted e' result⟩

/-- A contact that is written as it is stored is read instead. -/
theorem Session.step_eq_reference_step_samples :
    let card := (Samples.contact "ada@example.org").set "id" "c1"
    let earlier := [.insert Samples.contacts card]
    let c := (Session.start .text .start).run earlier
    (∀ call ∈ Operation.update Samples.contacts card :: earlier, call.Follows Samples.describe) ∧
      (c.step (.update Samples.contacts card)).1 = .ok (.entity card) ∧
      (c.step (.update Samples.contacts card)).2.store.counters.writes =
        c.store.counters.writes := by
  intro card earlier c
  have follows : ∀ call ∈ Operation.update Samples.contacts card :: earlier,
      call.Follows Samples.describe := by decide
  obtain ⟨answer, -, updates⟩ := step_eq_reference_step Samples.describe .text .start earlier
    (.update Samples.contacts card) follows
  obtain ⟨-, counted⟩ := updates Samples.contacts card rfl
  have answered : (c.step (.update Samples.contacts card)).1 = .ok (.entity card) := by
    rw [answer]
    rfl
  have already : Samples.contacts.holdsAlready card
      (((Reference.start .text .start).run earlier).tables.rows "contacts") = true := by rfl
  exact ⟨follows, answered, (counted _ answered).trans (congrArg _ (if_pos already))⟩

end EntityStore
