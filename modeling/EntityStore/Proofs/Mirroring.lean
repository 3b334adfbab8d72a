import EntityStore.Proofs.Regular
import EntityStore.Proofs.Remembering

/-!
The memory of a store mirrors its rows.

As long as every call uses a table by one and the same description, exactly the
entities stored under truthy ids are remembered, each with the declared properties
that it is stored with (`Tracking.Mirrors`).  Three writes change rows and memory
together: new rows, a write under an id, and a deletion.  A reading remembers what
is remembered already, so it leaves the memory as it is.  `Session.run_mirrors`
adds this up over every run.
-/

namespace EntityStore

/-- What is remembered is what is stored: each row holds its id under the id
property, and the snapshot for a table and a truthy id is that of the row with the
id.  An id that is not truthy identifies nothing, so nothing is remembered for it. -/
structure Tracking.Mirrors (describe : String → Metadata) (tracking : Tracking)
    (tables : Tables) : Prop where
  regular : tables.Regular
  holdsId : ∀ table, ∀ row ∈ tables.rows table,
    row.entity.get? (describe table).idProperty = some row.id
  remembered : ∀ table id, tracking.snapshot? table id =
    if id.isTruthy then
      (tables.row? table id).map fun row => (describe table).snapshot row.entity
    else none

/-- The call uses its table by the description given for the table. -/
def Operation.Follows (describe : String → Metadata) (operation : Operation) : Prop :=
  ∀ m, operation.metadata? = some m → describe m.table = m

instance (describe : String → Metadata) (operation : Operation) :
    Decidable (operation.Follows describe) :=
  inferInstanceAs (Decidable (∀ m ∈ operation.metadata?, describe m.table = m))

/-! ## Merged fields -/

theorem Entity.get?_mergeFields (stored e : Entity) (fields : List Field) (property : String) :
    (stored.mergeFields e fields).get? property =
      if property ∈ fields.map (·.property) then e.get? property else stored.get? property := by
  unfold Entity.mergeFields
  induction fields generalizing stored with
  | nil => simp
  | cons field rest ih =>
      rw [List.foldl_cons, ih, Entity.get?_assign]
      by_cases here : property = field.property
      · simp [here]
      · simp [here]

/-- Two entities that agree in a property are merged to one that agrees with both. -/
theorem Entity.get?_mergeFields_of_agree {stored e : Entity} {property : String}
    {value : Option Value} (fields : List Field) (holds : stored.get? property = value)
    (given : e.get? property = value) :
    (stored.mergeFields e fields).get? property = value := by
  rw [get?_mergeFields, holds, given, ite_self]

namespace Tables

variable {t : Tables} {m : Metadata} {id : Value} {e : Entity}

/-- What is written under an id holds the id. -/
theorem get?_stored_write (fields : List Field) (identified : m.idOf? e = some id)
    (rows : ∀ row ∈ t.rows m.table, row.entity.get? m.idProperty = some row.id) :
    (t.write m.table id e fields).stored.get? m.idProperty = some id := by
  have given := Metadata.get?_of_idOf? identified
  cases found : t.row? m.table id with
  | none =>
      rw [write_of_row?_eq_none found]
      exact given
  | some row =>
      rw [write_of_row?_eq_some found]
      have stored := rows row (Tables.mem_of_row? found)
      rw [Row.id_eq_of_find? found] at stored
      exact Entity.get?_mergeFields_of_agree fields stored given

theorem row?_append (t : Tables) (table table' : String) (added : List Row) (id : Value) :
    (t.append table added).row? table' id =
      if table' = table then (t.row? table id).or (added.find? (·.id == id))
      else t.row? table' id := by
  unfold row?
  rw [rows_append]
  split
  · exact List.find?_append
  · rfl

/-- After a write the row with the id has what was stored; no other row changes. -/
theorem row?_write (t : Tables) (table table' : String) (id id' : Value) (e : Entity)
    (fields : List Field) :
    (t.write table id e fields).tables.row? table' id' =
      if table' = table ∧ id' = id then some ⟨id, (t.write table id e fields).stored⟩
      else t.row? table' id' := by
  cases found : t.row? table id with
  | none =>
      rw [write_of_row?_eq_none found, row?_append]
      by_cases own : table' = table
      · by_cases here : id' = id
        · simp [own, here, found]
        · have other : id ≠ id' := fun same => here same.symm
          simp [own, here, other]
      · simp [own]
  | some row =>
      rw [write_of_row?_eq_some found]
      unfold row? at found ⊢
      rw [rows_modify_replace]
      by_cases own : table' = table
      · rw [if_pos own, Row.find?_replace, found]
        by_cases here : id' = id
        · rw [if_pos here, if_pos ⟨own, here⟩, Option.map_some, Row.id_eq_of_find? found]
        · rw [if_neg here, if_neg (fun both => here both.2), own]
      · rw [if_neg own, if_neg (fun both => own both.1)]

end Tables

/-! ## Mirroring is kept -/

namespace Tracking.Mirrors

variable {describe : String → Metadata} {tracking : Tracking} {tables tables' : Tables}
  {m : Metadata}

theorem empty : (∅ : Tracking).Mirrors describe ∅ :=
  ⟨Tables.Regular.empty, fun _ _ member => (List.not_mem_nil member).elim,
    fun _ _ => (ite_self none).symm⟩

theorem of_rows_eq (mirrors : tracking.Mirrors describe tables)
    (same : ∀ table, tables'.rows table = tables.rows table) :
    tracking.Mirrors describe tables' := by
  refine ⟨mirrors.regular.of_rows_eq same, fun table row member => ?_, fun table id => ?_⟩
  · rw [same] at member
    exact mirrors.holdsId table row member
  · rw [Tables.row?_congr same]
    exact mirrors.remembered table id

/-- A row under a truthy id is identified by it. -/
theorem idOf?_of_row (mirrors : tracking.Mirrors describe tables) (follows : describe m.table = m)
    {row : Row} (stored : row ∈ tables.rows m.table) (truthy : row.id.isTruthy = true) :
    m.idOf? row.entity = some row.id := by
  have holds := mirrors.holdsId m.table row stored
  rw [follows] at holds
  exact Metadata.idOf?_of_get? holds truthy

/-- For the id of an entity, what is remembered is the row with the id. -/
theorem remembered_of_idOf? (mirrors : tracking.Mirrors describe tables)
    (follows : describe m.table = m) {e : Entity} {id : Value} (identified : m.idOf? e = some id) :
    tracking.snapshot? m.table id =
      (tables.row? m.table id).map fun row => m.snapshot row.entity := by
  rw [mirrors.remembered, if_pos (Metadata.isTruthy_idOf? identified), follows]

/-- Stored entities are remembered already. -/
theorem saveAll_eq_self (mirrors : tracking.Mirrors describe tables)
    (follows : describe m.table = m) {entities : List Entity}
    (stored : ∀ e ∈ entities, ∃ row ∈ tables.rows m.table,
      e.withoutRelations = row.entity.withoutRelations) :
    tracking.saveAll m entities = tracking := by
  refine Tracking.saveAll_eq_self fun e member id identified => ?_
  obtain ⟨row, memberRow, same⟩ := stored e member
  have own := mirrors.holdsId m.table row memberRow
  rw [follows, ← Entity.get?_eq_of_withoutRelations same,
    Metadata.get?_of_idOf? identified] at own
  have found := mirrors.regular.row?_eq_some_iff.mpr ⟨memberRow, (Option.some.inj own).symm⟩
  rw [mirrors.remembered_of_idOf? follows identified, found,
    Metadata.snapshot_eq_of_withoutRelations same]
  rfl

/-- New rows are remembered when they are added. -/
theorem append (mirrors : tracking.Mirrors describe tables) (follows : describe m.table = m)
    {added : List Row} (distinct : (tables.ids m.table ++ added.map (·.id)).Nodup)
    (new : ∀ row ∈ added,
      row.Regular m.table ∧ row.entity.get? m.idProperty = some row.id) :
    (tracking.saveAll m (added.map (·.entity))).Mirrors describe
      (tables.append m.table added) := by
  have regular := mirrors.regular.append distinct fun row member => (new row member).1
  refine ⟨regular, fun table row member => ?_, fun table id => ?_⟩
  · rw [Tables.rows_append] at member
    split at member
    · rename_i own
      subst own
      rcases List.mem_append.mp member with old | fresh
      · exact mirrors.holdsId m.table row old
      · rw [follows]
        exact (new row fresh).2
    · exact mirrors.holdsId table row member
  -- The last of the new entities with the id is remembered; there is one at most.
  · rcases snapshot?_saveAll tracking m (added.map (·.entity)) table id with
      ⟨e, member, identified, rfl, saved⟩ | ⟨others, kept⟩
    · obtain ⟨row, memberRow, rfl⟩ := List.mem_map.mp member
      have same : row.id = id :=
        Option.some.inj ((new row memberRow).2.symm.trans (Metadata.get?_of_idOf? identified))
      have stored : row ∈ (tables.append m.table added).rows m.table := by
        rw [Tables.rows_append, if_pos rfl]
        exact List.mem_append_right _ memberRow
      rw [saved, if_pos (Metadata.isTruthy_idOf? identified),
        regular.row?_eq_some_iff.mpr ⟨stored, same⟩, follows]
      rfl
    · rw [kept, Tables.row?_append, mirrors.remembered]
      by_cases truthy : id.isTruthy = true
      · rw [if_pos truthy, if_pos truthy]
        split
        · rename_i own
          have absent : added.find? (·.id == id) = none := by
            refine Row.find?_eq_none_iff.mpr fun row member same => ?_
            refine others row.entity (List.mem_map_of_mem member) ⟨?_, own.symm⟩
            exact Metadata.idOf?_of_get? ((new row member).2.trans (congrArg some same)) truthy
          rw [absent, Option.or_none, own]
        · rfl
      · rw [if_neg truthy, if_neg truthy]

/-- A write under an id is remembered when it is done. -/
theorem write (mirrors : tracking.Mirrors describe tables) (follows : describe m.table = m)
    {id : Value} {e : Entity} (own : e.table = m.table) (identified : m.idOf? e = some id)
    (fields : List Field) :
    (tracking.save m (tables.write m.table id e fields).stored).Mirrors describe
      (tables.write m.table id e fields).tables := by
  have regular : (tables.write m.table id e fields).tables.Regular :=
    mirrors.regular.write own fields
  have rows : ∀ row ∈ tables.rows m.table, row.entity.get? m.idProperty = some row.id := by
    intro row member
    have stored := mirrors.holdsId m.table row member
    rwa [follows] at stored
  have truthy := Metadata.isTruthy_idOf? identified
  have holds := Tables.get?_stored_write fields identified rows
  refine ⟨regular, fun table row member => ?_, fun table id' => ?_⟩
  · have found := regular.row?_eq_some_iff.mpr ⟨member, rfl⟩
    rw [Tables.row?_write] at found
    split at found
    · rename_i here
      cases found
      rw [here.1, follows]
      exact holds
    · exact mirrors.holdsId table row (Tables.mem_of_row? found)
  · rw [snapshot?_save, Tables.row?_write, Metadata.idOf?_of_get? holds truthy]
    by_cases here : table = m.table ∧ id' = id
    · rw [if_pos here, if_pos ⟨congrArg some here.2.symm, here.1.symm⟩, here.1, here.2, follows,
        if_pos truthy]
      rfl
    · rw [if_neg here, if_neg (fun both => here ⟨both.2.symm, (Option.some.inj both.1).symm⟩)]
      exact mirrors.remembered table id'

/-- The entities of deleted rows are forgotten. -/
theorem deleteMatching (mirrors : tracking.Mirrors describe tables) (table : String)
    (removes : Row → Bool) :
    (tracking.forgetAll table (((tables.rows table).filter removes).map (·.id))).Mirrors describe
      (tables.modify table (List.filter fun row => !removes row)) := by
  have fewer : ∀ table',
      ((tables.modify table (List.filter fun row => !removes row)).rows table').Sublist
        (tables.rows table') := by
    intro table'
    rw [Tables.rows_modify _ _ _ List.filter_nil]
    split
    · rename_i own
      rw [own]
      exact List.filter_sublist
    · exact .refl _
  refine ⟨mirrors.regular.of_sublist fewer, fun table' row member => ?_, fun table' id => ?_⟩
  · exact mirrors.holdsId table' row ((fewer table').subset member)
  · rw [snapshot?_forgetAll, mirrors.remembered, mirrors.regular.row?_modify_filter]
    by_cases truthy : id.isTruthy = true
    · rw [if_pos truthy, if_pos truthy]
      by_cases own : table' = table
      · subst own
        cases found : tables.row? table' id with
        | none => simp
        | some row =>
            -- Ids are distinct, so no other row than this one is removed under its id.
            have forgotten : id ∈ ((tables.rows table').filter removes).map (·.id) ↔
                removes row = true := by
              rw [List.mem_map]
              constructor
              · rintro ⟨gone, removed, sameId⟩
                obtain ⟨stored, removed⟩ := List.mem_filter.mp removed
                cases found.symm.trans (mirrors.regular.row?_eq_some_iff.mpr ⟨stored, sameId⟩)
                exact removed
              · intro removed
                obtain ⟨member, sameId⟩ := mirrors.regular.row?_eq_some_iff.mp found
                exact ⟨row, List.mem_filter.mpr ⟨member, removed⟩, sameId⟩
            simp only [forgotten, true_and, if_true, Option.filter_some]
            cases removes row with
            | false => rfl
            | true => rfl
      · rw [if_neg own, if_neg fun both => own both.1]
    · rw [if_neg truthy, if_neg truthy, ite_self]

/-- A dropped table is forgotten. -/
theorem drop (mirrors : tracking.Mirrors describe tables) (table : String) :
    (tracking.forgetTable table).Mirrors describe (tables.drop table) := by
  have fewer : ∀ table', ((tables.drop table).rows table').Sublist (tables.rows table') := by
    intro table'
    rw [Tables.rows_drop]
    split
    · exact List.nil_sublist _
    · exact .refl _
  refine ⟨mirrors.regular.of_sublist fewer, fun table' row member => ?_, fun table' id => ?_⟩
  · exact mirrors.holdsId table' row ((fewer table').subset member)
  · rw [snapshot?_forgetTable, mirrors.remembered]
    unfold Tables.row?
    rw [Tables.rows_drop]
    by_cases own : table' = table
    · rw [if_pos own, if_pos own]
      exact (ite_self none).symm
    · rw [if_neg own, if_neg own]

end Tracking.Mirrors

/-! ## What a successful write does -/

namespace Store

variable {s : Store} {m : Metadata}

theorem insertAll_of_ok {entities added : List Entity} {ids : IdSequence}
    (ok : (s.insertAll m entities ids).1 = .ok added) :
    ∃ (rows : List Row) (ids' : IdSequence),
      m.newRows s.idForm (s.tables.ids m.table) entities ids = (.ok rows, ids') ∧
      m.populateAll s.registry (s.tables.append m.table rows) (rows.map (·.entity)) = .ok added ∧
      (s.insertAll m entities ids).2 =
        ({ s with
            tables := s.tables.append m.table rows
            tracking := s.tracking.saveAll m (rows.map Row.entity) }.countWrites added.length,
          ids') := by
  unfold insertAll at ok ⊢
  split at ok
  · cases ok
  · rename_i rows ids' accepted
    simp only [handOutAdded, populateAll] at ok ⊢
    split at ok
    · cases ok
    · rename_i populated after handedOut
      split at handedOut
      · cases handedOut
      · rename_i filled
        cases handedOut
        cases ok
        refine ⟨rows, ids', accepted, filled, ?_⟩
        rw [Tracking.saveAll_populateAll s.tracking filled]

theorem insert_snd (s : Store) (m : Metadata) (e : Entity) (ids : IdSequence) :
    (s.insert m e ids).2 = (s.insertAll m [e] ids).2 := by
  unfold insert
  generalize s.insertAll m [e] ids = outcome
  obtain ⟨result, after, ids'⟩ := outcome
  match result with
  | .error error => rfl
  | .ok [] => rfl
  | .ok (added :: others) => rfl

theorem refetch_snd (s : Store) (m : Metadata) (property : String) (id : Value) :
    (s.refetch m property id).2 = (s.findBy m (.propertyEquals property id) none).2 := by
  unfold refetch
  generalize s.findBy m (.propertyEquals property id) none = outcome
  obtain ⟨result, after⟩ := outcome
  match result with
  | .error error => rfl
  | .ok none => rfl
  | .ok (some found) => rfl

/-- What is fetched again is what is found by the id. -/
theorem findBy_of_refetch {property : String} {id : Value} {found : Entity}
    (ok : (s.refetch m property id).1 = .ok found) :
    s.findBy m (.propertyEquals property id) none =
      (.ok (some found), (s.refetch m property id).2) := by
  unfold refetch at ok ⊢
  generalize s.findBy m (.propertyEquals property id) none = outcome at ok ⊢
  obtain ⟨result, after⟩ := outcome
  match result with
  | .error error => cases ok
  | .ok none => cases ok
  | .ok (some e) =>
      cases ok
      rfl

theorem property_of_idField {field : Field} (declared : m.idField = .ok field) :
    field.property = m.idProperty := by
  unfold Metadata.idField Metadata.fieldOf? at declared
  split at declared
  · rename_i found
    cases declared
    simpa using List.find?_some found
  · cases declared

/-- A successful update either finds no changed field and reads, or writes. -/
theorem update_of_ok {e updated : Entity} (ok : (s.update m e).1 = .ok updated) :
    ∃ id, e.table = m.table ∧ m.idOf? e = some id ∧
      (s.findBy m (.propertyEquals m.idProperty id) none =
          (.ok (some updated), (s.update m e).2) ∨
        let written := s.tables.write m.table id e (s.tracking.changedFields m e)
        m.populate s.registry written.tables written.stored = .ok updated ∧
          (s.update m e).2 =
            { s with
              tables := written.tables
              tracking := s.tracking.save m written.stored }.countWrites 1) := by
  unfold update at ok ⊢
  by_cases foreign : e.table ≠ m.table
  · rw [if_pos foreign] at ok
    cases ok
  · rw [if_neg foreign] at ok ⊢
    cases declared : m.idField with
    | error error =>
        rw [declared] at ok
        cases ok
    | ok idField =>
        rw [declared] at ok
        cases identified : m.idOf? e with
        | none =>
            rw [identified] at ok
            cases ok
        | some id =>
            rw [identified] at ok
            refine ⟨id, Decidable.not_not.mp foreign, rfl, ?_⟩
            simp only at ok ⊢
            rw [← property_of_idField declared]
            split at ok
            · exact .inl (findBy_of_refetch ok)
            · refine .inr ?_
              simp only [writeChanges, populate] at ok ⊢
              split at ok
              · cases ok
              · rename_i populated filled
                cases ok
                have same := Metadata.withoutRelations_populate filled
                refine ⟨filled, ?_⟩
                rw [Tracking.save_eq_of_withoutRelations s.tracking same]

end Store

/-! ## Steps and runs -/

theorem Tables.exists_row_of_mem_select {t : Tables} {table : String}
    {condition : Option Condition} {sorting : Option Sorting} {e : Entity}
    (member : e ∈ t.select table condition sorting) :
    ∃ row ∈ t.rows table, e = row.entity.withoutRelations := by
  have found : e ∈ (t.matching table condition).map (·.entity.withoutRelations) := by
    cases sorting with
    | none => exact member
    | some sorting => exact List.mem_mergeSort.mp member
  obtain ⟨row, matched, rfl⟩ := List.mem_map.mp found
  exact ⟨row, (List.mem_filter.mp matched).1, rfl⟩

namespace Store

variable {s : Store} {describe : String → Metadata} {m : Metadata}

/-- Where the memory mirrors the rows, a reading is counted and changes nothing else. -/
theorem findAll_snd (mirrors : s.tracking.Mirrors describe s.tables)
    (follows : describe m.table = m) (condition : Option Condition)
    (sorting : Option Sorting) : (s.findAll m condition sorting).2 = s.countRead := by
  simp only [findAll, populateAll]
  split
  · rfl
  · rename_i found filled
    have kept : s.tracking.saveAll m found = s.tracking := by
      refine mirrors.saveAll_eq_self follows fun e member => ?_
      have selected : e.withoutRelations ∈
          (s.tables.select m.table condition sorting).map Entity.withoutRelations := by
        have same := Metadata.map_withoutRelations_populateAll filled
        exact same ▸ List.mem_map_of_mem member
      obtain ⟨e', member', same⟩ := List.mem_map.mp selected
      obtain ⟨row, memberRow, rfl⟩ := Tables.exists_row_of_mem_select member'
      exact ⟨row, memberRow, same.symm⟩
    simp only [countRead, kept]

theorem findBy_snd (mirrors : s.tracking.Mirrors describe s.tables)
    (follows : describe m.table = m) (condition : Condition) (sorting : Option Sorting) :
    (s.findBy m condition sorting).2 = s.countRead := by
  simp only [findBy, populate]
  split
  · rfl
  · rename_i first selected
    split
    · rfl
    · rename_i found filled
      have kept : s.tracking.save m found = s.tracking := by
        show s.tracking.saveAll m [found] = s.tracking
        refine mirrors.saveAll_eq_self follows fun e member => ?_
        rw [List.mem_singleton.mp member]
        obtain ⟨row, memberRow, same⟩ :=
          Tables.exists_row_of_mem_select (List.mem_of_head? selected)
        refine ⟨row, memberRow, ?_⟩
        rw [Metadata.withoutRelations_populate filled, same,
          Entity.withoutRelations_withoutRelations]
      simp only [countRead, kept]

theorem insertAll_mirrors (mirrors : s.tracking.Mirrors describe s.tables)
    (follows : describe m.table = m) (entities : List Entity) (ids : IdSequence) :
    (s.insertAll m entities ids).2.1.tracking.Mirrors describe
      (s.insertAll m entities ids).2.1.tables := by
  cases result : (s.insertAll m entities ids).1 with
  | error error =>
      have alike := insertAll_alike_of_error result
      rw [alike.tracking]
      exact mirrors.of_rows_eq alike.rows
  | ok added =>
      obtain ⟨rows, ids', accepted, -, after⟩ := insertAll_of_ok result
      obtain ⟨distinct, new⟩ :=
        Metadata.newRows_regular (mirrors.regular.distinct m.table) accepted
      rw [after]
      exact mirrors.append follows distinct new

theorem update_mirrors (mirrors : s.tracking.Mirrors describe s.tables)
    (follows : describe m.table = m) (e : Entity) :
    (s.update m e).2.tracking.Mirrors describe (s.update m e).2.tables := by
  cases result : (s.update m e).1 with
  -- A failed write is taken back, and nothing was remembered of it.
  | error error =>
      have alike := update_alike_of_error result
      rw [alike.tracking]
      exact mirrors.of_rows_eq alike.rows
  | ok updated =>
      obtain ⟨id, own, identified, read | ⟨-, written⟩⟩ := update_of_ok result
      · have counted := findBy_snd mirrors follows (.propertyEquals m.idProperty id) none
        rw [read] at counted
        rw [counted]
        exact mirrors
      · rw [written]
        exact mirrors.write follows own identified _

theorem delete_mirrors (mirrors : s.tracking.Mirrors describe s.tables) (m : Metadata)
    (condition : Option Condition) :
    (s.delete m condition).tracking.Mirrors describe (s.delete m condition).tables := by
  cases condition with
  | none => exact mirrors.drop m.table
  | some condition =>
      exact mirrors.deleteMatching m.table fun row => condition.accepts row.entity

end Store

namespace Session

variable {describe : String → Metadata} {c : Session}

theorem step_mirrors (mirrors : c.store.tracking.Mirrors describe c.store.tables)
    {operation : Operation} (follows : operation.Follows describe) :
    (c.step operation).2.store.tracking.Mirrors describe
      (c.step operation).2.store.tables := by
  cases operation with
  | register m => exact mirrors
  | destroy => exact .empty
  | count m condition => exact mirrors
  | hasMatch m condition => exact mirrors
  | findAll m condition sorting =>
      show (c.store.findAll m condition sorting).2.tracking.Mirrors describe
        (c.store.findAll m condition sorting).2.tables
      rw [Store.findAll_snd mirrors (follows m rfl)]
      exact mirrors
  | findBy m condition sorting =>
      show (c.store.findBy m condition sorting).2.tracking.Mirrors describe
        (c.store.findBy m condition sorting).2.tables
      rw [Store.findBy_snd mirrors (follows m rfl)]
      exact mirrors
  | insert m e =>
      show (c.store.insert m e c.ids).2.1.tracking.Mirrors describe
        (c.store.insert m e c.ids).2.1.tables
      rw [Store.insert_snd]
      exact Store.insertAll_mirrors mirrors (follows m rfl) [e] c.ids
  | insertAll m entities => exact Store.insertAll_mirrors mirrors (follows m rfl) entities c.ids
  | update m e => exact Store.update_mirrors mirrors (follows m rfl) e
  | delete m condition => exact Store.delete_mirrors mirrors m condition

/-- After every run in which each table is used by one description, the memory
mirrors the rows. -/
theorem run_mirrors (idForm : IdForm) (ids : IdSequence) {operations : List Operation}
    (follows : ∀ operation ∈ operations, operation.Follows describe) :
    ((start idForm ids).run operations).store.tracking.Mirrors describe
      ((start idForm ids).run operations).store.tables :=
  run_invariant (fun c => c.store.tracking.Mirrors describe c.store.tables)
    (fun _ mirrors operation member => step_mirrors mirrors (follows operation member)) .empty

end Session

end EntityStore
