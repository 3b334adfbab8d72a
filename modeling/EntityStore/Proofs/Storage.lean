import EntityStore.Proofs.Mirroring
import EntityStore.Samples

/-!
What holds of the rows of a store, whatever descriptions its calls use.

A call does one of four things to the rows (`Session.step_effect`): it leaves them, adds new ones
at the end of a table, writes an entity under its id, or takes rows away.  So rows stay regular
(`Session.run_regular`), and where all calls on a table agree on its id property, every row holds
its id there (`Session.run_identifiedBy`).  No call moves a row: what is left of the ids stands in
the old order, with new ids behind it (`Operation.Effect.ids`).
-/

namespace EntityStore

/-! ## What a call does to the rows -/

/-- What a call may do to the rows. -/
inductive Operation.Effect (operation : Operation) (t t' : Tables) : Prop where
  /-- The rows stay as they are. -/
  | nothing (same : ∀ table, t'.rows table = t.rows table)
  /-- New rows are added to a table. -/
  | addition {m : Metadata} {form : IdForm} {entities : List Entity} {ids ids' : IdSequence}
      {rows : List Row} (used : operation.metadata? = some m)
      (accepted : m.newRows form (t.ids m.table) entities ids = (.ok rows, ids'))
      (after : t' = t.append m.table rows)
  /-- Fields of an entity are written under its id. -/
  | writing {m : Metadata} {e : Entity} {id : Value} {fields : List Field}
      (used : operation.metadata? = some m) (own : e.table = m.table)
      (identified : m.idOf? e = some id) (after : t' = (t.write m.table id e fields).tables)
  /-- Rows are taken away. -/
  | removal (keeps : String → Row → Bool)
      (after : ∀ table, t'.rows table = (t.rows table).filter (keeps table))

namespace Store

variable (s : Store) (m : Metadata)

theorem tables_findAll (condition : Option Condition) (sorting : Option Sorting) :
    (s.findAll m condition sorting).2.tables = s.tables := by
  simp only [findAll]
  split <;> rfl

theorem tables_findBy (condition : Condition) (sorting : Option Sorting) :
    (s.findBy m condition sorting).2.tables = s.tables := by
  simp only [findBy]
  split
  · rfl
  · split <;> rfl

/-- A batch leaves the rows as they are, or adds new rows, which can be handed out. -/
theorem rows_insertAll (entities : List Entity) (ids : IdSequence) :
    (∀ table, (s.insertAll m entities ids).2.1.tables.rows table = s.tables.rows table) ∨
      ∃ rows,
        m.newRows s.idForm (s.tables.ids m.table) entities ids =
          (.ok rows, (s.insertAll m entities ids).2.2) ∧
        (∃ added, m.populateAll s.registry (s.tables.append m.table rows)
          (rows.map (·.entity)) = .ok added) ∧
        (s.insertAll m entities ids).2.1.tables = s.tables.append m.table rows := by
  cases result : (s.insertAll m entities ids).1 with
  | error error => exact .inl (insertAll_alike_of_error result).rows
  | ok added =>
      obtain ⟨rows, ids', accepted, filled, after⟩ := insertAll_of_ok result
      rw [after]
      exact .inr ⟨rows, accepted, ⟨added, filled⟩, rfl⟩

/-- An update leaves the rows as they are, or writes its entity, which can then be handed out. -/
theorem rows_update (e : Entity) :
    (∀ table, (s.update m e).2.tables.rows table = s.tables.rows table) ∨
      ∃ id fields, e.table = m.table ∧ m.idOf? e = some id ∧
        let written := s.tables.write m.table id e fields
        (∃ updated, m.populate s.registry written.tables written.stored = .ok updated) ∧
          (s.update m e).2.tables = written.tables := by
  cases result : (s.update m e).1 with
  | error error => exact .inl (update_alike_of_error result).rows
  | ok updated =>
      obtain ⟨id, own, identified, read | ⟨filled, written⟩⟩ := update_of_ok result
      · have kept := s.tables_findBy m (.propertyEquals m.idProperty id) none
        rw [read] at kept
        exact .inl fun table => congrArg (Tables.rows · table) kept
      · rw [written]
        exact .inr ⟨id, _, own, identified, ⟨updated, filled⟩, rfl⟩

theorem insertAll_effect {operation : Operation} (used : operation.metadata? = some m)
    (entities : List Entity) (ids : IdSequence) :
    operation.Effect s.tables (s.insertAll m entities ids).2.1.tables := by
  rcases s.rows_insertAll m entities ids with same | ⟨rows, accepted, -, after⟩
  · exact .nothing same
  · exact .addition used accepted after

theorem update_effect {operation : Operation} (used : operation.metadata? = some m)
    (e : Entity) : operation.Effect s.tables (s.update m e).2.tables := by
  rcases s.rows_update m e with same | ⟨id, fields, own, identified, -, after⟩
  · exact .nothing same
  · exact .writing used own identified after

theorem delete_effect {operation : Operation} (condition : Option Condition) :
    operation.Effect s.tables (s.delete m condition).tables := by
  refine .removal
    (fun table row => table ≠ m.table || !Condition.acceptsOptional condition row.entity)
    fun table => ?_
  rw [Store.rows_delete]
  by_cases own : table = m.table
  · simp [own]
  · rw [if_neg own, List.filter_eq_self.mpr fun _ _ => by simp [own]]

end Store

/-- Whether the call may write new values. -/
def Operation.isWrite : Operation → Bool
  | .insert .. => true
  | .insertAll .. => true
  | .update .. => true
  | _ => false

/-- Whether the call may take rows away. -/
def Operation.isRemoval : Operation → Bool
  | .delete .. => true
  | .destroy => true
  | _ => false

/-- A call that neither writes nor removes leaves the rows as they are. -/
theorem Session.rows_step_of_reading (c : Session) {operation : Operation}
    (noWrite : operation.isWrite = false) (noRemoval : operation.isRemoval = false)
    (table : String) :
    (c.step operation).2.store.tables.rows table = c.store.tables.rows table := by
  cases operation with
  | register m => rfl
  | count m condition => rfl
  | hasMatch m condition => rfl
  | findAll m condition sorting =>
      exact congrArg (Tables.rows · table) (c.store.tables_findAll m condition sorting)
  | findBy m condition sorting =>
      exact congrArg (Tables.rows · table) (c.store.tables_findBy m condition sorting)
  | insert m e => cases noWrite
  | insertAll m entities => cases noWrite
  | update m e => cases noWrite
  | delete m condition => cases noRemoval
  | destroy => cases noRemoval

/-- A call leaves the rows, adds rows, writes one entity or takes rows away. -/
theorem Session.step_effect (c : Session) (operation : Operation) :
    operation.Effect c.store.tables (c.step operation).2.store.tables := by
  cases operation with
  | register m => exact .nothing (c.rows_step_of_reading rfl rfl)
  | destroy => exact .removal (fun _ _ => false) fun table => by simp [step, Store.destroy]
  | count m condition => exact .nothing (c.rows_step_of_reading rfl rfl)
  | hasMatch m condition => exact .nothing (c.rows_step_of_reading rfl rfl)
  | findAll m condition sorting => exact .nothing (c.rows_step_of_reading rfl rfl)
  | findBy m condition sorting => exact .nothing (c.rows_step_of_reading rfl rfl)
  | insert m e =>
      show Operation.Effect _ _ (c.store.insert m e c.ids).2.1.tables
      rw [Store.insert_snd]
      exact c.store.insertAll_effect m rfl [e] c.ids
  | insertAll m entities => exact c.store.insertAll_effect m rfl entities c.ids
  | update m e => exact c.store.update_effect m rfl e
  | delete m condition => exact c.store.delete_effect m condition

/-! ## What every effect keeps -/

/-- Each row of a table holds its id under a property. -/
def Tables.IdentifiedBy (t : Tables) (table property : String) : Prop :=
  ∀ row ∈ t.rows table, row.entity.get? property = some row.id

/-- After a write only the row with the id may be another one. -/
theorem Tables.mem_rows_write {t : Tables} {table table' : String} {id : Value} {e : Entity}
    {fields : List Field} {row : Row}
    (member : row ∈ (t.write table id e fields).tables.rows table') :
    row ∈ t.rows table' ∨
      table' = table ∧ row = ⟨id, (t.write table id e fields).stored⟩ := by
  cases found : t.row? table id with
  | none =>
      rw [write_of_row?_eq_none found, rows_append] at member
      rw [write_of_row?_eq_none found]
      split at member
      · rename_i own
        subst own
        rcases List.mem_append.mp member with old | new
        · exact .inl old
        · exact .inr ⟨rfl, List.mem_singleton.mp new⟩
      · exact .inl member
  | some _ =>
      rw [write_of_row?_eq_some found, rows_modify_replace] at member
      rw [write_of_row?_eq_some found]
      split at member
      · rename_i own
        subst own
        exact (Row.mem_replace member).imp_right (⟨rfl, ·⟩)
      · exact .inl member

/-- A write leaves the ids of its table, or adds the one written under if it is new. -/
theorem Tables.ids_write (t : Tables) (table table' : String) (id : Value) (e : Entity)
    (fields : List Field) :
    (t.write table id e fields).tables.ids table' =
      t.ids table' ++ if table' = table ∧ id ∉ t.ids table then [id] else [] := by
  cases found : t.row? table id with
  | none =>
      have free : id ∉ t.ids table := row?_eq_none_iff.mp found
      rw [write_of_row?_eq_none found]
      by_cases own : table' = table
      · subst own
        rw [if_pos ⟨rfl, free⟩]
        simp [ids]
      · rw [if_neg fun both => own both.1]
        simp [ids, own]
  | some row =>
      have taken : ¬(table' = table ∧ id ∉ t.ids table) := by
        rintro ⟨-, free⟩
        rw [row?_eq_none_iff.mpr free] at found
        cases found
      rw [write_of_row?_eq_some found, if_neg taken, List.append_nil, ids, rows_modify_replace]
      split
      · rename_i own
        rw [Row.map_id_replace, own, ids]
      · rfl

namespace Operation.Effect

variable {operation : Operation} {t t' : Tables}

theorem regular (effect : operation.Effect t t') (regular : t.Regular) : t'.Regular := by
  cases effect with
  | nothing same => exact regular.of_rows_eq same
  | addition used accepted after =>
      obtain ⟨distinct, new⟩ := Metadata.newRows_regular (regular.distinct _) accepted
      rw [after]
      exact regular.append distinct fun row member => (new row member).1
  | writing used own identified after =>
      rw [after]
      exact regular.write own _
  | removal keeps after =>
      refine regular.of_sublist fun table => ?_
      rw [after]
      exact List.filter_sublist

/-- A call that identifies a table's entities by a property leaves rows that hold their ids
there. -/
theorem identifiedBy (effect : operation.Effect t t') (regular : t.Regular)
    {table property : String} (holds : t.IdentifiedBy table property)
    (agrees : ∀ m, operation.metadata? = some m → m.table = table → m.idProperty = property) :
    t'.IdentifiedBy table property := by
  cases effect with
  | nothing same =>
      intro row member
      rw [same] at member
      exact holds row member
  | @addition m _ _ _ _ rows used accepted after =>
      obtain ⟨-, new⟩ := Metadata.newRows_regular (regular.distinct _) accepted
      intro row member
      rw [after, Tables.rows_append] at member
      split at member
      · rename_i own
        rcases List.mem_append.mp member with old | added
        · exact holds row (own ▸ old)
        · rw [← agrees m used own.symm]
          exact (new row added).2
      · exact holds row member
  | @writing m e id fields used own identified after =>
      intro row member
      rw [after] at member
      rcases Tables.mem_rows_write member with old | ⟨here, rfl⟩
      · exact holds row old
      · subst here
        have given : m.idProperty = property := agrees m used rfl
        have rows : ∀ row ∈ t.rows m.table, row.entity.get? m.idProperty = some row.id :=
          fun row member => given ▸ holds row member
        rw [← given]
        exact Tables.get?_stored_write fields identified rows
  | removal keeps after =>
      intro row member
      rw [after] at member
      exact holds row (List.mem_filter.mp member).1

/-- Ids that are left keep their order, and ids that were not there come behind them. -/
theorem ids (effect : operation.Effect t t') (regular : t.Regular) (table : String) :
    ∃ kept added, t'.ids table = kept ++ added ∧ kept.Sublist (t.ids table) ∧
      ∀ id ∈ added, id ∉ t.ids table := by
  cases effect with
  | nothing same =>
      refine ⟨t.ids table, [], ?_, .refl _, nofun⟩
      simp [Tables.ids, same]
  | @addition m _ _ _ _ rows used accepted after =>
      obtain ⟨distinct, -⟩ := Metadata.newRows_regular (regular.distinct _) accepted
      by_cases own : table = m.table
      · refine ⟨t.ids table, rows.map (·.id), ?_, .refl _, fun id new old => ?_⟩
        · simp [after, own, Tables.ids]
        · rw [own] at old
          exact (List.nodup_append.mp distinct).2.2 id old id new rfl
      · refine ⟨t.ids table, [], ?_, .refl _, nofun⟩
        simp [after, own, Tables.ids]
  | @writing m e id fields used own identified after =>
      refine ⟨t.ids table, _, after ▸ t.ids_write m.table table id e fields, .refl _, ?_⟩
      intro other member
      split at member
      · rename_i fresh
        rw [List.mem_singleton.mp member, fresh.1]
        exact fresh.2
      · cases member
  | removal keeps after =>
      refine ⟨t'.ids table, [], (List.append_nil _).symm, ?_, nofun⟩
      unfold Tables.ids
      rw [after]
      exact List.filter_sublist.map _

end Operation.Effect

/-! ## Runs -/

namespace Session

/-- After every run the rows are regular. -/
theorem run_regular (idForm : IdForm) (ids : IdSequence) (operations : List Operation) :
    ((start idForm ids).run operations).store.tables.Regular :=
  run_invariant (·.store.tables.Regular)
    (fun c regular operation _ => (c.step_effect operation).regular regular) .empty

/-- After a run whose calls identify a table's entities by one property, its rows hold their ids
there. -/
theorem run_identifiedBy (idForm : IdForm) (ids : IdSequence) {operations : List Operation}
    {table property : String}
    (agree : ∀ operation ∈ operations, ∀ m, operation.metadata? = some m → m.table = table →
      m.idProperty = property) :
    ((start idForm ids).run operations).store.tables.IdentifiedBy table property := by
  refine (run_invariant
    (fun c => c.store.tables.Regular ∧ c.store.tables.IdentifiedBy table property) ?_ ?_).2
  · rintro c ⟨regular, holds⟩ operation member
    have effect := c.step_effect operation
    exact ⟨effect.regular regular, effect.identifiedBy regular holds (agree operation member)⟩
  · exact ⟨.empty, fun _ member => (List.not_mem_nil member).elim⟩

end Session

end EntityStore
