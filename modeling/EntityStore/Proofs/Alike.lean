import EntityStore.Proofs.Rows

/-!
Stores that cannot be told apart.

Two stores are alike when they have the same rows, descriptions, memories and
counts of written and deleted entities.  How many reading operations there have
been, and whether a table without rows is kept, may differ.  A call answers the
same on both and leaves them alike (`Session.step_alike`), and so does every
list of calls (`Session.run_alike`): nothing that a caller can do brings the
difference out.
-/

namespace EntityStore

/-- The same rows in every table, the same descriptions and memories, and the
same counts of written and deleted entities. -/
structure Store.Alike (s s' : Store) : Prop where
  idForm : s.idForm = s'.idForm
  rows : ∀ table, s.tables.rows table = s'.tables.rows table
  registry : s.registry = s'.registry
  tracking : s.tracking = s'.tracking
  writes : s.counters.writes = s'.counters.writes
  deletes : s.counters.deletes = s'.counters.deletes

/-! ## Writes to tables with the same rows -/

section SameRows

variable {t t' : Tables} (agree : ∀ table, t.rows table = t'.rows table)

include agree

theorem Tables.rows_append_congr (table table' : String) (rows : List Row) :
    (t.append table rows).rows table' = (t'.append table rows).rows table' := by
  rw [rows_append, rows_append, agree, agree]

theorem Tables.rows_modify_congr (table table' : String) {change : List Row → List Row}
    (nil : change [] = []) :
    (t.modify table change).rows table' = (t'.modify table change).rows table' := by
  rw [rows_modify _ _ _ nil, rows_modify _ _ _ nil, agree, agree]

theorem Tables.write_congr (table : String) (id : Value) (e : Entity) (fields : List Field) :
    (t.write table id e fields).stored = (t'.write table id e fields).stored ∧
      ∀ table', (t.write table id e fields).tables.rows table' =
        (t'.write table id e fields).tables.rows table' := by
  cases found : t.row? table id with
  | some row =>
      have found' := found
      rw [row?_congr agree] at found'
      rw [write_of_row?_eq_some found, write_of_row?_eq_some found']
      exact ⟨rfl, fun table' => rows_modify_congr agree table table' (Row.replace_nil _)⟩
  | none =>
      have absent := found
      rw [row?_congr agree] at absent
      rw [write_of_row?_eq_none found, write_of_row?_eq_none absent]
      exact ⟨rfl, fun table' => rows_append_congr agree table table' _⟩

end SameRows

namespace Store.Alike

variable {s s' : Store}

theorem refl (s : Store) : Alike s s := ⟨rfl, fun _ => rfl, rfl, rfl, rfl, rfl⟩

theorem trans {s'' : Store} (first : Alike s s') (second : Alike s' s'') : Alike s s'' :=
  ⟨first.idForm.trans second.idForm, fun table => (first.rows table).trans (second.rows table),
    first.registry.trans second.registry, first.tracking.trans second.tracking,
    first.writes.trans second.writes, first.deletes.trans second.deletes⟩

/-- Alike stores differ in their tables and in their count of reads alone. -/
theorem exists_eq (alike : Alike s s') :
    ∃ (tables : Tables) (reads : Nat), (∀ table, s.tables.rows table = tables.rows table) ∧
      s' = { s with tables := tables, counters := { s.counters with reads := reads } } := by
  obtain ⟨form, tables, registry, tracking, reads, writes, deletes⟩ := s'
  obtain ⟨idForm, rows, sameRegistry, sameTracking, sameWrites, sameDeletes⟩ := alike
  cases s
  cases idForm
  cases sameRegistry
  cases sameTracking
  cases sameWrites
  cases sameDeletes
  exact ⟨tables, reads, rows, rfl⟩

/-! ## Calls on alike stores -/

theorem register (alike : Alike s s') (m : Metadata) : Alike (s.register m) (s'.register m) := by
  obtain ⟨tables, reads, rows, rfl⟩ := alike.exists_eq
  exact ⟨rfl, rows, rfl, rfl, rfl, rfl⟩

theorem destroy (alike : Alike s s') : Alike s.destroy s'.destroy := by
  obtain ⟨tables, reads, rows, rfl⟩ := alike.exists_eq
  exact ⟨rfl, fun _ => rfl, rfl, rfl, rfl, rfl⟩

theorem countRead (alike : Alike s s') : Alike s.countRead s'.countRead := by
  obtain ⟨tables, reads, rows, rfl⟩ := alike.exists_eq
  exact ⟨rfl, rows, rfl, rfl, rfl, rfl⟩

theorem count (alike : Alike s s') (m : Metadata) (condition : Option Condition) :
    (s.count m condition).1 = (s'.count m condition).1 := by
  unfold Store.count
  rw [Tables.matching_congr alike.rows]

theorem hasMatch (alike : Alike s s') (m : Metadata) (condition : Condition) :
    (s.hasMatch m condition).1 = (s'.hasMatch m condition).1 := by
  unfold Store.hasMatch
  rw [Tables.matching_congr alike.rows]

theorem findAll (alike : Alike s s') (m : Metadata) (condition : Option Condition)
    (sorting : Option Sorting) :
    (s.findAll m condition sorting).1 = (s'.findAll m condition sorting).1 ∧
      Alike (s.findAll m condition sorting).2 (s'.findAll m condition sorting).2 := by
  obtain ⟨tables, reads, rows, rfl⟩ := alike.exists_eq
  simp only [Store.findAll, Store.populateAll, Store.countRead, Tables.select_congr rows,
    Metadata.populateAll_congr rows]
  split
  · exact ⟨rfl, rfl, rows, rfl, rfl, rfl, rfl⟩
  · exact ⟨rfl, rfl, rows, rfl, rfl, rfl, rfl⟩

theorem findBy (alike : Alike s s') (m : Metadata) (condition : Condition)
    (sorting : Option Sorting) :
    (s.findBy m condition sorting).1 = (s'.findBy m condition sorting).1 ∧
      Alike (s.findBy m condition sorting).2 (s'.findBy m condition sorting).2 := by
  obtain ⟨tables, reads, rows, rfl⟩ := alike.exists_eq
  simp only [Store.findBy, Store.populate, Store.countRead, Tables.select_congr rows]
  split
  · exact ⟨rfl, rfl, rows, rfl, rfl, rfl, rfl⟩
  · simp only [Metadata.populate_congr rows]
    split
    · exact ⟨rfl, rfl, rows, rfl, rfl, rfl, rfl⟩
    · exact ⟨rfl, rfl, rows, rfl, rfl, rfl, rfl⟩

theorem insertAll (alike : Alike s s') (m : Metadata) (entities : List Entity)
    (ids : IdSequence) :
    (s.insertAll m entities ids).1 = (s'.insertAll m entities ids).1 ∧
      Alike (s.insertAll m entities ids).2.1 (s'.insertAll m entities ids).2.1 ∧
      (s.insertAll m entities ids).2.2 = (s'.insertAll m entities ids).2.2 := by
  obtain ⟨tables, reads, rows, rfl⟩ := alike.exists_eq
  have taken : s.tables.ids m.table = tables.ids m.table := by
    unfold Tables.ids
    rw [rows]
  simp only [Store.insertAll, taken]
  split
  · exact ⟨rfl, ⟨rfl, rows, rfl, rfl, rfl, rfl⟩, rfl⟩
  · rename_i added ids' _
    have appended := fun table => Tables.rows_append_congr rows m.table table added
    simp only [Store.handOutAdded, Store.populateAll, Metadata.populateAll_congr appended]
    cases m.populateAll s.registry (tables.append m.table added) (added.map (·.entity)) with
    | error error =>
        refine ⟨rfl, ⟨rfl, fun table => ?_, rfl, rfl, rfl, rfl⟩, rfl⟩
        exact Tables.rows_modify_congr appended m.table table (by simp)
    | ok populated => exact ⟨rfl, ⟨rfl, appended, rfl, rfl, rfl, rfl⟩, rfl⟩

theorem insert (alike : Alike s s') (m : Metadata) (e : Entity) (ids : IdSequence) :
    (s.insert m e ids).1 = (s'.insert m e ids).1 ∧
      Alike (s.insert m e ids).2.1 (s'.insert m e ids).2.1 ∧
      (s.insert m e ids).2.2 = (s'.insert m e ids).2.2 := by
  obtain ⟨sameResult, alike', sameIds⟩ := alike.insertAll m [e] ids
  unfold Store.insert
  generalize s.insertAll m [e] ids = outcome at sameResult alike' sameIds
  generalize s'.insertAll m [e] ids = outcome' at sameResult alike' sameIds
  obtain ⟨result, after, ids₁⟩ := outcome
  obtain ⟨result', after', ids₂⟩ := outcome'
  cases sameResult
  cases sameIds
  match result with
  | .error error => exact ⟨rfl, alike', rfl⟩
  | .ok [] => exact ⟨rfl, alike', rfl⟩
  | .ok (added :: others) => exact ⟨rfl, alike', rfl⟩

theorem refetch (alike : Alike s s') (m : Metadata) (property : String) (id : Value) :
    (s.refetch m property id).1 = (s'.refetch m property id).1 ∧
      Alike (s.refetch m property id).2 (s'.refetch m property id).2 := by
  obtain ⟨sameResult, alike'⟩ := alike.findBy m (.propertyEquals property id) none
  unfold Store.refetch
  generalize s.findBy m (.propertyEquals property id) none = outcome at sameResult alike'
  generalize s'.findBy m (.propertyEquals property id) none = outcome' at sameResult alike'
  obtain ⟨result, after⟩ := outcome
  obtain ⟨result', after'⟩ := outcome'
  cases sameResult
  match result with
  | .error error => exact ⟨rfl, alike'⟩
  | .ok none => exact ⟨rfl, alike'⟩
  | .ok (some found) => exact ⟨rfl, alike'⟩

theorem writeChanges (alike : Alike s s') (m : Metadata) (e : Entity) (id : Value)
    (changed : List Field) :
    (s.writeChanges m e id changed).1 = (s'.writeChanges m e id changed).1 ∧
      Alike (s.writeChanges m e id changed).2 (s'.writeChanges m e id changed).2 := by
  obtain ⟨tables, reads, rows, rfl⟩ := alike.exists_eq
  obtain ⟨stored, written⟩ := Tables.write_congr rows m.table id e changed
  simp only [Store.writeChanges, Store.populate, stored, Metadata.populate_congr written]
  split
  · refine ⟨rfl, rfl, fun table => ?_, rfl, rfl, rfl, rfl⟩
    simp only [Tables.rows_restore_write]
    exact rows table
  · exact ⟨rfl, rfl, written, rfl, rfl, rfl, rfl⟩

theorem update (alike : Alike s s') (m : Metadata) (e : Entity) :
    (s.update m e).1 = (s'.update m e).1 ∧ Alike (s.update m e).2 (s'.update m e).2 := by
  unfold Store.update
  split
  · exact ⟨rfl, alike⟩
  · split
    · exact ⟨rfl, alike⟩
    · split
      · exact ⟨rfl, alike⟩
      · rw [← alike.tracking]
        split
        · exact alike.refetch m _ _
        · exact alike.writeChanges m e _ _

theorem delete (alike : Alike s s') (m : Metadata) (condition : Option Condition) :
    Alike (s.delete m condition) (s'.delete m condition) := by
  have kept : ∀ table, (s.delete m condition).tables.rows table =
      (s'.delete m condition).tables.rows table := by
    intro table
    rw [rows_delete, rows_delete, alike.rows, alike.rows]
  obtain ⟨tables, reads, rows, rfl⟩ := alike.exists_eq
  cases condition with
  | none =>
      refine ⟨rfl, kept, rfl, rfl, rfl, ?_⟩
      simp only [Store.delete, Store.countDeletes, Tables.size, rows]
  | some condition =>
      refine ⟨rfl, kept, rfl, ?_, rfl, ?_⟩
      · simp only [Store.delete, Store.countDeletes, rows]
      · simp only [Store.delete, Store.countDeletes, rows]

end Store.Alike

/-! ## Runs on alike stores -/

/-- Alike stores that draw the same fresh ids. -/
structure Session.Alike (c c' : Session) : Prop where
  store : c.store.Alike c'.store
  ids : c.ids = c'.ids

namespace Session

variable {c c' : Session}

/-- A call cannot tell alike stores apart. -/
theorem step_alike (alike : c.Alike c') (operation : Operation) :
    (c.step operation).1 = (c'.step operation).1 ∧
      (c.step operation).2.Alike (c'.step operation).2 := by
  obtain ⟨s, ids⟩ := c
  obtain ⟨s', ids'⟩ := c'
  obtain ⟨alike, sameIds⟩ := alike
  cases sameIds
  cases operation with
  | register m => exact ⟨rfl, alike.register m, rfl⟩
  | destroy => exact ⟨rfl, alike.destroy, rfl⟩
  | count m condition =>
      have same := alike.count m condition
      exact ⟨congrArg (fun n => Except.ok (Answer.number n)) same, alike.countRead, rfl⟩
  | hasMatch m condition =>
      have same := alike.hasMatch m condition
      exact ⟨congrArg (fun b => Except.ok (Answer.truth b)) same, alike.countRead, rfl⟩
  | findAll m condition sorting =>
      obtain ⟨same, alike'⟩ := alike.findAll m condition sorting
      exact ⟨congrArg (Except.map Answer.entities) same, alike', rfl⟩
  | findBy m condition sorting =>
      obtain ⟨same, alike'⟩ := alike.findBy m condition sorting
      exact ⟨congrArg (Except.map Answer.optionalEntity) same, alike', rfl⟩
  | insert m e =>
      obtain ⟨same, alike', sameIds⟩ := alike.insert m e ids
      exact ⟨congrArg (Except.map Answer.entity) same, alike', sameIds⟩
  | insertAll m entities =>
      obtain ⟨same, alike', sameIds⟩ := alike.insertAll m entities ids
      exact ⟨congrArg (Except.map Answer.entities) same, alike', sameIds⟩
  | update m e =>
      obtain ⟨same, alike'⟩ := alike.update m e
      exact ⟨congrArg (Except.map Answer.entity) same, alike', rfl⟩
  | delete m condition => exact ⟨rfl, alike.delete m condition, rfl⟩

/-- No list of calls can tell alike stores apart. -/
theorem run_alike (alike : c.Alike c') (operations : List Operation) :
    c.answers operations = c'.answers operations ∧
      (c.run operations).Alike (c'.run operations) := by
  induction operations generalizing c c' with
  | nil => exact ⟨rfl, alike⟩
  | cons operation operations ih =>
      obtain ⟨sameAnswer, alike'⟩ := step_alike alike operation
      obtain ⟨sameAnswers, alikeEnd⟩ := ih alike'
      refine ⟨?_, alikeEnd⟩
      rw [answers, answers, sameAnswer, sameAnswers]

end Session

end EntityStore
