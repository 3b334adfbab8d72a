import EntityStore.Proofs.Accounting

/-!
What a deletion takes away, and what it leaves.

A deletion parts the rows of one table into those that it takes away, which are forgotten and
counted, and those that it leaves as they are.  Without a condition the table goes with all of its
rows, and everything remembered for it.  A condition that accepts every row leaves the table there
without rows, and forgets the rows one by one.  As long as the memory mirrors the rows, that comes
to the same memory (`Tracking.Mirrors.unique`), so the two stores are alike; and as alike stores
count the same reads (`Session.reads_run_alike`), no list of calls finds out which of the two
deletions it was (`Session.delete_partitions`).
-/

namespace EntityStore

/-- What has been deleted is not counted again. -/
theorem Store.count_delete (s : Store) (m : Metadata) (condition : Option Condition) :
    ((s.delete m condition).count m condition).1 = 0 := by
  show (List.filter _ ((s.delete m condition).tables.rows m.table)).length = 0
  rw [rows_delete, if_pos rfl, List.filter_filter, List.length_eq_zero_iff, List.filter_eq_nil_iff]
  simp

/-! ## Both ways to delete a whole table -/

/-- There is one memory that mirrors given rows. -/
theorem Tracking.Mirrors.unique {describe : String → Metadata} {tracking tracking' : Tracking}
    {tables tables' : Tables} (mirrors : tracking.Mirrors describe tables)
    (mirrors' : tracking'.Mirrors describe tables')
    (same : ∀ table, tables.rows table = tables'.rows table) : tracking = tracking' := by
  refine Tracking.ext fun table id => ?_
  rw [mirrors.remembered, mirrors'.remembered, Tables.row?_congr same]

/-- A condition that accepts every row of a table deletes as much as none does. -/
theorem Store.delete_alike {s : Store} {describe : String → Metadata}
    (mirrors : s.tracking.Mirrors describe s.tables) {m : Metadata} {condition : Condition}
    (accepts : ∀ row ∈ s.tables.rows m.table, condition.accepts row.entity) :
    (s.delete m (some condition)).Alike (s.delete m none) := by
  have rows : ∀ table, (s.delete m (some condition)).tables.rows table =
      (s.delete m none).tables.rows table := by
    intro table
    rw [rows_delete, rows_delete]
    congr 1
    exact List.filter_congr fun row member => congrArg (!·) (accepts row member)
  have tracking : (s.delete m (some condition)).tracking = (s.delete m none).tracking :=
    (delete_mirrors mirrors m (some condition)).unique (delete_mirrors mirrors m none) rows
  have counted : (s.count m (some condition)).1 = (s.count m none).1 :=
    congrArg List.length (List.filter_congr accepts)
  have deletes : (s.delete m (some condition)).counters.deletes =
      (s.delete m none).counters.deletes := by
    rw [counters_delete, counters_delete, counted]
  exact ⟨rfl, rows, rfl, tracking, rfl, deletes⟩

/-! ## Reads of alike sessions -/

theorem Store.Alike.counters_eq {s s' : Store} (alike : s.Alike s')
    (reads : s.counters.reads = s'.counters.reads) : s.counters = s'.counters := by
  obtain ⟨tables, reads', rows, rfl⟩ := alike.exists_eq
  cases reads
  rfl

namespace Session

variable {c c' : Session}

/-- Whether a call is counted as a read depends on what is remembered only. -/
theorem countsRead_congr (alike : c.Alike c') (operation : Operation) :
    c.CountsRead operation ↔ c'.CountsRead operation := by
  cases operation with
  | update m e =>
      show c.store.FindsNoChange m e ↔ c'.store.FindsNoChange m e
      unfold Store.FindsNoChange
      rw [alike.store.tracking]
  | _ => exact Iff.rfl

theorem reads_step_alike (alike : c.Alike c')
    (reads : c.store.counters.reads = c'.store.counters.reads) (operation : Operation) :
    (c.step operation).2.store.counters.reads = (c'.step operation).2.store.counters.reads := by
  obtain ⟨counted, uncounted⟩ := c.reads_step operation
  obtain ⟨counted', uncounted'⟩ := c'.reads_step operation
  by_cases reading : c.CountsRead operation
  · rw [counted reading, counted' ((countsRead_congr alike operation).mp reading), reads]
  · rw [uncounted reading, uncounted' (mt (countsRead_congr alike operation).mpr reading), reads]

/-- Alike sessions that have read equally often go on to do so. -/
theorem reads_run_alike (alike : c.Alike c')
    (reads : c.store.counters.reads = c'.store.counters.reads) (operations : List Operation) :
    (c.run operations).store.counters.reads = (c'.run operations).store.counters.reads := by
  induction operations generalizing c c' with
  | nil => exact reads
  | cons operation operations ih =>
      exact ih (step_alike alike operation).2 (reads_step_alike alike reads operation)

/-- What can be seen of alike sessions that have read equally often is the same after every list of
calls: the answers on the way, the counters, and the sizes of the tables. -/
theorem run_indistinct (alike : c.Alike c')
    (reads : c.store.counters.reads = c'.store.counters.reads) (operations : List Operation) :
    c.answers operations = c'.answers operations ∧
      (c.run operations).store.counters = (c'.run operations).store.counters ∧
      ∀ table, (c.run operations).store.tableSize table =
        (c'.run operations).store.tableSize table := by
  obtain ⟨answers, after⟩ := run_alike alike operations
  have sameReads := reads_run_alike alike reads operations
  exact ⟨answers, after.store.counters_eq sameReads,
    fun table => congrArg List.length (after.store.rows table)⟩

/-! ## Deletions after every run -/

/-- After every run a deletion under a condition takes away the rows that the condition accepts.
The others stay as they are and in their order, and so do all other tables.  Exactly the removed
entities are forgotten, and the count of deletions grows by what the condition counts before; after
that it counts nothing.  If tables were used by one description each and the condition accepts every
row of its table, then no further calls tell the deletion from that of the whole table. -/
theorem delete_partitions (idForm : IdForm) (ids : IdSequence) (earlier : List Operation)
    (m : Metadata) (condition : Condition) :
    let before := (start idForm ids).run earlier
    let after := (before.step (.delete m (some condition))).2
    let emptied := (before.step (.delete m none)).2
    let stored := before.store.tables.rows m.table
    let removed := stored.filter fun row => condition.accepts row.entity
    let counters := before.store.counters
    (∀ table, after.store.tables.rows table =
        if table = m.table then stored.filter fun row => !condition.accepts row.entity
        else before.store.tables.rows table) ∧
      (∀ table id, after.store.tracking.snapshot? table id =
        if table = m.table ∧ id ∈ removed.map (·.id) then none
        else before.store.tracking.snapshot? table id) ∧
      after.store.registry = before.store.registry ∧
      after.store.counters =
        { counters with deletes := counters.deletes + (before.store.count m (some condition)).1 } ∧
      (after.store.count m (some condition)).1 = 0 ∧
      ∀ describe, (∀ operation ∈ earlier, operation.Follows describe) →
        (∀ row ∈ stored, condition.accepts row.entity) →
        ∀ later, after.answers later = emptied.answers later ∧
          (after.run later).store.counters = (emptied.run later).store.counters ∧
          ∀ table, (after.run later).store.tableSize table =
            (emptied.run later).store.tableSize table := by
  intro before after emptied stored removed counters
  refine ⟨before.store.rows_delete m (some condition), fun table id => ?_, rfl,
    before.store.counters_delete m (some condition), before.store.count_delete m (some condition),
    fun describe follows accepts later => ?_⟩
  · exact Tracking.snapshot?_forgetAll before.store.tracking m.table table _ id
  · have mirrors : before.store.tracking.Mirrors describe before.store.tables :=
      run_mirrors idForm ids follows
    have alike : after.Alike emptied := ⟨Store.delete_alike mirrors accepts, rfl⟩
    exact run_indistinct alike rfl later

/-- All sample users live in London, so the users of London are all of them.  When they are deleted
their table is still there; when the table is dropped it is not. -/
theorem delete_partitions_samples :
    let before := (start .text .start).run Samples.calls
    let after := (before.step
      (.delete Samples.users (some (.propertyEquals "city" "London")))).2
    let emptied := (before.step (.delete Samples.users none)).2
    before.store.tables.rows "users" = [⟨"u1", Samples.userOf "u1" "c1"⟩] ∧
      after.store.tables.stored.get? "users" = some [] ∧
      emptied.store.tables.stored.get? "users" = none ∧
      after.store.counters.deletes = 1 ∧ after.store.tracking.snapshot? "users" "u1" = none ∧
      ∀ later, after.answers later = emptied.answers later ∧
        (after.run later).store.counters = (emptied.run later).store.counters := by
  have follows : ∀ operation ∈ Samples.calls, operation.Follows Samples.describe := by decide
  have accepts : ∀ row ∈ ((start .text .start).run Samples.calls).store.tables.rows "users",
      (Condition.propertyEquals "city" "London").accepts row.entity := by decide +kernel
  obtain ⟨-, forgotten, -, counters, -, indistinct⟩ := delete_partitions .text .start Samples.calls
    Samples.users (.propertyEquals "city" "London")
  refine ⟨by rfl, by rfl, by rfl, ?_, ?_, fun later => ?_⟩
  · exact (congrArg (·.deletes) counters).trans (by rfl)
  · exact (forgotten "users" "u1").trans (by rfl)
  · obtain ⟨answers, same, -⟩ := indistinct Samples.describe follows accepts later
    exact ⟨answers, same⟩

end Session

end EntityStore
