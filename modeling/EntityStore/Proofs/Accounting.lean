import Mathlib.Algebra.BigOperators.Group.Finset.Piecewise
import EntityStore.Proofs.Storage

/-!
The counters account for the rows.

A write is counted for each row that comes in, and a deletion for each that goes out, with two
exceptions: an update that merges its changes into a row is a write without a new row, and
`destroy` drops all rows without counting them.  The total over all tables is a sum over their
sizes (`Tables.totalSize_eq_sum`), so it is enough to know what each call does to the size of one
table.  Every other call, whether it succeeds or not, keeps the books balanced
(`Session.step_balanced`), and no run stores or deletes more than it has written
(`Session.counters_of_run`).
-/

namespace EntityStore

/-! ## The total over all tables -/

/-- As no two entries have one key, what they count for adds up to what is found by lookup, over any
keys that leave out none with a count. -/
theorem Entries.foldr_eq_sum {κ ν : Type} [Ord κ] [Std.LawfulEqOrd κ] [DecidableEq κ]
    {count : Option ν → Nat} (nothing : count none = 0) {entries : List (κ × ν)} {keys : Finset κ}
    (sorted : Entries.Sorted entries)
    (covers : ∀ key, count (Entries.get? key entries) ≠ 0 → key ∈ keys) :
    entries.foldr (fun entry total => count (some entry.2) + total) 0 =
      ∑ key ∈ keys, count (Entries.get? key entries) := by
  induction entries with
  | nil => simp [nothing]
  | cons head rest ih =>
      obtain ⟨own, value⟩ := head
      have absent : Entries.get? own rest = none :=
        Entries.get?_eq_none_of_lt fun _ => List.rel_of_pairwise_cons sorted
      -- a key counts for the head or in the rest, never for both
      have counts : ∀ key, count (Entries.get? key ((own, value) :: rest)) =
          (if key = own then count (some value) else 0) + count (Entries.get? key rest) := by
        intro key
        by_cases here : key = own
        · simp [Entries.get?, here, absent, nothing]
        · simp [Entries.get?, here]
      have coversRest : ∀ key, count (Entries.get? key rest) ≠ 0 → key ∈ keys := by
        intro key counted
        refine covers key ?_
        rw [counts]
        exact Nat.ne_of_gt (Nat.add_pos_right _ (Nat.pos_of_ne_zero counted))
      rw [List.foldr_cons, ih sorted.of_cons coversRest]
      simp only [counts, Finset.sum_add_distrib, Finset.sum_ite_eq']
      by_cases inside : own ∈ keys
      · rw [if_pos inside]
      · have uncounted : count (some value) = 0 := by
          by_contra counted
          refine inside (covers own ?_)
          rw [counts, if_pos rfl, absent, nothing]
          exact counted
        rw [if_neg inside, uncounted]

namespace Tables

variable {t t' : Tables} {table : String}

/-- The tables that are there, with or without rows. -/
def names (t : Tables) : Finset String := (t.stored.toList.map (·.1)).toFinset

theorem mem_names_of_size (filled : t.size table ≠ 0) : table ∈ t.names := by
  have present : t.stored.get? table ≠ none := by
    intro absent
    exact filled (by rw [size, rows, absent]; rfl)
  unfold names
  rw [List.mem_toFinset]
  by_contra outside
  refine present ((Entries.get?_eq_none_iff table t.stored.entries).mpr fun entry member same => ?_)
  exact outside (same ▸ List.mem_map_of_mem member)

/-- The total is the sum of the sizes of the tables that have rows, and of any others. -/
theorem totalSize_eq_sum (t : Tables) {names : Finset String}
    (covers : ∀ table, t.size table ≠ 0 → table ∈ names) :
    t.totalSize = ∑ table ∈ names, t.size table :=
  @Entries.foldr_eq_sum _ _ _ _ _ (fun rows : Option (List Row) => (rows.getD []).length) rfl
    t.stored.entries names t.stored.sorted covers

/-- Where only the size of one table differs, the totals differ by as much. -/
theorem totalSize_of_others (others : ∀ other, other ≠ table → t'.size other = t.size other) :
    t'.totalSize + t.size table = t.totalSize + t'.size table := by
  let names := insert table (t.names ∪ t'.names)
  have total : t.totalSize = ∑ table ∈ names, t.size table := t.totalSize_eq_sum fun _ filled =>
    Finset.mem_insert_of_mem (Finset.mem_union_left _ (mem_names_of_size filled))
  have total' : t'.totalSize = ∑ table ∈ names, t'.size table := t'.totalSize_eq_sum fun _ filled =>
    Finset.mem_insert_of_mem (Finset.mem_union_right _ (mem_names_of_size filled))
  have member : table ∈ names := Finset.mem_insert_self _ _
  have rest : ∑ other ∈ names.erase table, t'.size other =
      ∑ other ∈ names.erase table, t.size other :=
    Finset.sum_congr rfl fun other inside => others other (Finset.ne_of_mem_erase inside)
  rw [total, total', ← Finset.sum_erase_add names _ member, ← Finset.sum_erase_add names _ member,
    rest]
  omega

theorem totalSize_congr (same : ∀ table, t'.size table = t.size table) :
    t'.totalSize = t.totalSize := by
  have books := @totalSize_of_others t t' "" fun other _ => same other
  rw [same] at books
  exact Nat.add_right_cancel books

/-! ## Sizes of changed tables -/

theorem length_ids (t : Tables) (table : String) : (t.ids table).length = t.size table :=
  List.length_map _

theorem totalSize_append (t : Tables) (table : String) (rows : List Row) :
    (t.append table rows).totalSize = t.totalSize + rows.length := by
  have books : (t.append table rows).totalSize + t.size table =
      t.totalSize + (t.append table rows).size table :=
    totalSize_of_others fun other elsewhere => by simp [size, elsewhere]
  have grown : (t.append table rows).size table = t.size table + rows.length := by simp [size]
  omega

/-- A write adds a row if its id is new. -/
theorem size_write (t : Tables) (table table' : String) (id : Value) (e : Entity)
    (fields : List Field) :
    (t.write table id e fields).tables.size table' =
      t.size table' + if table' = table ∧ id ∉ t.ids table then 1 else 0 := by
  rw [← length_ids, ← length_ids, ids_write, List.length_append]
  split
  · rfl
  · rfl

theorem totalSize_write_of_new {id : Value} (new : id ∉ t.ids table) (e : Entity)
    (fields : List Field) :
    (t.write table id e fields).tables.totalSize = t.totalSize + 1 := by
  rw [write_of_row?_eq_none (row?_eq_none_iff.mpr new)]
  exact t.totalSize_append table _

end Tables

/-! ## Books -/

/-- From one state of a store to another the counts of writes and deletions only grow, and the
writes make up for the rows that came in and for those that were deleted. -/
structure Store.Balanced (s s' : Store) : Prop where
  writes : s.counters.writes ≤ s'.counters.writes
  deletes : s.counters.deletes ≤ s'.counters.deletes
  total : s'.tables.totalSize + s'.counters.deletes + s.counters.writes =
    s.tables.totalSize + s.counters.deletes + s'.counters.writes

/-- A call identifies an entity by an id, if it is one of the table, and the id property is
declared. -/
structure Metadata.Identifies (m : Metadata) (e : Entity) (id : Value) : Prop where
  own : e.table = m.table
  declared : ∃ field, m.idField = .ok field
  identified : m.idOf? e = some id

namespace Store

variable {s s' : Store} {m : Metadata}

namespace Balanced

theorem of_same (tables : s'.tables = s.tables) (writes : s'.counters.writes = s.counters.writes)
    (deletes : s'.counters.deletes = s.counters.deletes) : s.Balanced s' :=
  ⟨writes.ge, deletes.ge, by rw [tables, writes, deletes]⟩

theorem of_countRead (tables : s'.tables = s.tables)
    (counted : s'.counters = s.countRead.counters) : s.Balanced s' :=
  of_same tables (congrArg (·.writes) counted) (congrArg (·.deletes) counted)

theorem of_alike (alike : s'.Alike s) : s.Balanced s' := by
  have sizes : s'.tables.totalSize = s.tables.totalSize :=
    Tables.totalSize_congr fun table => congrArg List.length (alike.rows table)
  exact ⟨alike.writes.ge, alike.deletes.ge, by rw [sizes, alike.writes, alike.deletes]⟩

end Balanced

/-! ## Readings -/

theorem counters_findAll (s : Store) (m : Metadata) (condition : Option Condition)
    (sorting : Option Sorting) :
    (s.findAll m condition sorting).2.counters = s.countRead.counters := by
  simp only [findAll]
  split
  · rfl
  · rfl

theorem counters_findBy (s : Store) (m : Metadata) (condition : Condition)
    (sorting : Option Sorting) :
    (s.findBy m condition sorting).2.counters = s.countRead.counters := by
  simp only [findBy]
  split
  · rfl
  · split
    · rfl
    · rfl

theorem findBy_balanced (s : Store) (m : Metadata) (condition : Condition)
    (sorting : Option Sorting) : s.Balanced (s.findBy m condition sorting).2 :=
  .of_countRead (s.tables_findBy m condition sorting) (s.counters_findBy m condition sorting)

theorem findAll_balanced (s : Store) (m : Metadata) (condition : Option Condition)
    (sorting : Option Sorting) : s.Balanced (s.findAll m condition sorting).2 :=
  .of_countRead (s.tables_findAll m condition sorting) (s.counters_findAll m condition sorting)

/-! ## New rows -/

theorem reads_insertAll (s : Store) (m : Metadata) (entities : List Entity) (ids : IdSequence) :
    (s.insertAll m entities ids).2.1.counters.reads = s.counters.reads := by
  unfold insertAll
  generalize m.newRows s.idForm (s.tables.ids m.table) entities ids = outcome
  obtain ⟨result, ids'⟩ := outcome
  cases result with
  | error error => rfl
  | ok rows =>
      simp only [handOutAdded]
      generalize populateAll _ m (rows.map (·.entity)) = filled
      cases filled with
      | error error => rfl
      | ok added => rfl

/-- A batch is counted as one write for each row that it adds. -/
theorem insertAll_balanced (s : Store) (m : Metadata) (entities : List Entity)
    (ids : IdSequence) : s.Balanced (s.insertAll m entities ids).2.1 := by
  cases result : (s.insertAll m entities ids).1 with
  | error error => exact .of_alike (insertAll_alike_of_error result)
  | ok added =>
      obtain ⟨rows, ids', -, filled, after⟩ := insertAll_of_ok result
      have counted : added.length = rows.length := by
        simpa using Metadata.length_populateAll filled
      rw [after]
      refine ⟨Nat.le_add_right _ _, Nat.le_refl _, ?_⟩
      show (s.tables.append m.table rows).totalSize + s.counters.deletes + s.counters.writes =
        s.tables.totalSize + s.counters.deletes + (s.counters.writes + added.length)
      rw [Tables.totalSize_append, counted]
      omega

/-! ## Deletions -/

/-- What is counted as deleted is what a count under the same condition answers before. -/
theorem counters_delete (s : Store) (m : Metadata) (condition : Option Condition) :
    (s.delete m condition).counters = (s.countDeletes (s.count m condition).1).counters := by
  cases condition with
  | none =>
      have every : (s.count m none).1 = s.tables.size m.table :=
        congrArg List.length (List.filter_eq_self.mpr fun _ _ => rfl)
      rw [every]
      rfl
  | some condition => rfl

/-- Rows that are left and rows that are not make up the rows of a table. -/
theorem size_delete (s : Store) (m : Metadata) (condition : Option Condition) :
    (s.delete m condition).tables.size m.table + (s.count m condition).1 =
      s.tables.size m.table := by
  show ((s.delete m condition).tables.rows m.table).length + (List.filter _ _).length = _
  rw [rows_delete, if_pos rfl, Nat.add_comm]
  exact (List.length_eq_length_filter_add _).symm

/-- A deletion counts the rows that it takes away. -/
theorem delete_balanced (s : Store) (m : Metadata) (condition : Option Condition) :
    s.Balanced (s.delete m condition) := by
  have books : (s.delete m condition).tables.totalSize + s.tables.size m.table =
      s.tables.totalSize + (s.delete m condition).tables.size m.table :=
    Tables.totalSize_of_others fun other elsewhere => by
      simp only [Tables.size, rows_delete, if_neg elsewhere]
  have parts := s.size_delete m condition
  refine ⟨?_, ?_, ?_⟩
  · rw [counters_delete]
    exact Nat.le_refl _
  · rw [counters_delete]
    exact Nat.le_add_right _ _
  · rw [counters_delete]
    show _ + (s.counters.deletes + (s.count m condition).1) + s.counters.writes =
      s.tables.totalSize + s.counters.deletes + s.counters.writes
    omega

/-! ## Updates -/

/-- An update is refused, or reads where no field has changed, or else writes. -/
theorem update_cases (s : Store) (m : Metadata) (e : Entity) :
    ((¬∃ id, m.Identifies e id) ∧ ∃ error, s.update m e = (.error error, s)) ∨
      ∃ id, m.Identifies e id ∧
        (s.tracking.changedFields m e = [] ∧ s.update m e = s.refetch m m.idProperty id ∨
          s.tracking.changedFields m e ≠ [] ∧
            s.update m e = s.writeChanges m e id (s.tracking.changedFields m e)) := by
  unfold update
  by_cases own : e.table = m.table
  · rw [if_neg (Decidable.not_not.mpr own)]
    cases declared : m.idField with
    | error error =>
        refine .inl ⟨?_, error, rfl⟩
        rintro ⟨id, -, ⟨field, ok⟩, -⟩
        rw [declared] at ok
        cases ok
    | ok field =>
        simp only
        cases identified : m.idOf? e with
        | none =>
            refine .inl ⟨?_, _, rfl⟩
            rintro ⟨id, -, -, given⟩
            rw [identified] at given
            cases given
        | some id =>
            refine .inr ⟨id, ⟨own, ⟨field, declared⟩, identified⟩, ?_⟩
            simp only
            split
            · rename_i unchanged
              exact .inl ⟨unchanged, by rw [property_of_idField declared]⟩
            · rename_i changed
              exact .inr ⟨changed, rfl⟩
  · rw [if_pos own]
    refine .inl ⟨?_, _, rfl⟩
    rintro ⟨id, here, -, -⟩
    exact own here

/-- An update finds no changed field: it gets as far as looking for one. -/
def FindsNoChange (s : Store) (m : Metadata) (e : Entity) : Prop :=
  (∃ id, m.Identifies e id) ∧ s.tracking.changedFields m e = []

/-- An update merges into a row: it succeeds, has changed fields, and its id is stored. -/
def Merges (s : Store) (m : Metadata) (e : Entity) : Prop :=
  (∃ updated, (s.update m e).1 = .ok updated) ∧ s.tracking.changedFields m e ≠ [] ∧
    ∃ id, m.idOf? e = some id ∧ id ∈ s.tables.ids m.table

theorem reads_writeChanges (s : Store) (m : Metadata) (e : Entity) (id : Value)
    (changed : List Field) :
    (s.writeChanges m e id changed).2.counters.reads = s.counters.reads := by
  simp only [writeChanges]
  split
  · rfl
  · rfl

theorem writeChanges_of_ok {e updated : Entity} {id : Value} {changed : List Field}
    (ok : (s.writeChanges m e id changed).1 = .ok updated) :
    (s.writeChanges m e id changed).2.counters = (s.countWrites 1).counters ∧
      (s.writeChanges m e id changed).2.tables =
        (s.tables.write m.table id e changed).tables := by
  simp only [writeChanges] at ok ⊢
  split at ok
  · cases ok
  · exact ⟨rfl, rfl⟩

/-- An update is counted as a read exactly if it finds no changed field. -/
theorem reads_update (s : Store) (m : Metadata) (e : Entity) :
    (s.FindsNoChange m e → (s.update m e).2.counters.reads = s.counters.reads + 1) ∧
      (¬s.FindsNoChange m e → (s.update m e).2.counters.reads = s.counters.reads) := by
  rcases s.update_cases m e with
    ⟨unfit, error, refused⟩ | ⟨id, fit, ⟨unchanged, read⟩ | ⟨changed, written⟩⟩
  · rw [refused]
    exact ⟨fun finds => (unfit finds.1).elim, fun _ => rfl⟩
  · rw [read, refetch_snd, counters_findBy]
    exact ⟨fun _ => rfl, fun finds => (finds ⟨⟨id, fit⟩, unchanged⟩).elim⟩
  · rw [written, reads_writeChanges]
    exact ⟨fun finds => (changed finds.2).elim, fun _ => rfl⟩

/-- What is merged is counted as one write and adds no row. -/
theorem update_of_merges {e : Entity} (merges : s.Merges m e) :
    (s.update m e).2.counters = (s.countWrites 1).counters ∧
      ∀ table, (s.update m e).2.tables.size table = s.tables.size table := by
  obtain ⟨⟨updated, ok⟩, changed, id, identified, stored⟩ := merges
  rcases s.update_cases m e with
    ⟨-, error, refused⟩ | ⟨id', fit, ⟨unchanged, -⟩ | ⟨-, written⟩⟩
  · rw [refused] at ok
    cases ok
  · exact (changed unchanged).elim
  · cases identified.symm.trans fit.identified
    rw [written] at ok ⊢
    obtain ⟨counters, tables⟩ := writeChanges_of_ok ok
    refine ⟨counters, fun table => ?_⟩
    rw [tables, Tables.size_write, if_neg fun both => both.2 stored, Nat.add_zero]

/-- An update that does not merge reads, or adds a row and counts it as written. -/
theorem update_balanced {e : Entity} (unmerged : ¬s.Merges m e) :
    s.Balanced (s.update m e).2 := by
  cases result : (s.update m e).1 with
  | error error => exact .of_alike (update_alike_of_error result)
  | ok updated =>
      rcases s.update_cases m e with
        ⟨-, error, refused⟩ | ⟨id, fit, ⟨-, read⟩ | ⟨changed, written⟩⟩
      · rw [refused]
        exact .of_same rfl rfl rfl
      · rw [read, refetch_snd]
        exact s.findBy_balanced m _ none
      · have new : id ∉ s.tables.ids m.table := fun stored =>
          unmerged ⟨⟨updated, result⟩, changed, id, fit.identified, stored⟩
        rw [written] at result ⊢
        obtain ⟨counters, tables⟩ := writeChanges_of_ok result
        have size := Tables.totalSize_write_of_new new e (s.tracking.changedFields m e)
        rw [← tables] at size
        refine ⟨?_, ?_, ?_⟩
        · rw [counters]
          exact Nat.le_succ _
        · rw [counters]
          exact Nat.le_refl _
        · rw [counters, size]
          show s.tables.totalSize + 1 + s.counters.deletes + s.counters.writes =
            s.tables.totalSize + s.counters.deletes + (s.counters.writes + 1)
          omega

end Store

/-! ## Steps and runs -/

namespace Session

/-- The call is an update that merges into a row. -/
def Merges (c : Session) : Operation → Prop
  | .update m e => c.store.Merges m e
  | _ => False

/-- The call is counted as a read: it is one, or an update that finds no changed field. -/
def CountsRead (c : Session) : Operation → Prop
  | .count .. => True
  | .hasMatch .. => True
  | .findAll .. => True
  | .findBy .. => True
  | .update m e => c.store.FindsNoChange m e
  | _ => False

/-- Every call but a merging update and `destroy` keeps the books balanced. -/
theorem step_balanced (c : Session) {operation : Operation} (unmerged : ¬c.Merges operation)
    (kept : operation ≠ .destroy) : c.store.Balanced (c.step operation).2.store := by
  cases operation with
  | register m => exact .of_same rfl rfl rfl
  | destroy => exact (kept rfl).elim
  | count m condition => exact .of_same rfl rfl rfl
  | hasMatch m condition => exact .of_same rfl rfl rfl
  | findAll m condition sorting => exact c.store.findAll_balanced m condition sorting
  | findBy m condition sorting => exact c.store.findBy_balanced m condition sorting
  | insert m e =>
      show c.store.Balanced (c.store.insert m e c.ids).2.1
      rw [Store.insert_snd]
      exact c.store.insertAll_balanced m [e] c.ids
  | insertAll m entities => exact c.store.insertAll_balanced m entities c.ids
  | update m e => exact Store.update_balanced unmerged
  | delete m condition => exact c.store.delete_balanced m condition

theorem step_of_merges {c : Session} {operation : Operation} (merges : c.Merges operation) :
    (c.step operation).2.store.counters = (c.store.countWrites 1).counters ∧
      ∀ table, (c.step operation).2.store.tables.size table = c.store.tables.size table := by
  cases operation with
  | update m e => exact Store.update_of_merges merges
  | _ => exact merges.elim

/-- Calls that are counted as reads are counted once, and no other call is. -/
theorem reads_step (c : Session) (operation : Operation) :
    (c.CountsRead operation →
        (c.step operation).2.store.counters.reads = c.store.counters.reads + 1) ∧
      (¬c.CountsRead operation →
        (c.step operation).2.store.counters.reads = c.store.counters.reads) := by
  cases operation with
  | register m => exact ⟨False.elim, fun _ => rfl⟩
  | destroy => exact ⟨False.elim, fun _ => rfl⟩
  | count m condition => exact ⟨fun _ => rfl, fun unread => (unread trivial).elim⟩
  | hasMatch m condition => exact ⟨fun _ => rfl, fun unread => (unread trivial).elim⟩
  | findAll m condition sorting =>
      have counted := congrArg (·.reads) (c.store.counters_findAll m condition sorting)
      exact ⟨fun _ => counted, fun unread => (unread trivial).elim⟩
  | findBy m condition sorting =>
      have counted := congrArg (·.reads) (c.store.counters_findBy m condition sorting)
      exact ⟨fun _ => counted, fun unread => (unread trivial).elim⟩
  | insert m e =>
      refine ⟨False.elim, fun _ => ?_⟩
      show (c.store.insert m e c.ids).2.1.counters.reads = c.store.counters.reads
      rw [Store.insert_snd]
      exact c.store.reads_insertAll m [e] c.ids
  | insertAll m entities => exact ⟨False.elim, fun _ => c.store.reads_insertAll m entities c.ids⟩
  | update m e => exact c.store.reads_update m e
  | delete m condition =>
      refine ⟨False.elim, fun _ => ?_⟩
      cases condition with
      | none => rfl
      | some condition => rfl

/-- What is stored and what has been deleted has been written before. -/
theorem total_of_run (idForm : IdForm) (ids : IdSequence) (operations : List Operation) :
    let store := ((start idForm ids).run operations).store
    store.tables.totalSize + store.counters.deletes ≤ store.counters.writes := by
  refine run_invariant
    (fun c => c.store.tables.totalSize + c.store.counters.deletes ≤ c.store.counters.writes)
    (fun c covered operation _ => ?_) (Nat.le_refl 0)
  by_cases merges : c.Merges operation
  · obtain ⟨counters, sizes⟩ := step_of_merges merges
    rw [counters, Tables.totalSize_congr sizes]
    exact Nat.le_succ_of_le covered
  · by_cases kept : operation = .destroy
    · subst kept
      show 0 + c.store.counters.deletes ≤ c.store.counters.writes
      omega
    · have books := (c.step_balanced merges kept).total
      omega

/-- The counters after every run, and what the next call does to them.  They never go down.  The
rows of all tables together grow by what is written and not deleted, except that a merging update
counts as a write and adds no row, and that `destroy` drops all rows and counts nothing.  A failed
call changes neither counts nor sizes, apart from the count of reads.  That grows by one with each
reading, and with each update that finds no changed field.  And no more is stored and deleted than
has been written. -/
theorem counters_of_run (idForm : IdForm) (ids : IdSequence) (earlier : List Operation)
    (operation : Operation) :
    let before := (start idForm ids).run earlier
    let after := (before.step operation).2
    let total (c : Session) : Int := c.store.tables.totalSize
    let writes (c : Session) : Int := c.store.counters.writes
    let deletes (c : Session) : Int := c.store.counters.deletes
    (writes before ≤ writes after ∧ deletes before ≤ deletes after) ∧
      (¬before.Merges operation → operation ≠ .destroy →
        total after - total before =
          (writes after - writes before) - (deletes after - deletes before)) ∧
      (before.Merges operation →
        writes after = writes before + 1 ∧ deletes after = deletes before ∧
          ∀ table, after.store.tables.size table = before.store.tables.size table) ∧
      (operation = .destroy → after.store.counters = before.store.counters ∧ total after = 0) ∧
      (∀ error, (before.step operation).1 = .error error →
        writes after = writes before ∧ deletes after = deletes before ∧
          ∀ table, after.store.tables.size table = before.store.tables.size table) ∧
      (before.CountsRead operation →
        after.store.counters.reads = before.store.counters.reads + 1) ∧
      (¬before.CountsRead operation →
        after.store.counters.reads = before.store.counters.reads) ∧
      total before + deletes before ≤ writes before := by
  intro before after total writes deletes
  have merged : before.Merges operation →
      writes after = writes before + 1 ∧ deletes after = deletes before ∧
        ∀ table, after.store.tables.size table = before.store.tables.size table := by
    intro merges
    obtain ⟨counters, sizes⟩ := step_of_merges merges
    refine ⟨?_, ?_, sizes⟩
    · simp only [writes, after, counters]
      rfl
    · simp only [deletes, after, counters]
      rfl
  have destroyed : operation = .destroy →
      after.store.counters = before.store.counters ∧ total after = 0 := by
    rintro rfl
    exact ⟨rfl, rfl⟩
  have balanced : ¬before.Merges operation → operation ≠ .destroy →
      before.store.Balanced after.store := fun unmerged kept => before.step_balanced unmerged kept
  have grown : writes before ≤ writes after ∧ deletes before ≤ deletes after := by
    by_cases merges : before.Merges operation
    · obtain ⟨one, none, -⟩ := merged merges
      omega
    · by_cases kept : operation = .destroy
      · obtain ⟨same, -⟩ := destroyed kept
        simp only [writes, deletes, same]
        exact ⟨Int.le_refl _, Int.le_refl _⟩
      · obtain ⟨moreWrites, moreDeletes, -⟩ := balanced merges kept
        exact ⟨Int.ofNat_le.mpr moreWrites, Int.ofNat_le.mpr moreDeletes⟩
  refine ⟨grown, fun unmerged kept => ?_, merged, destroyed, fun error failed => ?_,
    (before.reads_step operation).1, (before.reads_step operation).2, ?_⟩
  · have books := (balanced unmerged kept).total
    simp only [total, writes, deletes]
    omega
  · have alike := step_alike_of_error failed
    exact ⟨congrArg Int.ofNat alike.writes, congrArg Int.ofNat alike.deletes,
      fun table => congrArg List.length (alike.rows table)⟩
  · have covered : before.store.tables.totalSize + before.store.counters.deletes ≤
        before.store.counters.writes := total_of_run idForm ids earlier
    simp only [total, writes, deletes]
    omega

/-- A user and a contact are stored.  The user's new city is a third write and no third row, all
contacts are one row and one deletion, and what is stored again without a change is a read. -/
theorem counters_of_run_samples :
    let before := (start .text .start).run Samples.calls
    let merging := Operation.update Samples.users ((Samples.userOf "u1" "c1").set "city" "Oulu")
    let deleting := Operation.delete Samples.contacts none
    let rereading := Operation.update Samples.users (Samples.userOf "u1" "c1")
    let written : Int := (before.step merging).2.store.counters.writes
    let left : Int := (before.step deleting).2.store.tables.totalSize
    before.Merges merging ∧ written = 3 ∧ left = 1 ∧ before.CountsRead rereading ∧
      (before.step rereading).2.store.counters.reads = 1 := by
  intro before merging deleting rereading written left
  have merges : before.Merges merging :=
    ⟨⟨_, rfl⟩, by decide +kernel, "u1", rfl, by decide +kernel⟩
  have rereads : before.CountsRead rereading :=
    ⟨⟨"u1", rfl, ⟨_, rfl⟩, rfl⟩, by decide +kernel⟩
  obtain ⟨-, -, merged, -⟩ := counters_of_run .text .start Samples.calls merging
  obtain ⟨-, balanced, -⟩ := counters_of_run .text .start Samples.calls deleting
  obtain ⟨-, -, -, -, -, reads, -⟩ := counters_of_run .text .start Samples.calls rereading
  have change : left - 2 = (2 - 2) - (1 - 0) := balanced False.elim nofun
  exact ⟨merges, (merged merges).1, by omega, rereads, reads rereads⟩

end Session

end EntityStore
