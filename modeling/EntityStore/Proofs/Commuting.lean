import EntityStore.Proofs.Refinement

/-!
Updates of different rows commute.

An update of a stored entity looks at its own row, at the descriptions, and at which ids are stored
in which tables, for only that decides whether the relations can be filled in.  What it comes to
can so be computed in advance (`Metadata.revise`), and carrying it out replaces the entity of one
row, remembers the entity for one id, and counts the work (`Store.update_of_row`).  No id comes or
goes by that, so neither of two updates changes what the other comes to, and what they change
stands in different places (`Store.carryOut_comm`).
-/

namespace EntityStore

/-- What an update of a stored entity comes to: the answer but for relations, the entity that is
stored from then on, and the work that is counted. -/
structure Revision where
  answer : Except Error Entity
  stored : Entity
  reads : Nat
  writes : Nat

/-- What updating a stored entity with a given one comes to.  A refused update leaves it as it is;
one that gives the declared fields the values that they have reads it; any other writes it, unless
the entity so stored could not have its relations filled in. -/
def Metadata.revise (registry : Registry) (stores : String → Value → Bool) (m : Metadata)
    (given stored : Entity) : Revision :=
  if given.table ≠ m.table then ⟨.error (.tableMismatch m.table given.table), stored, 0, 0⟩
  else
    match m.idField with
    | .error error => ⟨.error error, stored, 0, 0⟩
    | .ok _ =>
        if ∀ field ∈ m.fields, given.get? field.property = stored.get? field.property then
          match m.fault? registry stores stored with
          | some error => ⟨.error error, stored, 1, 0⟩
          | none => ⟨.ok stored.withoutRelations, stored, 1, 0⟩
        else
          let merged := stored.mergeFields given m.fields
          match m.fault? registry stores merged with
          | some error => ⟨.error error, stored, 0, 0⟩
          | none => ⟨.ok merged.withoutRelations, merged, 0, 1⟩

/-- The store after a revision of the entity stored under an id. -/
def Store.carryOut (s : Store) (m : Metadata) (id : Value) (revision : Revision) : Store where
  idForm := s.idForm
  tables := s.tables.modify m.table (Row.replace id revision.stored)
  registry := s.registry
  tracking := s.tracking.save m revision.stored
  counters :=
    { reads := s.counters.reads + revision.reads
      writes := s.counters.writes + revision.writes
      deletes := s.counters.deletes }

/-! ## Changes of tables -/

namespace Tables

variable {t : Tables} {table table' : String} {id id' : Value}

theorem ext_get? {a b : Tables} (agree : ∀ table, a.stored.get? table = b.stored.get? table) :
    a = b := by
  cases a
  cases b
  congr
  exact SortedMap.ext agree

/-- A change shows in its table alone, and only if that is there. -/
theorem get?_modify (t : Tables) (table table' : String) (change : List Row → List Row) :
    (t.modify table change).stored.get? table' =
      if table' = table then (t.stored.get? table).map change else t.stored.get? table' := by
  unfold modify
  cases found : t.stored.get? table with
  | none =>
      by_cases own : table' = table
      · simpa [own] using found
      · simp [own]
  | some rows => exact SortedMap.get?_insert t.stored table table' (change rows)

theorem modify_modify (t : Tables) (table : String) (first next : List Row → List Row) :
    (t.modify table first).modify table next = t.modify table (next ∘ first) := by
  refine ext_get? fun table' => ?_
  simp only [get?_modify, if_true, Option.map_map]
  split
  · rfl
  · rfl

/-- A change that leaves the rows as they are leaves the tables as they are. -/
theorem modify_eq_self {change : List Row → List Row}
    (kept : change (t.rows table) = t.rows table) : t.modify table change = t := by
  refine ext_get? fun table' => ?_
  rw [get?_modify]
  split
  · rename_i own
    subst own
    unfold rows at kept
    cases found : t.stored.get? table' with
    | none => rfl
    | some rows =>
        rw [found] at kept
        exact congrArg some kept
  · rfl

/-- Changes that commute on rows, or concern different tables, commute. -/
theorem modify_comm {change change' : List Row → List Row}
    (apart : table ≠ table' ∨ ∀ rows, change (change' rows) = change' (change rows)) :
    (t.modify table change).modify table' change' =
      (t.modify table' change').modify table change := by
  refine ext_get? fun asked => ?_
  simp only [get?_modify]
  by_cases same : table = table'
  · subst same
    have swapped : change' ∘ change = change ∘ change' :=
      funext fun rows => (apart.resolve_left (fun other => other rfl) rows).symm
    simp only [if_true, Option.map_map, swapped]
    by_cases own : asked = table
    · rw [if_pos own, if_pos own]
    · simp only [if_neg own]
  · have other : table' ≠ table := Ne.symm same
    simp only [if_neg same, if_neg other]
    split
    · rename_i own
      rw [if_neg (own ▸ other)]
    · rfl

end Tables

/-- Replacements under different ids commute. -/
theorem Row.replace_comm {id id' : Value} (different : id ≠ id') (e e' : Entity)
    (rows : List Row) :
    replace id e (replace id' e' rows) = replace id' e' (replace id e rows) := by
  induction rows with
  | nil => rfl
  | cons first rest ih =>
      by_cases here : first.id = id
      · have other : first.id ≠ id' := here ▸ different
        simp [replace, here, different]
      · by_cases there : first.id = id'
        · simp [replace, there, Ne.symm different]
        · simp [replace, here, there, ih]

/-- Another entity under an id changes nothing about which ids are stored. -/
theorem Tables.stores_modify_replace (t : Tables) (table : String) (id : Value) (e : Entity) :
    (t.modify table (Row.replace id e)).stores = t.stores := by
  funext table' id'
  rw [Bool.eq_iff_iff, stores_iff, stores_iff]
  unfold ids
  rw [rows_modify_replace]
  split
  · rename_i own
    rw [own, Row.map_id_replace]
  · rfl

/-- Entities of different tables, or with different ids, are remembered in any order. -/
theorem Tracking.save_comm (t : Tracking) {m m' : Metadata} {e e' : Entity} {id id' : Value}
    (identified : m.idOf? e = some id) (identified' : m'.idOf? e' = some id')
    (apart : m.table ≠ m'.table ∨ id ≠ id') :
    (t.save m e).save m' e' = (t.save m' e').save m e := by
  refine Tracking.ext fun table asked => ?_
  simp only [snapshot?_save, identified, identified', Option.some.injEq]
  by_cases first : id = asked ∧ m.table = table
  · have other : ¬(id' = asked ∧ m'.table = table) := by
      rintro ⟨sameId, sameTable⟩
      rcases apart with tables | ids
      · exact tables (first.2.trans sameTable.symm)
      · exact ids (first.1.trans sameId.symm)
    rw [if_pos first, if_pos first, if_neg other]
  · rw [if_neg first, if_neg first]

/-! ## An update carries a revision out -/

namespace Store

variable {s : Store} {describe : String → Metadata} {m : Metadata} {given : Entity} {row : Row}

section StoredRow

variable (mirrors : s.tracking.Mirrors describe s.tables) (follows : describe m.table = m)
  (stored : row ∈ s.tables.rows m.table)

include mirrors stored

theorem modify_replace_row : s.tables.modify m.table (Row.replace row.id row.entity) = s.tables :=
  Tables.modify_eq_self
    (Row.replace_of_find? (mirrors.regular.row?_eq_some_iff.mpr ⟨stored, rfl⟩))

include follows

/-- A revision that stores what is stored is counted and does nothing else. -/
theorem carryOut_of_unwritten (answer : Except Error Entity) (reads : Nat) :
    s.carryOut m row.id ⟨answer, row.entity, reads, 0⟩ =
      { s with counters.reads := s.counters.reads + reads } := by
  have remembered : s.tracking.saveAll m [row.entity] = s.tracking := by
    refine mirrors.saveAll_eq_self follows fun e member => ?_
    exact ⟨row, stored, congrArg Entity.withoutRelations (List.mem_singleton.mp member)⟩
  have saved : s.tracking.save m row.entity = s.tracking := remembered
  unfold carryOut
  simp only [modify_replace_row mirrors stored, saved, Nat.add_zero]

/-- Fetching the row again reads it, and fails if its relations have a fault. -/
theorem refetch_carriesOut :
    let revision : Revision := match m.fault? s.registry s.tables.stores row.entity with
      | some error => ⟨.error error, row.entity, 1, 0⟩
      | none => ⟨.ok row.entity.withoutRelations, row.entity, 1, 0⟩
    (s.refetch m m.idProperty row.id).1.map Entity.withoutRelations = revision.answer ∧
      (s.refetch m m.idProperty row.id).2 = s.carryOut m row.id revision := by
  rw [refetch_of_row mirrors follows stored]
  simp only [populate, Metadata.map_withoutRelations_populate]
  cases m.fault? s.registry s.tables.stores row.entity with
  | none => exact ⟨rfl, (carryOut_of_unwritten mirrors follows stored _ 1).symm⟩
  | some error => exact ⟨rfl, (carryOut_of_unwritten mirrors follows stored _ 1).symm⟩

/-- Writing the changed fields replaces the entity of the row by the merged one, unless the
relations of that have a fault. -/
theorem writeChanges_carriesOut (identified : m.idOf? given = some row.id) :
    let merged := row.entity.mergeFields given m.fields
    let revision : Revision := match m.fault? s.registry s.tables.stores merged with
      | some error => ⟨.error error, row.entity, 0, 0⟩
      | none => ⟨.ok merged.withoutRelations, merged, 0, 1⟩
    let written := s.writeChanges m given row.id (s.tracking.changedFields m given)
    written.1.map Entity.withoutRelations = revision.answer ∧
      written.2 = s.carryOut m row.id revision := by
  intro merged revision written
  have found := mirrors.regular.row?_eq_some_iff.mpr ⟨stored, rfl⟩
  have put : s.tables.write m.table row.id given (s.tracking.changedFields m given) =
      ⟨merged, some row.entity, s.tables.modify m.table (Row.replace row.id merged)⟩ := by
    rw [Tables.write_of_row?_eq_some found, mirrors.changedFields_of_row follows identified found,
      Entity.mergeFields_filter]
  have stores := s.tables.stores_modify_replace m.table row.id merged
  cases fault : m.fault? s.registry s.tables.stores merged with
  | some error =>
      have failed : m.populate s.registry
          (s.tables.modify m.table (Row.replace row.id merged)) merged = .error error :=
        Metadata.populate_eq_error_iff.mpr (by rw [stores, fault])
      -- The row gets its entity back, which leaves the table as it was.
      have restored : (s.tables.modify m.table (Row.replace row.id merged)).restore m.table row.id
          (some row.entity) = s.tables := by
        rw [Tables.restore, Tables.modify_modify]
        refine Tables.modify_eq_self ?_
        rw [Function.comp_apply, Row.replace_replace]
        exact Row.replace_of_find? found
      simp only [written, revision, writeChanges, put, populate, fault, failed, restored]
      exact ⟨rfl, (carryOut_of_unwritten mirrors follows stored _ 0).symm⟩
  | none =>
      obtain ⟨populated, filled⟩ : ∃ populated, m.populate s.registry
          (s.tables.modify m.table (Row.replace row.id merged)) merged = .ok populated :=
        Metadata.exists_populate_iff.mpr (by rw [stores, fault])
      have same := Metadata.withoutRelations_populate filled
      simp only [written, revision, writeChanges, put, populate, fault, filled]
      rw [Tracking.save_eq_of_withoutRelations s.tracking same]
      exact ⟨congrArg Except.ok same, rfl⟩

/-- Updating a stored entity answers what the revision of its row answers, and carries it out. -/
theorem update_of_row (identified : m.idOf? given = some row.id) :
    let revision := m.revise s.registry s.tables.stores given row.entity
    (s.update m given).1.map Entity.withoutRelations = revision.answer ∧
      (s.update m given).2 = s.carryOut m row.id revision := by
  intro revision
  simp only [revision]
  unfold update Metadata.revise
  by_cases foreign : given.table ≠ m.table
  · rw [if_pos foreign, if_pos foreign]
    exact ⟨rfl, (carryOut_of_unwritten mirrors follows stored _ 0).symm⟩
  · rw [if_neg foreign, if_neg foreign]
    cases declared : m.idField with
    | error error => exact ⟨rfl, (carryOut_of_unwritten mirrors follows stored _ 0).symm⟩
    | ok idField =>
        have found := mirrors.regular.row?_eq_some_iff.mpr ⟨stored, rfl⟩
        have unchanged : s.tracking.changedFields m given = [] ↔
            ∀ field ∈ m.fields, given.get? field.property = row.entity.get? field.property := by
          rw [mirrors.changedFields_of_row follows identified found, List.filter_eq_nil_iff]
          simp
        simp only [identified]
        split
        · rename_i none
          rw [if_pos (unchanged.mp none), property_of_idField declared]
          exact refetch_carriesOut mirrors follows stored
        · rename_i changed
          rw [if_neg (fun agree => changed (unchanged.mpr agree))]
          exact writeChanges_carriesOut mirrors follows stored identified

end StoredRow

end Store

/-! ## Two updates -/

/-- What is stored by a revision keeps its id. -/
theorem Metadata.idOf?_stored_revise {registry : Registry} {stores : String → Value → Bool}
    {m : Metadata} {given stored : Entity} {id : Value} (identified : m.idOf? given = some id)
    (holds : m.idOf? stored = some id) :
    m.idOf? (m.revise registry stores given stored).stored = some id := by
  unfold revise
  split
  · exact holds
  · split
    · exact holds
    · split
      · split
        · exact holds
        · exact holds
      · dsimp only
        split
        · exact holds
        · have kept := Entity.get?_mergeFields_of_agree m.fields (get?_of_idOf? holds)
            (get?_of_idOf? identified)
          exact idOf?_of_get? kept (isTruthy_idOf? identified)

theorem Row.mem_replace_of_ne {id : Value} {row : Row} {rows : List Row} (e : Entity)
    (member : row ∈ rows) (other : row.id ≠ id) : row ∈ replace id e rows := by
  induction rows with
  | nil => cases member
  | cons first rest ih =>
      rw [replace]
      rcases List.mem_cons.mp member with rfl | later
      · rw [if_neg other]
        exact List.mem_cons_self
      · split
        · exact List.mem_cons_of_mem _ later
        · exact List.mem_cons_of_mem _ (ih later)

namespace Store

variable {s : Store} {describe : String → Metadata} {m m' : Metadata}

theorem stores_carryOut (id : Value) (revision : Revision) :
    (s.carryOut m id revision).tables.stores = s.tables.stores :=
  Tables.stores_modify_replace _ _ _ _

/-- A row of another table, or with another id, stays as it is. -/
theorem mem_rows_carryOut {id : Value} {revision : Revision} {row : Row}
    (stored : row ∈ s.tables.rows m'.table) (apart : m.table ≠ m'.table ∨ id ≠ row.id) :
    row ∈ (s.carryOut m id revision).tables.rows m'.table := by
  show row ∈ (s.tables.modify m.table (Row.replace id revision.stored)).rows m'.table
  rw [Tables.rows_modify_replace]
  split
  · rename_i own
    have other := apart.resolve_left fun tables => tables own.symm
    rw [own] at stored
    exact Row.mem_replace_of_ne _ stored (Ne.symm other)
  · exact stored

/-- Revisions of entities of different tables, or with different ids, are carried out in any
order. -/
theorem carryOut_comm {id id' : Value} {revision revision' : Revision}
    (identified : m.idOf? revision.stored = some id)
    (identified' : m'.idOf? revision'.stored = some id') (apart : m.table ≠ m'.table ∨ id ≠ id') :
    (s.carryOut m id revision).carryOut m' id' revision' =
      (s.carryOut m' id' revision').carryOut m id revision := by
  have tables := Tables.modify_comm (t := s.tables)
    (apart.imp_right fun ids => Row.replace_comm ids revision.stored revision'.stored)
  have tracking := s.tracking.save_comm identified identified' apart
  simp only [carryOut, tables, tracking, Nat.add_right_comm]

variable {e e' : Entity} {row row' : Row}

/-- After the update of another stored entity, an update answers what it would have answered
before it, and carries out what it would have carried out. -/
theorem update_after_update (mirrors : s.tracking.Mirrors describe s.tables)
    (follows : describe m.table = m) (follows' : describe m'.table = m')
    (stored : row ∈ s.tables.rows m.table) (stored' : row' ∈ s.tables.rows m'.table)
    (identified : m.idOf? e = some row.id) (identified' : m'.idOf? e' = some row'.id)
    (apart : m.table ≠ m'.table ∨ row.id ≠ row'.id) :
    let revision := m.revise s.registry s.tables.stores e row.entity
    let revision' := m'.revise s.registry s.tables.stores e' row'.entity
    ((s.update m e).2.update m' e').1.map Entity.withoutRelations = revision'.answer ∧
      ((s.update m e).2.update m' e').2 =
        (s.carryOut m row.id revision).carryOut m' row'.id revision' := by
  intro revision revision'
  have after := update_mirrors mirrors follows e
  rw [(update_of_row mirrors follows stored identified).2] at after ⊢
  have second := update_of_row after follows' (mem_rows_carryOut stored' apart) identified'
  rw [stores_carryOut] at second
  exact second

end Store

/-- Updates of two different stored entities can be exchanged: each is answered alike either way,
an error or the same table and properties, and the store is the same after both: its rows, what it
remembers and what it has counted. -/
theorem Session.updates_commute (describe : String → Metadata) (idForm : IdForm)
    (ids : IdSequence) (operations : List Operation)
    (follows : ∀ operation ∈ operations, operation.Follows describe) (m m' : Metadata)
    (given : describe m.table = m) (given' : describe m'.table = m') (e e' : Entity)
    (id id' : Value) (identified : m.idOf? e = some id) (identified' : m'.idOf? e' = some id') :
    let store := ((start idForm ids).run operations).store
    id ∈ store.tables.ids m.table → id' ∈ store.tables.ids m'.table →
      m.table ≠ m'.table ∨ id ≠ id' →
      let first := store.update m e
      let second := first.2.update m' e'
      let first' := store.update m' e'
      let second' := first'.2.update m e
      first.1.map Entity.withoutRelations = second'.1.map Entity.withoutRelations ∧
        second.1.map Entity.withoutRelations = first'.1.map Entity.withoutRelations ∧
        second.2 = second'.2 := by
  intro store member member' apart
  have mirrors : store.tracking.Mirrors describe store.tables := run_mirrors idForm ids follows
  obtain ⟨row, stored, rfl⟩ := List.mem_map.mp member
  obtain ⟨row', stored', rfl⟩ := List.mem_map.mp member'
  have holds := mirrors.idOf?_of_row given stored (Metadata.isTruthy_idOf? identified)
  have holds' := mirrors.idOf?_of_row given' stored' (Metadata.isTruthy_idOf? identified')
  have apart' := apart.imp Ne.symm Ne.symm
  obtain ⟨answer, -⟩ := Store.update_of_row mirrors given stored identified
  obtain ⟨answer', -⟩ := Store.update_of_row mirrors given' stored' identified'
  obtain ⟨later', after⟩ := Store.update_after_update mirrors given given' stored stored'
    identified identified' apart
  obtain ⟨later, after'⟩ := Store.update_after_update mirrors given' given stored' stored
    identified' identified apart'
  refine ⟨answer.trans later.symm, later'.trans answer'.symm, ?_⟩
  refine after.trans (Eq.trans ?_ after'.symm)
  exact Store.carryOut_comm (Metadata.idOf?_stored_revise identified holds)
    (Metadata.idOf?_stored_revise identified' holds') apart

/-- A user is moved to a contact that is missing, and a cart of hers is renamed: the move fails
before the other update as after it, and the store is the same in the end. -/
theorem Session.updates_commute_samples :
    let basket := (Samples.cart "u1" "groceries" 20).set "id" "k1"
    let calls := Samples.calls ++ [.insert Samples.carts basket]
    let store := ((start .text .start).run calls).store
    let moved := Samples.userOf "u1" "c9"
    let renamed := basket.set "name" "gifts"
    let error := Error.danglingReference "contact" "contacts" "c9"
    (∀ operation ∈ calls, operation.Follows Samples.describe) ∧
      .text "u1" ∈ store.tables.ids "users" ∧ .text "k1" ∈ store.tables.ids "carts" ∧
      (store.update Samples.users moved).1 = .error error ∧
      ((store.update Samples.carts renamed).2.update Samples.users moved).1.map
        Entity.withoutRelations = .error error ∧
      ((store.update Samples.users moved).2.update Samples.carts renamed).2 =
        ((store.update Samples.carts renamed).2.update Samples.users moved).2 := by
  intro basket calls store moved renamed error
  have follows : ∀ operation ∈ calls, operation.Follows Samples.describe := by decide
  have member : .text "u1" ∈ store.tables.ids "users" := by decide +kernel
  have member' : .text "k1" ∈ store.tables.ids "carts" := by decide +kernel
  have failed : (store.update Samples.users moved).1 = .error error := by rfl
  obtain ⟨first, -, same⟩ := updates_commute Samples.describe .text .start calls follows
    Samples.users Samples.carts rfl rfl moved renamed (.text "u1") (.text "k1") (by rfl) (by rfl)
    member member' (.inl (by decide))
  refine ⟨follows, member, member', failed, ?_, same⟩
  rw [← first, failed]
  rfl

end EntityStore
