import EntityStore.Proofs.Storage
import EntityStore.Samples

/-!
The ids that rows are stored under.

A call stores rows only under ids that it is passed or that it generates for the numbers it draws
(`Session.mem_ids_step`).  An id that is passed is truthy, for it is read off an entity; an id that
is generated is truthy unless its number is 0, which comes only when the numbers start again.  So
until the sequence is exhausted every row has a truthy id (`Session.run_hasTruthyIds`), and it is
exactly the stored entities that are remembered (`Session.remembered_iff_stored`).
-/

namespace EntityStore

/-! ## Numbers that are drawn -/

namespace IdSequence

/-- The numbers that a sequence has handed out since an earlier state of it. -/
def drawnSince (ids' ids : IdSequence) : List UInt64 :=
  (List.range' (ids.count + 1) (ids'.count - ids.count)).map UInt64.ofNat

theorem Unexhausted.of_count_le {ids ids' : IdSequence} (unexhausted : ids'.Unexhausted)
    (sooner : ids.count ≤ ids'.count) : ids.Unexhausted :=
  Nat.lt_of_le_of_lt sooner unexhausted

theorem mem_drawnSince {ids ids' : IdSequence} {n : UInt64} :
    n ∈ ids'.drawnSince ids ↔ ∃ k, ids.count < k ∧ k ≤ ids'.count ∧ n = .ofNat k := by
  unfold drawnSince
  rw [List.mem_map]
  constructor
  · rintro ⟨k, counted, rfl⟩
    rw [List.mem_range'_1] at counted
    exact ⟨k, by omega, by omega, rfl⟩
  · rintro ⟨k, after, bound, rfl⟩
    exact ⟨k, List.mem_range'_1.mpr (by omega), rfl⟩

/-- Until the numbers start again, those handed out lie between the counts. -/
theorem bounds_of_mem_drawnSince {ids ids' : IdSequence} {n : UInt64}
    (unexhausted : ids'.Unexhausted) (drawn : n ∈ ids'.drawnSince ids) :
    ids.count < n.toNat ∧ n.toNat ≤ ids'.count := by
  obtain ⟨k, after, bound, rfl⟩ := mem_drawnSince.mp drawn
  rw [UInt64.toNat_ofNat_of_lt' (Nat.lt_of_le_of_lt bound unexhausted)]
  exact ⟨after, bound⟩

end IdSequence

/-- An id that is generated is truthy, unless its number is 0. -/
theorem Metadata.isTruthy_freshId {m : Metadata} {form : IdForm} {n : UInt64} {id : Value}
    (positive : 0 < n.toNat) (fresh : m.freshId form n = .ok id) : id.isTruthy = true := by
  rcases freshId_of_ok fresh with ⟨rfl, value⟩ | rfl
  · have nonzero : Int64.ofNat n.toNat ≠ 0 := by
      intro zero
      rw [zero] at value
      have none : (0 : Int) = n.toNat := value
      omega
    exact bne_iff_ne.mpr nonzero
  · have nonempty : toString n.toNat ≠ "" := by simp
    exact bne_iff_ne.mpr nonempty

/-! ## New rows -/

namespace Metadata

variable {m : Metadata} {form : IdForm} {e : Entity} {rest entities : List Entity}
  {taken : List Value} {ids ids' : IdSequence} {error : Error}

/-- A new row is stored under the id that its entity has, or under that of the next number. -/
theorem newRow_of_ok {row : Row} (made : m.newRow form e ids = (.ok row, ids')) :
    (m.idOf? e = some row.id ∧ ids' = ids) ∨
      (m.freshId form ids.next = .ok row.id ∧ ids' = ids.advance) := by
  unfold newRow at made
  simp only at made
  split at made
  · rename_i id identified
    cases made
    exact .inl ⟨identified, rfl⟩
  · split at made
    · rename_i id fresh
      cases made
      exact .inr ⟨fresh, rfl⟩
    · cases made

/-- A new row cannot be made only where the next number has no form. -/
theorem newRow_of_error (unmade : m.newRow form e ids = (.error error, ids')) :
    m.freshId form ids.next = .error error ∧ ids' = ids.advance := by
  unfold newRow at unmade
  simp only at unmade
  split at unmade
  · cases unmade
  · split at unmade
    · cases unmade
    · rename_i formless
      cases unmade
      exact ⟨formless, rfl⟩

theorem count_le_of_newRow {result : Except Error Row}
    (drawn : m.newRow form e ids = (result, ids')) : ids.count ≤ ids'.count := by
  cases result with
  | error error =>
      obtain ⟨-, rfl⟩ := newRow_of_error drawn
      exact Nat.le_succ _
  | ok row =>
      rcases newRow_of_ok drawn with ⟨-, rfl⟩ | ⟨-, rfl⟩
      · exact Nat.le_refl _
      · exact Nat.le_succ _

/-- A batch is refused for its first entity, which is foreign, cannot be made a row, or has an id
that is taken; or else for one of the others. -/
theorem newRows_cons_of_error
    (failed : m.newRows form taken (e :: rest) ids = (.error error, ids')) :
    (error = .tableMismatch m.table e.table ∧ ids' = ids) ∨
      m.newRow form e ids = (.error error, ids') ∨
      ∃ row ids₁, m.newRow form e ids = (.ok row, ids₁) ∧
        ((error = .duplicateId m.table row.id ∧ row.id ∈ taken ∧ ids' = ids₁) ∨
          m.newRows form (row.id :: taken) rest ids₁ = (.error error, ids')) := by
  rw [newRows] at failed
  split at failed
  · cases failed
    exact .inl ⟨rfl, rfl⟩
  · split at failed
    · rename_i unmade
      cases failed
      exact .inr (.inl unmade)
    · rename_i row ids₁ made
      refine .inr (.inr ⟨row, ids₁, made, ?_⟩)
      split at failed
      · rename_i repeated
        cases failed
        exact .inl ⟨rfl, repeated, rfl⟩
      · split at failed
        · rename_i failedRest
          cases failed
          exact .inr failedRest
        · cases failed

theorem count_le_of_newRows {result : Except Error (List Row)}
    (drawn : m.newRows form taken entities ids = (result, ids')) : ids.count ≤ ids'.count := by
  induction entities generalizing taken ids result with
  | nil =>
      cases drawn
      exact Nat.le_refl _
  | cons e rest ih =>
      cases result with
      | ok rows =>
          obtain ⟨row, ids₁, others, -, made, -, okRest, -⟩ := newRows_cons_of_ok drawn
          exact Nat.le_trans (count_le_of_newRow made) (ih okRest)
      | error error =>
          rcases newRows_cons_of_error drawn with ⟨-, rfl⟩ | unmade | ⟨row, ids₁, made, refused⟩
          · exact Nat.le_refl _
          · exact count_le_of_newRow unmade
          · rcases refused with ⟨-, -, rfl⟩ | failedRest
            · exact count_le_of_newRow made
            · exact Nat.le_trans (count_le_of_newRow made) (ih failedRest)

/-- New rows are stored under ids that their entities have, or under those of numbers drawn. -/
theorem id_of_mem_newRows {rows : List Row}
    (ok : m.newRows form taken entities ids = (.ok rows, ids')) {row : Row} (member : row ∈ rows) :
    (∃ e ∈ entities, m.idOf? e = some row.id) ∨
      ∃ n ∈ ids'.drawnSince ids, m.freshId form n = .ok row.id := by
  induction entities generalizing taken ids rows with
  | nil =>
      cases ok
      cases member
  | cons e rest ih =>
      obtain ⟨first, ids₁, others, -, made, -, okRest, rfl⟩ := newRows_cons_of_ok ok
      have drawn := count_le_of_newRow made
      have drawnLater := count_le_of_newRows okRest
      rcases List.mem_cons.mp member with rfl | later
      · rcases newRow_of_ok made with ⟨identified, -⟩ | ⟨fresh, rfl⟩
        · exact .inl ⟨e, List.mem_cons_self, identified⟩
        · have next := IdSequence.mem_drawnSince.mpr
            ⟨ids.count + 1, Nat.lt_succ_self ids.count, drawnLater, ids.next_eq_ofNat⟩
          exact .inr ⟨ids.next, next, fresh⟩
      · rcases ih okRest later with ⟨e', memberRest, identified⟩ | ⟨n, drawnRest, fresh⟩
        · exact .inl ⟨e', List.mem_cons_of_mem _ memberRest, identified⟩
        · obtain ⟨k, after, bound, same⟩ := IdSequence.mem_drawnSince.mp drawnRest
          have sooner := IdSequence.mem_drawnSince.mpr
            ⟨k, Nat.lt_of_le_of_lt drawn after, bound, same⟩
          exact .inr ⟨n, sooner, fresh⟩

end Metadata

/-! ## Calls -/

/-- The ids under which a call itself asks for entities to be stored. -/
def Operation.passedIds : Operation → List Value
  | .insert m e => (m.idOf? e).toList
  | .insertAll m entities => entities.filterMap m.idOf?
  | .update m e => (m.idOf? e).toList
  | _ => []

/-- Ids are passed in entities, and only truthy ones are read there. -/
theorem Operation.isTruthy_of_mem_passedIds {operation : Operation} {id : Value}
    (passed : id ∈ operation.passedIds) : id.isTruthy = true := by
  cases operation with
  | insert m e => exact Metadata.isTruthy_idOf? (Option.mem_toList.mp passed)
  | insertAll m entities =>
      obtain ⟨e, -, identified⟩ := List.mem_filterMap.mp passed
      exact Metadata.isTruthy_idOf? identified
  | update m e => exact Metadata.isTruthy_idOf? (Option.mem_toList.mp passed)
  | _ => cases passed

/-- The ids that a call generates: those of the numbers that it draws. -/
def Session.generatedIds (c : Session) (operation : Operation) : List Value :=
  match operation.metadata? with
  | none => []
  | some m =>
      ((c.step operation).2.ids.drawnSince c.ids).filterMap fun n =>
        (m.freshId c.store.idForm n).toOption

namespace Store

variable {s : Store} {m : Metadata} {entities : List Entity} {ids : IdSequence}

theorem insertAll_ids (s : Store) (m : Metadata) (entities : List Entity) (ids : IdSequence) :
    (s.insertAll m entities ids).2.2 =
      (m.newRows s.idForm (s.tables.ids m.table) entities ids).2 := by
  unfold insertAll
  split
  · rename_i failed
    rw [failed]
  · rename_i accepted
    rw [accepted]
    split
    · rfl
    · rfl

/-- After a batch the ids stored are those stored before it, those that its entities have, and those
of the numbers drawn for it. -/
theorem mem_ids_insertAll {table : String} {id : Value}
    (stored : id ∈ (s.insertAll m entities ids).2.1.tables.ids table) :
    id ∈ s.tables.ids table ∨ (∃ e ∈ entities, m.idOf? e = some id) ∨
      ∃ n ∈ (s.insertAll m entities ids).2.2.drawnSince ids, m.freshId s.idForm n = .ok id := by
  obtain ⟨row, member, rfl⟩ := List.mem_map.mp stored
  rcases s.rows_insertAll m entities ids with same | ⟨rows, accepted, -, after⟩
  · rw [same] at member
    exact .inl (List.mem_map_of_mem member)
  · rw [after, Tables.rows_append] at member
    split at member
    · rename_i own
      rcases List.mem_append.mp member with old | new
      · exact .inl (own ▸ List.mem_map_of_mem old)
      · exact .inr (Metadata.id_of_mem_newRows accepted new)
    · exact .inl (List.mem_map_of_mem member)

/-- An update stores no id but that of its entity. -/
theorem mem_ids_update {e : Entity} {table : String} {id : Value}
    (stored : id ∈ (s.update m e).2.tables.ids table) :
    id ∈ s.tables.ids table ∨ m.idOf? e = some id := by
  rcases s.rows_update m e with same | ⟨id', fields, -, identified, -, after⟩
  · exact .inl (by rwa [Tables.ids, same] at stored)
  · rw [after, Tables.ids_write] at stored
    rcases List.mem_append.mp stored with old | new
    · exact .inl old
    · split at new
      · rw [List.mem_singleton.mp new]
        exact .inr identified
      · cases new

end Store

namespace Session

variable {c : Session} {operation : Operation}

theorem ids_step_of_drawsNone (none : operation.drawsIds = false) :
    (c.step operation).2.ids = c.ids := by
  cases operation with
  | insert m e => cases none
  | insertAll m entities => cases none
  | register m => rfl
  | destroy => rfl
  | count m condition => rfl
  | hasMatch m condition => rfl
  | findAll m condition sorting => rfl
  | findBy m condition sorting => rfl
  | update m e => rfl
  | delete m condition => rfl

theorem count_le_step (c : Session) (operation : Operation) :
    c.ids.count ≤ (c.step operation).2.ids.count := by
  have batch : ∀ m entities, c.ids.count ≤ (c.store.insertAll m entities c.ids).2.2.count := by
    intro m entities
    rw [Store.insertAll_ids]
    exact Metadata.count_le_of_newRows rfl
  cases draws : operation.drawsIds with
  | false => exact Nat.le_of_eq (congrArg IdSequence.count (ids_step_of_drawsNone draws).symm)
  | true =>
      cases operation with
      | insert m e =>
          show c.ids.count ≤ (c.store.insert m e c.ids).2.2.count
          rw [Store.insert_snd]
          exact batch m [e]
      | insertAll m entities => exact batch m entities
      | _ => cases draws

theorem toOption_eq_some_iff {α : Type} {result : Except Error α} {a : α} :
    result.toOption = some a ↔ result = .ok a := by
  cases result with
  | error error => simp [Except.toOption]
  | ok value => simp [Except.toOption]

theorem mem_generatedIds {id : Value} :
    id ∈ c.generatedIds operation ↔
      ∃ m, operation.metadata? = some m ∧
        ∃ n ∈ (c.step operation).2.ids.drawnSince c.ids,
          m.freshId c.store.idForm n = .ok id := by
  unfold generatedIds
  split
  · rename_i unused
    simp [unused]
  · rename_i m used
    simp only [used, List.mem_filterMap, toOption_eq_some_iff, Option.some.injEq, exists_eq_left']

/-- Until the sequence is exhausted, what is generated is truthy. -/
theorem isTruthy_of_mem_generatedIds {id : Value}
    (unexhausted : (c.step operation).2.ids.Unexhausted)
    (generated : id ∈ c.generatedIds operation) : id.isTruthy = true := by
  obtain ⟨m, -, n, drawn, fresh⟩ := mem_generatedIds.mp generated
  have bounds := IdSequence.bounds_of_mem_drawnSince unexhausted drawn
  exact Metadata.isTruthy_freshId (Nat.zero_lt_of_lt bounds.1) fresh

/-- A call that does not write stores no rows. -/
theorem mem_rows_step_of_unwritten (noWrite : operation.isWrite = false) {table : String}
    {row : Row} (stored : row ∈ (c.step operation).2.store.tables.rows table) :
    row ∈ c.store.tables.rows table := by
  cases removes : operation.isRemoval with
  | false => rwa [c.rows_step_of_reading noWrite removes] at stored
  | true =>
      cases operation with
      | destroy => cases stored
      | delete m condition =>
          -- A deletion as such neither adds nor writes, whatever call it belongs to.
          have effect : Operation.destroy.Effect c.store.tables
              (c.store.delete m condition).tables := c.store.delete_effect m condition
          have kept : row ∈ (c.store.delete m condition).tables.rows table := stored
          cases effect with
          | nothing same => rwa [same] at kept
          | addition used accepted after => cases used
          | writing used own identified after => cases used
          | removal keeps after =>
              rw [after] at kept
              exact (List.mem_filter.mp kept).1
      | _ => cases removes

/-- After a call the ids stored are those stored before it, those that it was passed, and those that
it has generated. -/
theorem mem_ids_step {table : String} {id : Value}
    (stored : id ∈ (c.step operation).2.store.tables.ids table) :
    id ∈ c.store.tables.ids table ∨ id ∈ operation.passedIds ∨ id ∈ c.generatedIds operation := by
  cases writes : operation.isWrite with
  | false =>
      obtain ⟨row, member, rfl⟩ := List.mem_map.mp stored
      exact .inl (List.mem_map_of_mem (mem_rows_step_of_unwritten writes member))
  | true =>
      cases operation with
      | insert m e =>
          have added : id ∈ (c.store.insert m e c.ids).2.1.tables.ids table := stored
          rw [Store.insert_snd] at added
          rcases Store.mem_ids_insertAll added with old | ⟨e', member, passed⟩ | ⟨n, drawn, fresh⟩
          · exact .inl old
          · rw [List.mem_singleton.mp member] at passed
            exact .inr (.inl (Option.mem_toList.mpr passed))
          · rw [← Store.insert_snd] at drawn
            exact .inr (.inr (mem_generatedIds.mpr ⟨m, rfl, n, drawn, fresh⟩))
      | insertAll m entities =>
          rcases Store.mem_ids_insertAll stored with old | ⟨e', member, passed⟩ | ⟨n, drawn, fresh⟩
          · exact .inl old
          · exact .inr (.inl (List.mem_filterMap.mpr ⟨e', member, passed⟩))
          · exact .inr (.inr (mem_generatedIds.mpr ⟨m, rfl, n, drawn, fresh⟩))
      | update m e =>
          have written : id ∈ (c.store.update m e).2.tables.ids table := stored
          rcases Store.mem_ids_update written with old | passed
          · exact .inl old
          · exact .inr (.inl (Option.mem_toList.mpr passed))
      | _ => cases writes

/-! ## Runs -/

/-- Unless the sequence is exhausted, every row is stored under a truthy id. -/
def HasTruthyIds (c : Session) : Prop :=
  c.ids.Unexhausted → ∀ table, ∀ row ∈ c.store.tables.rows table, row.id.isTruthy = true

theorem step_hasTruthyIds (truthy : c.HasTruthyIds) (operation : Operation) :
    (c.step operation).2.HasTruthyIds := by
  intro unexhausted table row member
  have sooner := unexhausted.of_count_le (c.count_le_step operation)
  rcases mem_ids_step (List.mem_map_of_mem member) with old | passed | generated
  · obtain ⟨earlier, stored, same⟩ := List.mem_map.mp old
    exact same ▸ truthy sooner table earlier stored
  · exact Operation.isTruthy_of_mem_passedIds passed
  · exact isTruthy_of_mem_generatedIds unexhausted generated

theorem run_hasTruthyIds (idForm : IdForm) (ids : IdSequence) (operations : List Operation) :
    ((start idForm ids).run operations).HasTruthyIds :=
  run_invariant HasTruthyIds (fun _ truthy operation _ => step_hasTruthyIds truthy operation)
    fun _ _ _ member => (List.not_mem_nil member).elim

/-- After every run, with whatever descriptions: the rows of a table have different ids, which are
truthy unless the sequence is exhausted, and their entities name the table and have no relations.
If the calls on a table agree on its id property, each of its rows holds its id there.  And the next
call leaves of each table's ids some in their order, followed by ids that were not there. -/
theorem rows_of_run (idForm : IdForm) (ids : IdSequence) (operations : List Operation) :
    let c := (start idForm ids).run operations
    (∀ table, (c.store.tables.ids table).Nodup ∧
      ∀ row ∈ c.store.tables.rows table,
        (c.ids.Unexhausted → row.id.isTruthy = true) ∧
          row.entity.table = table ∧ row.entity.relations = []) ∧
    (∀ table property,
      (∀ operation ∈ operations, ∀ m, operation.metadata? = some m → m.table = table →
        m.idProperty = property) →
      ∀ row ∈ c.store.tables.rows table, row.entity.get? property = some row.id) ∧
    ∀ operation table, ∃ kept added,
      (c.step operation).2.store.tables.ids table = kept ++ added ∧
        kept.Sublist (c.store.tables.ids table) ∧
        ∀ id ∈ added, id ∉ c.store.tables.ids table := by
  intro c
  have regular : c.store.tables.Regular := run_regular idForm ids operations
  have truthy : c.HasTruthyIds := run_hasTruthyIds idForm ids operations
  refine ⟨fun table => ⟨regular.distinct table, fun row member => ?_⟩, ?_, ?_⟩
  · have stored := regular.rows table row member
    exact ⟨fun unexhausted => truthy unexhausted table row member, stored.own, stored.plain⟩
  · intro table property agree
    exact run_identifiedBy idForm ids agree
  · exact fun operation table => (c.step_effect operation).ids regular table

/-- One user is added by an update, the first is deleted, and one comes in under a fresh id. -/
theorem rows_of_run_samples :
    let calls := Samples.calls ++
      [.update Samples.users (Samples.userOf "u2" "c1"),
        .delete Samples.users (some (.propertyEquals "id" "u1")),
        .insert Samples.users (Samples.user "Bo" "Oulu" 20)]
    let c := (start .text .start).run calls
    (∀ operation ∈ calls, ∀ m, operation.metadata? = some m → m.table = "users" →
        m.idProperty = "id") ∧
      c.ids.Unexhausted ∧
      c.store.tables.ids "users" = [.text "u2", .text "1"] ∧
      (∀ row ∈ c.store.tables.rows "users",
        row.id.isTruthy = true ∧ row.entity.get? "id" = some row.id) ∧
      ∃ kept added,
        (c.step (.delete Samples.users (some (.propertyEquals "city" "London")))).2.store.tables.ids
            "users" = kept ++ added ∧
          kept.Sublist (c.store.tables.ids "users") := by
  intro calls c
  have agree : ∀ operation ∈ calls, ∀ m ∈ operation.metadata?, m.table = "users" →
      m.idProperty = "id" := by decide
  have unexhausted : c.ids.Unexhausted := by decide
  obtain ⟨stored, identified, ordered⟩ := rows_of_run .text .start calls
  obtain ⟨kept, added, split, inOrder, -⟩ :=
    ordered (.delete Samples.users (some (.propertyEquals "city" "London"))) "users"
  refine ⟨agree, unexhausted, by rfl, fun row member => ?_, kept, added, split, inOrder⟩
  have truthy := ((stored "users").2 row member).1 unexhausted
  exact ⟨truthy, identified "users" "id" agree row member⟩

/-- After every run in which each table is used by one description, exactly the entities stored
under truthy ids are remembered, each with its declared properties; and all ids are truthy unless
the sequence is exhausted. -/
theorem remembered_iff_stored (describe : String → Metadata) (idForm : IdForm)
    (ids : IdSequence) (operations : List Operation)
    (follows : ∀ operation ∈ operations, operation.Follows describe) (table : String) :
    let c := (start idForm ids).run operations
    (∀ id, c.store.tracking.isTracked table id = true ↔
        id.isTruthy = true ∧ ∃ row ∈ c.store.tables.rows table, row.id = id) ∧
      (∀ row ∈ c.store.tables.rows table, row.id.isTruthy = true → ∃ snapshot,
        c.store.tracking.snapshot? table row.id = some snapshot ∧
          ∀ property, snapshot.get? property =
            if property ∈ (describe table).fields.map (·.property) then row.entity.get? property
            else none) ∧
      (c.ids.Unexhausted → ∀ row ∈ c.store.tables.rows table, row.id.isTruthy = true) := by
  intro c
  have mirrors : c.store.tracking.Mirrors describe c.store.tables := run_mirrors idForm ids follows
  have truthyIds : c.HasTruthyIds := run_hasTruthyIds idForm ids operations
  refine ⟨fun id => ?_, fun row member truthy => ?_, fun unexhausted => truthyIds unexhausted table⟩
  · unfold Tracking.isTracked
    rw [mirrors.remembered]
    by_cases truthy : id.isTruthy = true
    · rw [if_pos truthy, Option.isSome_map, Option.isSome_iff_exists]
      simp only [mirrors.regular.row?_eq_some_iff, truthy, true_and]
    · simp [truthy]
  · refine ⟨(describe table).snapshot row.entity, ?_, Metadata.get?_snapshot _ _⟩
    rw [mirrors.remembered, if_pos truthy, mirrors.regular.row?_eq_some_iff.mpr ⟨member, rfl⟩]
    rfl

/-- After the sample calls the stored user is remembered, and no other is stored. -/
theorem remembered_iff_stored_samples :
    let c := (start .text .start).run Samples.calls
    (∀ operation ∈ Samples.calls, operation.Follows Samples.describe) ∧
      c.ids.Unexhausted ∧
      c.store.tracking.isTracked "users" "u1" = true ∧
      ¬∃ row ∈ c.store.tables.rows "users", row.id = "u2" := by
  intro c
  have follows : ∀ operation ∈ Samples.calls, operation.Follows Samples.describe := by decide
  have unexhausted : c.ids.Unexhausted := by decide
  obtain ⟨remembered, -, truthy⟩ :=
    remembered_iff_stored Samples.describe .text .start Samples.calls follows "users"
  have stored : c.store.tables.rows "users" = [⟨"u1", Samples.userOf "u1" "c1"⟩] := by rfl
  have forgotten : c.store.tracking.isTracked "users" "u2" = false := by rfl
  refine ⟨follows, unexhausted, (remembered "u1").mpr ?_, ?_⟩
  · have member := stored ▸ List.mem_singleton_self _
    exact ⟨truthy unexhausted _ member, _, member, rfl⟩
  · intro other
    have tracked := (remembered "u2").mpr ⟨by decide, other⟩
    rw [forgotten] at tracked
    cases tracked

/-- Behind the largest number comes 0, and a cart that is stored under it is not remembered. -/
theorem stored_unremembered_after_exhaustion :
    let calls := Samples.tables.map Operation.register ++
      [.insert Samples.carts ((Entity.ofTable "carts").set "name" "gifts")]
    let store := ((start .number (.startingAfter 18446744073709551615)).run calls).store
    (∀ call ∈ calls, call.Follows Samples.describe) ∧
      store.tables.ids "carts" = [.integer 0] ∧
      store.tracking.isTracked "carts" (.integer 0) = false := by
  exact ⟨by decide, by rfl, by rfl⟩

end Session

end EntityStore
