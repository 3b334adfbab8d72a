import EntityStore.Proofs.Refinement
import EntityStore.Proofs.StoredIds

/-!
What a call hands out stays there to be read.

An entity that a call hands out is a row with its relations filled in, and that is meant of the
rows as they are after the call (`Session.step_handsOut`): a batch has its relations filled in when
all of it is stored, and an update hands out the merged row.  Ids are distinct, so this row is all
that its id finds; and the memory mirrors it, so no field of the entity counts as changed.  Hence
the entity can be read by its id, and updating it only reads it (`Session.read_your_writes`).  An
update is refused for an id that is not truthy, and such an id is generated only by a sequence that
starts again (`Session.update_refused_after_exhaustion`).
-/

namespace EntityStore

/-- The entity is a row of its table, with the relations filled in as the store is now. -/
def Store.HandsOut (s : Store) (m : Metadata) (e : Entity) : Prop :=
  ∃ row ∈ s.tables.rows m.table, s.populate m row.entity = .ok e

/-! ## Handed-out entities are found by their ids -/

/-- A declared id property has a field. -/
theorem Metadata.exists_idField {m : Metadata}
    (declared : m.idProperty ∈ m.fields.map (·.property)) : ∃ field, m.idField = .ok field := by
  unfold idField fieldOf?
  cases found : m.fields.find? (·.property == m.idProperty) with
  | some field => exact ⟨field, rfl⟩
  | none =>
      obtain ⟨field, member, same⟩ := List.mem_map.mp declared
      exact (List.find?_eq_none.mp found field member (beq_iff_eq.mpr same)).elim

namespace Store

variable {s : Store} {describe : String → Metadata} {m : Metadata} {e : Entity}

section StoredRow

variable (mirrors : s.tracking.Mirrors describe s.tables) (follows : describe m.table = m)
  {row : Row} (stored : row ∈ s.tables.rows m.table) (filled : s.populate m row.entity = .ok e)

include mirrors follows stored filled

theorem get?_id_of_stored : e.get? m.idProperty = some row.id := by
  have holds := mirrors.holdsId m.table row stored
  rw [follows] at holds
  rw [Entity.get?_eq_of_withoutRelations (Metadata.withoutRelations_populate filled)]
  exact holds

theorem findBy_of_stored (sorting : Option Sorting) :
    s.findBy m (.propertyEquals m.idProperty row.id) sorting = (.ok (some e), s.countRead) := by
  refine Prod.ext ?_ (findBy_snd mirrors follows _ _)
  have populated : m.populate s.registry s.tables row.entity = .ok e := filled
  rw [findBy_fst, mirrors.select_id follows stored, List.head?_cons]
  simp only [populated]
  rfl

/-- An entity whose fields are those of the row is not written: the row is read. -/
theorem update_of_unchanged (declared : m.idProperty ∈ m.fields.map (·.property)) {given : Entity}
    (own : given.table = m.table) (identified : m.idOf? given = some row.id)
    (unchanged : ∀ field ∈ m.fields, given.get? field.property = row.entity.get? field.property) :
    s.update m given = (.ok e, s.countRead) := by
  obtain ⟨idField, idFieldOf⟩ := Metadata.exists_idField declared
  have found := mirrors.regular.row?_eq_some_iff.mpr ⟨stored, rfl⟩
  have none : s.tracking.changedFields m given = [] := by
    rw [mirrors.changedFields_of_row follows identified found]
    exact List.filter_eq_nil_iff.mpr fun field member => by simp [unchanged field member]
  have read : s.refetch m idField.property row.id = (.ok e, s.countRead) := by
    rw [property_of_idField idFieldOf, refetch_of_row mirrors follows stored, filled]
  unfold update
  rw [if_neg (fun foreign => foreign own), idFieldOf, identified, none]
  exact read

end StoredRow

namespace HandsOut

variable (handsOut : s.HandsOut m e) (mirrors : s.tracking.Mirrors describe s.tables)
  (follows : describe m.table = m)

include handsOut mirrors follows

/-- The entity is found by the id that it holds, whatever the sorting. -/
theorem findBy_id :
    ∃ row ∈ s.tables.rows m.table, e.get? m.idProperty = some row.id ∧ ∀ sorting,
      s.findBy m (.propertyEquals m.idProperty row.id) sorting = (.ok (some e), s.countRead) := by
  obtain ⟨row, stored, filled⟩ := handsOut
  exact ⟨row, stored, get?_id_of_stored mirrors follows stored filled,
    findBy_of_stored mirrors follows stored filled⟩

/-- Updating the entity reads it, and does nothing else, if an update accepts its id. -/
theorem update_eq (declared : m.idProperty ∈ m.fields.map (·.property)) {id : Value}
    (holds : e.get? m.idProperty = some id) (truthy : id.isTruthy = true) :
    s.update m e = (.ok e, s.countRead) := by
  obtain ⟨row, stored, filled⟩ := handsOut
  have own : e.table = m.table := by
    have same := congrArg Entity.table (Metadata.withoutRelations_populate filled)
    exact same.trans (mirrors.regular.rows m.table row stored).own
  cases holds.symm.trans (get?_id_of_stored mirrors follows stored filled)
  refine update_of_unchanged mirrors follows stored filled declared own
    (Metadata.idOf?_of_get? holds truthy) fun field _ => ?_
  exact Entity.get?_eq_of_withoutRelations (Metadata.withoutRelations_populate filled) _

end HandsOut

end Store

/-! ## Calls hand out what they leave stored -/

theorem exists_of_map_eq_ok {ε α β : Type} {f : α → β} {result : Except ε α} {b : β}
    (ok : result.map f = .ok b) : ∃ a, result = .ok a ∧ f a = b := by
  cases result with
  | error error => cases ok
  | ok a => exact ⟨a, rfl, Except.ok.inj ok⟩

theorem Metadata.exists_of_mem_populateAll {registry : Registry} {tables : Tables} {m : Metadata}
    {e : Entity} {entities populated : List Entity}
    (ok : m.populateAll registry tables entities = .ok populated) (member : e ∈ populated) :
    ∃ source ∈ entities, m.populate registry tables source = .ok e := by
  induction entities generalizing populated with
  | nil =>
      cases ok
      cases member
  | cons first rest ih =>
      obtain ⟨first', others, okFirst, okRest, rfl⟩ := exists_of_populateAll_cons ok
      rcases List.mem_cons.mp member with rfl | later
      · exact ⟨first, List.mem_cons_self, okFirst⟩
      · obtain ⟨source, memberRest, filled⟩ := ih okRest later
        exact ⟨source, List.mem_cons_of_mem _ memberRest, filled⟩

namespace Store

variable {s : Store} {describe : String → Metadata} {m : Metadata} {e : Entity}

/-- What is selected is a row as it is stored. -/
theorem handsOut_of_mem_select (regular : s.tables.Regular) {condition : Option Condition}
    {sorting : Option Sorting} {selected : Entity}
    (member : selected ∈ s.tables.select m.table condition sorting)
    (filled : s.populate m selected = .ok e) : s.HandsOut m e := by
  obtain ⟨row, stored, rfl⟩ := Tables.exists_row_of_mem_select member
  rw [(regular.rows m.table row stored).withoutRelations] at filled
  exact ⟨row, stored, filled⟩

theorem findAll_handsOut (regular : s.tables.Regular) {condition : Option Condition}
    {sorting : Option Sorting} {found : List Entity}
    (ok : (s.findAll m condition sorting).1 = .ok found) (member : e ∈ found) :
    s.HandsOut m e := by
  rw [findAll_fst] at ok
  obtain ⟨selected, chosen, filled⟩ := Metadata.exists_of_mem_populateAll ok member
  exact handsOut_of_mem_select regular chosen filled

theorem findBy_handsOut (regular : s.tables.Regular) {condition : Condition}
    {sorting : Option Sorting} (ok : (s.findBy m condition sorting).1 = .ok (some e)) :
    s.HandsOut m e := by
  rw [findBy_fst] at ok
  split at ok
  · cases ok
  · rename_i first selected
    obtain ⟨found, filled, same⟩ := exists_of_map_eq_ok ok
    cases same
    exact handsOut_of_mem_select regular (List.mem_of_head? selected) filled

theorem insertAll_handsOut {entities added : List Entity} {ids : IdSequence}
    (ok : (s.insertAll m entities ids).1 = .ok added) (member : e ∈ added) :
    (s.insertAll m entities ids).2.1.HandsOut m e := by
  obtain ⟨rows, ids', -, filled, after⟩ := insertAll_of_ok ok
  obtain ⟨source, memberSource, populated⟩ := Metadata.exists_of_mem_populateAll filled member
  obtain ⟨row, memberRow, rfl⟩ := List.mem_map.mp memberSource
  have stored : row ∈ (s.tables.append m.table rows).rows m.table := by
    rw [Tables.rows_append, if_pos rfl]
    exact List.mem_append_right _ memberRow
  rw [after]
  exact ⟨row, stored, populated⟩

/-- What an insertion hands out is the first of a batch of one. -/
theorem insertAll_of_insert_ok {given : Entity} {ids : IdSequence}
    (ok : (s.insert m given ids).1 = .ok e) :
    ∃ others, (s.insertAll m [given] ids).1 = .ok (e :: others) := by
  unfold insert at ok
  generalize s.insertAll m [given] ids = outcome at ok ⊢
  obtain ⟨result, after, ids'⟩ := outcome
  match result with
  | .error error => cases ok
  | .ok [] => cases ok
  | .ok (added :: others) =>
      cases ok
      exact ⟨others, rfl⟩

theorem insert_handsOut {given : Entity} {ids : IdSequence}
    (ok : (s.insert m given ids).1 = .ok e) : (s.insert m given ids).2.1.HandsOut m e := by
  obtain ⟨others, batch⟩ := insertAll_of_insert_ok ok
  rw [insert_snd]
  exact insertAll_handsOut batch List.mem_cons_self

theorem update_handsOut (mirrors : s.tracking.Mirrors describe s.tables)
    (follows : describe m.table = m) {given : Entity} (ok : (s.update m given).1 = .ok e) :
    (s.update m given).2.HandsOut m e := by
  obtain ⟨id, -, -, read | ⟨filled, after⟩⟩ := update_of_ok ok
  · have counted := findBy_snd mirrors follows (.propertyEquals m.idProperty id) none
    rw [read] at counted
    have stored : s.HandsOut m e := findBy_handsOut mirrors.regular (congrArg Prod.fst read)
    rw [counted]
    exact stored
  · have written := Tables.row?_write s.tables m.table m.table id id given
      (s.tracking.changedFields m given)
    rw [if_pos ⟨rfl, rfl⟩] at written
    rw [after]
    exact ⟨_, Tables.mem_of_row? written, filled⟩

end Store

namespace Session

variable {describe : String → Metadata} {c : Session} {m : Metadata}

/-- Whatever a call hands out is what the store hands out after it. -/
theorem step_handsOut (mirrors : c.store.tracking.Mirrors describe c.store.tables)
    {operation : Operation} (follows : operation.Follows describe)
    (used : operation.metadata? = some m) {answer : Answer}
    (ok : (c.step operation).1 = .ok answer) {e : Entity} (member : e ∈ answer.handedOut) :
    (c.step operation).2.store.HandsOut m e := by
  cases operation with
  | register m' => cases used
  | destroy => cases used
  | count m' condition =>
      cases ok
      cases member
  | hasMatch m' condition =>
      cases ok
      cases member
  | findAll m' condition sorting =>
      cases used
      obtain ⟨found, read, rfl⟩ := exists_of_map_eq_ok ok
      have stored : c.store.HandsOut m e := Store.findAll_handsOut mirrors.regular read member
      show (c.store.findAll m condition sorting).2.HandsOut m e
      rw [Store.findAll_snd mirrors (follows m rfl)]
      exact stored
  | findBy m' condition sorting =>
      cases used
      obtain ⟨found, read, rfl⟩ := exists_of_map_eq_ok ok
      cases Option.mem_toList.mp member
      have stored : c.store.HandsOut m e := Store.findBy_handsOut mirrors.regular read
      show (c.store.findBy m condition sorting).2.HandsOut m e
      rw [Store.findBy_snd mirrors (follows m rfl)]
      exact stored
  | insert m' given =>
      cases used
      obtain ⟨added, inserted, rfl⟩ := exists_of_map_eq_ok ok
      cases List.mem_singleton.mp member
      exact Store.insert_handsOut inserted
  | insertAll m' entities =>
      cases used
      obtain ⟨added, inserted, rfl⟩ := exists_of_map_eq_ok ok
      exact Store.insertAll_handsOut inserted member
  | update m' given =>
      cases used
      obtain ⟨updated, written, rfl⟩ := exists_of_map_eq_ok ok
      cases List.mem_singleton.mp member
      exact Store.update_handsOut mirrors (follows m rfl) written
  | delete m' condition =>
      cases ok
      cases member

/-- Where each table is used by one description, and this one declares its id property: what a
successful call hands out, a new or updated entity as well as one that is found, can be found by
its id right after the call, exactly as it was handed out; and if the id is truthy, which it is
unless the sequence is exhausted, updating it hands it out once more.  Neither does more than count
a reading. -/
theorem read_your_writes (describe : String → Metadata) (idForm : IdForm) (ids : IdSequence)
    (operations : List Operation) (operation : Operation)
    (follows : ∀ call ∈ operation :: operations, call.Follows describe) (m : Metadata)
    (used : operation.metadata? = some m)
    (declared : m.idProperty ∈ m.fields.map (·.property)) (answer : Answer)
    (ok : (((start idForm ids).run operations).step operation).1 = .ok answer) :
    let after := (((start idForm ids).run operations).step operation).2
    let counted : Session := { after with
      store.counters.reads := after.store.counters.reads + 1 }
    ∀ e ∈ answer.handedOut, ∃ id, e.get? m.idProperty = some id ∧
      (after.ids.Unexhausted → id.isTruthy = true) ∧
      (∀ sorting, after.step (.findBy m (.propertyEquals m.idProperty id) sorting) =
        (.ok (.optionalEntity (some e)), counted)) ∧
      (id.isTruthy = true → after.step (.update m e) = (.ok (.entity e), counted)) := by
  intro after counted e member
  have last : operation.Follows describe := follows operation List.mem_cons_self
  have before := run_mirrors idForm ids fun call earlier =>
    follows call (List.mem_cons_of_mem _ earlier)
  have mirrors : after.store.tracking.Mirrors describe after.store.tables :=
    step_mirrors before last
  have truthyIds : after.HasTruthyIds :=
    step_hasTruthyIds (run_hasTruthyIds idForm ids operations) operation
  have handsOut : after.store.HandsOut m e := step_handsOut before last used ok member
  obtain ⟨row, stored, holds, found⟩ := handsOut.findBy_id mirrors (last m used)
  refine ⟨row.id, holds, fun unexhausted => ?_, fun sorting => ?_, fun truthy => ?_⟩
  · exact truthyIds unexhausted m.table row stored
  · simp only [step, found sorting]
    rfl
  · simp only [step, handsOut.update_eq mirrors (last m used) declared holds truthy]
    rfl

/-- A user who moves is found with his cart and his contact, and moving there again is no move. -/
theorem read_your_writes_samples :
    let basket : Entity := (Samples.cart "u1" "groceries" 20).set "id" "k1"
    let earlier := Samples.calls ++ [.insert Samples.carts basket]
    let moved := (Samples.userOf "u1" "c1").set "city" "Turku"
    let populated := (moved.setRelation "carts" (.many [basket])).setRelation "contact"
      (.one (some ((Samples.contact "ada@example.org").set "id" "c1")))
    let outcome := ((start .text .start).run earlier).step (.update Samples.users moved)
    (∀ call ∈ Operation.update Samples.users moved :: earlier, call.Follows Samples.describe) ∧
      Samples.users.idProperty ∈ Samples.users.fields.map (·.property) ∧
      outcome.1 = .ok (.entity populated) ∧
      outcome.2.ids.Unexhausted ∧
      (outcome.2.step (.findBy Samples.users (.propertyEquals "id" "u1") none)).1 =
        .ok (.optionalEntity (some populated)) ∧
      (outcome.2.step (.update Samples.users populated)).2.store.counters.writes =
        outcome.2.store.counters.writes := by
  intro basket earlier moved populated outcome
  have follows : ∀ call ∈ Operation.update Samples.users moved :: earlier,
      call.Follows Samples.describe := by decide
  have declared : Samples.users.idProperty ∈ Samples.users.fields.map (·.property) := by decide
  have answered : outcome.1 = .ok (.entity populated) := by rfl
  have unexhausted : outcome.2.ids.Unexhausted := by decide
  obtain ⟨id, holds, truthy, found, updated⟩ := read_your_writes Samples.describe .text .start
    earlier (.update Samples.users moved) follows Samples.users rfl declared _ answered populated
    (List.mem_singleton_self _)
  have same : populated.get? Samples.users.idProperty = some "u1" := by rfl
  cases same.symm.trans holds
  refine ⟨follows, declared, answered, unexhausted, ?_, ?_⟩
  · exact congrArg Prod.fst (found none)
  · rw [updated (truthy unexhausted)]

/-- Behind the largest number comes 0.  A cart that is inserted under it is found by it, but an
update is refused, for what the cart holds is no id to it. -/
theorem update_refused_after_exhaustion :
    let insertion := Operation.insert Samples.carts ((Entity.ofTable "carts").set "name" "gifts")
    let registered := Samples.tables.map Operation.register
    let inserted := (((Entity.ofTable "carts").set "name" "gifts").set "id" (0 : Int64)).setRelation
      "user" (.one none)
    let outcome := ((start .number (.startingAfter 18446744073709551615)).run registered).step
      insertion
    (∀ call ∈ insertion :: registered, call.Follows Samples.describe) ∧
      Samples.carts.idProperty ∈ Samples.carts.fields.map (·.property) ∧
      outcome.1 = .ok (.entity inserted) ∧
      (outcome.2.step (.findBy Samples.carts (.propertyEquals "id" (0 : Int64)) none)).1 =
        .ok (.optionalEntity (some inserted)) ∧
      (outcome.2.step (.update Samples.carts inserted)).1 =
        .error (.missingEntityId "carts" "id") := by
  exact ⟨by decide, by decide, by rfl, by rfl, by rfl⟩

end Session

end EntityStore
