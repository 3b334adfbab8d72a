import EntityStore.Proofs.Alike
import EntityStore.Samples

/-!
Calls that fail.

A failed call leaves a store that is alike to the one before it
(`Session.step_alike_of_error`): the ways back of `insertAll` and `update` end
where they started.  So what follows a failed call goes on as if the call had
not been made (`Session.failed_call_leaves_no_trace`).
-/

namespace EntityStore

/-! ## New rows -/

namespace Metadata

variable {m : Metadata} {form : IdForm} {e : Entity} {rest : List Entity} {taken : List Value}
  {ids ids' : IdSequence} {rows : List Row}

/-- A batch that is accepted starts with a row under a free id, and goes on as a batch for which
that id is taken. -/
theorem newRows_cons_of_ok (ok : m.newRows form taken (e :: rest) ids = (.ok rows, ids')) :
    ∃ row ids₁ others, e.table = m.table ∧ m.newRow form e ids = (.ok row, ids₁) ∧
      row.id ∉ taken ∧ m.newRows form (row.id :: taken) rest ids₁ = (.ok others, ids') ∧
      rows = row :: others := by
  rw [newRows] at ok
  split at ok
  · cases ok
  · rename_i own
    split at ok
    · cases ok
    · rename_i row ids₁ made
      split at ok
      · cases ok
      · rename_i free
        split at ok
        · cases ok
        · rename_i others ids₂ okRest
          cases ok
          exact ⟨row, ids₁, others, Decidable.not_not.mp own, made, free, okRest, rfl⟩

theorem length_newRows {entities : List Entity}
    (ok : m.newRows form taken entities ids = (.ok rows, ids')) :
    rows.length = entities.length := by
  induction entities generalizing taken ids rows with
  | nil =>
      cases ok
      rfl
  | cons e rest ih =>
      obtain ⟨row, ids₁, others, -, -, -, okRest, rfl⟩ := newRows_cons_of_ok ok
      rw [List.length_cons, List.length_cons, ih okRest]

end Metadata

/-! ## Failing on a store -/

namespace Store

variable {s : Store} {m : Metadata}

theorem alike_countRead (s : Store) : s.countRead.Alike s :=
  ⟨rfl, fun _ => rfl, rfl, rfl, rfl, rfl⟩

theorem findAll_alike_of_error {condition : Option Condition} {sorting : Option Sorting}
    {error : Error} (failed : (s.findAll m condition sorting).1 = .error error) :
    (s.findAll m condition sorting).2.Alike s := by
  unfold findAll at failed ⊢
  simp only at failed ⊢
  split at failed
  · exact s.alike_countRead
  · cases failed

/-- Only a reading that hands an entity out is remembered. -/
theorem findBy_alike {condition : Condition} {sorting : Option Sorting}
    (nothing : ∀ found, (s.findBy m condition sorting).1 ≠ .ok (some found)) :
    (s.findBy m condition sorting).2.Alike s := by
  unfold findBy at nothing ⊢
  simp only at nothing ⊢
  split at nothing
  · exact s.alike_countRead
  · split at nothing
    · exact s.alike_countRead
    · exact (nothing _ rfl).elim

/-- A batch whose relations cannot be filled in is cut off again. -/
theorem insertAll_alike_of_error {entities : List Entity} {ids : IdSequence} {error : Error}
    (failed : (s.insertAll m entities ids).1 = .error error) :
    (s.insertAll m entities ids).2.1.Alike s := by
  unfold insertAll at failed ⊢
  split at failed
  · exact .refl s
  · rename_i rows ids' accepted
    simp only [handOutAdded] at failed ⊢
    generalize populateAll _ m (rows.map (·.entity)) = populated at failed ⊢
    cases populated with
    | error error =>
        exact ⟨rfl, fun table => Tables.rows_cut_append s.tables m.table table rows,
          rfl, rfl, rfl, rfl⟩
    | ok added => cases failed

/-- One entity that is inserted is handed out; only then is an answer of no entities an error. -/
theorem insertAll_singleton_ne_nil {e : Entity} {ids : IdSequence} :
    (s.insertAll m [e] ids).1 ≠ .ok [] := by
  intro empty
  unfold insertAll at empty
  split at empty
  · cases empty
  · rename_i rows ids' accepted
    have one : rows.length = 1 := Metadata.length_newRows accepted
    simp only [handOutAdded, populateAll] at empty
    split at empty
    · cases empty
    · rename_i added after handedOut
      split at handedOut
      · cases handedOut
      · rename_i populated ok
        cases handedOut
        cases empty
        have none := Metadata.length_populateAll ok
        rw [List.length_map, one] at none
        cases none

theorem insert_alike_of_error {e : Entity} {ids : IdSequence} {error : Error}
    (failed : (s.insert m e ids).1 = .error error) : (s.insert m e ids).2.1.Alike s := by
  have batch := @insertAll_alike_of_error s m [e] ids
  have nonempty := @insertAll_singleton_ne_nil s m e ids
  unfold insert at failed ⊢
  generalize s.insertAll m [e] ids = outcome at failed batch nonempty ⊢
  obtain ⟨result, after, ids'⟩ := outcome
  match result with
  | .error error => exact batch rfl
  | .ok [] => exact (nonempty rfl).elim
  | .ok (added :: others) => cases failed

theorem refetch_alike_of_error {property : String} {id : Value} {error : Error}
    (failed : (s.refetch m property id).1 = .error error) :
    (s.refetch m property id).2.Alike s := by
  have read := @findBy_alike s m (.propertyEquals property id) none
  unfold refetch at failed ⊢
  generalize s.findBy m (.propertyEquals property id) none = outcome at failed read ⊢
  obtain ⟨result, after⟩ := outcome
  match result with
  | .error error => exact read nofun
  | .ok none => exact read nofun
  | .ok (some e) => cases failed

/-- A row that was written over gets its entity back, and one that was added goes again. -/
theorem writeChanges_alike_of_error {e : Entity} {id : Value} {changed : List Field}
    {error : Error} (failed : (s.writeChanges m e id changed).1 = .error error) :
    (s.writeChanges m e id changed).2.Alike s := by
  simp only [writeChanges] at failed ⊢
  split at failed
  · exact ⟨rfl, fun table => Tables.rows_restore_write s.tables m.table table id e changed,
      rfl, rfl, rfl, rfl⟩
  · cases failed

theorem update_alike_of_error {e : Entity} {error : Error}
    (failed : (s.update m e).1 = .error error) : (s.update m e).2.Alike s := by
  unfold update at failed ⊢
  split
  · exact .refl s
  · rename_i own
    rw [if_neg own] at failed
    cases declared : m.idField with
    | error error => exact .refl s
    | ok idField =>
        rw [declared] at failed
        simp only at failed ⊢
        cases identified : m.idOf? e with
        | none => exact .refl s
        | some id =>
            rw [identified] at failed
            simp only at failed ⊢
            split at failed
            · exact refetch_alike_of_error failed
            · exact writeChanges_alike_of_error failed

end Store

/-! ## Failing in a session -/

/-- What is answered of an error is the error. -/
theorem eq_error_of_map {α β : Type} {f : α → β} {result : Except Error α} {error : Error}
    (failed : result.map f = .error error) : result = .error error := by
  cases result with
  | error error' =>
      cases failed
      rfl
  | ok value => cases failed

namespace Session

variable {c : Session} {operation : Operation} {error : Error}

/-- A failed call leaves a store alike to the one before it. -/
theorem step_alike_of_error (failed : (c.step operation).1 = .error error) :
    (c.step operation).2.store.Alike c.store := by
  cases operation with
  | register m => cases failed
  | destroy => cases failed
  | count m condition => cases failed
  | hasMatch m condition => cases failed
  | findAll m condition sorting => exact Store.findAll_alike_of_error (eq_error_of_map failed)
  | findBy m condition sorting =>
      have read : (c.store.findBy m condition sorting).1 = .error error := eq_error_of_map failed
      refine Store.findBy_alike fun found ok => ?_
      cases read.symm.trans ok
  | insert m e => exact Store.insert_alike_of_error (eq_error_of_map failed)
  | insertAll m entities => exact Store.insertAll_alike_of_error (eq_error_of_map failed)
  | update m e => exact Store.update_alike_of_error (eq_error_of_map failed)
  | delete m condition => cases failed

/-- Calls that draw no fresh ids answer the same wherever the sequence stands. -/
theorem answers_of_drawsNone {s : Store} {ids ids' : IdSequence} {operations : List Operation}
    (drawsNone : ∀ operation ∈ operations, operation.drawsIds = false) :
    answers ⟨s, ids⟩ operations = answers ⟨s, ids'⟩ operations := by
  induction operations generalizing s with
  | nil => rfl
  | cons operation operations ih =>
      have rest := fun s' =>
        ih (s := s') fun later member => drawsNone later (List.mem_cons_of_mem _ member)
      have first : operation.drawsIds = false := drawsNone operation List.mem_cons_self
      cases operation with
      | insert m e => cases first
      | insertAll m entities => cases first
      | _ => exact congrArg _ (rest _)

/-- A failed call shows in nothing but the count of reads and the numbers drawn
for fresh ids, neither at once nor in any later call. -/
theorem failed_call_leaves_no_trace (idForm : IdForm) (ids : IdSequence)
    (earlier : List Operation) (operation : Operation) (error : Error)
    (failed : (((start idForm ids).run earlier).step operation).1 = .error error) :
    let before := (start idForm ids).run earlier
    let after := (before.step operation).2
    (∀ table, after.store.tables.rows table = before.store.tables.rows table) ∧
      after.store.tracking = before.store.tracking ∧
      after.store.registry = before.store.registry ∧
      after.store.counters.writes = before.store.counters.writes ∧
      after.store.counters.deletes = before.store.counters.deletes ∧
      (∀ later, after.answers later = answers ⟨before.store, after.ids⟩ later ∧
        (after.run later).Alike (run ⟨before.store, after.ids⟩ later)) ∧
      ∀ later, (∀ call ∈ later, call.drawsIds = false) →
        after.answers later = before.answers later := by
  intro before after
  have alike : after.store.Alike before.store := step_alike_of_error failed
  have resumed : after.Alike ⟨before.store, after.ids⟩ := ⟨alike, rfl⟩
  refine ⟨alike.rows, alike.tracking, alike.registry, alike.writes, alike.deletes,
    run_alike resumed, ?_⟩
  intro later drawsNone
  exact (run_alike resumed later).1.trans (answers_of_drawsNone drawsNone)

/-- An update that lets the sample user refer to a missing contact fails, and the
user goes on referring to the contact that is there. -/
theorem failed_call_leaves_no_trace_samples :
    let before := (start .text .start).run Samples.calls
    let outcome := before.step (.update Samples.users (Samples.userOf "u1" "c2"))
    outcome.1 = .error (.danglingReference "contact" "contacts" "c2") ∧
      outcome.2.store.tables.rows "users" = [⟨"u1", Samples.userOf "u1" "c1"⟩] ∧
      outcome.2.answers [.count Samples.users none] =
        before.answers [.count Samples.users none] := by
  intro before outcome
  have failed : outcome.1 = .error (.danglingReference "contact" "contacts" "c2") := by rfl
  have kept := failed_call_leaves_no_trace .text .start Samples.calls
    (.update Samples.users (Samples.userOf "u1" "c2")) _ failed
  obtain ⟨rows, -, -, -, -, -, answers⟩ := kept
  have stored : before.store.tables.rows "users" = [⟨"u1", Samples.userOf "u1" "c1"⟩] := by rfl
  exact ⟨failed, (rows "users").trans stored, answers _ (by decide)⟩

end Session

end EntityStore
