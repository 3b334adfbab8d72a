import EntityStore.Proofs.Mirroring
import EntityStore.Samples

/-!
Readings put in between the calls of a run.

A reading remembers what it hands out, and the memory decides later what an update writes.  As
long as every table is used by one description this makes no difference: what a reading remembers
is remembered already, so it is counted and leaves the rest of the store as it is
(`Session.step_reading`).  No call looks at the counters (`Session.step_addCounts`), so a run goes
on after any number of extra readings as it does without them
(`Session.run_with_extra_readings`).
-/

namespace EntityStore

/-! ## Runs with extra readings -/

/-- A call that only reads. -/
inductive Reading where
  | count (m : Metadata) (condition : Option Condition)
  | hasMatch (m : Metadata) (condition : Condition)
  | findAll (m : Metadata) (condition : Option Condition) (sorting : Option Sorting)
  | findBy (m : Metadata) (condition : Condition) (sorting : Option Sorting)

/-- The reading as a call. -/
def Reading.operation : Reading → Operation
  | .count m condition => .count m condition
  | .hasMatch m condition => .hasMatch m condition
  | .findAll m condition sorting => .findAll m condition sorting
  | .findBy m condition sorting => .findBy m condition sorting

/-- A call of a run, or an extra reading that is put in. -/
inductive PaddedCall where
  | own (operation : Operation)
  | extra (reading : Reading)

namespace PaddedCall

/-- The call that is carried out. -/
def operation : PaddedCall → Operation
  | .own operation => operation
  | .extra reading => reading.operation

/-- The call, unless it is an extra reading. -/
def own? : PaddedCall → Option Operation
  | .own operation => some operation
  | .extra _ => none

/-- Whether the call is an extra reading. -/
def isExtra : PaddedCall → Bool
  | .own _ => false
  | .extra _ => true

end PaddedCall

/-- What the calls of a run answer that are not extra readings, all calls being carried out. -/
def Session.ownAnswers (c : Session) (calls : List PaddedCall) : List (Except Error Answer) :=
  ((calls.zip (c.answers (calls.map (·.operation)))).filter (!·.1.isExtra)).map (·.2)

/-! ## No call looks at the counters -/

/-- Adds to the counters. -/
def Store.addCounts (s : Store) (k : Counters) : Store :=
  { s with
    counters :=
      ⟨s.counters.reads + k.reads, s.counters.writes + k.writes, s.counters.deletes + k.deletes⟩ }

/-- Adds to the counters of the store. -/
def Session.addCounts (c : Session) (k : Counters) : Session :=
  { c with store := c.store.addCounts k }

namespace Store

variable (s : Store) (k : Counters) (m : Metadata)

theorem countRead_addCounts : (s.addCounts k).countRead = s.countRead.addCounts k := by
  simp only [countRead, addCounts, Nat.add_right_comm]

theorem findAll_addCounts (condition : Option Condition) (sorting : Option Sorting) :
    (s.addCounts k).findAll m condition sorting =
      ((s.findAll m condition sorting).1, (s.findAll m condition sorting).2.addCounts k) := by
  simp only [findAll, countRead_addCounts, populateAll]
  simp only [addCounts]
  cases m.populateAll s.countRead.registry s.countRead.tables
    (s.countRead.tables.select m.table condition sorting) <;> rfl

theorem findBy_addCounts (condition : Condition) (sorting : Option Sorting) :
    (s.addCounts k).findBy m condition sorting =
      ((s.findBy m condition sorting).1, (s.findBy m condition sorting).2.addCounts k) := by
  simp only [findBy, countRead_addCounts, populate]
  simp only [addCounts]
  cases (s.countRead.tables.select m.table (some condition) sorting).head? with
  | none => rfl
  | some first =>
      simp only
      cases m.populate s.countRead.registry s.countRead.tables first <;> rfl

theorem insertAll_addCounts (entities : List Entity) (ids : IdSequence) :
    (s.addCounts k).insertAll m entities ids =
      ((s.insertAll m entities ids).1, (s.insertAll m entities ids).2.1.addCounts k,
        (s.insertAll m entities ids).2.2) := by
  simp only [insertAll, addCounts, handOutAdded, populateAll]
  rcases m.newRows s.idForm (s.tables.ids m.table) entities ids with ⟨error | rows, ids'⟩
  · rfl
  · simp only
    cases m.populateAll s.registry (s.tables.append m.table rows) (rows.map (·.entity)) with
    | error error => rfl
    | ok added => simp only [countWrites, Nat.add_right_comm]

theorem insert_addCounts (e : Entity) (ids : IdSequence) :
    (s.addCounts k).insert m e ids =
      ((s.insert m e ids).1, (s.insert m e ids).2.1.addCounts k, (s.insert m e ids).2.2) := by
  simp only [insert, insertAll_addCounts]
  rcases s.insertAll m [e] ids with ⟨error | _ | ⟨added, others⟩, after, ids'⟩ <;> rfl

theorem refetch_addCounts (property : String) (id : Value) :
    (s.addCounts k).refetch m property id =
      ((s.refetch m property id).1, (s.refetch m property id).2.addCounts k) := by
  simp only [refetch, findBy_addCounts]
  rcases s.findBy m (.propertyEquals property id) none with ⟨error | _ | found, after⟩ <;> rfl

theorem writeChanges_addCounts (e : Entity) (id : Value) (changed : List Field) :
    (s.addCounts k).writeChanges m e id changed =
      ((s.writeChanges m e id changed).1, (s.writeChanges m e id changed).2.addCounts k) := by
  simp only [writeChanges, addCounts, populate]
  cases m.populate s.registry (s.tables.write m.table id e changed).tables
      (s.tables.write m.table id e changed).stored with
  | error error => rfl
  | ok populated => simp only [countWrites, Nat.add_right_comm]

theorem update_addCounts (e : Entity) :
    (s.addCounts k).update m e = ((s.update m e).1, (s.update m e).2.addCounts k) := by
  have sameTracking : (s.addCounts k).tracking = s.tracking := rfl
  simp only [update, sameTracking, refetch_addCounts, writeChanges_addCounts]
  split
  · rfl
  split
  · rfl
  split
  · rfl
  split <;> rfl

theorem delete_addCounts (condition : Option Condition) :
    (s.addCounts k).delete m condition = (s.delete m condition).addCounts k := by
  cases condition with
  | none => simp only [delete, addCounts, countDeletes, Nat.add_right_comm]
  | some condition => simp only [delete, addCounts, countDeletes, Nat.add_right_comm]

end Store

namespace Session

variable (c : Session) (k : Counters)

theorem addCounts_reads_add (n n' : Nat) :
    (c.addCounts ⟨n, 0, 0⟩).addCounts ⟨n', 0, 0⟩ = c.addCounts ⟨n + n', 0, 0⟩ := by
  simp only [addCounts, Store.addCounts, Nat.add_assoc, Nat.add_zero]

/-- A call answers the same whatever has been counted before, and counts the same. -/
theorem step_addCounts (operation : Operation) :
    (c.addCounts k).step operation = ((c.step operation).1, (c.step operation).2.addCounts k) := by
  cases operation with
  | register m => rfl
  | destroy => rfl
  | count m condition => simp only [step, Store.count, addCounts, Store.countRead_addCounts]; rfl
  | hasMatch m condition =>
      simp only [step, Store.hasMatch, addCounts, Store.countRead_addCounts]; rfl
  | findAll m condition sorting => simp only [step, addCounts, Store.findAll_addCounts]
  | findBy m condition sorting => simp only [step, addCounts, Store.findBy_addCounts]
  | insert m e => simp only [step, addCounts, Store.insert_addCounts]
  | insertAll m entities => simp only [step, addCounts, Store.insertAll_addCounts]
  | update m e => simp only [step, addCounts, Store.update_addCounts]
  | delete m condition => simp only [step, addCounts, Store.delete_addCounts]

theorem run_addCounts (operations : List Operation) :
    (c.addCounts k).run operations = (c.run operations).addCounts k := by
  induction operations generalizing c with
  | nil => rfl
  | cons operation operations ih =>
      show ((c.addCounts k).step operation).2.run operations = _
      rw [step_addCounts, ih]
      rfl

theorem answers_addCounts (operations : List Operation) :
    (c.addCounts k).answers operations = c.answers operations := by
  induction operations generalizing c with
  | nil => rfl
  | cons operation operations ih => rw [answers, answers, step_addCounts, ih]

/-! ## Readings are counted and nothing else -/

variable {c} {describe : String → Metadata}

theorem step_reading (mirrors : c.store.tracking.Mirrors describe c.store.tables)
    (reading : Reading) (follows : reading.operation.Follows describe) :
    (c.step reading.operation).2 = c.addCounts ⟨1, 0, 0⟩ := by
  cases reading with
  | count m condition => rfl
  | hasMatch m condition => rfl
  | findAll m condition sorting =>
      show (⟨(c.store.findAll m condition sorting).2, c.ids⟩ : Session) = _
      rw [Store.findAll_snd mirrors (follows m rfl)]
      rfl
  | findBy m condition sorting =>
      show (⟨(c.store.findBy m condition sorting).2, c.ids⟩ : Session) = _
      rw [Store.findBy_snd mirrors (follows m rfl)]
      rfl

theorem ownAnswers_own (operation : Operation) (calls : List PaddedCall) :
    c.ownAnswers (.own operation :: calls) =
      (c.step operation).1 :: (c.step operation).2.ownAnswers calls := rfl

theorem ownAnswers_extra (reading : Reading) (calls : List PaddedCall) :
    c.ownAnswers (.extra reading :: calls) =
      (c.step reading.operation).2.ownAnswers calls := rfl

theorem run_padded_from (mirrors : c.store.tracking.Mirrors describe c.store.tables)
    {calls : List PaddedCall} (follows : ∀ call ∈ calls, call.operation.Follows describe) :
    c.ownAnswers calls = c.answers (calls.filterMap PaddedCall.own?) ∧
      c.run (calls.map PaddedCall.operation) =
        (c.run (calls.filterMap PaddedCall.own?)).addCounts
          ⟨calls.countP PaddedCall.isExtra, 0, 0⟩ := by
  induction calls generalizing c with
  | nil => exact ⟨rfl, rfl⟩
  | cons call calls ih =>
      have later : ∀ call ∈ calls, call.operation.Follows describe :=
        fun call member => follows call (List.mem_cons_of_mem _ member)
      have now := follows call List.mem_cons_self
      cases call with
      | own operation =>
          obtain ⟨answers, after⟩ := ih (step_mirrors mirrors now) later
          refine ⟨?_, after⟩
          rw [ownAnswers_own]
          exact congrArg (_ :: ·) answers
      | extra reading =>
          have counted := step_reading mirrors reading now
          obtain ⟨answers, after⟩ := ih (c := c.addCounts ⟨1, 0, 0⟩) mirrors later
          constructor
          · rw [ownAnswers_extra, counted, answers, answers_addCounts]
            rfl
          · show (c.step reading.operation).2.run (calls.map PaddedCall.operation) = _
            rw [counted, after, run_addCounts, addCounts_reads_add,
              List.countP_cons_of_pos rfl, Nat.add_comm]
            rfl

/-- Where each table is used by one description, extra readings at any places of a run change
neither what the other calls answer nor the state that is reached, but for the count of reads,
which they raise by one each. -/
theorem run_with_extra_readings (describe : String → Metadata) (idForm : IdForm)
    (ids : IdSequence) (calls : List PaddedCall)
    (follows : ∀ call ∈ calls, call.operation.Follows describe) :
    let c := start idForm ids
    let without := c.run (calls.filterMap PaddedCall.own?)
    c.ownAnswers calls = c.answers (calls.filterMap PaddedCall.own?) ∧
      c.run (calls.map PaddedCall.operation) =
        { without with
          store.counters.reads := without.store.counters.reads + calls.countP PaddedCall.isExtra } :=
  run_padded_from .empty follows

/-- Two extra readings, of which the second fails, since the contact that a user refers to has
been deleted by then. -/
theorem run_with_extra_readings_samples :
    let drop : Operation := .delete Samples.contacts none
    let move : Operation := .update Samples.users ((Samples.user "Ada" "Turku" 36).set "id" "u1")
    let calls := Samples.calls.map PaddedCall.own ++
      [.extra (.findBy Samples.users (.propertyEquals "id" "u1") none), .own drop,
        .extra (.findAll Samples.users none none), .own move]
    let c := start .text .start
    (∀ call ∈ calls, call.operation.Follows Samples.describe) ∧
      ((c.run (Samples.calls ++ [drop])).step (.findAll Samples.users none none)).1 =
        .error (.danglingReference "contact" "contacts" "c1") ∧
      c.ownAnswers calls = c.answers (Samples.calls ++ [drop, move]) ∧
      (c.run (calls.map PaddedCall.operation)).store.counters = ⟨2, 3, 1⟩ := by
  have follows : ∀ call ∈ Samples.calls.map PaddedCall.own ++
      [.extra (.findBy Samples.users (.propertyEquals "id" "u1") none),
        .own (.delete Samples.contacts none), .extra (.findAll Samples.users none none),
        .own (.update Samples.users ((Samples.user "Ada" "Turku" 36).set "id" "u1"))],
      call.operation.Follows Samples.describe := by decide
  obtain ⟨answers, after⟩ := run_with_extra_readings Samples.describe .text .start _ follows
  refine ⟨follows, by rfl, answers, ?_⟩
  exact (congrArg (·.store.counters) after).trans (by rfl)

end Session

end EntityStore
