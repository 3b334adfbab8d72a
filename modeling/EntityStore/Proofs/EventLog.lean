import EntityStore.Proofs.Regular
import EntityStore.Proofs.Remembering
import EntityStore.Samples
import Mathlib.Data.List.Induction

/-!
Change tracking, read off the log of what happened.

A tracking keeps one snapshot per table and id.  The calls made on it come to a log of events
(`Tracking.Call.events`), and each event concerns some tables and ids: a save concerns the table of
its description and the id that the description reads from the entity, if that is truthy.  What is
remembered for a table and an id is what the last event that concerns them left there.  An answer
therefore rests on two descriptions, that of the question and that of the last save
(`Tracking.LastSave`): a property that the save declared is compared with the value saved, any other
with absence (`Tracking.answers_follow_last_save`).
-/

namespace EntityStore

theorem Metadata.idOf?_eq_some_iff {m : Metadata} {e : Entity} {id : Value} :
    m.idOf? e = some id ↔ e.get? m.idProperty = some id ∧ id.isTruthy = true :=
  ⟨fun identified => ⟨get?_of_idOf? identified, isTruthy_idOf? identified⟩,
    fun ⟨holds, truthy⟩ => idOf?_of_get? holds truthy⟩

/-- The table of users once more, with the name for the id and few of the fields. -/
def Samples.usersByName : Metadata :=
  { Metadata.ofTable "users" "name" with fields := [field "name" "name", field "age" "age"] }

namespace Tracking

/-! ## Events -/

/-- What happens to the memory of one entity, of a table, or of all. -/
inductive Event where
  | save (m : Metadata) (e : Entity)
  | forget (table : String) (id : Value)
  | forgetTable (table : String)
  | clear

/-- The event decides what is remembered for a table and an id.  A save decides it for the table of
the description, whatever table the entity names, and for the entity's id, if that is truthy. -/
def Event.Concerns (table : String) (id : Value) : Event → Prop
  | .save m e => table = m.table ∧ e.get? m.idProperty = some id ∧ id.isTruthy = true
  | .forget table' id' => table = table' ∧ id = id'
  | .forgetTable table' => table = table'
  | .clear => True

instance (table : String) (id : Value) : DecidablePred (Event.Concerns table id)
  | .save m e =>
      inferInstanceAs (Decidable
        (table = m.table ∧ e.get? m.idProperty = some id ∧ id.isTruthy = true))
  | .forget table' id' => inferInstanceAs (Decidable (table = table' ∧ id = id'))
  | .forgetTable table' => inferInstanceAs (Decidable (table = table'))
  | .clear => inferInstanceAs (Decidable True)

/-- What is remembered, after the event, for the tables and ids that it concerns. -/
def Event.snapshot? : Event → Option Snapshot
  | .save m e => some (m.snapshot e)
  | _ => none

/-- The memory after an event. -/
def record (t : Tracking) : Event → Tracking
  | .save m e => t.save m e
  | .forget table id => t.forget table id
  | .forgetTable table => t.forgetTable table
  | .clear => ∅

/-- The memory after the events of a log, one after the other. -/
def replay (t : Tracking) (log : List Event) : Tracking := log.foldl record t

/-- An event changes what it concerns, and nothing else. -/
theorem snapshot?_record (t : Tracking) (event : Event) (table : String) (id : Value) :
    (t.record event).snapshot? table id =
      if event.Concerns table id then event.snapshot? else t.snapshot? table id := by
  cases event with
  | save m e =>
      have asked : (m.idOf? e = some id ∧ m.table = table) ↔
          (Event.save m e).Concerns table id := by
        rw [Metadata.idOf?_eq_some_iff, and_comm, eq_comm (a := m.table)]
        exact Iff.rfl
      simp only [record, Event.snapshot?, snapshot?_save, asked]
  | forget table' id' => exact snapshot?_forget t table' table id' id
  | forgetTable table' => exact snapshot?_forgetTable t table' table id
  | clear => rfl

theorem replay_append (t : Tracking) (log later : List Event) :
    t.replay (log ++ later) = (t.replay log).replay later :=
  List.foldl_append

/-- Events that do not concern a table and an id leave them alone. -/
theorem snapshot?_replay_of_unconcerned (t : Tracking) {log : List Event} {table : String}
    {id : Value} (others : ∀ event ∈ log, ¬event.Concerns table id) :
    (t.replay log).snapshot? table id = t.snapshot? table id := by
  induction log generalizing t with
  | nil => rfl
  | cons event later ih =>
      obtain ⟨other, others⟩ := List.forall_mem_cons.mp others
      calc
        (t.replay (event :: later)).snapshot? table id = (t.record event).snapshot? table id :=
          ih (t.record event) others
        _ = t.snapshot? table id := by rw [snapshot?_record, if_neg other]

/-! ## The last save -/

/-- In the log, the last event that concerns the table and the id saves the entity by the
description. -/
def LastSave (log : List Event) (table : String) (id : Value) (m : Metadata) (e : Entity) : Prop :=
  (Event.save m e).Concerns table id ∧
    ∃ earlier later, log = earlier ++ .save m e :: later ∧
      ∀ event ∈ later, ¬event.Concerns table id

variable {log : List Event} {table : String} {id : Value} {m : Metadata} {e : Entity}

theorem LastSave.concat (last : LastSave log table id m e) {event : Event}
    (other : ¬event.Concerns table id) : LastSave (log ++ [event]) table id m e := by
  obtain ⟨own, earlier, later, rfl, others⟩ := last
  refine ⟨own, earlier, later ++ [event], by simp, fun event' member => ?_⟩
  rcases List.mem_append.mp member with old | new
  · exact others event' old
  · rw [List.mem_singleton.mp new]
    exact other

/-- What was saved last is remembered. -/
theorem LastSave.snapshot?_replay (last : LastSave log table id m e) (t : Tracking) :
    (t.replay log).snapshot? table id = some (m.snapshot e) := by
  obtain ⟨own, earlier, later, rfl, others⟩ := last
  have saved : ((t.replay earlier).record (.save m e)).snapshot? table id =
      some (m.snapshot e) := by
    rw [snapshot?_record, if_pos own]
    rfl
  rw [replay_append]
  exact (snapshot?_replay_of_unconcerned _ others).trans saved

/-- What is remembered was saved, and nothing has happened to it since. -/
theorem exists_lastSave_of_remembered
    (remembered : (((∅ : Tracking).replay log).snapshot? table id).isSome) :
    ∃ m e, LastSave log table id m e := by
  -- The last event of the log decides, or it does not concern what is asked for.
  induction log using List.reverseRecOn with
  | nil => cases remembered
  | append_singleton log event ih =>
      have recorded : ((∅ : Tracking).replay (log ++ [event])).snapshot? table id =
          if event.Concerns table id then event.snapshot?
          else ((∅ : Tracking).replay log).snapshot? table id := by
        rw [replay_append]
        exact snapshot?_record _ event table id
      rw [recorded] at remembered
      by_cases concerned : event.Concerns table id
      · rw [if_pos concerned] at remembered
        cases event with
        | save m e => exact ⟨m, e, concerned, log, [], rfl, nofun⟩
        | forget | forgetTable | clear => cases remembered
      · rw [if_neg concerned] at remembered
        obtain ⟨m, e, last⟩ := ih remembered
        exact ⟨m, e, last.concat concerned⟩

theorem remembered_iff_exists_lastSave :
    (((∅ : Tracking).replay log).snapshot? table id).isSome ↔ ∃ m e, LastSave log table id m e :=
  ⟨exists_lastSave_of_remembered, fun ⟨_, _, last⟩ => by rw [last.snapshot?_replay]; rfl⟩

/-! ## Changed fields -/

/-- With a memory the changed fields are those whose values differ from it.  Of the entity that was
saved, it holds the properties that the description of the save declares. -/
theorem changedFields_of_remembered {t : Tracking} {savedBy : Metadata} {saved : Entity}
    (identified : m.idOf? e = some id)
    (remembered : t.snapshot? m.table id = some (savedBy.snapshot saved)) :
    t.changedFields m e = m.fields.filter fun field =>
      e.get? field.property ≠
        if field.property ∈ savedBy.fields.map (·.property) then saved.get? field.property
        else none := by
  unfold changedFields
  rw [identified, Option.bind_some, remembered]
  simp only [Metadata.get?_snapshot]

/-- Without a memory every field counts as changed. -/
theorem changedFields_of_unknown {t : Tracking}
    (unknown : ∀ id, m.idOf? e = some id → t.snapshot? m.table id = none) :
    t.changedFields m e = m.fields := by
  unfold changedFields
  rw [Option.bind_eq_none_iff.mpr unknown]

/-! ## Calls -/

/-- A call of a tracking: one event, or a save of several entities. -/
inductive Call where
  | single (event : Event)
  | saveAll (m : Metadata) (entities : List Entity)

/-- The events that a call comes to: several entities are saved one by one, in their order. -/
def Call.events : Call → List Event
  | .single event => [event]
  | .saveAll m entities => entities.map (.save m)

/-- The memory after a call. -/
def call (t : Tracking) : Call → Tracking
  | .single event => t.record event
  | .saveAll m entities => t.saveAll m entities

/-- The memory after calls, one after the other. -/
def run (t : Tracking) (calls : List Call) : Tracking := calls.foldl call t

theorem call_eq_replay (t : Tracking) (c : Call) : t.call c = t.replay c.events := by
  cases c with
  | single event => rfl
  | saveAll m entities =>
      show entities.foldl (·.save m) t = (entities.map (Event.save m)).foldl record t
      rw [List.foldl_map]
      rfl

theorem run_eq_replay (t : Tracking) (calls : List Call) :
    t.run calls = t.replay (calls.flatMap Call.events) := by
  induction calls generalizing t with
  | nil => rfl
  | cons c calls ih =>
      calc
        t.run (c :: calls) = (t.replay c.events).run calls :=
          congrArg (·.run calls) (t.call_eq_replay c)
        _ = (t.replay c.events).replay (calls.flatMap Call.events) := ih _
        _ = t.replay ((c :: calls).flatMap Call.events) := by
          rw [List.flatMap_cons, replay_append]

/-- After every list of calls a tracking answers from the log of their events.  If an entity was
saved last under the table and id of the one in question, the changed fields are those, in the order
of the description in question, whose values differ from the saved ones, where the description of
the save declares them, and from absence, where it does not.  If there is no such save, or the
entity in question has no truthy id, all fields count as changed.  A table and an id are tracked if
there is such a save. -/
theorem answers_follow_last_save (calls : List Call) :
    let tracking := (∅ : Tracking).run calls
    let log := calls.flatMap Call.events
    (∀ (m : Metadata) (e : Entity) (id : Value) (savedBy : Metadata) (saved : Entity),
        e.get? m.idProperty = some id → id.isTruthy = true →
        LastSave log m.table id savedBy saved →
        tracking.changedFields m e = m.fields.filter fun field =>
          e.get? field.property ≠
            if field.property ∈ savedBy.fields.map (·.property) then saved.get? field.property
            else none) ∧
      (∀ (m : Metadata) (e : Entity),
        (∀ id, e.get? m.idProperty = some id → id.isTruthy = true →
          ¬∃ savedBy saved, LastSave log m.table id savedBy saved) →
        tracking.changedFields m e = m.fields) ∧
      ∀ table id, tracking.isTracked table id = true ↔
        ∃ savedBy saved, LastSave log table id savedBy saved := by
  intro tracking log
  have replayed : tracking = (∅ : Tracking).replay log := run_eq_replay ∅ calls
  refine ⟨fun m e id savedBy saved holds truthy last => ?_, fun m e unsaved => ?_,
    fun table id => ?_⟩
  · refine changedFields_of_remembered (Metadata.idOf?_of_get? holds truthy) ?_
    rw [replayed]
    exact last.snapshot?_replay ∅
  · refine changedFields_of_unknown fun id identified => ?_
    obtain ⟨holds, truthy⟩ := Metadata.idOf?_eq_some_iff.mp identified
    rw [← Option.not_isSome_iff_eq_none, replayed, remembered_iff_exists_lastSave]
    exact unsaved id holds truthy
  · unfold isTracked
    rw [replayed]
    exact remembered_iff_exists_lastSave

/-- A user is saved by id and forgotten; then another user, whose name is that id, is saved by name.
That saves the name and the age alone, so the city counts as changed although both users live in
London.  The age is the same, and the user in question has no time of creation. -/
theorem answers_follow_last_save_samples :
    let calls : List Call :=
      [.saveAll Samples.users [Samples.userOf "u1" "c1", Samples.user "Eve" "Paris" 52],
        .single (.forget "users" "u1"),
        .single (.save Samples.usersByName (Samples.user "u1" "London" 36)),
        .single (.forgetTable "carts"),
        .single (.save Samples.users (Samples.userOf "u2" "c1"))]
    let tracking := (∅ : Tracking).run calls
    let log := calls.flatMap Call.events
    (Samples.userOf "u1" "c1").get? Samples.users.idProperty = some "u1" ∧
      (Value.text "u1").isTruthy = true ∧
      LastSave log "users" "u1" Samples.usersByName (Samples.user "u1" "London" 36) ∧
      (tracking.changedFields Samples.users (Samples.userOf "u1" "c1")).map (·.property) =
        ["id", "name", "city", "contactId"] ∧
      (Samples.user "Eve" "Paris" 52).get? Samples.users.idProperty = none ∧
      tracking.changedFields Samples.users (Samples.user "Eve" "Paris" 52) = Samples.users.fields ∧
      tracking.isTracked "users" "u1" = true := by
  intro calls tracking log
  obtain ⟨afterSave, withoutSave, tracked⟩ := answers_follow_last_save calls
  have holds : (Samples.userOf "u1" "c1").get? Samples.users.idProperty = some "u1" := by decide
  have truthy : (Value.text "u1").isTruthy = true := by decide
  have last : LastSave log "users" "u1" Samples.usersByName (Samples.user "u1" "London" 36) :=
    ⟨by decide, log.take 3, log.drop 4, rfl, by decide⟩
  have noId : (Samples.user "Eve" "Paris" 52).get? Samples.users.idProperty = none := by decide
  refine ⟨holds, truthy, last, ?_, noId, withoutSave _ _ fun id holds' => ?_,
    (tracked "users" "u1").mpr ⟨_, _, last⟩⟩
  · rw [afterSave _ _ _ _ _ holds truthy last]
    decide
  · rw [noId] at holds'
    cases holds'

end Tracking

end EntityStore
