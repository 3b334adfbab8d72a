import Mathlib.Data.List.Forall2
import Mathlib.Logic.Relation
import EntityStore.Samples

/-!
Conditions that ask for the same.

A condition can be written in many ways: members change places, groups are spliced into groups of
their kind, put around a condition, distributed over groups of the other kind, and so on, at any
depth (`Condition.Rewrite`).  What a group accepts is decided by any one member that settles it
(`Connective.accepts_group_eq_settles_iff`), and this reads the same for both kinds of group, so
each law is proved for both at once.  Rewritten conditions accept the same entities, and no call and
no run can tell them apart (`Session.rewritten_conditions_agree`).
-/

namespace EntityStore

/-- The two kinds of group. -/
inductive Connective where
  | all
  | any
  deriving DecidableEq

namespace Connective

/-- The group of some members. -/
def group : Connective → List Condition → Condition
  | .all => .all
  | .any => .any

/-- The other kind of group. -/
def dual : Connective → Connective
  | .all => .any
  | .any => .all

/-- What a member has to say of an entity to settle what its group says. -/
def settles : Connective → Bool
  | .all => false
  | .any => true

end Connective

namespace Condition

/-- One way to write a condition differently, in the whole or in a part of it. -/
inductive Rewrite : Condition → Condition → Prop where
  /-- The members change places. -/
  | permute (kind : Connective) {members members' : List Condition}
      (same : members.Perm members') : Rewrite (kind.group members) (kind.group members')
  /-- The members of a member of the same kind take its place; it may have none. -/
  | splice (kind : Connective) (before inner after : List Condition) :
      Rewrite (kind.group (before ++ kind.group inner :: after))
        (kind.group (before ++ inner ++ after))
  /-- A group with a single member is put around the condition. -/
  | wrap (kind : Connective) (condition : Condition) : Rewrite condition (kind.group [condition])
  /-- A member is repeated. -/
  | double (kind : Connective) (member : Condition) (members : List Condition) :
      Rewrite (kind.group (member :: members)) (kind.group (member :: member :: members))
  /-- A group is distributed over the members of a member of the other kind. -/
  | distribute (kind : Connective) (before inner after : List Condition) :
      Rewrite (kind.group (before ++ kind.dual.group inner :: after))
        (kind.dual.group (inner.map fun member => kind.group (before ++ member :: after)))
  /-- A choice among values becomes a choice among equalities. -/
  | choice (property : String) (values : List Value) :
      Rewrite (.propertyIn property values) (.any (values.map (.propertyEquals property)))
  /-- A member is written differently. -/
  | within (kind : Connective) (before after : List Condition) {member member' : Condition}
      (rewrite : Rewrite member member') :
      Rewrite (kind.group (before ++ member :: after)) (kind.group (before ++ member' :: after))

/-- Any number of rewrites leads from one condition to the other, each of them in either
direction. -/
def Rewritten : Condition → Condition → Prop := Relation.EqvGen Rewrite

end Condition

/-! ## What decides a group -/

namespace Connective

variable (kind : Connective) (e : Entity)

/-- Outcomes that settle a group together are the same. -/
theorem eq_of_settles_iff {a b : Bool} (alike : a = kind.settles ↔ b = kind.settles) : a = b := by
  cases kind with
  | all => simpa [settles] using alike
  | any => simpa [settles] using alike

/-- A group is settled by any member that settles it. -/
theorem accepts_group_eq_settles_iff (members : List Condition) :
    (kind.group members).accepts e = kind.settles ↔
      ∃ member ∈ members, member.accepts e = kind.settles := by
  cases kind with
  | all => simp [group, settles]
  | any => simp [group, settles]

/-- A group of the other kind is settled the same way only by all its members together. -/
theorem accepts_dual_eq_settles_iff (members : List Condition) :
    (kind.dual.group members).accepts e = kind.settles ↔
      ∀ member ∈ members, member.accepts e = kind.settles := by
  cases kind with
  | all => simp [group, dual, settles]
  | any => simp [group, dual, settles]

/-- A condition in the midst of others settles a group where it or another member does. -/
theorem accepts_group_append_cons (before after : List Condition) (member : Condition) :
    (kind.group (before ++ member :: after)).accepts e = kind.settles ↔
      member.accepts e = kind.settles ∨
        ∃ other ∈ before ++ after, other.accepts e = kind.settles := by
  rw [accepts_group_eq_settles_iff]
  simp only [List.mem_append, List.mem_cons]
  grind

end Connective

namespace Condition

/-- Writing a condition differently changes nothing in what it accepts. -/
theorem accepts_eq_of_rewrite {w w' : Condition} (rewrite : Rewrite w w') (e : Entity) :
    w.accepts e = w'.accepts e := by
  induction rewrite with
  | permute kind same =>
      apply kind.eq_of_settles_iff
      simp only [kind.accepts_group_eq_settles_iff, same.mem_iff]
  | splice kind before inner after =>
      apply kind.eq_of_settles_iff
      rw [kind.accepts_group_append_cons]
      simp only [kind.accepts_group_eq_settles_iff, List.mem_append]
      grind
  | wrap kind condition =>
      apply kind.eq_of_settles_iff
      simp [kind.accepts_group_eq_settles_iff]
  | double kind member members =>
      apply kind.eq_of_settles_iff
      simp [kind.accepts_group_eq_settles_iff]
  | distribute kind before inner after =>
      apply kind.eq_of_settles_iff
      rw [kind.accepts_group_append_cons, kind.accepts_dual_eq_settles_iff,
        kind.accepts_dual_eq_settles_iff]
      simp only [List.forall_mem_map, kind.accepts_group_append_cons]
      grind
  | choice property values =>
      simp only [accepts_any, List.any_map, propertyIn, accepts_leaf, PropertyTest.holds,
        Predicate.holds, Function.comp_def, propertyEquals]
      cases e.get? property with
      | none => simp
      | some value =>
          rw [Bool.eq_iff_iff]
          simp
  | within kind before after rewrite ih =>
      apply kind.eq_of_settles_iff
      rw [kind.accepts_group_append_cons, kind.accepts_group_append_cons, ih]

/-- Conditions that rewriting leads to each other accept the same entities. -/
theorem accepts_eq_of_rewritten {w w' : Condition} (rewritten : w.Rewritten w') :
    w.accepts = w'.accepts := by
  induction rewritten with
  | rel w w' rewrite => exact funext fun e => accepts_eq_of_rewrite rewrite e
  | refl w => rfl
  | symm w w' _ ih => exact ih.symm
  | trans w w' w'' _ _ first second => exact first.trans second

end Condition

/-! ## Calls with rewritten conditions -/

/-- The same call, with its condition written differently or not. -/
inductive Operation.Rewritten : Operation → Operation → Prop where
  | same (operation : Operation) : Rewritten operation operation
  | count (m : Metadata) {w w' : Condition} (rewritten : w.Rewritten w') :
      Rewritten (.count m (some w)) (.count m (some w'))
  | hasMatch (m : Metadata) {w w' : Condition} (rewritten : w.Rewritten w') :
      Rewritten (.hasMatch m w) (.hasMatch m w')
  | findAll (m : Metadata) (sorting : Option Sorting) {w w' : Condition}
      (rewritten : w.Rewritten w') :
      Rewritten (.findAll m (some w) sorting) (.findAll m (some w') sorting)
  | findBy (m : Metadata) (sorting : Option Sorting) {w w' : Condition}
      (rewritten : w.Rewritten w') : Rewritten (.findBy m w sorting) (.findBy m w' sorting)
  | delete (m : Metadata) {w w' : Condition} (rewritten : w.Rewritten w') :
      Rewritten (.delete m (some w)) (.delete m (some w'))

theorem Tables.matching_rewritten {w w' : Condition} (rewritten : w.Rewritten w') (t : Tables)
    (table : String) : t.matching table (some w) = t.matching table (some w') := by
  unfold matching Condition.acceptsOptional
  simp only [Option.all_some, Condition.accepts_eq_of_rewritten rewritten]

namespace Session

/-- A call answers and does the same whatever way its condition is written. -/
theorem step_rewritten {operation operation' : Operation}
    (rewritten : operation.Rewritten operation') (c : Session) :
    c.step operation = c.step operation' := by
  cases rewritten with
  | same operation => rfl
  | count m rewritten =>
      simp only [step, Store.count, Tables.matching_rewritten rewritten]
  | hasMatch m rewritten =>
      simp only [step, Store.hasMatch, Tables.matching_rewritten rewritten]
  | findAll m sorting rewritten =>
      simp only [step, Store.findAll, Tables.select, Tables.matching_rewritten rewritten]
  | findBy m sorting rewritten =>
      simp only [step, Store.findBy, Tables.select, Tables.matching_rewritten rewritten]
  | delete m rewritten =>
      simp only [step, Store.delete, Condition.accepts_eq_of_rewritten rewritten]

/-- So does a run. -/
theorem run_rewritten {operations operations' : List Operation}
    (rewritten : List.Forall₂ Operation.Rewritten operations operations') (c : Session) :
    c.answers operations = c.answers operations' ∧ c.run operations = c.run operations' := by
  induction rewritten generalizing c with
  | nil => exact ⟨rfl, rfl⟩
  | @cons operation operation' operations operations' now later ih =>
      obtain ⟨answers, after⟩ := ih (c.step operation').2
      have same := step_rewritten now c
      constructor
      · rw [Session.answers, Session.answers, same, answers]
      · show (c.step operation).2.run operations = (c.step operation').2.run operations'
        rw [same, after]

/-- A condition that is rewritten any number of times, at any depth and in either direction, accepts
the same entities as before.  In every state counting, asking whether anything matches, deleting and
finding do the same with both, and a run that asks with the one at some places and with the other at
others answers and ends as if it asked with one of them everywhere. -/
theorem rewritten_conditions_agree {w w' : Condition} (rewritten : w.Rewritten w') :
    (∀ e, w.accepts e = w'.accepts e) ∧
      (∀ (c : Session) (m : Metadata) (sorting : Option Sorting),
        c.step (.count m (some w)) = c.step (.count m (some w')) ∧
          c.step (.hasMatch m w) = c.step (.hasMatch m w') ∧
          c.step (.delete m (some w)) = c.step (.delete m (some w')) ∧
          c.step (.findAll m (some w) sorting) = c.step (.findAll m (some w') sorting) ∧
          c.step (.findBy m w sorting) = c.step (.findBy m w' sorting)) ∧
      ∀ (c : Session) (operations operations' : List Operation),
        List.Forall₂ Operation.Rewritten operations operations' →
          c.answers operations = c.answers operations' ∧ c.run operations = c.run operations' := by
  refine ⟨fun e => congrFun (Condition.accepts_eq_of_rewritten rewritten) e,
    fun c m sorting => ⟨?_, ?_, ?_, ?_, ?_⟩, fun c _ _ calls => run_rewritten calls c⟩
  · exact step_rewritten (.count m rewritten) c
  · exact step_rewritten (.hasMatch m rewritten) c
  · exact step_rewritten (.delete m rewritten) c
  · exact step_rewritten (.findAll m sorting rewritten) c
  · exact step_rewritten (.findBy m sorting rewritten) c

/-- A choice between cities within a group becomes a choice between groups, one of which names its
city twice; whoever is deleted by the one is not found by the other. -/
theorem rewritten_conditions_agree_samples :
    let city (name : String) : Condition := .propertyEquals "city" name
    let grown : Condition := .propertyAfter "age" (.integer 17)
    let w : Condition := .all [.propertyIn "city" ["Oulu", "Turku"], grown]
    let w' : Condition := .any [.all [city "Oulu", city "Oulu", grown], .all [city "Turku", grown]]
    let calls := Samples.tables.map .register ++ [.insertAll Samples.users
      [Samples.user "Ada" "Oulu" 36, Samples.user "Bo" "Turku" 12, Samples.user "Cy" "Turku" 44]]
    let c := (start .text .start).run calls
    w.Rewritten w' ∧
      w'.accepts (Samples.user "Ada" "Oulu" 36) = true ∧
      (c.step (.count Samples.users (some w'))).1 = .ok (.number 2) ∧
      List.Forall₂ Operation.Rewritten
        [.delete Samples.users (some w), .count Samples.users (some w')]
        [.delete Samples.users (some w), .count Samples.users (some w)] ∧
      c.answers [.delete Samples.users (some w), .count Samples.users (some w')] =
        [.ok .done, .ok (.number 0)] := by
  intro city grown w w' calls c
  have rewritten : w.Rewritten w' := by
    have chosen : Condition.Rewrite w (.all [.any [city "Oulu", city "Turku"], grown]) :=
      .within .all [] [grown] (.choice "city" ["Oulu", "Turku"])
    have distributed : Condition.Rewrite (.all [.any [city "Oulu", city "Turku"], grown])
        (.any [.all [city "Oulu", grown], .all [city "Turku", grown]]) :=
      .distribute .all [] [city "Oulu", city "Turku"] [grown]
    have doubled : Condition.Rewrite (.any [.all [city "Oulu", grown], .all [city "Turku", grown]])
        w' := .within .any [] [.all [city "Turku", grown]] (.double .all (city "Oulu") [grown])
    exact .trans _ _ _ (.rel _ _ chosen) (.trans _ _ _ (.rel _ _ distributed) (.rel _ _ doubled))
  obtain ⟨accepted, sameCalls, sameRuns⟩ := rewritten_conditions_agree rewritten
  have asked : List.Forall₂ Operation.Rewritten
      [.delete Samples.users (some w), .count Samples.users (some w')]
      [.delete Samples.users (some w), .count Samples.users (some w)] :=
    .cons (.same _) (.cons (.count Samples.users (rewritten.symm _ _)) .nil)
  refine ⟨rewritten, ?_, ?_, asked, ?_⟩
  · rw [← accepted]
    rfl
  · rw [← (sameCalls c Samples.users none).1]
    rfl
  · rw [(sameRuns c _ _ asked).1]
    rfl

end Session

end EntityStore
