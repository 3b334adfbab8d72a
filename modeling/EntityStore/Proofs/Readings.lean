import EntityStore.Proofs.Refinement
import EntityStore.Proofs.StableSorting
import EntityStore.Proofs.Storage
import EntityStore.Samples

/-!
The reading operations agree with each other.

All of them look at the entities that a condition accepts.  These can be told before or after
sorting and before or after relations are filled in, since a condition looks at properties alone
(`Condition.accepts_eq_of_withoutRelations`).  So what is counted, what is found first and what is
found without a condition all follow from what is found (`Session.readings_agree`).
-/

namespace EntityStore

/-! ## Conditions look at properties alone -/

namespace Condition

variable {a b : Entity}

mutual

theorem accepts_eq_of_withoutRelations (same : a.withoutRelations = b.withoutRelations) :
    ∀ condition : Condition, condition.accepts a = condition.accepts b
  | .leaf test => by
      rw [accepts_leaf, accepts_leaf, PropertyTest.holds, PropertyTest.holds,
        Entity.get?_eq_of_withoutRelations same]
  | .all members => acceptsAll_eq_of_withoutRelations same members
  | .any members => acceptsAny_eq_of_withoutRelations same members

theorem acceptsAll_eq_of_withoutRelations (same : a.withoutRelations = b.withoutRelations) :
    ∀ members : List Condition, acceptsAll members a = acceptsAll members b
  | [] => rfl
  | member :: members => by
      rw [acceptsAll, acceptsAll, accepts_eq_of_withoutRelations same member,
        acceptsAll_eq_of_withoutRelations same members]

theorem acceptsAny_eq_of_withoutRelations (same : a.withoutRelations = b.withoutRelations) :
    ∀ members : List Condition, acceptsAny members a = acceptsAny members b
  | [] => rfl
  | member :: members => by
      rw [acceptsAny, acceptsAny, accepts_eq_of_withoutRelations same member,
        acceptsAny_eq_of_withoutRelations same members]

end

end Condition

/-! ## What is selected -/

/-- Entities in the order asked for: stably sorted, or else as they stand. -/
def Sorting.Arranged (sorting : Option Sorting) (stored found : List Entity) : Prop :=
  match sorting with
  | some sorting => StablySorted sorting.compare stored found
  | none => found = stored

namespace Tables

variable {t : Tables} {table : String}

theorem arranged_select (condition : Option Condition) (sorting : Option Sorting) :
    Sorting.Arranged sorting ((t.matching table condition).map (·.entity.withoutRelations))
      (t.select table condition sorting) := by
  cases sorting with
  | none => rfl
  | some sorting => exact sorting.stablySorted_sort _

theorem length_select (condition : Option Condition) (sorting : Option Sorting) :
    (t.select table condition sorting).length = (t.matching table condition).length := by
  cases sorting with
  | none => exact List.length_map _
  | some sorting => exact (List.length_mergeSort _).trans (List.length_map _)

/-- Entities are selected without relations. -/
theorem map_withoutRelations_select (condition : Option Condition) (sorting : Option Sorting) :
    (t.select table condition sorting).map Entity.withoutRelations =
      t.select table condition sorting := by
  refine (List.map_congr_left fun e member => ?_).trans (List.map_id _)
  obtain ⟨row, -, rfl⟩ := exists_row_of_mem_select member
  rfl

/-- What a condition selects is what it accepts of all that can be selected. -/
theorem select_eq_filter (condition : Condition) (sorting : Option Sorting) :
    t.select table (some condition) sorting =
      (t.select table none sorting).filter condition.accepts := by
  have chosen : (t.matching table (some condition)).map (·.entity.withoutRelations) =
      ((t.matching table none).map (·.entity.withoutRelations)).filter condition.accepts := by
    rw [List.filter_map]
    congr 1
    unfold matching
    rw [List.filter_filter]
    refine List.filter_congr fun row _ => ?_
    have plain := condition.accepts_eq_of_withoutRelations
      (Entity.withoutRelations_withoutRelations row.entity)
    simp [Condition.acceptsOptional, plain]
  unfold select
  rw [chosen]
  cases sorting with
  | none => rfl
  | some sorting => exact (sorting.filter_sort _ _).symm

/-- Regular rows are handed out as they are stored. -/
theorem Regular.map_matching (regular : t.Regular) (table : String) (condition : Condition) :
    (t.matching table (some condition)).map (·.entity.withoutRelations) =
      ((t.rows table).map (·.entity)).filter condition.accepts := by
  rw [List.filter_map]
  refine List.map_congr_left fun row member => ?_
  exact (regular.rows table row (List.mem_filter.mp member).1).withoutRelations

end Tables

/-! ## What is found -/

namespace Metadata

variable {registry : Registry} {tables : Tables} {m : Metadata} {entities found : List Entity}

/-- What is chosen by properties can be chosen before or after relations are filled in. -/
theorem populateAll_filter {keep : Entity → Bool}
    (plain : ∀ a b : Entity, a.withoutRelations = b.withoutRelations → keep a = keep b)
    (ok : m.populateAll registry tables entities = .ok found) :
    m.populateAll registry tables (entities.filter keep) = .ok (found.filter keep) := by
  induction entities generalizing found with
  | nil =>
      cases ok
      rfl
  | cons e rest ih =>
      obtain ⟨first, others, okFirst, okRest, rfl⟩ := exists_of_populateAll_cons ok
      have same := plain first e (withoutRelations_populate okFirst)
      rw [List.filter_cons, List.filter_cons, same]
      split
      · rw [populateAll, okFirst, ih okRest]
      · exact ih okRest

end Metadata

/-- Where all entities can be handed out, the first of them can. -/
theorem Store.findBy_of_findAll {s : Store} {m : Metadata} {condition : Condition}
    {sorting : Option Sorting} {found : List Entity}
    (ok : (s.findAll m (some condition) sorting).1 = .ok found) :
    (s.findBy m condition sorting).1 = .ok found.head? := by
  rw [findAll_fst] at ok
  rw [findBy_fst]
  cases selected : s.tables.select m.table (some condition) sorting with
  | nil =>
      rw [selected] at ok
      cases ok
      rfl
  | cons e rest =>
      rw [selected] at ok
      obtain ⟨first, others, okFirst, -, rfl⟩ := Metadata.exists_of_populateAll_cons ok
      simp only [List.head?_cons, okFirst]
      rfl

namespace Session

/-- After every run, with whatever descriptions: `count` gives the number of stored entities that
the condition accepts and `hasMatch` says whether there are any.  If all of them can be found, so
can the first; they are the stored entities that the condition accepts, with ties in table order;
and they are those that it accepts of what is found without it, if that succeeds too.  The
condition that asks for nothing is as good as none. -/
theorem readings_agree (idForm : IdForm) (ids : IdSequence) (operations : List Operation)
    (m : Metadata) (condition : Condition) (sorting : Option Sorting) :
    let store := ((start idForm ids).run operations).store
    let stored := (store.tables.rows m.table).map (·.entity)
    (store.count m (some condition)).1 = stored.countP condition.accepts ∧
    ((store.hasMatch m condition).1 = true ↔ 0 < (store.count m (some condition)).1) ∧
    (∀ found, (store.findAll m (some condition) sorting).1 = .ok found →
      found.length = (store.count m (some condition)).1 ∧
      (store.findBy m condition sorting).1 = .ok found.head? ∧
      Sorting.Arranged sorting (stored.filter condition.accepts)
        (found.map Entity.withoutRelations) ∧
      ∀ all, (store.findAll m none sorting).1 = .ok all →
        found = all.filter condition.accepts) ∧
    store.count m none = store.count m (some (.all [])) ∧
    store.findAll m none sorting = store.findAll m (some (.all [])) sorting := by
  intro store stored
  have regular : store.tables.Regular := run_regular idForm ids operations
  have accepted := regular.map_matching m.table condition
  refine ⟨?_, ?_, fun found ok => ?_, rfl, rfl⟩
  · rw [List.countP_eq_length_filter, ← accepted, List.length_map]
    rfl
  · simp [Store.hasMatch, Store.count, List.length_pos_iff]
  · have first := Store.findBy_of_findAll ok
    rw [Store.findAll_fst] at ok
    refine ⟨?_, first, ?_, fun all okAll => ?_⟩
    · exact (Metadata.length_populateAll ok).trans (Tables.length_select _ _)
    · rw [Metadata.map_withoutRelations_populateAll ok, Tables.map_withoutRelations_select,
        ← accepted]
      exact Tables.arranged_select _ _
    · rw [Store.findAll_fst] at okAll
      rw [Tables.select_eq_filter] at ok
      have chosen := Metadata.populateAll_filter
        (fun _ _ same => condition.accepts_eq_of_withoutRelations same) okAll
      exact Except.ok.inj (ok.symm.trans chosen)

/-- Of four contacts three are found by their addresses, the two with the same address as they are
stored. -/
theorem readings_agree_samples :
    let card (id email : String) : Entity := (Samples.contact email).set "id" id
    let calls := [.insertAll Samples.contacts [card "c1" "bo@example.org",
      card "c2" "ada@example.org", card "c3" "bo@example.org", card "c4" "al@example.org"]]
    let store := ((start .text .start).run calls).store
    let chosen : Condition := .propertyIn "id" ["c1", "c3", "c4"]
    let byEmail : Sorting := .byProperty "email" .ascending
    (store.findAll Samples.contacts (some chosen) (some byEmail)).1 =
        .ok [card "c4" "al@example.org", card "c1" "bo@example.org", card "c3" "bo@example.org"] ∧
      (store.findBy Samples.contacts chosen (some byEmail)).1 =
        .ok (some (card "c4" "al@example.org")) ∧
      (store.count Samples.contacts (some chosen)).1 = 3 := by
  intro card calls store chosen byEmail
  have tie : (byEmail.compare (card "c1" "bo@example.org") (card "c3" "bo@example.org")).isLE =
      true := rfl
  have after : (byEmail.compare (card "c1" "bo@example.org") (card "c4" "al@example.org")).isLE =
      false := rfl
  have found : (store.findAll Samples.contacts (some chosen) (some byEmail)).1 =
      .ok [card "c4" "al@example.org", card "c1" "bo@example.org", card "c3" "bo@example.org"] := by
    have selected : store.tables.select "contacts" (some chosen) (some byEmail) =
        byEmail.sort [card "c1" "bo@example.org", card "c3" "bo@example.org",
          card "c4" "al@example.org"] := rfl
    have sorted : byEmail.sort [card "c1" "bo@example.org", card "c3" "bo@example.org",
          card "c4" "al@example.org"] =
        [card "c4" "al@example.org", card "c1" "bo@example.org", card "c3" "bo@example.org"] := by
      simp [Sorting.sort, List.mergeSort, tie, after]
    rw [Store.findAll_fst]
    show Samples.contacts.populateAll _ _ (store.tables.select "contacts" _ _) = _
    rw [selected, sorted]
    rfl
  obtain ⟨-, -, whole, -⟩ :=
    readings_agree .text .start calls Samples.contacts chosen (some byEmail)
  obtain ⟨counted, first, -⟩ := whole _ found
  exact ⟨found, first, counted.symm⟩

end Session

end EntityStore
