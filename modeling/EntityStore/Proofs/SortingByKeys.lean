import Mathlib.Data.List.Forall2
import EntityStore.Proofs.Rows
import EntityStore.Proofs.StableSorting

/-!
Sorting by several keys.

The first key under which two entities have different values decides between them
(`Sorting.compare_eq_lt_iff`), so one pass over all keys is as good as a stable pass for each of
them, the least important first (`Sorting.sort_eq_foldr`).  A property that is missing counts as
null: lists that differ in nothing else are sorted alike (`Sorting.sort_nullsAlike`).
-/

namespace EntityStore

/-- Entities that differ at most in whether a property without a value is missing or null. -/
structure Entity.NullsAlike (a b : Entity) : Prop where
  table : a.table = b.table
  relations : a.relations = b.relations
  values : ∀ property, Value.ofOption (a.get? property) = Value.ofOption (b.get? property)

/-- Giving a missing property null makes no other difference. -/
theorem Entity.nullsAlike_set {e : Entity} {property : String} (missing : e.get? property = none) :
    e.NullsAlike (e.set property .null) := by
  refine ⟨rfl, rfl, fun name => ?_⟩
  rw [get?_set]
  split
  · rename_i same
    rw [same, missing]
    rfl
  · rfl

namespace SortKey

variable {key : SortKey} {a b : Entity}

/-- Entities tie under a key when they have the same value. -/
theorem compare_eq_iff :
    key.compare a b = .eq ↔ a.sortValue key.property = b.sortValue key.property := by
  unfold compare
  cases key.direction with
  | ascending => exact Value.order_eq_iff _ _
  | descending => exact (Value.order_eq_iff _ _).trans eq_comm

/-- Ascending, the lesser value comes first, and descending the greater one. -/
theorem compare_eq_lt_iff :
    key.compare a b = .lt ↔
      (a.sortValue key.property).order (b.sortValue key.property) =
        if key.direction = .ascending then .lt else .gt := by
  unfold compare
  cases key.direction with
  | ascending => rfl
  | descending =>
      rw [if_neg nofun, Value.order_swap (a.sortValue key.property), Ordering.swap_eq_gt]

/-- A key sees no difference between a missing property and null. -/
theorem compare_nullsAlike {a' b' : Entity} (alike : a.NullsAlike a') (alike' : b.NullsAlike b') :
    key.compare a b = key.compare a' b' := by
  have first : a.sortValue key.property = a'.sortValue key.property := alike.values key.property
  have second : b.sortValue key.property = b'.sortValue key.property := alike'.values key.property
  unfold compare
  rw [first, second]

end SortKey

namespace Sorting

variable {a b : Entity}

/-! ## One key after the other -/

/-- The first key that tells two entities apart decides. -/
theorem compareBy_eq_lt_iff {keys : List SortKey} :
    compareBy keys a b = .lt ↔
      ∃ before key after, keys = before ++ key :: after ∧ key.compare a b = .lt ∧
        ∀ earlier ∈ before, earlier.compare a b = .eq := by
  induction keys with
  | nil => simp [compareBy]
  | cons key keys ih => rw [compareBy, Ordering.then_eq_lt, ih, exists_first_cons]

/-- An entity comes before another when their values differ first under a key that puts its value
first. -/
theorem compare_eq_lt_iff {s : Sorting} :
    s.compare a b = .lt ↔
      ∃ before key after, s.keys = before ++ key :: after ∧
        (a.sortValue key.property).order (b.sortValue key.property) =
          (if key.direction = .ascending then .lt else .gt) ∧
        ∀ earlier ∈ before, a.sortValue earlier.property = b.sortValue earlier.property := by
  unfold compare
  simp only [compareBy_eq_lt_iff, SortKey.compare_eq_iff, SortKey.compare_eq_lt_iff]

/-! ## One pass after the other -/

/-- Sorting by a key and then by others is sorting by the others first and then by the key. -/
theorem sort_cons (key : SortKey) (keys : List SortKey) (entities : List Entity) :
    (Sorting.mk (key :: keys)).sort entities =
      (byProperty key.property key.direction).sort ((Sorting.mk keys).sort entities) := by
  have alone : (byProperty key.property key.direction).compare = key.compare := by
    funext a b
    show (key.compare a b).then .eq = key.compare a b
    cases key.compare a b <;> rfl
  have outer : StablySorted key.compare ((Sorting.mk keys).sort entities)
      ((byProperty key.property key.direction).sort ((Sorting.mk keys).sort entities)) := by
    rw [← alone]
    exact stablySorted_sort _ _
  exact (stablySorted_sort _ entities).unique ((stablySorted_sort _ entities).lex outer)

/-- A pass for each key, from the last to the first, sorts by all of them. -/
theorem sort_eq_foldr (s : Sorting) (entities : List Entity) :
    s.sort entities =
      s.keys.foldr (fun key => (byProperty key.property key.direction).sort) entities := by
  obtain ⟨keys⟩ := s
  induction keys with
  | nil => exact List.mergeSort_of_pairwise (List.pairwise_of_forall fun _ _ => rfl)
  | cons key keys ih => rw [sort_cons, ih, List.foldr_cons]

/-- What is sorted stays as it is. -/
theorem sort_sort (s : Sorting) (entities : List Entity) :
    s.sort (s.sort entities) = s.sort entities :=
  List.mergeSort_of_pairwise (s.stablySorted_sort entities).ordered

/-! ## Missing properties -/

theorem compare_nullsAlike (s : Sorting) {a' b' : Entity} (alike : a.NullsAlike a')
    (alike' : b.NullsAlike b') : s.compare a b = s.compare a' b' := by
  obtain ⟨keys⟩ := s
  show compareBy keys a b = compareBy keys a' b'
  induction keys with
  | nil => rfl
  | cons key keys ih => rw [compareBy, compareBy, SortKey.compare_nullsAlike alike alike', ih]

/-- Lists in which the entities differ in nulls alone are sorted alike. -/
theorem sort_nullsAlike (s : Sorting) {entities others : List Entity}
    (alike : List.Forall₂ Entity.NullsAlike entities others) :
    List.Forall₂ Entity.NullsAlike (s.sort entities) (s.sort others) := by
  -- Both lists are sorted by one sorting of the pairs of entities at the same place.
  let pairs := entities.zip others
  let sorted := pairs.mergeSort fun p q => (s.compare p.1 q.1).isLE
  have paired : ∀ p ∈ pairs, p.1.NullsAlike p.2 := fun p member => List.forall₂_zip alike member
  have firsts : s.sort entities = sorted.map Prod.fst := by
    have left : pairs.map Prod.fst = entities := List.map_fst_zip (Nat.le_of_eq alike.length_eq)
    rw [List.map_mergeSort (s := fun a b => (s.compare a b).isLE) fun _ _ _ _ => rfl, left]
    rfl
  have seconds : s.sort others = sorted.map Prod.snd := by
    have right : pairs.map Prod.snd = others := List.map_snd_zip (Nat.le_of_eq alike.length_eq.symm)
    have same : ∀ p ∈ pairs, ∀ q ∈ pairs, (s.compare p.1 q.1).isLE = (s.compare p.2 q.2).isLE :=
      fun p memberP q memberQ => by rw [s.compare_nullsAlike (paired p memberP) (paired q memberQ)]
    rw [List.map_mergeSort (s := fun a b => (s.compare a b).isLE) same, right]
    rfl
  rw [firsts, seconds, List.forall₂_map_left_iff, List.forall₂_map_right_iff, List.forall₂_same]
  exact fun p member => paired p (List.mem_mergeSort.mp member)

/-! ## Sorting as a whole -/

/-- Comparing entities is a total preorder, in which the first key with different values decides.
Sorting gives the one list that is in order and keeps ties as they stood; a missing property counts
as null; a pass for each key, the last key first, does the same as one pass; and a second pass does
nothing. -/
theorem sort_lexicographic (s : Sorting) (a b c : Entity) (entities others sorted : List Entity) :
    (s.compare b a = (s.compare a b).swap ∧
        ((s.compare a b).isLE = true → (s.compare b c).isLE = true →
          (s.compare a c).isLE = true)) ∧
      (s.compare a b = .lt ↔
        ∃ before key after, s.keys = before ++ key :: after ∧
          (a.sortValue key.property).order (b.sortValue key.property) =
            (if key.direction = .ascending then .lt else .gt) ∧
          ∀ earlier ∈ before, a.sortValue earlier.property = b.sortValue earlier.property) ∧
      (StablySorted s.compare entities sorted ↔ sorted = s.sort entities) ∧
      (List.Forall₂ Entity.NullsAlike entities others →
        List.Forall₂ Entity.NullsAlike (s.sort entities) (s.sort others)) ∧
      s.sort entities =
        s.keys.foldr (fun key => (byProperty key.property key.direction).sort) entities ∧
      s.sort (s.sort entities) = s.sort entities := by
  refine ⟨⟨Std.OrientedCmp.eq_swap, Std.TransCmp.isLE_trans⟩, compare_eq_lt_iff, ?_,
    s.sort_nullsAlike, s.sort_eq_foldr entities, s.sort_sort entities⟩
  constructor
  · exact fun stable => stable.unique (s.stablySorted_sort entities)
  · rintro rfl
    exact s.stablySorted_sort entities

/-- The oldest first, and by name among those of one age; the one without an age comes last, as it
does if its age is null. -/
theorem sort_lexicographic_samples :
    let person (name : String) : Entity := (Entity.ofTable "people").set "name" name
    let aged (name : String) (age : Int64) : Entity := (person name).set "age" age
    let s := (byProperty "age" .descending).thenByProperty "name" .ascending
    let people := [aged "c" 30, aged "a" 20, aged "b" 30, person "d"]
    let others := [aged "c" 30, aged "a" 20, aged "b" 30, (person "d").set "age" .null]
    (s.compare (aged "b" 30) (aged "c" 30)).isLE = true ∧
      (s.compare (aged "c" 30) (aged "a" 20)).isLE = true ∧
      (s.compare (aged "b" 30) (aged "a" 20)).isLE = true ∧
      List.Forall₂ Entity.NullsAlike people others ∧
      s.sort people = [aged "b" 30, aged "c" 30, aged "a" 20, person "d"] ∧
      List.Forall₂ Entity.NullsAlike [aged "b" 30, aged "c" 30, aged "a" 20, person "d"]
        (s.sort others) := by
  intro person aged s people others
  have byName : (s.compare (aged "b" 30) (aged "c" 30)).isLE = true := rfl
  have byAge : (s.compare (aged "c" 30) (aged "a" 20)).isLE = true := rfl
  have alike : List.Forall₂ Entity.NullsAlike people others :=
    .cons ⟨rfl, rfl, fun _ => rfl⟩ (.cons ⟨rfl, rfl, fun _ => rfl⟩ (.cons ⟨rfl, rfl, fun _ => rfl⟩
      (.cons (Entity.nullsAlike_set rfl) .nil)))
  obtain ⟨⟨-, trans⟩, -, -, together, -, -⟩ :=
    s.sort_lexicographic (aged "b" 30) (aged "c" 30) (aged "a" 20) people others []
  have sorted : s.sort people = [aged "b" 30, aged "c" 30, aged "a" 20, person "d"] := by
    have later : (s.compare (aged "c" 30) (aged "b" 30)).isLE = false := rfl
    have ageless : ∀ name age, (s.compare (aged name age) (person "d")).isLE = true :=
      fun _ _ => rfl
    simp [Sorting.sort, List.mergeSort, people, byAge, later, ageless]
  refine ⟨byName, byAge, trans byName byAge, alike, sorted, ?_⟩
  rw [← sorted]
  exact together alike

end Sorting

end EntityStore
