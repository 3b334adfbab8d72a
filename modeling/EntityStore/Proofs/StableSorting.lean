import EntityStore.Sorting

/-!
Sorting keeps ties in place.

A list is stably sorted out of another (`StablySorted`) when it holds the same items in order, and
items that compare as equal stand as they stood.  For a lawful comparison there is only one such
list (`StablySorted.unique`), so the items that a sorted list is to hold can be chosen before or
after sorting (`Sorting.filter_sort`).
-/

namespace EntityStore

/-- The items that compare as equal with an item. -/
def tiesOf {α : Type} (cmp : α → α → Ordering) (a : α) (items : List α) : List α :=
  items.filter fun b => cmp a b == .eq

/-- The items in order, those that compare as equal in the order they had. -/
structure StablySorted {α : Type} (cmp : α → α → Ordering) (items sorted : List α) : Prop where
  perm : sorted.Perm items
  ordered : sorted.Pairwise fun a b => (cmp a b).isLE
  ties : ∀ a, tiesOf cmp a sorted = tiesOf cmp a items

section Ties

variable {α : Type} {cmp : α → α → Ordering} {a b : α} {items xs ys : List α}

theorem mem_tiesOf : b ∈ tiesOf cmp a items ↔ b ∈ items ∧ cmp a b = .eq := by
  simp [tiesOf]

theorem tiesOf_cons_of_eq (tie : cmp a b = .eq) :
    tiesOf cmp a (b :: items) = b :: tiesOf cmp a items :=
  List.filter_cons_of_pos (by simp [tie])

theorem tiesOf_cons_of_ne (other : cmp a b ≠ .eq) :
    tiesOf cmp a (b :: items) = tiesOf cmp a items :=
  List.filter_cons_of_neg (by simpa using other)

theorem tiesOf_filter (keep : α → Bool) :
    tiesOf cmp a (items.filter keep) = (tiesOf cmp a items).filter keep := by
  simp only [tiesOf, List.filter_filter, Bool.and_comm]

/-- The ties under two comparisons can be taken in either order. -/
theorem tiesOf_comm {first second : α → α → Ordering} :
    tiesOf second a (tiesOf first a items) = tiesOf first a (tiesOf second a items) :=
  tiesOf_filter _

/-- What ties under two comparisons one after the other ties under both. -/
theorem tiesOf_compareLex {first second : α → α → Ordering} :
    tiesOf (compareLex first second) a items = tiesOf second a (tiesOf first a items) := by
  unfold tiesOf
  rw [List.filter_filter]
  apply List.filter_congr
  intro b _
  rw [Bool.eq_iff_iff]
  simp [compareLex_eq_eq, and_comm]

variable [Std.TransCmp cmp]

/-- Every item is among its own ties, so lists with the same ties have the same items. -/
theorem mem_of_tiesOf_eq (ties : ∀ a, tiesOf cmp a xs = tiesOf cmp a ys) (member : a ∈ xs) :
    a ∈ ys := by
  have own : a ∈ tiesOf cmp a xs := mem_tiesOf.mpr ⟨member, Std.ReflCmp.compare_self⟩
  rw [ties] at own
  exact (mem_tiesOf.mp own).1

theorem isLE_of_mem_ordered (ordered : (a :: xs).Pairwise fun a b => (cmp a b).isLE)
    (member : b ∈ a :: xs) : (cmp a b).isLE := by
  rcases List.mem_cons.mp member with rfl | member
  · simp [Std.ReflCmp.compare_self]
  · exact (List.pairwise_cons.mp ordered).1 b member

/-- Ordered lists with the same ties are the same. -/
theorem eq_of_tiesOf_eq (orderedX : xs.Pairwise fun a b => (cmp a b).isLE)
    (orderedY : ys.Pairwise fun a b => (cmp a b).isLE)
    (ties : ∀ a, tiesOf cmp a xs = tiesOf cmp a ys) : xs = ys := by
  induction xs generalizing ys with
  | nil =>
      cases ys with
      | nil => rfl
      | cons y ys => cases mem_of_tiesOf_eq (fun a => (ties a).symm) (List.mem_cons_self (a := y))
  | cons x xs ih =>
      cases ys with
      | nil => cases mem_of_tiesOf_eq ties (List.mem_cons_self (a := x))
      | cons y ys =>
          -- Each head is least, so they tie; and the first of these ties is the head of both.
          have isMember := mem_of_tiesOf_eq ties (List.mem_cons_self (a := x))
          have isMember' := mem_of_tiesOf_eq (fun a => (ties a).symm) (List.mem_cons_self (a := y))
          have tie : cmp x y = .eq := Std.OrientedCmp.isLE_antisymm
            (isLE_of_mem_ordered orderedX isMember') (isLE_of_mem_ordered orderedY isMember)
          have heads := ties x
          rw [tiesOf_cons_of_eq Std.ReflCmp.compare_self, tiesOf_cons_of_eq tie] at heads
          obtain ⟨rfl, -⟩ := List.cons.inj heads
          congr 1
          apply ih (List.pairwise_cons.mp orderedX).2 (List.pairwise_cons.mp orderedY).2
          intro a
          have both := ties a
          by_cases tied : cmp a x = .eq
          · rw [tiesOf_cons_of_eq tied, tiesOf_cons_of_eq tied] at both
            exact (List.cons.inj both).2
          · rwa [tiesOf_cons_of_ne tied, tiesOf_cons_of_ne tied] at both

end Ties

namespace StablySorted

variable {α : Type} {cmp : α → α → Ordering} {items sorted sorted' : List α}

/-- What is kept of a stably sorted list is stably sorted out of what is kept of the items. -/
theorem filter (stable : StablySorted cmp items sorted) (keep : α → Bool) :
    StablySorted cmp (items.filter keep) (sorted.filter keep) := by
  refine ⟨stable.perm.filter keep, stable.ordered.sublist List.filter_sublist, fun a => ?_⟩
  rw [tiesOf_filter, tiesOf_filter, stable.ties]

variable [Std.TransCmp cmp]

/-- There is one stable order of a list. -/
theorem unique (stable : StablySorted cmp items sorted) (stable' : StablySorted cmp items sorted') :
    sorted = sorted' :=
  eq_of_tiesOf_eq stable.ordered stable'.ordered fun a =>
    (stable.ties a).trans (stable'.ties a).symm

/-- What is sorted by a second comparison and then stably by a first one is stably sorted by the
first, and where that finds a tie by the second. -/
theorem lex {first second : α → α → Ordering} [Std.ReflCmp first] {middle : List α}
    (inner : StablySorted second items middle) (outer : StablySorted first middle sorted) :
    StablySorted (compareLex first second) items sorted := by
  refine ⟨outer.perm.trans inner.perm, List.pairwise_iff_forall_sublist.mpr ?_, fun a => ?_⟩
  · intro a b stands
    have firstLE := List.pairwise_iff_forall_sublist.mp outer.ordered stands
    rw [compareLex, Ordering.isLE_then_iff_or]
    rcases Ordering.isLE_iff_eq_lt_or_eq_eq.mp firstLE with less | tie
    · exact .inl less
    · -- Tied items stand as they stood after the second comparison, so in its order.
      have tied : [a, b].Sublist (tiesOf first a sorted) := by
        have kept : (tiesOf first a [a, b]).Sublist (tiesOf first a sorted) := stands.filter _
        rwa [tiesOf_cons_of_eq Std.ReflCmp.compare_self, tiesOf_cons_of_eq tie] at kept
      rw [outer.ties] at tied
      have stood : [a, b].Sublist middle := tied.trans List.filter_sublist
      exact .inr ⟨tie, List.pairwise_iff_forall_sublist.mp inner.ordered stood⟩
  · calc tiesOf (compareLex first second) a sorted
        = tiesOf second a (tiesOf first a middle) := by rw [tiesOf_compareLex, outer.ties]
      _ = tiesOf first a (tiesOf second a items) := by rw [tiesOf_comm, inner.ties]
      _ = tiesOf (compareLex first second) a items := by rw [tiesOf_comm, tiesOf_compareLex]

/-- Merge sort is stable. -/
theorem mergeSort (items : List α) :
    StablySorted cmp items (items.mergeSort fun a b => (cmp a b).isLE) := by
  have trans : ∀ a b c : α, (cmp a b).isLE = true → (cmp b c).isLE = true →
      (cmp a c).isLE = true := fun _ _ _ => Std.TransCmp.isLE_trans
  have total : ∀ a b : α, ((cmp a b).isLE || (cmp b a).isLE) = true := by
    intro a b
    have swapped : cmp b a = (cmp a b).swap := Std.OrientedCmp.eq_swap
    rw [swapped]
    cases cmp a b <;> rfl
  have perm := List.mergeSort_perm items fun a b => (cmp a b).isLE
  refine ⟨perm, List.pairwise_mergeSort trans total items, fun a => ?_⟩
  have tied : (tiesOf cmp a items).Pairwise fun b c => (cmp b c).isLE := by
    refine List.pairwise_of_forall_mem_list fun b memberB c memberC => ?_
    have same : cmp b c = .eq := Std.TransCmp.eq_trans
      (Std.OrientedCmp.eq_symm (mem_tiesOf.mp memberB).2) (mem_tiesOf.mp memberC).2
    simp [same]
  -- The ties are ordered as they stand, so they stand like that in the sorted list too.
  have stands := (List.sublist_mergeSort trans total tied List.filter_sublist).filter
    fun b => cmp a b == .eq
  rw [tiesOf, List.filter_filter] at stands
  simp only [Bool.and_self] at stands
  exact (stands.eq_of_length (perm.filter _).length_eq.symm).symm

end StablySorted

/-! ## Sorting entities -/

instance (key : SortKey) : Std.TransCmp key.compare := by
  have ascending : Std.TransCmp fun a b : Entity =>
      (a.sortValue key.property).order (b.sortValue key.property) :=
    inferInstanceAs (Std.TransCmp (compareOn fun e : Entity => e.sortValue key.property))
  unfold SortKey.compare
  cases key.direction with
  | ascending => exact ascending
  | descending => exact Std.TransCmp.opposite

namespace Sorting

instance instTransCmpCompareBy : (keys : List SortKey) → Std.TransCmp (compareBy keys)
  | [] => { eq_swap := rfl, isLE_trans := fun _ _ => rfl }
  | key :: keys =>
      have := instTransCmpCompareBy keys
      inferInstanceAs (Std.TransCmp (compareLex key.compare (compareBy keys)))

instance (s : Sorting) : Std.TransCmp s.compare := instTransCmpCompareBy s.keys

theorem stablySorted_sort (s : Sorting) (entities : List Entity) :
    StablySorted s.compare entities (s.sort entities) :=
  StablySorted.mergeSort entities

/-- Entities can be chosen before or after sorting. -/
theorem filter_sort (s : Sorting) (entities : List Entity) (keep : Entity → Bool) :
    (s.sort entities).filter keep = s.sort (entities.filter keep) :=
  ((s.stablySorted_sort entities).filter keep).unique (s.stablySorted_sort _)

end Sorting

end EntityStore
