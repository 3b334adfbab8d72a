/-!
Association lists kept in key order.

`Entries.get?`, `Entries.insert` and `Entries.erase` are lookup, ordered
insertion and removal on plain lists of pairs.  The lookup laws
(`get?_insert`, `get?_erase`) hold for every list, sorted or not, so a list of
pairs that stands inside a recursive type, where no proof can travel with it,
obeys them as well.  Sortedness only matters for `insert_sorted`,
`erase_sorted` and `eq_of_get?_eq`: two sorted lists with the same lookups are
the same list.
-/

namespace EntityStore

namespace Entries

variable {κ ν : Type} [Ord κ]

/-- The value that the first entry for the key holds. -/
def get? (key : κ) : List (κ × ν) → Option ν
  | [] => none
  | (k, value) :: rest => if compare key k = .eq then some value else get? key rest

/-- Puts an entry in front of the first greater key; an entry for the same key
met before that is replaced. -/
def insert (key : κ) (value : ν) : List (κ × ν) → List (κ × ν)
  | [] => [(key, value)]
  | (k, v) :: rest =>
      match compare key k with
      | .lt => (key, value) :: (k, v) :: rest
      | .eq => (key, value) :: rest
      | .gt => (k, v) :: insert key value rest

/-- Drops every entry for the key. -/
def erase (key : κ) (entries : List (κ × ν)) : List (κ × ν) :=
  entries.filter fun entry => compare key entry.1 ≠ .eq

/-- Keys strictly increase along the list. -/
def Sorted (entries : List (κ × ν)) : Prop :=
  entries.Pairwise fun a b => compare a.1 b.1 = .lt

/-! ## Lookup after insertion and removal -/

@[simp] theorem get?_nil (key : κ) : get? key ([] : List (κ × ν)) = none := rfl

/-- An inserted entry is found under its key and changes no other lookup. -/
theorem get?_insert [Std.LawfulEqOrd κ] [DecidableEq κ] (key key' : κ) (value : ν)
    (entries : List (κ × ν)) :
    get? key' (insert key value entries) =
      if key' = key then some value else get? key' entries := by
  induction entries with
  | nil => simp [insert, get?]
  | cons entry rest ih =>
      obtain ⟨k, v⟩ := entry
      rw [insert]
      split
      · simp [get?]
      · rename_i same
        have : key = k := Std.compare_eq_iff_eq.mp same
        subst this
        by_cases hkey : key' = key <;> simp [get?, hkey]
      · rename_i greater
        have : key ≠ k := fun same => by simp [same] at greater
        by_cases hk : key' = k
        · subst hk
          simp [get?, Ne.symm this]
        · simp [get?, hk, ih]

/-- An erased key is not found, and no other lookup changes. -/
theorem get?_erase [Std.LawfulEqOrd κ] [DecidableEq κ] (key key' : κ)
    (entries : List (κ × ν)) :
    get? key' (erase key entries) = if key' = key then none else get? key' entries := by
  induction entries with
  | nil => simp [erase]
  | cons entry rest ih =>
      obtain ⟨k, v⟩ := entry
      rw [erase] at ih ⊢
      by_cases hk : key = k
      · subst hk
        by_cases hkey : key' = key <;> simp_all [get?]
      · by_cases hkey : key' = k
        · subst hkey
          simp [get?, hk, Ne.symm hk]
        · simp_all [get?]

/-- Filtering by key leaves the lookups of the keys that stay. -/
theorem get?_filter [Std.LawfulEqOrd κ] (keep : κ → Bool) (key : κ)
    (entries : List (κ × ν)) :
    get? key (entries.filter fun entry => keep entry.1) =
      if keep key then get? key entries else none := by
  induction entries with
  | nil => simp
  | cons entry rest ih =>
      obtain ⟨k, v⟩ := entry
      by_cases hk : key = k
      · subst hk
        cases hkeep : keep key <;> simp_all [get?]
      · cases hkeep : keep k <;> simp_all [get?]

/-- Some entry for the key is in the list exactly when lookup finds one. -/
theorem get?_eq_none_iff [Std.LawfulEqOrd κ] (key : κ) (entries : List (κ × ν)) :
    get? key entries = none ↔ ∀ entry ∈ entries, entry.1 ≠ key := by
  induction entries with
  | nil => simp
  | cons entry rest ih =>
      obtain ⟨k, v⟩ := entry
      by_cases hk : key = k
      · simp [get?, hk]
      · simp [get?, hk, ih, Ne.symm hk]

/-! ## Sortedness -/

/-- Insertion adds no entry but its own. -/
theorem key_of_mem_insert {key : κ} {value : ν} {entry : κ × ν} {entries : List (κ × ν)}
    (member : entry ∈ insert key value entries) : entry.1 = key ∨ entry ∈ entries := by
  induction entries with
  | nil => simp_all [insert]
  | cons head rest ih =>
      rw [insert] at member
      split at member <;> grind

/-- Insertion keeps the list sorted. -/
theorem insert_sorted [Std.TransOrd κ] (key : κ) (value : ν) {entries : List (κ × ν)}
    (sorted : Sorted entries) : Sorted (insert key value entries) := by
  induction entries with
  | nil => simp [insert, Sorted]
  | cons head rest ih =>
      obtain ⟨k, v⟩ := head
      have above : ∀ entry ∈ rest, compare k entry.1 = .lt :=
        fun _ => List.rel_of_pairwise_cons sorted
      rw [insert]
      split
      · rename_i less
        refine List.Pairwise.cons (fun entry member => ?_) sorted
        rcases List.mem_cons.mp member with rfl | member
        · exact less
        · exact Std.TransCmp.lt_trans less (above entry member)
      · rename_i same
        refine List.Pairwise.cons (fun entry member => ?_) sorted.of_cons
        exact Std.TransCmp.lt_of_eq_of_lt same (above entry member)
      · rename_i greater
        refine List.Pairwise.cons (fun entry member => ?_) (ih sorted.of_cons)
        rcases key_of_mem_insert member with same | member
        · simpa [same] using Std.OrientedCmp.gt_iff_lt.mp greater
        · exact above entry member

/-- Filtering keeps the list sorted. -/
theorem filter_sorted (keep : κ × ν → Bool) {entries : List (κ × ν)}
    (sorted : Sorted entries) : Sorted (entries.filter keep) :=
  List.Pairwise.filter keep sorted

/-- Removal keeps the list sorted. -/
theorem erase_sorted (key : κ) {entries : List (κ × ν)} (sorted : Sorted entries) :
    Sorted (erase key entries) :=
  filter_sorted _ sorted

/-- Below the least key nothing is found. -/
theorem get?_eq_none_of_lt {key : κ} {entries : List (κ × ν)}
    (below : ∀ entry ∈ entries, compare key entry.1 = .lt) : get? key entries = none := by
  induction entries with
  | nil => rfl
  | cons head rest ih =>
      have less := below head List.mem_cons_self
      simp [get?, less, ih fun entry member => below entry (List.mem_cons_of_mem _ member)]

/-- Sorted lists with the same lookups are equal. -/
theorem eq_of_get?_eq [Std.TransOrd κ] [Std.LawfulEqOrd κ] {left right : List (κ × ν)}
    (sortedLeft : Sorted left) (sortedRight : Sorted right)
    (agree : ∀ key, get? key left = get? key right) : left = right := by
  induction left generalizing right with
  | nil =>
      cases right with
      | nil => rfl
      | cons head rest => simpa [get?] using agree head.1
  | cons head rest ih =>
      obtain ⟨k, v⟩ := head
      cases right with
      | nil => simpa [get?] using agree k
      | cons head' rest' =>
          obtain ⟨k', v'⟩ := head'
          have above : ∀ entry ∈ rest, compare k entry.1 = .lt :=
            fun _ => List.rel_of_pairwise_cons sortedLeft
          have above' : ∀ entry ∈ rest', compare k' entry.1 = .lt :=
            fun _ => List.rel_of_pairwise_cons sortedRight
          have same : compare k k' = .eq := by
            cases order : compare k k' with
            | eq => rfl
            | lt =>
                have absent : get? k rest' = none := get?_eq_none_of_lt fun entry member =>
                  Std.TransCmp.lt_trans order (above' entry member)
                simpa [get?, order, absent] using agree k
            | gt =>
                have order' : compare k' k = .lt := Std.OrientedCmp.gt_iff_lt.mp order
                have absent : get? k' rest = none := get?_eq_none_of_lt fun entry member =>
                  Std.TransCmp.lt_trans order' (above entry member)
                simpa [get?, order', absent] using (agree k').symm
          obtain rfl : k = k' := Std.compare_eq_iff_eq.mp same
          have value : v = v' := by simpa [get?] using agree k
          subst value
          rw [ih sortedLeft.of_cons sortedRight.of_cons fun key => ?_]
          by_cases hkey : key = k
          · subst hkey
            rw [get?_eq_none_of_lt above, get?_eq_none_of_lt above']
          · simpa [get?, hkey] using agree key

end Entries

end EntityStore
