import EntityStore.SortedMap.Entries

/-!
Finite maps kept in key order.

A `SortedMap κ ν` is a sorted list of entries with the proof that it is
sorted.  Its view is `get?`; every operation below states what it does to that
view, and `SortedMap.ext` says that nothing else can be observed: maps with
the same lookups are equal, whatever the order of the writes that built them.
-/

namespace EntityStore

/-- A finite map whose entries are listed in strictly increasing key order. -/
structure SortedMap (κ ν : Type) [Ord κ] where
  entries : List (κ × ν)
  sorted : Entries.Sorted entries

namespace SortedMap

variable {κ ν : Type} [Ord κ]

/-- The map without entries. -/
def empty : SortedMap κ ν := ⟨[], .nil⟩

instance : EmptyCollection (SortedMap κ ν) := ⟨empty⟩

instance : Inhabited (SortedMap κ ν) := ⟨empty⟩

/-- The value stored under a key. -/
def get? (m : SortedMap κ ν) (key : κ) : Option ν := Entries.get? key m.entries

/-- Whether anything is stored under a key. -/
def contains (m : SortedMap κ ν) (key : κ) : Bool := (m.get? key).isSome

/-- Entries in key order. -/
def toList (m : SortedMap κ ν) : List (κ × ν) := m.entries

/-- The number of entries. -/
def size (m : SortedMap κ ν) : Nat := m.entries.length

/-- Whether there are no entries. -/
def isEmpty (m : SortedMap κ ν) : Bool := m.entries.isEmpty

/-- Stores a value under a key, in place of the one stored there before. -/
def insert [Std.TransOrd κ] (m : SortedMap κ ν) (key : κ) (value : ν) : SortedMap κ ν :=
  ⟨Entries.insert key value m.entries, Entries.insert_sorted key value m.sorted⟩

/-- Drops the entry for a key. -/
def erase (m : SortedMap κ ν) (key : κ) : SortedMap κ ν :=
  ⟨Entries.erase key m.entries, Entries.erase_sorted key m.sorted⟩

/-- Keeps the entries whose key passes a test. -/
def filterKeys (m : SortedMap κ ν) (keep : κ → Bool) : SortedMap κ ν :=
  ⟨m.entries.filter fun entry => keep entry.1, Entries.filter_sorted _ m.sorted⟩

/-- Stores pairs one after the other, so the last of those with one key stays. -/
def ofList [Std.TransOrd κ] (pairs : List (κ × ν)) : SortedMap κ ν :=
  pairs.foldl (fun m pair => m.insert pair.1 pair.2) ∅

/-- The proof that a map carries does not tell maps apart. -/
theorem eq_of_entries_eq {a b : SortedMap κ ν} (same : a.entries = b.entries) : a = b := by
  cases a; cases b; cases same; rfl

instance [DecidableEq κ] [DecidableEq ν] : DecidableEq (SortedMap κ ν) := fun a b =>
  decidable_of_iff (a.entries = b.entries) ⟨eq_of_entries_eq, fun same => same ▸ rfl⟩

/-! ## The view -/

@[simp] theorem get?_empty (key : κ) : (∅ : SortedMap κ ν).get? key = none := rfl

@[simp] theorem toList_empty : (∅ : SortedMap κ ν).toList = [] := rfl

/-- Maps with the same lookups are equal. -/
@[ext] theorem ext [Std.TransOrd κ] [Std.LawfulEqOrd κ] {a b : SortedMap κ ν}
    (agree : ∀ key, a.get? key = b.get? key) : a = b :=
  eq_of_entries_eq (Entries.eq_of_get?_eq a.sorted b.sorted agree)

section Laws

variable [Std.LawfulEqOrd κ] [DecidableEq κ]

/-- Insertion shows in the lookup of its key alone. -/
theorem get?_insert [Std.TransOrd κ] (m : SortedMap κ ν) (key key' : κ) (value : ν) :
    (m.insert key value).get? key' = if key' = key then some value else m.get? key' :=
  Entries.get?_insert key key' value m.entries

@[simp] theorem get?_insert_self [Std.TransOrd κ] (m : SortedMap κ ν) (key : κ) (value : ν) :
    (m.insert key value).get? key = some value := by
  simp [get?_insert]

/-- Removal shows in the lookup of its key alone. -/
theorem get?_erase (m : SortedMap κ ν) (key key' : κ) :
    (m.erase key).get? key' = if key' = key then none else m.get? key' :=
  Entries.get?_erase key key' m.entries

omit [DecidableEq κ] in
/-- Only keys that pass the test are found. -/
theorem get?_filterKeys (m : SortedMap κ ν) (keep : κ → Bool) (key : κ) :
    (m.filterKeys keep).get? key = if keep key then m.get? key else none :=
  Entries.get?_filter keep key m.entries

end Laws

end SortedMap

end EntityStore
