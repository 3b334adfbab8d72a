import EntityStore.Entity

/-!
Sorting entities by their properties.

A `Sorting` is a list of keys, of which later ones only decide between entities
that earlier ones find equal.  A missing property sorts as null.  A descending
key turns the comparison round and not the list, so entities that compare equal
keep their order in both directions.
-/

namespace EntityStore

/-- Which end of the order comes first. -/
inductive Direction where
  | ascending
  | descending
  deriving DecidableEq, Inhabited

/-- A property to sort by. -/
structure SortKey where
  property : String
  direction : Direction
  deriving DecidableEq

/-- Properties to sort by, the deciding one first. -/
structure Sorting where
  keys : List SortKey
  deriving DecidableEq

/-- What an entity sorts as under a property. -/
def Entity.sortValue (e : Entity) (property : String) : Value :=
  (e.get? property).getD .null

/-- Compares two entities by one key. -/
def SortKey.compare (key : SortKey) (a b : Entity) : Ordering :=
  match key.direction with
  | .ascending => (a.sortValue key.property).order (b.sortValue key.property)
  | .descending => (b.sortValue key.property).order (a.sortValue key.property)

namespace Sorting

/-- Sorts by one property. -/
def byProperty (property : String) (direction : Direction) : Sorting :=
  ⟨[⟨property, direction⟩]⟩

/-- Adds a property that decides where all earlier ones do not. -/
def thenByProperty (s : Sorting) (property : String) (direction : Direction) : Sorting :=
  ⟨s.keys ++ [⟨property, direction⟩]⟩

/-- The first key that tells two entities apart decides. -/
def compareBy : List SortKey → Entity → Entity → Ordering
  | [], _, _ => .eq
  | key :: keys, a, b => (key.compare a b).then (compareBy keys a b)

/-- Compares two entities. -/
def compare (s : Sorting) (a b : Entity) : Ordering := compareBy s.keys a b

/-- The entities in order; those that compare equal keep their places
relative to each other. -/
def sort (s : Sorting) (entities : List Entity) : List Entity :=
  entities.mergeSort fun a b => (s.compare a b).isLE

end Sorting

end EntityStore
