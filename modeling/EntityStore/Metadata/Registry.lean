import EntityStore.Metadata.Basic

/-!
The registry of table descriptions.

At most one description is registered per table; registering another one for
the same table replaces it, registering the same one again changes nothing.
-/

namespace EntityStore

/-- The descriptions registered so far, by table. -/
structure Registry where
  tables : SortedMap String Metadata
  deriving DecidableEq

namespace Registry

/-- Nothing is registered. -/
def empty : Registry := ⟨∅⟩

instance : EmptyCollection Registry := ⟨empty⟩

instance : Inhabited Registry := ⟨empty⟩

/-- Registers a description for its table. -/
def register (r : Registry) (m : Metadata) : Registry := ⟨r.tables.insert m.table m⟩

/-- The description registered for a table. -/
def metadataOf? (r : Registry) (table : String) : Option Metadata := r.tables.get? table

/-- The number of tables that something is registered for. -/
def size (r : Registry) : Nat := r.tables.size

/-- Whether nothing is registered. -/
def isEmpty (r : Registry) : Bool := r.tables.isEmpty

@[simp] theorem metadataOf?_empty (table : String) :
    (∅ : Registry).metadataOf? table = none := rfl

@[simp] theorem metadataOf?_register (r : Registry) (m : Metadata) (table : String) :
    (r.register m).metadataOf? table = if table = m.table then some m else r.metadataOf? table :=
  SortedMap.get?_insert r.tables m.table table m

end Registry

end EntityStore
