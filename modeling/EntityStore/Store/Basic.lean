import EntityStore.Store.IdSequence
import EntityStore.Store.Population
import EntityStore.Tracking

/-!
The state of a store.

A `Store` holds the rows, the registered descriptions, the memory of the
entities handed out, and counters of the work done.  Operations are functions
from a store to a result and the store after it; a result that is an error
comes with the store that goes on.
-/

namespace EntityStore

/-- Where a store keeps its entities. -/
inductive StorageKind where
  | memory
  | postgres
  deriving DecidableEq

/-- The name of a kind of storage. -/
def StorageKind.name : StorageKind → String
  | .memory => "memory"
  | .postgres => "pg"

/-- How many reading operations, written entities and deleted entities there
have been. -/
structure Counters where
  reads : Nat
  writes : Nat
  deletes : Nat
  deriving DecidableEq, Inhabited

/-- A store of entities. -/
structure Store where
  idForm : IdForm
  tables : Tables
  registry : Registry
  tracking : Tracking
  counters : Counters
  deriving DecidableEq

namespace Store

/-- A store without entities, set to a form of fresh ids. -/
def new (idForm : IdForm) : Store := ⟨idForm, ∅, ∅, ∅, ⟨0, 0, 0⟩⟩

instance : Inhabited Store := ⟨new .text⟩

/-- The kind of storage that a store is. -/
def kind (_ : Store) : StorageKind := .memory

/-- Counts one reading operation. -/
def countRead (s : Store) : Store :=
  { s with counters := { s.counters with reads := s.counters.reads + 1 } }

/-- Counts written entities. -/
def countWrites (s : Store) (n : Nat) : Store :=
  { s with counters := { s.counters with writes := s.counters.writes + n } }

/-- Counts deleted entities. -/
def countDeletes (s : Store) (n : Nat) : Store :=
  { s with counters := { s.counters with deletes := s.counters.deletes + n } }

/-- Registers the description of a table. -/
def register (s : Store) (m : Metadata) : Store := { s with registry := s.registry.register m }

/-- Drops all rows, descriptions and memories; the counters stay. -/
def destroy (s : Store) : Store := { s with tables := ∅, registry := ∅, tracking := ∅ }

/-- The number of rows of a table. -/
def tableSize (s : Store) (table : String) : Nat := s.tables.size table

/-- Fills in the relations of an entity from the rows of the store. -/
def populate (s : Store) (m : Metadata) (e : Entity) : Except Error Entity :=
  m.populate s.registry s.tables e

/-- Fills in the relations of several entities from the rows of the store. -/
def populateAll (s : Store) (m : Metadata) (entities : List Entity) :
    Except Error (List Entity) :=
  m.populateAll s.registry s.tables entities

end Store

end EntityStore
