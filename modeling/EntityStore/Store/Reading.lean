import EntityStore.Sorting
import EntityStore.Store.Basic

/-!
Reading a store.

Every reading operation is counted, whether it succeeds or not.  Entities are
handed out with their relations filled in, and what is handed out is
remembered for change tracking; a condition only looks at stored properties.
-/

namespace EntityStore

/-- The entities of a table that a condition accepts, without relations: in the
order asked for, else in the order of the rows. -/
def Tables.select (t : Tables) (table : String) (condition : Option Condition)
    (sorting : Option Sorting) : List Entity :=
  let found := (t.matching table condition).map (·.entity.withoutRelations)
  match sorting with
  | some sorting => sorting.sort found
  | none => found

namespace Store

/-- The number of entities that a condition accepts. -/
def count (s : Store) (m : Metadata) (condition : Option Condition) : Nat × Store :=
  ((s.tables.matching m.table condition).length, s.countRead)

/-- Whether a condition accepts any entity. -/
def hasMatch (s : Store) (m : Metadata) (condition : Condition) : Bool × Store :=
  (!(s.tables.matching m.table (some condition)).isEmpty, s.countRead)

/-- All entities that a condition accepts. -/
def findAll (s : Store) (m : Metadata) (condition : Option Condition)
    (sorting : Option Sorting) : Except Error (List Entity) × Store :=
  let s := s.countRead
  match s.populateAll m (s.tables.select m.table condition sorting) with
  | .error error => (.error error, s)
  | .ok found => (.ok found, { s with tracking := s.tracking.saveAll m found })

/-- The first entity that a condition accepts, in the order asked for. -/
def findBy (s : Store) (m : Metadata) (condition : Condition) (sorting : Option Sorting) :
    Except Error (Option Entity) × Store :=
  let s := s.countRead
  match (s.tables.select m.table (some condition) sorting).head? with
  | none => (.ok none, s)
  | some first =>
      match s.populate m first with
      | .error error => (.error error, s)
      | .ok found => (.ok (some found), { s with tracking := s.tracking.save m found })

end Store

end EntityStore
