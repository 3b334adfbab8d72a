import EntityStore.Metadata.Registry
import EntityStore.Store.Tables

/-!
Filling in the relations of an entity.

A relation to many collects the rows of the other table whose reference equals
the entity's id; a relation to one looks up the row that the entity's reference
names.  Each has a part that only depends on the descriptions
(`OneToMany.foreignKey`, `ManyToOne.foreignKey`), which fails for every entity
alike, and a part that looks at the rows, where only a reference to a missing
row can fail.  Relations to many come first, each list in declared order.
-/

namespace EntityStore

/-- The registered description of the table that a relation leads to. -/
def Registry.linked (registry : Registry) (m : Metadata) (property mappedTable : String) :
    Except Error Metadata :=
  if mappedTable = "" then .error (.missingRelationLink m.table property)
  else
    match registry.metadataOf? mappedTable with
    | some other => .ok other
    | none => .error (.missingMetadata m.table property mappedTable)

/-- The column of a table that joins it to the one it belongs to: the column of
a property, or else the join column of the relation to one of that name. -/
def Metadata.joinColumn? (m : Metadata) (mappedBy : String) : Option String :=
  (m.columnOf? mappedBy).or ((m.manyToOne.find? (·.property == mappedBy)).map (·.joinColumn))

namespace OneToMany

/-- The property of the other table that refers back to the entity. -/
def foreignKey (registry : Registry) (m : Metadata) (relation : OneToMany) :
    Except Error String :=
  match registry.linked m relation.property relation.mappedTable with
  | .error error => .error error
  | .ok other =>
      match other.joinColumn? relation.mappedBy with
      | none =>
          .error (.missingJoinField m.table relation.property relation.mappedTable
            relation.mappedBy)
      | some column =>
          match other.propertyOf? column with
          | none =>
              .error (.missingJoinField m.table relation.property relation.mappedTable column)
          | some property => .ok property

/-- The entities of a table that refer to an id, in the order of the rows; none
refers to a missing id. -/
def referring (tables : Tables) (table property : String) : Option Value → List Entity
  | none => []
  | some id =>
      ((tables.rows table).filter fun row => row.entity.get? property == some id).map
        (·.entity.withoutRelations)

/-- What stands under the relation. -/
def related (registry : Registry) (tables : Tables) (m : Metadata) (relation : OneToMany)
    (e : Entity) : Except Error (Related Entity) :=
  match relation.foreignKey registry m with
  | .error error => .error error
  | .ok property => .ok (.many (referring tables relation.mappedTable property (m.idOf? e)))

end OneToMany

namespace ManyToOne

/-- The entity's own property that refers to the other table. -/
def foreignKey (registry : Registry) (m : Metadata) (relation : ManyToOne) :
    Except Error String :=
  match registry.linked m relation.property relation.mappedTable with
  | .error error => .error error
  | .ok _ =>
      match m.propertyOf? relation.joinColumn with
      | none =>
          .error (.missingJoinField m.table relation.property relation.mappedTable
            relation.joinColumn)
      | some property => .ok property

/-- The entity that a reference names; no reference, no entity. -/
def target (tables : Tables) (relation : ManyToOne) : Option Value → Except Error (Option Entity)
  | none => .ok none
  | some id =>
      match tables.row? relation.mappedTable id with
      | some row => .ok (some row.entity.withoutRelations)
      | none => .error (.danglingReference relation.property relation.mappedTable id)

/-- What stands under the relation. -/
def related (registry : Registry) (tables : Tables) (m : Metadata) (relation : ManyToOne)
    (e : Entity) : Except Error (Related Entity) :=
  match relation.foreignKey registry m with
  | .error error => .error error
  | .ok property =>
      match relation.target tables (e.reference? property) with
      | .error error => .error error
      | .ok target => .ok (.one target)

end ManyToOne

namespace Metadata

/-- Fills in relations to many, one after the other. -/
def populateMany (registry : Registry) (tables : Tables) (m : Metadata) :
    List OneToMany → Entity → Except Error Entity
  | [], e => .ok e
  | relation :: relations, e =>
      match relation.related registry tables m e with
      | .error error => .error error
      | .ok related =>
          populateMany registry tables m relations (e.setRelation relation.property related)

/-- Fills in relations to one, one after the other. -/
def populateOne (registry : Registry) (tables : Tables) (m : Metadata) :
    List ManyToOne → Entity → Except Error Entity
  | [], e => .ok e
  | relation :: relations, e =>
      match relation.related registry tables m e with
      | .error error => .error error
      | .ok related =>
          populateOne registry tables m relations (e.setRelation relation.property related)

/-- Fills in every declared relation of an entity. -/
def populate (registry : Registry) (tables : Tables) (m : Metadata) (e : Entity) :
    Except Error Entity :=
  match populateMany registry tables m m.oneToMany e with
  | .error error => .error error
  | .ok e => populateOne registry tables m m.manyToOne e

/-- Fills in the relations of several entities; the first that fails decides. -/
def populateAll (registry : Registry) (tables : Tables) (m : Metadata) :
    List Entity → Except Error (List Entity)
  | [] => .ok []
  | e :: rest =>
      match populate registry tables m e with
      | .error error => .error error
      | .ok populated =>
          match populateAll registry tables m rest with
          | .error error => .error error
          | .ok others => .ok (populated :: others)

end Metadata

end EntityStore
