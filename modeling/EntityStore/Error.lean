import EntityStore.Value.Order
import EntityStore.Value.Text

/-!
Why an operation fails.

Each constructor of `Error` is one cause with the names that tell it apart;
`Error.message` is its wording.  The first six causes lie in how tables are
described, whatever is stored (`Error.isConfiguration`).
-/

namespace EntityStore

/-- The cause of a failed operation. -/
inductive Error where
  /-- A table has no field for a property. -/
  | unknownProperty (table property : String)
  /-- A relation leads to a table that nothing is registered for. -/
  | missingMetadata (table property mappedTable : String)
  /-- A relation does not name the table that it leads to. -/
  | missingRelationLink (table property : String)
  /-- The field that joins the two tables of a relation cannot be found. -/
  | missingJoinField (table property mappedTable field : String)
  /-- A table has no field for its id property. -/
  | missingIdField (table property : String)
  /-- Two fields of a table stand for one property. -/
  | duplicateField (table property : String)
  /-- An entity belongs to another table than it is given to. -/
  | tableMismatch (expected actual : String)
  /-- An entity has no truthy id. -/
  | missingEntityId (table property : String)
  /-- The id of a new entity is taken. -/
  | duplicateId (table : String) (id : Value)
  /-- A relation refers to an entity that is not stored. -/
  | danglingReference (property mappedTable : String) (id : Value)
  /-- An entity that should be stored is not. -/
  | entityNotFound (table : String) (id : Value)
  /-- The operation cannot be carried out in the present state. -/
  | invalidOperation (text : String)
  deriving DecidableEq

namespace Error

/-- The wording of an error. -/
def message : Error → String
  | .unknownProperty table property =>
      "unknown property \"" ++ property ++ "\" in table \"" ++ table ++ "\""
  | .missingMetadata table property mappedTable =>
      "could not find metadata for linked table \"" ++ mappedTable ++
        "\" to populate property \"" ++ property ++ "\" in table \"" ++ table ++ "\""
  | .missingRelationLink table property =>
      "no link to table exists to populate property \"" ++ property ++ "\" in table \"" ++
        table ++ "\""
  | .missingJoinField table property mappedTable field =>
      "could not resolve join field \"" ++ field ++ "\" in table \"" ++ mappedTable ++
        "\" for property \"" ++ property ++ "\" in table \"" ++ table ++ "\""
  | .missingIdField table property =>
      "could not find id field using property \"" ++ property ++ "\" in table \"" ++ table ++ "\""
  | .duplicateField table property =>
      "property \"" ++ property ++ "\" is declared more than once in table \"" ++ table ++ "\""
  | .tableMismatch expected actual =>
      "entity of table \"" ++ actual ++ "\" cannot be stored in table \"" ++ expected ++ "\""
  | .missingEntityId table property =>
      "entity in table \"" ++ table ++ "\" has no value for id property \"" ++ property ++ "\""
  | .duplicateId table id =>
      "entity already stored with id \"" ++ toString id ++ "\" in table \"" ++ table ++ "\""
  | .danglingReference property mappedTable id =>
      "could not find related entity by id \"" ++ toString id ++ "\" from table \"" ++
        mappedTable ++ "\" for property \"" ++ property ++ "\""
  | .entityNotFound table id =>
      "entity was not stored for id \"" ++ toString id ++ "\" in table \"" ++ table ++ "\""
  | .invalidOperation text => "invalid operation: " ++ text

/-- Whether the descriptions of the tables are at fault. -/
def isConfiguration : Error → Bool
  | .unknownProperty .. => true
  | .missingMetadata .. => true
  | .missingRelationLink .. => true
  | .missingJoinField .. => true
  | .missingIdField .. => true
  | .duplicateField .. => true
  | _ => false

end Error

end EntityStore
