import EntityStore.Json
import EntityStore.Metadata.Basic

/-!
Table descriptions as JSON documents.

`Metadata.toJson` writes every member.  `Metadata.ofJson` lets the lists and
the types be left out, ignores members that it does not know, and accepts only
valid descriptions: a document of the right shape that repeats a property is
refused with the error that `Metadata.validate` gives.
-/

namespace EntityStore

/-- Why a document describes no table. -/
inductive Metadata.DocumentError where
  /-- A member is missing or has the wrong form. -/
  | malformed
  /-- The description is of the right shape but not valid. -/
  | invalid (error : Error)
  deriving DecidableEq

/-! ## Names of types -/

/-- The name of a field type. -/
def FieldType.name : FieldType → String
  | .unknown => "unknown"
  | .text => "text"
  | .integer => "integer"
  | .boolean => "boolean"
  | .bytes => "bytes"
  | .timestamp => "timestamp"

/-- The field type with a name. -/
def FieldType.ofName? : String → Option FieldType
  | "unknown" => some .unknown
  | "text" => some .text
  | "integer" => some .integer
  | "boolean" => some .boolean
  | "bytes" => some .bytes
  | "timestamp" => some .timestamp
  | _ => none

/-- The name of a temporal type. -/
def TemporalType.name : TemporalType → String
  | .date => "date"
  | .time => "time"
  | .timestamp => "timestamp"

/-- The temporal type with a name. -/
def TemporalType.ofName? : String → Option TemporalType
  | "date" => some .date
  | "time" => some .time
  | "timestamp" => some .timestamp
  | _ => none

/-! ## Writing -/

/-- The document of a field. -/
def Field.toJson (field : Field) : Json :=
  .object [("propertyName", .string field.property), ("columnName", .string field.column),
    ("fieldType", .string field.type.name)]

/-- The document of a relation to many. -/
def OneToMany.toJson (relation : OneToMany) : Json :=
  .object [("propertyName", .string relation.property), ("mappedBy", .string relation.mappedBy),
    ("mappedTable", .string relation.mappedTable)]

/-- The document of a relation to one. -/
def ManyToOne.toJson (relation : ManyToOne) : Json :=
  .object [("propertyName", .string relation.property),
    ("joinColumn", .string relation.joinColumn), ("mappedTable", .string relation.mappedTable)]

/-- The document of a temporal property. -/
def TemporalProperty.toJson (property : TemporalProperty) : Json :=
  .object [("propertyName", .string property.property),
    ("temporalType", .string property.type.name)]

/-- The document of a table. -/
def Metadata.toJson (m : Metadata) : Json :=
  .object [("tableName", .string m.table), ("idPropertyName", .string m.idProperty),
    ("fields", .array (m.fields.map Field.toJson)),
    ("oneToManyRelations", .array (m.oneToMany.map OneToMany.toJson)),
    ("manyToOneRelations", .array (m.manyToOne.map ManyToOne.toJson)),
    ("temporalProperties", .array (m.temporals.map TemporalProperty.toJson))]

/-! ## Reading -/

/-- Reads a field type. -/
def FieldType.ofJson? (document : Json) : Option FieldType :=
  document.asName?.bind FieldType.ofName?

/-- Reads a temporal type. -/
def TemporalType.ofJson? (document : Json) : Option TemporalType :=
  document.asName?.bind TemporalType.ofName?

/-- Reads a field; its type is unknown unless given. -/
def Field.ofJson? (document : Json) : Option Field :=
  match document.members ["propertyName", "columnName", "fieldType"] with
  | some [property, column, type] => do
      let property ← Json.required Json.asString? property
      let column ← Json.required Json.asString? column
      let type ← Json.withDefault .unknown FieldType.ofJson? type
      some ⟨property, column, type⟩
  | _ => none

/-- Reads a relation to many. -/
def OneToMany.ofJson? (document : Json) : Option OneToMany :=
  match document.members ["propertyName", "mappedBy", "mappedTable"] with
  | some [property, mappedBy, mappedTable] => do
      let property ← Json.required Json.asString? property
      let mappedBy ← Json.required Json.asString? mappedBy
      let mappedTable ← Json.required Json.asString? mappedTable
      some ⟨property, mappedBy, mappedTable⟩
  | _ => none

/-- Reads a relation to one. -/
def ManyToOne.ofJson? (document : Json) : Option ManyToOne :=
  match document.members ["propertyName", "joinColumn", "mappedTable"] with
  | some [property, joinColumn, mappedTable] => do
      let property ← Json.required Json.asString? property
      let joinColumn ← Json.required Json.asString? joinColumn
      let mappedTable ← Json.required Json.asString? mappedTable
      some ⟨property, joinColumn, mappedTable⟩
  | _ => none

/-- Reads a temporal property; it holds full timestamps unless a type is given. -/
def TemporalProperty.ofJson? (document : Json) : Option TemporalProperty :=
  match document.members ["propertyName", "temporalType"] with
  | some [property, type] => do
      let property ← Json.required Json.asString? property
      let type ← Json.withDefault .timestamp TemporalType.ofJson? type
      some ⟨property, type⟩
  | _ => none

namespace Metadata

/-- Reads the shape of a description, valid or not. -/
def readShape (document : Json) : Option Metadata :=
  match document.members ["tableName", "idPropertyName", "fields", "oneToManyRelations",
    "manyToOneRelations", "temporalProperties"] with
  | some [table, idProperty, fields, oneToMany, manyToOne, temporals] => do
      let table ← Json.required Json.asString? table
      let idProperty ← Json.required Json.asString? idProperty
      let fields ← Json.withDefault [] (Json.listOf Field.ofJson?) fields
      let oneToMany ← Json.withDefault [] (Json.listOf OneToMany.ofJson?) oneToMany
      let manyToOne ← Json.withDefault [] (Json.listOf ManyToOne.ofJson?) manyToOne
      let temporals ← Json.withDefault [] (Json.listOf TemporalProperty.ofJson?) temporals
      some ⟨table, idProperty, fields, oneToMany, manyToOne, temporals⟩
  | _ => none

/-- Reads a valid description. -/
def ofJson (document : Json) : Except DocumentError Metadata :=
  match readShape document with
  | none => .error .malformed
  | some m =>
      match m.validate with
      | .ok () => .ok m
      | .error error => .error (.invalid error)

end Metadata

end EntityStore
