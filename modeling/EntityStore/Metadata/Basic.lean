import EntityStore.Entity
import EntityStore.Error

/-!
The description of a table.

A `Metadata` names a table, the property that identifies its entities, the
fields (which property is kept in which column), and the relations to other
tables.  A description is valid when no two of its fields stand for one
property; then every property has at most one column, and the first match that
the look-ups below take is the only one.
-/

namespace EntityStore

/-- What a field stores, as far as it is known. -/
inductive FieldType where
  | unknown | text | integer | boolean | bytes | timestamp
  deriving DecidableEq, Inhabited

/-- A property and the column that keeps it. -/
structure Field where
  property : String
  column : String
  type : FieldType
  deriving DecidableEq

/-- A relation under which an entity has all entities of another table that
refer to it. -/
structure OneToMany where
  property : String
  /-- The property of the other table that refers back, or its relation back. -/
  mappedBy : String
  mappedTable : String
  deriving DecidableEq

/-- A relation under which an entity has the one entity that it refers to. -/
structure ManyToOne where
  property : String
  /-- The column of the entity's own table that keeps the reference. -/
  joinColumn : String
  mappedTable : String
  deriving DecidableEq

/-- How much of a point in time a property holds. -/
inductive TemporalType where
  | date | time | timestamp
  deriving DecidableEq, Inhabited

/-- A property that holds points in time. -/
structure TemporalProperty where
  property : String
  type : TemporalType
  deriving DecidableEq

/-- The description of a table. -/
structure Metadata where
  table : String
  idProperty : String
  fields : List Field
  oneToMany : List OneToMany
  manyToOne : List ManyToOne
  temporals : List TemporalProperty
  deriving DecidableEq

namespace Metadata

/-! ## Making a description -/

/-- A table without fields and relations. -/
def ofTable (table idProperty : String) : Metadata := ⟨table, idProperty, [], [], [], []⟩

/-- The fields with one put in: in place of the first field for the same
property, or at the end. -/
def putField (field : Field) : List Field → List Field
  | [] => [field]
  | other :: rest =>
      if other.property = field.property then field :: rest else other :: putField field rest

/-- Declares a field. -/
def withField (m : Metadata) (field : Field) : Metadata :=
  { m with fields := putField field m.fields }

/-- Declares a relation to many. -/
def withOneToMany (m : Metadata) (relation : OneToMany) : Metadata :=
  { m with oneToMany := m.oneToMany ++ [relation] }

/-- Declares a relation to one. -/
def withManyToOne (m : Metadata) (relation : ManyToOne) : Metadata :=
  { m with manyToOne := m.manyToOne ++ [relation] }

/-- Declares that a property holds points in time. -/
def withTemporal (m : Metadata) (property : TemporalProperty) : Metadata :=
  { m with temporals := m.temporals ++ [property] }

/-! ## Validity -/

/-- The first field whose property is among those seen or repeats an earlier
field's. -/
def firstRepeated (seen : List String) : List Field → Option Field
  | [] => none
  | field :: rest =>
      if field.property ∈ seen then some field
      else firstRepeated (field.property :: seen) rest

/-- Succeeds when all fields have different properties. -/
def validate (m : Metadata) : Except Error Unit :=
  match firstRepeated [] m.fields with
  | some field => .error (.duplicateField m.table field.property)
  | none => .ok ()

theorem nodup_of_firstRepeated {fields : List Field} :
    ∀ {seen : List String}, firstRepeated seen fields = none →
      (∀ field ∈ fields, field.property ∉ seen) ∧ (fields.map (·.property)).Nodup := by
  induction fields with
  | nil => exact fun _ => ⟨nofun, List.nodup_nil⟩
  | cons field rest ih =>
      intro seen none
      rw [firstRepeated] at none
      split at none
      · cases none
      · rename_i fresh
        obtain ⟨unseen, distinct⟩ := ih none
        refine ⟨fun other member => ?_, ?_⟩
        · rcases List.mem_cons.mp member with rfl | member
          · exact fresh
          · exact fun old => unseen other member (List.mem_cons_of_mem _ old)
        · rw [List.map_cons, List.nodup_cons]
          refine ⟨fun repeated => ?_, distinct⟩
          obtain ⟨other, member, same⟩ := List.mem_map.mp repeated
          exact unseen other member (same ▸ List.mem_cons_self)

/-- In a valid description no two fields stand for one property. -/
theorem nodup_of_validate {m : Metadata} (valid : m.validate = .ok ()) :
    (m.fields.map (·.property)).Nodup := by
  unfold validate at valid
  split at valid
  · cases valid
  · rename_i none
    exact (nodup_of_firstRepeated none).2

/-! ## Look-ups -/

/-- The first field for a property. -/
def fieldOf? (m : Metadata) (property : String) : Option Field :=
  m.fields.find? (·.property == property)

/-- The column that keeps a property. -/
def columnOf? (m : Metadata) (property : String) : Option String :=
  (m.fieldOf? property).map (·.column)

/-- The property of the first field that is kept in a column. -/
def propertyOf? (m : Metadata) (column : String) : Option String :=
  (m.fields.find? (·.column == column)).map (·.property)

/-- The field for the id property. -/
def idField (m : Metadata) : Except Error Field :=
  match m.fieldOf? m.idProperty with
  | some field => .ok field
  | none => .error (.missingIdField m.table m.idProperty)

/-- What the field for the id property stores. -/
def idType? (m : Metadata) : Option FieldType := (m.fieldOf? m.idProperty).map (·.type)

/-- Whether a property is declared to hold points in time. -/
def isTemporal (m : Metadata) (property : String) : Bool :=
  m.temporals.any (·.property == property)

/-- Whether any relation is declared. -/
def hasRelations (m : Metadata) : Bool := !m.oneToMany.isEmpty || !m.manyToOne.isEmpty

/-- The id of an entity: its id property, if that is truthy. -/
def idOf? (m : Metadata) (e : Entity) : Option Value := e.reference? m.idProperty

end Metadata

end EntityStore
