import EntityStore.Proofs.Mirroring

/-!
A store without a memory.

A `Reference` keeps rows, descriptions and the sequence of fresh ids, and nothing
of what it has handed out.  An update sets every declared field of the row that
has the entity's id, or adds the entity as the last row; it does not ask what has
changed.  A write is kept only if the written entities can be handed out, so
there is nothing to take back.
-/

namespace EntityStore

/-- Rows, descriptions and fresh ids. -/
structure Reference where
  idForm : IdForm
  tables : Tables
  registry : Registry
  ids : IdSequence

/-- The stored entity with each of the fields as another entity has it: set, or taken
away where the other lacks it. -/
def Entity.overwriteFields (stored e : Entity) : List Field → Entity
  | [] => stored
  | field :: rest =>
      match e.get? field.property with
      | some value => (stored.set field.property value).overwriteFields e rest
      | none => (stored.remove field.property).overwriteFields e rest

/-- Sets the declared fields of the row with an id as an entity has them, and adds
the entity as the last row if no row has the id: the stored entity and the rows. -/
def Metadata.overwrite (m : Metadata) (id : Value) (e : Entity) (rows : List Row) :
    Entity × List Row :=
  match rows.find? (·.id == id) with
  | some found =>
      let stored := found.entity.overwriteFields e m.fields
      (stored, rows.map fun row => if row.id = id then ⟨id, stored⟩ else row)
  | none => (e.withoutRelations, rows ++ [⟨id, e.withoutRelations⟩])

/-- Whether a row has the entity's id and agrees with it in every declared field. -/
def Metadata.holdsAlready (m : Metadata) (e : Entity) (rows : List Row) : Bool :=
  rows.any fun row =>
    m.idOf? e == some row.id &&
      m.fields.all fun field => row.entity.get? field.property == e.get? field.property

namespace Reference

/-- No rows and no descriptions. -/
def start (idForm : IdForm) (ids : IdSequence) : Reference := ⟨idForm, ∅, ∅, ids⟩

/-- The entities that a condition selects, in order, with their relations. -/
def findAll (r : Reference) (m : Metadata) (condition : Option Condition)
    (sorting : Option Sorting) : Except Error (List Entity) :=
  m.populateAll r.registry r.tables (r.tables.select m.table condition sorting)

/-- The first entity that a condition selects, with its relations. -/
def findBy (r : Reference) (m : Metadata) (condition : Condition) (sorting : Option Sorting) :
    Except Error (Option Entity) :=
  match (r.tables.select m.table (some condition) sorting).head? with
  | none => .ok none
  | some first => (m.populate r.registry r.tables first).map some

/-- Adds a batch of entities as the last rows, if all of it can be stored and handed out. -/
def insertAll (r : Reference) (m : Metadata) (entities : List Entity) :
    Except Error (List Entity) × Reference :=
  match m.newRows r.idForm (r.tables.ids m.table) entities r.ids with
  | (.error error, ids) => (.error error, { r with ids := ids })
  | (.ok rows, ids) =>
      let tables := r.tables.append m.table rows
      match m.populateAll r.registry tables (rows.map (·.entity)) with
      | .error error => (.error error, { r with ids := ids })
      | .ok added => (.ok added, { r with tables := tables, ids := ids })

/-- Adds one entity as a batch of its own. -/
def insert (r : Reference) (m : Metadata) (e : Entity) : Except Error Entity × Reference :=
  match r.insertAll m [e] with
  | (.error error, r) => (.error error, r)
  | (.ok (added :: _), r) => (.ok added, r)
  | (.ok [], r) => (.error (.invalidOperation "could not add items"), r)

/-- Overwrites the row with an id, or adds it, if the entity stored can be handed out. -/
def write (r : Reference) (m : Metadata) (id : Value) (e : Entity) :
    Except Error Entity × Reference :=
  let written := m.overwrite id e (r.tables.rows m.table)
  let tables := r.tables.put m.table written.2
  match m.populate r.registry tables written.1 with
  | .error error => (.error error, r)
  | .ok updated => (.ok updated, { r with tables := tables })

/-- Writes an entity of the table under the id that it has to have. -/
def update (r : Reference) (m : Metadata) (e : Entity) : Except Error Entity × Reference :=
  if e.table ≠ m.table then (.error (.tableMismatch m.table e.table), r)
  else
    match m.idField with
    | .error error => (.error error, r)
    | .ok idField =>
        match m.idOf? e with
        | none => (.error (.missingEntityId m.table idField.property), r)
        | some id => r.write m id e

/-- Takes the rows away that a condition accepts, or all rows. -/
def delete (r : Reference) (m : Metadata) (condition : Option Condition) : Reference :=
  let kept := (r.tables.rows m.table).filter fun row =>
    !Condition.acceptsOptional condition row.entity
  { r with tables := r.tables.put m.table kept }

/-- Carries out a call. -/
def step (r : Reference) : Operation → Except Error Answer × Reference
  | .register m => (.ok .done, { r with registry := r.registry.register m })
  | .destroy => (.ok .done, { r with tables := ∅, registry := ∅ })
  | .count m condition => (.ok (.number (r.tables.matching m.table condition).length), r)
  | .hasMatch m condition =>
      (.ok (.truth !(r.tables.matching m.table (some condition)).isEmpty), r)
  | .findAll m condition sorting => ((r.findAll m condition sorting).map .entities, r)
  | .findBy m condition sorting => ((r.findBy m condition sorting).map .optionalEntity, r)
  | .insert m e =>
      match r.insert m e with
      | (result, r) => (result.map .entity, r)
  | .insertAll m entities =>
      match r.insertAll m entities with
      | (result, r) => (result.map .entities, r)
  | .update m e =>
      match r.update m e with
      | (result, r) => (result.map .entity, r)
  | .delete m condition => (.ok .done, r.delete m condition)

/-- Carries out calls one after the other, whether they succeed or not. -/
def run (r : Reference) (operations : List Operation) : Reference :=
  operations.foldl (fun r operation => (r.step operation).2) r

end Reference

end EntityStore
