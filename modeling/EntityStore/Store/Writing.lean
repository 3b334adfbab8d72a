import EntityStore.Store.Reading

/-!
Writing to a store.

A write changes the tables first, and then the written entities have their
relations filled in from the changed tables.  If that fails the change is taken
back: new rows are cut off the end of their table, and a row that was written
over gets its entity back.  Numbers drawn for fresh ids stay drawn, and a table
that came into being stays there without rows.
-/

namespace EntityStore

/-! ## Inserting -/

/-- A new entity as a row: under the id it has, or else under a fresh one that
is set as its id property.  Relations are not stored. -/
def Metadata.newRow (m : Metadata) (form : IdForm) (e : Entity) (ids : IdSequence) :
    Except Error Row × IdSequence :=
  let e := e.withoutRelations
  match m.idOf? e with
  | some id => (.ok ⟨id, e⟩, ids)
  | none =>
      match m.freshId form ids.next with
      | .ok id => (.ok ⟨id, e.set m.idProperty id⟩, ids.advance)
      | .error error => (.error error, ids.advance)

/-- New entities as rows.  Each has to belong to the table, and no id may be
among those taken or repeat an earlier one; the first entity at fault decides. -/
def Metadata.newRows (m : Metadata) (form : IdForm) (taken : List Value) :
    List Entity → IdSequence → Except Error (List Row) × IdSequence
  | [], ids => (.ok [], ids)
  | e :: rest, ids =>
      if e.table ≠ m.table then (.error (.tableMismatch m.table e.table), ids)
      else
        match m.newRow form e ids with
        | (.error error, ids) => (.error error, ids)
        | (.ok row, ids) =>
            if row.id ∈ taken then (.error (.duplicateId m.table row.id), ids)
            else
              match newRows m form (row.id :: taken) rest ids with
              | (.error error, ids) => (.error error, ids)
              | (.ok rows, ids) => (.ok (row :: rows), ids)

namespace Store

/-- Fills in the relations of rows that have just been added to a table, and
takes the rows off its end again if that fails. -/
def handOutAdded (s : Store) (m : Metadata) (rows : List Row) :
    Except Error (List Entity) × Store :=
  match s.populateAll m (rows.map (·.entity)) with
  | .error error =>
      let cut (all : List Row) : List Row := all.take (all.length - rows.length)
      (.error error, { s with tables := s.tables.modify m.table cut })
  | .ok added => (.ok added, { s with tracking := s.tracking.saveAll m added })

/-- Inserts entities, all of them or none. -/
def insertAll (s : Store) (m : Metadata) (entities : List Entity) (ids : IdSequence) :
    Except Error (List Entity) × Store × IdSequence :=
  match m.newRows s.idForm (s.tables.ids m.table) entities ids with
  | (.error error, ids) => (.error error, s, ids)
  | (.ok rows, ids) =>
      match { s with tables := s.tables.append m.table rows }.handOutAdded m rows with
      | (.error error, s) => (.error error, s, ids)
      | (.ok added, s) => (.ok added, s.countWrites added.length, ids)

/-- Inserts one entity. -/
def insert (s : Store) (m : Metadata) (e : Entity) (ids : IdSequence) :
    Except Error Entity × Store × IdSequence :=
  match s.insertAll m [e] ids with
  | (.error error, s, ids) => (.error error, s, ids)
  | (.ok (added :: _), s, ids) => (.ok added, s, ids)
  | (.ok [], s, ids) => (.error (.invalidOperation "could not add items"), s, ids)

end Store

/-! ## Updating -/

/-- A stored entity with the given fields as another entity has them. -/
def Entity.mergeFields (stored e : Entity) (fields : List Field) : Entity :=
  fields.foldl (fun merged field => merged.assign field.property (e.get? field.property)) stored

/-- What a write under an id has stored, the entity that it replaced, if there
was a row with that id, and the tables after it. -/
structure Written where
  stored : Entity
  replaced : Option Entity
  tables : Tables

/-- Stores the given fields of an entity under an id: a row with that id takes
them over, and without such a row the entity becomes the last row. -/
def Tables.write (t : Tables) (table : String) (id : Value) (e : Entity)
    (fields : List Field) : Written :=
  match t.row? table id with
  | some row =>
      let merged := row.entity.mergeFields e fields
      ⟨merged, some row.entity, t.modify table (Row.replace id merged)⟩
  | none => ⟨e.withoutRelations, none, t.append table [⟨id, e.withoutRelations⟩]⟩

/-- Takes a write under an id back, given the entity that it replaced. -/
def Tables.restore (t : Tables) (table : String) (id : Value) : Option Entity → Tables
  | some replaced => t.modify table (Row.replace id replaced)
  | none => t.modify table (List.filter (·.id ≠ id))

namespace Store

/-- Hands out the stored form of an entity in which nothing has changed. -/
def refetch (s : Store) (m : Metadata) (property : String) (id : Value) :
    Except Error Entity × Store :=
  match s.findBy m (.propertyEquals property id) none with
  | (.error error, s) => (.error error, s)
  | (.ok none, s) => (.error (.entityNotFound m.table id), s)
  | (.ok (some found), s) => (.ok found, s)

/-- Stores the changed fields of an entity under its id, and takes that back if
the entity so stored cannot have its relations filled in. -/
def writeChanges (s : Store) (m : Metadata) (e : Entity) (id : Value) (changed : List Field) :
    Except Error Entity × Store :=
  let written := s.tables.write m.table id e changed
  let s := { s with tables := written.tables }
  match s.populate m written.stored with
  | .error error =>
      (.error error, { s with tables := s.tables.restore m.table id written.replaced })
  | .ok populated =>
      (.ok populated, { s with tracking := s.tracking.save m populated }.countWrites 1)

/-- Stores an entity under its id.  Only fields that differ from what was last
handed out are written; where none does, the stored entity is read. -/
def update (s : Store) (m : Metadata) (e : Entity) : Except Error Entity × Store :=
  if e.table ≠ m.table then (.error (.tableMismatch m.table e.table), s)
  else
    match m.idField with
    | .error error => (.error error, s)
    | .ok idField =>
        match m.idOf? e with
        | none => (.error (.missingEntityId m.table idField.property), s)
        | some id =>
            match s.tracking.changedFields m e with
            | [] => s.refetch m idField.property id
            | changed => s.writeChanges m e id changed

/-! ## Deleting -/

/-- Deletes the entities that a condition accepts, or the whole table, and
forgets them. -/
def delete (s : Store) (m : Metadata) : Option Condition → Store
  | some condition =>
      let removed := (s.tables.rows m.table).filter fun row => condition.accepts row.entity
      let kept (rows : List Row) : List Row := rows.filter fun row => !condition.accepts row.entity
      let remaining : Store :=
        { s with
          tables := s.tables.modify m.table kept
          tracking := s.tracking.forgetAll m.table (removed.map (·.id)) }
      remaining.countDeletes removed.length
  | none =>
      let remaining : Store :=
        { s with
          tables := s.tables.drop m.table
          tracking := s.tracking.forgetTable m.table }
      remaining.countDeletes (s.tables.size m.table)

end Store

end EntityStore
