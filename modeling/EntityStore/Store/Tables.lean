import EntityStore.Condition.Matching

/-!
The rows that a store holds, table by table.

A `Row` is an entity with the id under which it is stored; the rows of a table
stand in the order in which they were added.  A table comes into being with the
first write to it and is kept, even without rows, until it is dropped.
`Tables.rows` is the view: it reads a table that is not there as one without
rows, and every operation below states what it does to that view.
-/

namespace EntityStore

/-- A stored entity and the id that it is stored under. -/
structure Row where
  id : Value
  entity : Entity
  deriving DecidableEq

/-- Gives the first row with an id another entity; without such a row nothing changes. -/
def Row.replace (id : Value) (entity : Entity) : List Row → List Row
  | [] => []
  | row :: rest =>
      if row.id = id then { row with entity := entity } :: rest
      else row :: replace id entity rest

/-- Rows by table; a table may be there without rows. -/
structure Tables where
  stored : SortedMap String (List Row)
  deriving DecidableEq

namespace Tables

/-- No tables at all. -/
def empty : Tables := ⟨∅⟩

instance : EmptyCollection Tables := ⟨empty⟩

instance : Inhabited Tables := ⟨empty⟩

/-- The rows of a table. -/
def rows (t : Tables) (table : String) : List Row := (t.stored.get? table).getD []

/-- Gives a table rows; it is there afterwards, with or without rows. -/
def put (t : Tables) (table : String) (rows : List Row) : Tables :=
  ⟨t.stored.insert table rows⟩

/-- Adds rows at the end of a table, which is there afterwards. -/
def append (t : Tables) (table : String) (rows : List Row) : Tables :=
  t.put table (t.rows table ++ rows)

/-- Changes the rows of a table if it is there. -/
def modify (t : Tables) (table : String) (change : List Row → List Row) : Tables :=
  match t.stored.get? table with
  | some rows => t.put table (change rows)
  | none => t

/-- Drops a table. -/
def drop (t : Tables) (table : String) : Tables := ⟨t.stored.erase table⟩

/-- The number of rows of a table. -/
def size (t : Tables) (table : String) : Nat := (t.rows table).length

/-- The number of rows of all tables together. -/
def totalSize (t : Tables) : Nat :=
  t.stored.toList.foldr (fun entry total => entry.2.length + total) 0

/-- The ids of a table, in the order of its rows. -/
def ids (t : Tables) (table : String) : List Value := (t.rows table).map (·.id)

/-- The first row of a table that is stored under an id. -/
def row? (t : Tables) (table : String) (id : Value) : Option Row :=
  (t.rows table).find? (·.id == id)

/-- The rows of a table that a condition accepts. -/
def matching (t : Tables) (table : String) (condition : Option Condition) : List Row :=
  (t.rows table).filter fun row => Condition.acceptsOptional condition row.entity

/-! ## The view -/

@[simp] theorem rows_empty (table : String) : (∅ : Tables).rows table = [] := rfl

@[simp] theorem rows_put (t : Tables) (table table' : String) (rows : List Row) :
    (t.put table rows).rows table' = if table' = table then rows else t.rows table' := by
  by_cases same : table' = table <;> simp [put, Tables.rows, SortedMap.get?_insert, same]

/-- Added rows stand behind the others, in their table alone. -/
@[simp] theorem rows_append (t : Tables) (table table' : String) (rows : List Row) :
    (t.append table rows).rows table' =
      if table' = table then t.rows table ++ rows else t.rows table' :=
  rows_put t table table' _

/-- A change that makes no rows out of nothing shows in its table, there or not. -/
theorem rows_modify (t : Tables) (table table' : String) {change : List Row → List Row}
    (nil : change [] = []) :
    (t.modify table change).rows table' =
      if table' = table then change (t.rows table) else t.rows table' := by
  unfold modify
  cases found : t.stored.get? table with
  | none =>
      by_cases same : table' = table
      · simp [Tables.rows, same, found, nil]
      · simp [same]
  | some rows =>
      by_cases same : table' = table
      · simp [Tables.rows, put, same, found]
      · simp [same]

/-- A dropped table has no rows. -/
@[simp] theorem rows_drop (t : Tables) (table table' : String) :
    (t.drop table).rows table' = if table' = table then [] else t.rows table' := by
  by_cases same : table' = table <;> simp [drop, Tables.rows, SortedMap.get?_erase, same]

end Tables

end EntityStore
