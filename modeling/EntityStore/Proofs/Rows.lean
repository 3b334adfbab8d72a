import EntityStore.Proofs.Population

/-!
Writing rows and taking the write back.

A write under an id either replaces the entity of the row that has the id or
adds a row at the end; a batch of new rows is added at the end.  Each of the
three has its own way back, and each way back leaves the rows that were there
before (`Tables.rows_restore_write`, `Tables.rows_cut_append`), although the
table itself may have come into being.
-/

namespace EntityStore

/-! ## Rows found by their ids -/

/-- In a list without repeated keys an element is the only one with its key. -/
theorem filter_key_eq_singleton {α κ : Type} [DecidableEq κ] {key : α → κ} {items : List α}
    {item : α} (distinct : (items.map key).Nodup) (member : item ∈ items) :
    items.filter (key · == key item) = [item] := by
  induction items with
  | nil => cases member
  | cons first rest ih =>
      rw [List.map_cons, List.nodup_cons] at distinct
      obtain ⟨fresh, distinctRest⟩ := distinct
      rcases List.mem_cons.mp member with rfl | member
      · have others : ∀ other ∈ rest, ¬(key other == key item) = true := by
          intro other member same
          exact fresh (beq_iff_eq.mp same ▸ List.mem_map_of_mem member)
        rw [List.filter_cons_of_pos (by simp), List.filter_eq_nil_iff.mpr others]
      · have other : key first ≠ key item := by
          intro same
          exact fresh (same ▸ List.mem_map_of_mem member)
        rw [List.filter_cons_of_neg (by simpa using other)]
        exact ih distinctRest member

/-- In a list without repeated keys the first element with a key is the only one. -/
theorem find?_eq_some_of_distinct {α κ : Type} [DecidableEq κ] {key : α → κ} {items : List α}
    {item : α} (distinct : (items.map key).Nodup) (member : item ∈ items) :
    items.find? (key · == key item) = some item := by
  rw [← List.head?_filter, filter_key_eq_singleton distinct member]
  rfl

/-- What is first in a list is its head, or else first in the tail. -/
theorem exists_first_cons {α : Type} {P Q : α → Prop} {head : α} {tail : List α} :
    (∃ before item after, head :: tail = before ++ item :: after ∧ P item ∧
        ∀ other ∈ before, Q other) ↔
      P head ∨ Q head ∧ ∃ before item after, tail = before ++ item :: after ∧ P item ∧
        ∀ other ∈ before, Q other := by
  constructor
  · rintro ⟨before, item, after, split, holds, others⟩
    cases before with
    | nil =>
        cases split
        exact .inl holds
    | cons first before =>
        cases split
        obtain ⟨othersHead, othersTail⟩ := List.forall_mem_cons.mp others
        exact .inr ⟨othersHead, before, item, after, rfl, holds, othersTail⟩
  · rintro (holds | ⟨othersHead, before, item, after, rfl, holds, others⟩)
    · exact ⟨[], head, tail, rfl, holds, nofun⟩
    · exact ⟨head :: before, item, after, rfl, holds,
        List.forall_mem_cons.mpr ⟨othersHead, others⟩⟩

namespace Row

variable {id : Value} {row : Row} {rows : List Row}

theorem id_eq_of_find? (found : rows.find? (·.id == id) = some row) : row.id = id := by
  simpa using List.find?_some found

theorem mem_of_find? (found : rows.find? (·.id == id) = some row) : row ∈ rows :=
  List.mem_of_find?_eq_some found

theorem find?_eq_none_iff : rows.find? (·.id == id) = none ↔ ∀ row ∈ rows, row.id ≠ id := by
  simp

/-- Where no two rows have one id, every row is the one found by its id. -/
theorem find?_eq_some_of_mem (distinct : (rows.map (·.id)).Nodup) (member : row ∈ rows) :
    rows.find? (·.id == row.id) = some row :=
  find?_eq_some_of_distinct distinct member

/-! ## Replacing the entity of a row -/

/-- Among rows that are kept, a row with an id is found if it is itself kept. -/
theorem find?_filter (distinct : (rows.map (·.id)).Nodup) (keep : Row → Bool) :
    (rows.filter keep).find? (·.id == id) = (rows.find? (·.id == id)).filter keep := by
  refine Option.ext fun row => ⟨fun found => ?_, fun found => ?_⟩
  · obtain ⟨member, stays⟩ := List.mem_filter.mp (mem_of_find? found)
    obtain rfl := id_eq_of_find? found
    rw [find?_eq_some_of_mem distinct member]
    exact Option.filter_eq_some_iff.mpr ⟨rfl, stays⟩
  · obtain ⟨found, stays⟩ := Option.filter_eq_some_iff.mp found
    obtain rfl := id_eq_of_find? found
    exact find?_eq_some_of_mem (distinct.sublist (List.filter_sublist.map _))
      (List.mem_filter.mpr ⟨mem_of_find? found, stays⟩)

@[simp] theorem replace_nil (e : Entity) : replace id e [] = [] := rfl

theorem map_id_replace (e : Entity) : (replace id e rows).map (·.id) = rows.map (·.id) := by
  induction rows with
  | nil => rfl
  | cons first rest ih =>
      rw [replace]
      split
      · rfl
      · rw [List.map_cons, List.map_cons, ih]

theorem replace_replace (e e' : Entity) :
    replace id e (replace id e' rows) = replace id e rows := by
  induction rows with
  | nil => rfl
  | cons first rest ih =>
      by_cases same : first.id = id
      · simp [replace, same]
      · simp [replace, same, ih]

/-- A row that gets back the entity it has stays as it is. -/
theorem replace_of_find? (found : rows.find? (·.id == id) = some row) :
    replace id row.entity rows = rows := by
  induction rows with
  | nil => rfl
  | cons first rest ih =>
      by_cases same : first.id = id
      · rw [List.find?_cons_of_pos (by simpa using same)] at found
        cases found
        rw [replace, if_pos same]
      · rw [List.find?_cons_of_neg (by simpa using same)] at found
        simp [replace, same, ih found]

/-- Of the rows after a replacement, the one with the id has the new entity. -/
theorem find?_replace (e : Entity) (id' : Value) :
    (replace id e rows).find? (·.id == id') =
      if id' = id then (rows.find? (·.id == id)).map fun row => { row with entity := e }
      else rows.find? (·.id == id') := by
  induction rows with
  | nil => simp
  | cons first rest ih =>
      by_cases same : first.id = id
      · by_cases asked : id' = id
        · simp [replace, same, asked]
        · have other : first.id ≠ id' := fun eq => asked (eq.symm.trans same)
          rw [replace, if_pos same, if_neg asked, List.find?_cons_of_neg (by simpa using other),
            List.find?_cons_of_neg (by simpa using other)]
      · by_cases asked : id' = id
        · subst asked
          simpa [replace, same] using ih
        · rw [if_neg asked] at ih ⊢
          rw [replace, if_neg same]
          by_cases head : first.id = id'
          · simp [head]
          · simpa [head] using ih

theorem mem_replace {e : Entity} {other : Row} (member : other ∈ replace id e rows) :
    other ∈ rows ∨ other = ⟨id, e⟩ := by
  induction rows with
  | nil => cases member
  | cons first rest ih =>
      rw [replace] at member
      split at member
      · rename_i same
        rcases List.mem_cons.mp member with rfl | member
        · exact .inr (by rw [same])
        · exact .inl (List.mem_cons_of_mem _ member)
      · rcases List.mem_cons.mp member with rfl | member
        · exact .inl List.mem_cons_self
        · exact (ih member).imp_left (List.mem_cons_of_mem _)

end Row

namespace Tables

variable {t : Tables} {table : String} {id : Value} {e : Entity} {fields : List Field}

theorem mem_of_row? {row : Row} (found : t.row? table id = some row) : row ∈ t.rows table :=
  Row.mem_of_find? found

/-- No row is found by an id that is not among those of the table. -/
theorem row?_eq_none_iff : t.row? table id = none ↔ id ∉ t.ids table := by
  simp [row?, ids]

/-! ## Writes -/

theorem rows_modify_replace (table' : String) :
    (t.modify table (Row.replace id e)).rows table' =
      if table' = table then Row.replace id e (t.rows table) else t.rows table' :=
  rows_modify t table table' (Row.replace_nil e)

theorem write_of_row?_eq_some {row : Row} (found : t.row? table id = some row) :
    t.write table id e fields =
      ⟨row.entity.mergeFields e fields, some row.entity,
        t.modify table (Row.replace id (row.entity.mergeFields e fields))⟩ := by
  unfold write
  rw [found]

theorem write_of_row?_eq_none (absent : t.row? table id = none) :
    t.write table id e fields =
      ⟨e.withoutRelations, none, t.append table [⟨id, e.withoutRelations⟩]⟩ := by
  unfold write
  rw [absent]

/-! ## The way back -/

/-- Taking a write back leaves the rows that were there before it. -/
theorem rows_restore_write (t : Tables) (table table' : String) (id : Value) (e : Entity)
    (fields : List Field) :
    ((t.write table id e fields).tables.restore table id
      (t.write table id e fields).replaced).rows table' = t.rows table' := by
  cases found : t.row? table id with
  | some row =>
      rw [write_of_row?_eq_some found]
      simp only [restore, rows_modify_replace]
      split
      · rename_i same
        rw [same, if_pos trivial, Row.replace_replace, Row.replace_of_find? found]
      · rfl
  | none =>
      rw [write_of_row?_eq_none found]
      simp only [restore]
      rw [rows_modify _ _ _ List.filter_nil]
      simp only [rows_append]
      split
      · rename_i same
        have others : ∀ row ∈ t.rows table, row.id ≠ id := Row.find?_eq_none_iff.mp found
        subst same
        simp only [if_true, List.filter_append]
        rw [List.filter_eq_self.mpr (by simpa using others)]
        simp
      · rfl

/-- Cutting the rows off that were added leaves the rows that were there before. -/
theorem rows_cut_append (t : Tables) (table table' : String) (rows : List Row) :
    ((t.append table rows).modify table fun all => all.take (all.length - rows.length)).rows
        table' = t.rows table' := by
  rw [rows_modify _ _ _ (by simp)]
  split
  · rename_i same
    subst same
    simp only [rows_append, if_true]
    rw [List.length_append, Nat.add_sub_cancel, List.take_left]
  · rename_i other
    rw [rows_append, if_neg other]

end Tables

/-! ## Deleting rows -/

/-- A deletion leaves the rows that it does not accept, and other tables as they are. -/
theorem Store.rows_delete (s : Store) (m : Metadata) (condition : Option Condition)
    (table : String) :
    (s.delete m condition).tables.rows table =
      if table = m.table then
        (s.tables.rows m.table).filter fun row => !Condition.acceptsOptional condition row.entity
      else s.tables.rows table := by
  cases condition with
  | none =>
      have nothing : (s.tables.rows m.table).filter
          (fun row => !Condition.acceptsOptional none row.entity) = [] :=
        List.filter_eq_nil_iff.mpr fun _ _ => Bool.false_ne_true
      rw [nothing]
      exact s.tables.rows_drop m.table table
  | some condition => exact s.tables.rows_modify m.table table List.filter_nil

end EntityStore
