import EntityStore.Proofs.FailedCalls

/-!
Regular tables.

The rows of a regular table have different ids, and every stored entity names its
table and carries no relations.  This holds whatever descriptions the calls use:
new rows are regular among themselves and apart from the ids taken
(`Metadata.newRows_regular`), a row that is written over keeps its id and its
table, and a deletion only takes rows away.
-/

namespace EntityStore

/-- A row whose entity names the table and has no relations. -/
structure Row.Regular (table : String) (row : Row) : Prop where
  own : row.entity.table = table
  plain : row.entity.relations = []

/-- What is handed out of a regular row is what is stored. -/
theorem Row.Regular.withoutRelations {table : String} {row : Row} (regular : row.Regular table) :
    row.entity.withoutRelations = row.entity := by
  have plain := regular.plain
  rcases row with ⟨id, ⟨table', properties, relations⟩⟩
  cases plain
  rfl

/-- Rows with different ids, each of them regular for its table. -/
structure Tables.Regular (t : Tables) : Prop where
  distinct : ∀ table, (t.ids table).Nodup
  rows : ∀ table, ∀ row ∈ t.rows table, row.Regular table

/-! ## Ids that are read -/

theorem Metadata.isTruthy_idOf? {m : Metadata} {e : Entity} {id : Value}
    (identified : m.idOf? e = some id) : id.isTruthy = true :=
  (Entity.reference?_eq_some_iff.mp identified).2

theorem Metadata.get?_of_idOf? {m : Metadata} {e : Entity} {id : Value}
    (identified : m.idOf? e = some id) : e.get? m.idProperty = some id :=
  (Entity.reference?_eq_some_iff.mp identified).1

theorem Metadata.idOf?_of_get? {m : Metadata} {e : Entity} {id : Value}
    (holds : e.get? m.idProperty = some id) (truthy : id.isTruthy = true) :
    m.idOf? e = some id :=
  Entity.reference?_eq_some_iff.mpr ⟨holds, truthy⟩

/-! ## New rows -/

theorem Metadata.newRow_regular {m : Metadata} {form : IdForm} {e : Entity}
    {ids ids' : IdSequence} {row : Row} (own : e.table = m.table)
    (ok : m.newRow form e ids = (.ok row, ids')) :
    row.Regular m.table ∧ row.entity.get? m.idProperty = some row.id := by
  unfold Metadata.newRow at ok
  simp only at ok
  split at ok
  · rename_i id identified
    cases ok
    exact ⟨⟨own, rfl⟩, get?_of_idOf? identified⟩
  · split at ok
    · cases ok
      exact ⟨⟨own, rfl⟩, by simp⟩
    · cases ok

/-- New rows are regular, are stored under the ids that they hold, and differ in
their ids from each other and from those taken. -/
theorem Metadata.newRows_regular {m : Metadata} {form : IdForm} {entities : List Entity} :
    ∀ {taken : List Value} {ids ids' : IdSequence} {rows : List Row},
      taken.Nodup → m.newRows form taken entities ids = (.ok rows, ids') →
      (taken ++ rows.map (·.id)).Nodup ∧
        ∀ row ∈ rows, row.Regular m.table ∧ row.entity.get? m.idProperty = some row.id := by
  induction entities with
  | nil =>
      intro taken ids ids' rows distinct ok
      cases ok
      exact ⟨by simpa using distinct, nofun⟩
  | cons e rest ih =>
      intro taken ids ids' rows distinct ok
      obtain ⟨row, ids₁, others, own, made, free, okRest, rfl⟩ := newRows_cons_of_ok ok
      obtain ⟨distinctRest, regularRest⟩ := ih (List.nodup_cons.mpr ⟨free, distinct⟩) okRest
      have moved : (taken ++ (row :: others).map (·.id)).Perm
          (row.id :: taken ++ others.map (·.id)) := by
        rw [List.map_cons]
        exact List.perm_middle
      refine ⟨moved.nodup_iff.mpr distinctRest, fun other member => ?_⟩
      rcases List.mem_cons.mp member with rfl | member
      · exact newRow_regular own made
      · exact regularRest other member

/-! ## Regular tables stay regular -/

theorem Entity.table_mergeFields (stored e : Entity) (fields : List Field) :
    (stored.mergeFields e fields).table = stored.table := by
  unfold Entity.mergeFields
  induction fields generalizing stored with
  | nil => rfl
  | cons field rest ih =>
      rw [List.foldl_cons, ih]
      unfold Entity.assign
      split <;> rfl

theorem Entity.relations_mergeFields (stored e : Entity) (fields : List Field) :
    (stored.mergeFields e fields).relations = stored.relations := by
  unfold Entity.mergeFields
  induction fields generalizing stored with
  | nil => rfl
  | cons field rest ih =>
      rw [List.foldl_cons, ih]
      unfold Entity.assign
      split <;> rfl

namespace Tables.Regular

variable {t t' : Tables}

theorem empty : (∅ : Tables).Regular :=
  ⟨fun _ => List.nodup_nil, fun _ _ member => (List.not_mem_nil member).elim⟩

theorem of_rows_eq (regular : t.Regular) (same : ∀ table, t'.rows table = t.rows table) :
    t'.Regular := by
  refine ⟨fun table => ?_, fun table row member => ?_⟩
  · unfold ids
    rw [same]
    exact regular.distinct table
  · rw [same] at member
    exact regular.rows table row member

theorem append (regular : t.Regular) {table : String} {added : List Row}
    (distinct : (t.ids table ++ added.map (·.id)).Nodup)
    (regularAdded : ∀ row ∈ added, row.Regular table) : (t.append table added).Regular := by
  refine ⟨fun table' => ?_, fun table' row member => ?_⟩
  · unfold ids
    rw [rows_append]
    by_cases same : table' = table
    · rw [if_pos same, List.map_append]
      exact distinct
    · rw [if_neg same]
      exact regular.distinct table'
  · rw [rows_append] at member
    by_cases same : table' = table
    · subst same
      rw [if_pos rfl] at member
      rcases List.mem_append.mp member with old | new
      · exact regular.rows table' row old
      · exact regularAdded row new
    · rw [if_neg same] at member
      exact regular.rows table' row member

/-- Taking rows away leaves regular tables. -/
theorem of_sublist (regular : t.Regular)
    (fewer : ∀ table, (t'.rows table).Sublist (t.rows table)) : t'.Regular :=
  ⟨fun table => (regular.distinct table).sublist ((fewer table).map _),
    fun table row member => regular.rows table row ((fewer table).subset member)⟩

theorem replace (regular : t.Regular) {table : String} {id : Value} {e : Entity}
    (regularRow : Row.Regular table ⟨id, e⟩) :
    (t.modify table (Row.replace id e)).Regular := by
  refine ⟨fun table' => ?_, fun table' row member => ?_⟩
  · unfold ids
    rw [rows_modify_replace]
    split
    · rename_i same
      subst same
      rw [Row.map_id_replace]
      exact regular.distinct table'
    · exact regular.distinct table'
  · rw [rows_modify_replace] at member
    split at member
    · rename_i same
      subst same
      rcases Row.mem_replace member with old | rfl
      · exact regular.rows table' row old
      · exact regularRow
    · exact regular.rows table' row member

/-- A write keeps tables regular. -/
theorem write (regular : t.Regular) {table : String} {id : Value} {e : Entity}
    (own : e.table = table) (fields : List Field) :
    (t.write table id e fields).tables.Regular := by
  cases found : t.row? table id with
  | some row =>
      rw [write_of_row?_eq_some found]
      have stored := regular.rows table row (Tables.mem_of_row? found)
      refine regular.replace ⟨?_, ?_⟩
      · rw [Entity.table_mergeFields]
        exact stored.own
      · rw [Entity.relations_mergeFields]
        exact stored.plain
  | none =>
      rw [write_of_row?_eq_none found]
      refine regular.append ?_ fun row member => ?_
      · have free : id ∉ t.ids table := row?_eq_none_iff.mp found
        rw [List.map_singleton, List.nodup_append]
        refine ⟨regular.distinct table, List.pairwise_singleton _ id, fun taken old new fresh => ?_⟩
        rw [List.mem_singleton.mp fresh]
        rintro rfl
        exact free old
      · rw [List.mem_singleton.mp member]
        exact ⟨own, rfl⟩

/-- The rows of a regular table are those found by their ids. -/
theorem row?_eq_some_iff (regular : t.Regular) {table : String} {id : Value} {row : Row} :
    t.row? table id = some row ↔ row ∈ t.rows table ∧ row.id = id := by
  constructor
  · intro found
    exact ⟨Tables.mem_of_row? found, Row.id_eq_of_find? found⟩
  · rintro ⟨member, rfl⟩
    exact Row.find?_eq_some_of_mem (regular.distinct table) member

theorem row?_modify_filter (regular : t.Regular) (table table' : String) (keep : Row → Bool)
    (id : Value) :
    (t.modify table (List.filter keep)).row? table' id =
      if table' = table then (t.row? table' id).filter keep else t.row? table' id := by
  have kept : (t.modify table (List.filter keep)).rows table' =
      if table' = table then (t.rows table).filter keep else t.rows table' :=
    t.rows_modify table table' List.filter_nil
  unfold Tables.row?
  rw [kept]
  by_cases own : table' = table
  · subst own
    rw [if_pos rfl, if_pos rfl]
    exact Row.find?_filter (regular.distinct table') keep
  · rw [if_neg own, if_neg own]

end Tables.Regular

end EntityStore
