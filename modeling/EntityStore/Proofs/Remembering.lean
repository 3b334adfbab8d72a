import EntityStore.Proofs.Population

/-!
What is remembered after several entities have been remembered or forgotten.

A snapshot is the entity's properties restricted to the declared fields
(`Metadata.get?_snapshot`).  Of several entities with one id the last is
remembered (`Tracking.snapshot?_saveAll`); forgetting ids leaves the others.
-/

namespace EntityStore

/-! ## Snapshots -/

theorem Metadata.get?_foldl_insert_fields (e : Entity) (property : String) (fields : List Field)
    (acc : Snapshot) :
    ((fields.filterMap fun field =>
        (e.get? field.property).map fun value => (field.property, value)).foldl
      (fun (map : Snapshot) pair => map.insert pair.1 pair.2) acc).get? property =
      if property ∈ fields.map (·.property) ∧ (e.get? property).isSome then e.get? property
      else acc.get? property := by
  induction fields generalizing acc with
  | nil => simp
  | cons field rest ih =>
      cases present : e.get? field.property with
      | none =>
          rw [List.filterMap_cons_none (by rw [present]; rfl), ih]
          by_cases here : property = field.property
          · simp [here, present]
          · simp [here]
      | some value =>
          rw [List.filterMap_cons_some (b := (field.property, value)) (by rw [present]; rfl),
            List.foldl_cons, ih, SortedMap.get?_insert]
          by_cases here : property = field.property
          · simp [here, present]
          · simp [here]

/-- A snapshot has the declared properties that the entity has, and no other. -/
theorem Metadata.get?_snapshot (m : Metadata) (e : Entity) (property : String) :
    (m.snapshot e).get? property =
      if property ∈ m.fields.map (·.property) then e.get? property else none := by
  have inserted := get?_foldl_insert_fields e property m.fields ∅
  rw [SortedMap.get?_empty] at inserted
  refine inserted.trans ?_
  by_cases declared : property ∈ m.fields.map (·.property)
  · cases e.get? property with
    | none => simp
    | some value => simp [declared]
  · rw [if_neg (fun both => declared both.1), if_neg declared]

namespace Tracking

/-! ## Remembering and forgetting several entities -/

/-- Either some of the entities has the table and id, and it is remembered, or
none has, and what is remembered stays. -/
theorem snapshot?_saveAll (t : Tracking) (m : Metadata) (entities : List Entity)
    (table : String) (id : Value) :
    (∃ e ∈ entities, m.idOf? e = some id ∧ m.table = table ∧
        (t.saveAll m entities).snapshot? table id = some (m.snapshot e)) ∨
      (∀ e ∈ entities, ¬(m.idOf? e = some id ∧ m.table = table)) ∧
        (t.saveAll m entities).snapshot? table id = t.snapshot? table id := by
  induction entities generalizing t with
  | nil => exact .inr ⟨nofun, rfl⟩
  | cons first rest ih =>
      rcases ih (t.save m first) with ⟨e, member, same, own, saved⟩ | ⟨others, kept⟩
      · exact .inl ⟨e, List.mem_cons_of_mem _ member, same, own, saved⟩
      · have last : (t.saveAll m (first :: rest)).snapshot? table id =
            (t.save m first).snapshot? table id := kept
        rw [snapshot?_save] at last
        by_cases head : m.idOf? first = some id ∧ m.table = table
        · rw [if_pos head] at last
          exact .inl ⟨first, List.mem_cons_self, head.1, head.2, last⟩
        · rw [if_neg head] at last
          refine .inr ⟨fun e member => ?_, last⟩
          rcases List.mem_cons.mp member with rfl | member
          · exact head
          · exact others e member

theorem snapshot?_forgetAll (t : Tracking) (table table' : String) (ids : List Value)
    (id : Value) :
    (t.forgetAll table ids).snapshot? table' id =
      if table' = table ∧ id ∈ ids then none else t.snapshot? table' id := by
  induction ids generalizing t with
  | nil => simp [forgetAll]
  | cons first rest ih =>
      have forgotten : (t.forgetAll table (first :: rest)).snapshot? table' id =
          ((t.forget table first).forgetAll table rest).snapshot? table' id := rfl
      rw [forgotten, ih, snapshot?_forget]
      by_cases own : table' = table
      · by_cases here : id = first
        · simp [own, here]
        · simp [own, here]
      · simp [own]

/-- Remembering what is remembered already changes nothing. -/
theorem saveAll_eq_self {t : Tracking} {m : Metadata} {entities : List Entity}
    (remembered : ∀ e ∈ entities, ∀ id, m.idOf? e = some id →
      t.snapshot? m.table id = some (m.snapshot e)) : t.saveAll m entities = t := by
  refine Tracking.ext fun table id => ?_
  rcases snapshot?_saveAll t m entities table id with ⟨e, member, same, rfl, saved⟩ | ⟨-, kept⟩
  · exact saved.trans (remembered e member id same).symm
  · exact kept

end Tracking

end EntityStore
