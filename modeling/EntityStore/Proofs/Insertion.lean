import EntityStore.Proofs.Readability

/-!
What inserting a batch answers.

The rows that a batch becomes can be told beforehand (`Metadata.newcomers`): an entity keeps its id,
and one without an id gets that of its number, where each entity before it that has no id draws one
too.  An entity is refused if it belongs to another table, if its number is too large for an id, or
if its id is taken, by a stored row or by an earlier row of the batch (`Metadata.refusalAt?`).  The
checks are made and the numbers drawn in one pass, but the first refusal of that pass is the first
refusal told beforehand (`Metadata.newRows_eq_error_iff`); only a batch without any is populated, in
a second pass, with all its rows in place (`Session.insertAll_outcome`).
-/

namespace EntityStore

namespace Metadata

variable (m : Metadata) (form : IdForm)

/-! ## The rows of a batch, told beforehand -/

/-- The sequence after entities have been given ids: each that has none draws a number. -/
def drawn (ids : IdSequence) (entities : List Entity) : IdSequence :=
  ⟨ids.count + entities.countP fun e => (m.idOf? e).isNone⟩

/-- The id that a number stands for. -/
def idOfNumber (n : UInt64) : Value :=
  if m.hasNumericIds form then .integer (Int64.ofNat n.toNat) else .text (toString n)

/-- The row that an entity becomes where it is next to draw the number `n`, which it does if it has
no id. -/
def newcomer (n : UInt64) (e : Entity) : Row :=
  match m.idOf? e with
  | some id => ⟨id, e.withoutRelations⟩
  | none => ⟨m.idOfNumber form n, e.withoutRelations.set m.idProperty (m.idOfNumber form n)⟩

/-- The rows that the entities of a batch become, in their order. -/
def newcomers (ids : IdSequence) (entities : List Entity) : List Row :=
  entities.mapIdx fun place e => m.newcomer form (m.drawn ids (entities.take place)).next e

/-- An entity without an id would get a number for one that is too large. -/
def Exhausts (n : UInt64) (e : Entity) : Prop :=
  m.idOf? e = none ∧ m.hasNumericIds form = true ∧ 9223372036854775807 < n.toNat

instance (n : UInt64) (e : Entity) : Decidable (m.Exhausts form n e) :=
  inferInstanceAs (Decidable (_ ∧ _ ∧ _))

/-- Why an entity that is next to draw the number `n` cannot become a row, if it cannot. -/
def refusal? (n : UInt64) (taken : List Value) (e : Entity) : Option Error :=
  if e.table ≠ m.table then some (.tableMismatch m.table e.table)
  else if m.Exhausts form n e then some (.invalidOperation "id sequence exhausted")
  else if (m.newcomer form n e).id ∈ taken then
    some (.duplicateId m.table (m.newcomer form n e).id)
  else none

/-- Why the entity at a place of a batch cannot become a row: the ids taken are those stored and
those of the rows before it. -/
def refusalAt? (ids : IdSequence) (stored : List Value) (entities : List Entity) (place : Nat) :
    Option Error :=
  entities[place]?.bind fun e =>
    let earlier := entities.take place
    m.refusal? form (m.drawn ids earlier).next (stored ++ (m.newcomers form ids earlier).map (·.id))
      e

variable {m form} {ids ids' : IdSequence} {e : Entity} {rest entities : List Entity}
  {stored taken taken' : List Value} {error : Error}

theorem drawn_cons : m.drawn ids (e :: rest) = m.drawn (m.drawn ids [e]) rest := by
  simp only [drawn, List.countP_cons, List.countP_nil, IdSequence.mk.injEq]
  omega

theorem newcomers_cons : m.newcomers form ids (e :: rest) =
    m.newcomer form ids.next e :: m.newcomers form (m.drawn ids [e]) rest := by
  unfold newcomers
  rw [List.mapIdx_cons]
  congr 1
  refine congrArg (rest.mapIdx ·) ?_
  funext place e'
  rw [List.take_succ_cons, drawn_cons]

theorem refusal?_congr (n : UInt64) (e : Entity) (same : ∀ id, id ∈ taken ↔ id ∈ taken') :
    m.refusal? form n taken e = m.refusal? form n taken' e := by
  unfold refusal?
  simp only [same]

theorem refusalAt?_cons_zero :
    m.refusalAt? form ids stored (e :: rest) 0 = m.refusal? form ids.next stored e := by
  simp [refusalAt?, newcomers, drawn]

/-- Behind its first entity a batch is refused as the rest of it is, once the first is stored. -/
theorem refusalAt?_cons_succ (place : Nat) :
    m.refusalAt? form ids stored (e :: rest) (place + 1) =
      m.refusalAt? form (m.drawn ids [e]) ((m.newcomer form ids.next e).id :: stored) rest
        place := by
  unfold refusalAt?
  rw [List.getElem?_cons_succ]
  congr 1
  funext e'
  simp only [List.take_succ_cons, newcomers_cons, List.map_cons]
  rw [drawn_cons]
  refine refusal?_congr _ _ fun id => ?_
  rw [List.cons_append, List.mem_cons, List.mem_append, List.mem_append, List.mem_cons]
  exact or_left_comm

theorem forall_place_cons {P : Nat → Prop} : (∀ place, P place) ↔ P 0 ∧ ∀ place, P (place + 1) :=
  ⟨fun all => ⟨all 0, fun place => all (place + 1)⟩, fun both place => by
    cases place with
    | zero => exact both.1
    | succ place => exact both.2 place⟩

theorem refusal?_eq_none_iff {n : UInt64} :
    m.refusal? form n taken e = none ↔
      e.table = m.table ∧ ¬m.Exhausts form n e ∧ (m.newcomer form n e).id ∉ taken := by
  unfold refusal?
  split
  · rename_i foreign
    simp [foreign]
  · rename_i own
    rw [Decidable.not_not] at own
    split
    · rename_i large
      simp [large]
    · rename_i fits
      split
      · rename_i repeated
        simp [repeated]
      · rename_i free
        simp [own, fits, free]

theorem fits_cons :
    (∀ place e', (e :: rest)[place]? = some e' →
        ¬m.Exhausts form (m.drawn ids ((e :: rest).take place)).next e') ↔
      ¬m.Exhausts form ids.next e ∧
        ∀ place e', rest[place]? = some e' →
          ¬m.Exhausts form (m.drawn (m.drawn ids [e]) (rest.take place)).next e' := by
  rw [forall_place_cons]
  simp only [List.getElem?_cons_succ, List.take_succ_cons]
  refine and_congr ?_ (forall_congr' fun place => ?_)
  · simp [drawn]
  · rw [drawn_cons]

/-- No entity of a batch is refused if all belong to the table, no number is too large, and the ids
are different and not stored. -/
theorem refusalAt?_eq_none_iff :
    (∀ place, m.refusalAt? form ids stored entities place = none) ↔
      (∀ e ∈ entities, e.table = m.table) ∧
        ((m.newcomers form ids entities).map (·.id)).Nodup ∧
        (∀ row ∈ m.newcomers form ids entities, row.id ∉ stored) ∧
        ∀ place e, entities[place]? = some e →
          ¬m.Exhausts form (m.drawn ids (entities.take place)).next e := by
  induction entities generalizing ids stored with
  | nil => simp [refusalAt?, newcomers]
  | cons e rest ih =>
      rw [forall_place_cons, refusalAt?_cons_zero, refusal?_eq_none_iff, fits_cons, newcomers_cons]
      simp only [refusalAt?_cons_succ, ih, List.forall_mem_cons, List.map_cons, List.nodup_cons]
      constructor
      · rintro ⟨⟨own, fits, free⟩, ownRest, distinct, new, fitsRest⟩
        refine ⟨⟨own, ownRest⟩, ⟨fun repeated => ?_, distinct⟩, ⟨free, fun row member => ?_⟩,
          fits, fitsRest⟩
        · obtain ⟨row, member, same⟩ := List.mem_map.mp repeated
          exact List.ne_of_not_mem_cons (new row member) same
        · exact List.not_mem_of_not_mem_cons (new row member)
      · rintro ⟨⟨own, ownRest⟩, ⟨fresh, distinct⟩, ⟨free, new⟩, fits, fitsRest⟩
        refine ⟨⟨own, fits, free⟩, ownRest, distinct, fun row member => ?_, fitsRest⟩
        refine List.not_mem_cons_of_ne_of_not_mem (fun same => ?_) (new row member)
        exact fresh (same ▸ List.mem_map_of_mem member)

/-! ## Drawing numbers and checking in one pass -/

/-- A fresh id is that of its number, unless the number is too large. -/
theorem freshId_eq {n : UInt64} (unidentified : m.idOf? e = none) :
    m.freshId form n =
      if m.Exhausts form n e then .error (.invalidOperation "id sequence exhausted")
      else .ok (m.idOfNumber form n) := by
  have exhausts : m.Exhausts form n e ↔
      m.hasNumericIds form = true ∧ 9223372036854775807 < n.toNat :=
    ⟨And.right, fun large => ⟨unidentified, large⟩⟩
  unfold freshId idOfNumber
  by_cases numeric : m.hasNumericIds form = true
  · rw [if_pos numeric, if_pos numeric]
    by_cases large : 9223372036854775807 < n.toNat
    · have exceeds : ¬fitsInteger n = true := fun fits =>
        Nat.not_le_of_lt large (of_decide_eq_true fits)
      rw [if_neg exceeds, if_pos (exhausts.mpr ⟨numeric, large⟩)]
    · have fits : fitsInteger n = true := decide_eq_true (Nat.le_of_not_lt large)
      rw [if_pos fits, if_neg fun exhausted => large (exhausts.mp exhausted).2]
  · rw [if_neg numeric, if_neg numeric, if_neg fun exhausted => numeric (exhausts.mp exhausted).1]

/-- An entity draws a number if it has no id, whether it can become a row or not. -/
theorem newRow_eq (m : Metadata) (form : IdForm) (e : Entity) (ids : IdSequence) :
    m.newRow form e ids =
      (if m.Exhausts form ids.next e then .error (.invalidOperation "id sequence exhausted")
        else .ok (m.newcomer form ids.next e), m.drawn ids [e]) := by
  unfold newRow
  simp only
  split
  · rename_i id given
    have identified : m.idOf? e = some id := given
    have fits : ¬m.Exhausts form ids.next e := by simp [Exhausts, identified]
    rw [if_neg fits, newcomer, identified]
    simp [drawn, identified]
  · rename_i missing
    have unidentified : m.idOf? e = none := missing
    have advanced : m.drawn ids [e] = ids.advance := by
      simp [drawn, unidentified, IdSequence.advance]
    rw [freshId_eq unidentified, advanced, newcomer, unidentified]
    by_cases large : m.Exhausts form ids.next e
    · rw [if_pos large, if_pos large]
    · rw [if_neg large, if_neg large]

/-- A batch is refused for its first entity, or goes on as a batch for which that one is stored. -/
theorem newRows_cons (m : Metadata) (form : IdForm) (taken : List Value) (e : Entity)
    (rest : List Entity) (ids : IdSequence) :
    (m.newRows form taken (e :: rest) ids).1 =
      match m.refusal? form ids.next taken e with
      | some error => .error error
      | none =>
          (m.newRows form ((m.newcomer form ids.next e).id :: taken) rest (m.drawn ids [e])).1.map
            (m.newcomer form ids.next e :: ·) := by
  rw [newRows, refusal?, newRow_eq]
  by_cases own : e.table = m.table
  · rw [if_neg (Decidable.not_not.mpr own), if_neg (Decidable.not_not.mpr own)]
    by_cases large : m.Exhausts form ids.next e
    · rw [if_pos large, if_pos large]
    · rw [if_neg large, if_neg large]
      by_cases repeated : (m.newcomer form ids.next e).id ∈ taken
      · simp only [if_pos repeated]
      · simp only [if_neg repeated]
        generalize m.newRows form ((m.newcomer form ids.next e).id :: taken) rest
          (m.drawn ids [e]) = outcome
        obtain ⟨result, ids'⟩ := outcome
        cases result with
        | error error => rfl
        | ok rows => rfl
  · rw [if_pos own, if_pos own]

/-- The first refusal of a batch is that of its first entity, or else that of the rest. -/
theorem first_refusal_cons :
    (∃ place, m.refusalAt? form ids taken (e :: rest) place = some error ∧
        ∀ sooner < place, m.refusalAt? form ids taken (e :: rest) sooner = none) ↔
      m.refusal? form ids.next taken e = some error ∨
        m.refusal? form ids.next taken e = none ∧
          ∃ place, m.refusalAt? form (m.drawn ids [e]) ((m.newcomer form ids.next e).id :: taken)
              rest place = some error ∧
            ∀ sooner < place, m.refusalAt? form (m.drawn ids [e])
              ((m.newcomer form ids.next e).id :: taken) rest sooner = none := by
  have zeroth : m.refusal? form ids.next taken e = m.refusalAt? form ids taken (e :: rest) 0 :=
    refusalAt?_cons_zero.symm
  simp only [zeroth, ← refusalAt?_cons_succ]
  constructor
  · rintro ⟨place, refused, accepted⟩
    cases place with
    | zero => exact .inl refused
    | succ place =>
        exact .inr ⟨accepted 0 (Nat.succ_pos _), place, refused,
          fun sooner before => accepted (sooner + 1) (Nat.succ_lt_succ before)⟩
  · rintro (refused | ⟨first, place, refused, accepted⟩)
    · exact ⟨0, refused, nofun⟩
    · refine ⟨place + 1, refused, fun sooner before => ?_⟩
      cases sooner with
      | zero => exact first
      | succ sooner => exact accepted sooner (Nat.lt_of_succ_lt_succ before)

/-- A batch is refused for the first of its entities that is. -/
theorem newRows_eq_error_iff :
    (m.newRows form taken entities ids).1 = .error error ↔
      ∃ place, m.refusalAt? form ids taken entities place = some error ∧
        ∀ sooner < place, m.refusalAt? form ids taken entities sooner = none := by
  induction entities generalizing taken ids with
  | nil => simp [newRows, refusalAt?]
  | cons e rest ih =>
      rw [newRows_cons, first_refusal_cons, ← ih]
      cases m.refusal? form ids.next taken e with
      | some error' => simp
      | none =>
          simp only [reduceCtorEq, true_and, false_or]
          generalize (m.newRows form _ rest _).1 = result
          cases result with
          | error error' => simp [Except.map]
          | ok rows => simp [Except.map]

/-- A batch in which no entity is refused becomes the rows told beforehand. -/
theorem newRows_eq_ok_iff {rows : List Row} :
    (m.newRows form taken entities ids).1 = .ok rows ↔
      rows = m.newcomers form ids entities ∧
        ∀ place, m.refusalAt? form ids taken entities place = none := by
  induction entities generalizing taken ids rows with
  | nil => simp [newRows, refusalAt?, newcomers, eq_comm]
  | cons e rest ih =>
      rw [newRows_cons, forall_place_cons, refusalAt?_cons_zero, newcomers_cons]
      simp only [refusalAt?_cons_succ]
      cases m.refusal? form ids.next taken e with
      | some error' => simp
      | none =>
          cases result : (m.newRows form ((m.newcomer form ids.next e).id :: taken) rest
            (m.drawn ids [e])).1 with
          | error error' =>
              have refused : ¬∀ place, m.refusalAt? form (m.drawn ids [e])
                  ((m.newcomer form ids.next e).id :: taken) rest place = none := by
                intro accepted
                have ok := ih.mpr ⟨rfl, accepted⟩
                rw [result] at ok
                cases ok
              simp [Except.map, refused]
          | ok others =>
              obtain ⟨told, accepted⟩ := ih.mp result
              simp [Except.map, told, accepted, eq_comm]

/-- A batch that is accepted draws a number for each entity without an id. -/
theorem ids_of_newRows {rows : List Row}
    (ok : m.newRows form taken entities ids = (.ok rows, ids')) : ids' = m.drawn ids entities := by
  induction entities generalizing taken ids rows with
  | nil =>
      cases ok
      rfl
  | cons e rest ih =>
      obtain ⟨row, ids₁, others, -, made, -, okRest, -⟩ := newRows_cons_of_ok ok
      rw [newRow_eq] at made
      have advanced : m.drawn ids [e] = ids₁ := congrArg Prod.snd made
      rw [drawn_cons, advanced, ih okRest]

/-! ## Populating in a second pass -/

section Population

variable {registry : Registry} {tables : Tables} {populated : List Entity}

/-- Several entities are populated one by one. -/
theorem populateAll_eq_ok_iff :
    m.populateAll registry tables entities = .ok populated ↔
      entities.map (m.populate registry tables) = populated.map .ok := by
  induction entities generalizing populated with
  | nil => simp [populateAll, eq_comm]
  | cons e rest ih =>
      rw [populateAll, List.map_cons]
      cases populated with
      | nil =>
          split
          · simp
          · split
            · simp
            · simp
      | cons first others =>
          rw [List.map_cons, List.cons.injEq, ← ih]
          cases m.populate registry tables e with
          | error error => simp
          | ok value =>
              cases m.populateAll registry tables rest with
              | error error => simp
              | ok values => simp

theorem exists_map_populate_iff {rows : List Row} :
    (∃ populated : List Entity,
        rows.map (m.populate registry tables ·.entity) = populated.map .ok) ↔
      ∀ row ∈ rows, ∃ populated, m.populate registry tables row.entity = .ok populated := by
  have all := @exists_populateAll_iff registry tables m (rows.map (·.entity))
  simp only [populateAll_eq_ok_iff, List.map_map, List.forall_mem_map] at all
  exact all

/-- Populating several rows fails on the first of them that cannot be populated. -/
theorem populateAll_eq_error_iff {rows : List Row} :
    m.populateAll registry tables (rows.map (·.entity)) = .error error ↔
      ∃ before row after, rows = before ++ row :: after ∧
        m.populate registry tables row.entity = .error error ∧
        ∀ row' ∈ before, ∃ populated, m.populate registry tables row'.entity = .ok populated := by
  induction rows with
  | nil => simp [populateAll]
  | cons first rest ih =>
      rw [exists_first_cons, ← ih, List.map_cons, populateAll]
      cases m.populate registry tables first.entity with
      | error error' => simp
      | ok value =>
          cases m.populateAll registry tables (rest.map (·.entity)) with
          | error error' => simp
          | ok values => simp

end Population

end Metadata

/-! ## The outcome of a batch -/

namespace Store

variable {s : Store} {m : Metadata} {entities : List Entity} {ids : IdSequence}

theorem insertAll_fst (s : Store) (m : Metadata) (entities : List Entity) (ids : IdSequence) :
    (s.insertAll m entities ids).1 =
      match (m.newRows s.idForm (s.tables.ids m.table) entities ids).1 with
      | .error error => .error error
      | .ok rows =>
          m.populateAll s.registry (s.tables.append m.table rows) (rows.map (·.entity)) := by
  unfold insertAll
  generalize m.newRows s.idForm (s.tables.ids m.table) entities ids = outcome
  obtain ⟨result, ids'⟩ := outcome
  cases result with
  | error error => rfl
  | ok rows =>
      simp only [handOutAdded, populateAll]
      generalize m.populateAll s.registry (s.tables.append m.table rows) (rows.map (·.entity)) =
        filled
      cases filled with
      | error error => rfl
      | ok added => rfl

theorem accepted_iff :
    (∀ place, m.refusalAt? s.idForm ids (s.tables.ids m.table) entities place = none) ↔
      (m.newRows s.idForm (s.tables.ids m.table) entities ids).1 =
        .ok (m.newcomers s.idForm ids entities) :=
  ⟨fun accepted => Metadata.newRows_eq_ok_iff.mpr ⟨rfl, accepted⟩,
    fun made => (Metadata.newRows_eq_ok_iff.mp made).2⟩

/-- A batch succeeds if none of its entities is refused and all its rows can be populated. -/
theorem insertAll_eq_ok_iff {added : List Entity} :
    let new := m.newcomers s.idForm ids entities
    (s.insertAll m entities ids).1 = .ok added ↔
      (∀ place, m.refusalAt? s.idForm ids (s.tables.ids m.table) entities place = none) ∧
        new.map (m.populate s.registry (s.tables.append m.table new) ·.entity) =
          added.map .ok := by
  intro new
  rw [insertAll_fst, accepted_iff]
  cases made : (m.newRows s.idForm (s.tables.ids m.table) entities ids).1 with
  | error error => simp
  | ok rows =>
      obtain ⟨rfl, -⟩ := Metadata.newRows_eq_ok_iff.mp made
      simp only [true_and, Metadata.populateAll_eq_ok_iff, List.map_map]
      rfl

/-- A batch fails on the first of its entities that is refused, and if none is, on the first of its
rows that cannot be populated. -/
theorem insertAll_eq_error_iff {error : Error} :
    let new := m.newcomers s.idForm ids entities
    let refusal := m.refusalAt? s.idForm ids (s.tables.ids m.table) entities
    let populate := m.populate s.registry (s.tables.append m.table new)
    (s.insertAll m entities ids).1 = .error error ↔
      (∃ place, refusal place = some error ∧ ∀ sooner < place, refusal sooner = none) ∨
        (∀ place, refusal place = none) ∧
          ∃ before row after, new = before ++ row :: after ∧
            populate row.entity = .error error ∧
            ∀ row' ∈ before, ∃ populated, populate row'.entity = .ok populated := by
  intro new refusal populate
  rw [insertAll_fst, accepted_iff, ← Metadata.newRows_eq_error_iff]
  cases made : (m.newRows s.idForm (s.tables.ids m.table) entities ids).1 with
  | error error' => simp
  | ok rows =>
      obtain ⟨rfl, -⟩ := Metadata.newRows_eq_ok_iff.mp made
      simp only [reduceCtorEq, false_or, true_and]
      exact Metadata.populateAll_eq_error_iff

/-- A batch that succeeds draws its numbers and adds its rows behind those of the table. -/
theorem insertAll_snd_of_ok {added : List Entity}
    (ok : (s.insertAll m entities ids).1 = .ok added) :
    (s.insertAll m entities ids).2.1.tables =
        s.tables.append m.table (m.newcomers s.idForm ids entities) ∧
      (s.insertAll m entities ids).2.2 = m.drawn ids entities := by
  obtain ⟨rows, ids', made, -, after⟩ := insertAll_of_ok ok
  obtain ⟨told, -⟩ := Metadata.newRows_eq_ok_iff.mp (congrArg Prod.fst made)
  rw [after, ← told, ← Metadata.ids_of_newRows made]
  exact ⟨rfl, rfl⟩

end Store

namespace Session

/-- A batch is stored as told beforehand, or refused for one entity.

It succeeds if and only if all entities belong to the table, the ids of the new rows are different
and not stored, no number drawn is too large for an id, and every new row can be populated from the
rows there are with the new ones.  Then the new rows come behind the others of the table, and what
is handed out are the populated entities, in their order.  Otherwise the error is that of the first
entity refused, and only if none is, that of the first new row that cannot be populated. -/
theorem insertAll_outcome (c : Session) (m : Metadata) (entities : List Entity) :
    let outcome := c.step (.insertAll m entities)
    let form := c.store.idForm
    let tables := c.store.tables
    let new := m.newcomers form c.ids entities
    let refusal := m.refusalAt? form c.ids (tables.ids m.table) entities
    let populate := m.populate c.store.registry (tables.append m.table new)
    ((∃ added, outcome.1 = .ok (.entities added)) ↔
      (∀ e ∈ entities, e.table = m.table) ∧
        (new.map (·.id)).Nodup ∧ (∀ row ∈ new, row.id ∉ tables.ids m.table) ∧
        (∀ place e, entities[place]? = some e →
          ¬m.Exhausts form (m.drawn c.ids (entities.take place)).next e) ∧
        ∀ row ∈ new, ∃ populated, populate row.entity = .ok populated) ∧
      (∀ added, outcome.1 = .ok (.entities added) →
        new.map (populate ·.entity) = added.map .ok ∧
          outcome.2.ids = m.drawn c.ids entities ∧
          ∀ table, outcome.2.store.tables.rows table =
            if table = m.table then tables.rows m.table ++ new else tables.rows table) ∧
      ∀ error, outcome.1 = .error error ↔
        (∃ place, refusal place = some error ∧ ∀ sooner < place, refusal sooner = none) ∨
          (∀ place, refusal place = none) ∧
            ∃ before row after, new = before ++ row :: after ∧
              populate row.entity = .error error ∧
              ∀ row' ∈ before, ∃ populated, populate row'.entity = .ok populated := by
  intro outcome form tables new refusal populate
  have answer : outcome.1 = (c.store.insertAll m entities c.ids).1.map .entities := rfl
  have succeeds : ∀ {added}, outcome.1 = .ok (.entities added) ↔
      (c.store.insertAll m entities c.ids).1 = .ok added := by
    intro added
    rw [answer]
    cases (c.store.insertAll m entities c.ids).1 with
    | error error => simp [Except.map]
    | ok populated => simp [Except.map]
  have fails : ∀ {error}, outcome.1 = .error error ↔
      (c.store.insertAll m entities c.ids).1 = .error error := by
    intro error
    rw [answer]
    cases (c.store.insertAll m entities c.ids).1 with
    | error error' => simp [Except.map]
    | ok populated => simp [Except.map]
  refine ⟨?_, fun added ok => ?_, fun error => fails.trans Store.insertAll_eq_error_iff⟩
  · have accepted : (∀ place, refusal place = none) ↔ _ := Metadata.refusalAt?_eq_none_iff
    simp only [succeeds, Store.insertAll_eq_ok_iff, exists_and_left]
    rw [Metadata.exists_map_populate_iff, accepted]
    simp only [and_assoc]
    rfl
  · obtain ⟨-, populated⟩ := Store.insertAll_eq_ok_iff.mp (succeeds.mp ok)
    obtain ⟨rows, numbers⟩ := Store.insertAll_snd_of_ok (succeeds.mp ok)
    refine ⟨populated, numbers, fun table => ?_⟩
    have after : outcome.2.store.tables = tables.append m.table new := rows
    rw [after, Tables.rows_append]

/-- A user without an id gets the number 1, so that a user who has it as his id cannot come after
him; one with another id can. -/
theorem insertAll_outcome_samples :
    let c := (start .text .start).run Samples.calls
    let fresh := Samples.user "Bo" "Oulu" 20
    let batch (id : String) := [fresh, Samples.userOf id "c1"]
    (c.step (.insertAll Samples.users (batch "1"))).1 = .error (.duplicateId "users" "1") ∧
      ∃ added, (c.step (.insertAll Samples.users (batch "2"))).1 = .ok (.entities added) ∧
        (c.step (.insertAll Samples.users (batch "2"))).2.store.tables.rows "users" =
          [⟨"u1", Samples.userOf "u1" "c1"⟩, ⟨"1", fresh.set "id" "1"⟩,
            ⟨"2", Samples.userOf "2" "c1"⟩] := by
  intro c fresh batch
  obtain ⟨-, -, fails⟩ := insertAll_outcome c Samples.users (batch "1")
  obtain ⟨succeeds, stored, -⟩ := insertAll_outcome c Samples.users (batch "2")
  have refused : (c.step (.insertAll Samples.users (batch "1"))).1 =
      .error (.duplicateId "users" "1") :=
    (fails _).mpr (.inl ⟨1, by decide +kernel, by decide +kernel⟩)
  let new := Samples.users.newcomers .text c.ids (batch "2")
  let extended := c.store.tables.append "users" new
  have sound : ∀ row ∈ new,
      Samples.users.fault? c.store.registry extended.stores row.entity = none := by decide +kernel
  have numbered : ∀ place e, (batch "2")[place]? = some e → ¬Samples.users.Exhausts .text
      (Samples.users.drawn c.ids ((batch "2").take place)).next e :=
    fun _ _ _ large => Bool.false_ne_true large.2.1
  obtain ⟨added, ok⟩ := succeeds.mpr ⟨by decide +kernel, by decide +kernel, by decide +kernel,
    numbered, fun row member => Metadata.exists_populate_iff.mpr (sound row member)⟩
  exact ⟨refused, added, ok, ((stored added ok).2.2 "users").trans (by decide +kernel)⟩

end Session

end EntityStore
