import EntityStore.Proofs.Mirroring

/-!
The two directions of a relation.

A relation to many and one to one that lead to each other by the same column agree: a
row stands under the first exactly if the second, from that row, leads back
(`Session.mem_relatedMany_iff`).  The one looks for rows by the reference that they
hold, the other looks the reference up among the ids.  They meet because a stored
entity holds its id as its id property and no other row of its table has that id
(`Tracking.Mirrors`), and because the description that a relation finds registered is
the one by which its table is used (`Registry.Keeps`).  A row under an id that is not
truthy is found from neither side.
-/

namespace EntityStore

/-! ## What stands under a relation -/

section FillIn

variable {ρ : Type} {name : ρ → String} {find : ρ → Entity → Except Error (Related Entity)}

/-- What stands under other names stays. -/
theorem Entity.relation?_fillIn_of_not_mem {relations : List ρ} {e filled : Entity}
    {other : String} (absent : other ∉ relations.map name)
    (ok : e.fillIn name find relations = .ok filled) :
    filled.relation? other = e.relation? other := by
  induction relations generalizing e with
  | nil =>
      cases ok
      rfl
  | cons relation relations ih =>
      rw [List.map_cons, List.mem_cons, not_or] at absent
      rw [fillIn] at ok
      split at ok
      · cases ok
      · rw [ih absent.2 ok, relation?_setRelation, if_neg absent.1]

/-- Under each of several different names stands what is found for its relation, provided that
nothing is found by looking at relations. -/
theorem Entity.relation?_fillIn {relations : List ρ} {e filled : Entity}
    (distinct : (relations.map name).Nodup)
    (plain : ∀ relation e other related, find relation (setRelation e other related) =
      find relation e)
    {relation : ρ} (member : relation ∈ relations)
    (ok : e.fillIn name find relations = .ok filled) :
    ∃ found, find relation e = .ok found ∧ filled.relation? (name relation) = some found := by
  induction relations generalizing e with
  | nil => cases member
  | cons first relations ih =>
      rw [List.map_cons, List.nodup_cons] at distinct
      rw [fillIn] at ok
      split at ok
      · cases ok
      · rename_i found here
        rcases List.mem_cons.mp member with rfl | member
        · refine ⟨found, here, ?_⟩
          rw [relation?_fillIn_of_not_mem distinct.1 ok, relation?_setRelation, if_pos rfl]
        · obtain ⟨later, there, stands⟩ := ih distinct.2 member ok
          rw [plain] at there
          exact ⟨later, there, stands⟩

end FillIn

namespace Metadata

/-- The names of all relations. -/
def relationNames (m : Metadata) : List String :=
  m.oneToMany.map (·.property) ++ m.manyToOne.map (·.property)

variable {registry : Registry} {tables : Tables} {m : Metadata} {e populated : Entity}

/-- Population fills in relations to many and then relations to one. -/
theorem exists_of_populate (ok : m.populate registry tables e = .ok populated) :
    ∃ between, m.populateMany registry tables m.oneToMany e = .ok between ∧
      m.populateOne registry tables m.manyToOne between = .ok populated := by
  unfold populate at ok
  split at ok
  · cases ok
  · rename_i between filled
    exact ⟨between, filled, ok⟩

/-- A relation to many of a populated entity. -/
theorem relation?_populate_many (names : m.relationNames.Nodup) {many : OneToMany}
    (declared : many ∈ m.oneToMany) (ok : m.populate registry tables e = .ok populated) :
    ∃ related, many.related registry tables m e = .ok related ∧
      populated.relation? many.property = some related := by
  obtain ⟨between, okMany, okOne⟩ := exists_of_populate ok
  obtain ⟨namesMany, -, apart⟩ := List.nodup_append.mp names
  rw [populateMany_eq_fillIn] at okMany
  rw [populateOne_eq_fillIn] at okOne
  obtain ⟨related, found, stands⟩ :=
    Entity.relation?_fillIn namesMany (fun _ _ _ _ => rfl) declared okMany
  refine ⟨related, found, ?_⟩
  rw [Entity.relation?_fillIn_of_not_mem _ okOne, stands]
  exact fun other => apart _ (List.mem_map_of_mem declared) _ other rfl

/-- A relation to one of a populated entity. -/
theorem relation?_populate_one (names : m.relationNames.Nodup) {one : ManyToOne}
    (declared : one ∈ m.manyToOne) (ok : m.populate registry tables e = .ok populated) :
    ∃ related, one.related registry tables m e = .ok related ∧
      populated.relation? one.property = some related := by
  obtain ⟨between, okMany, okOne⟩ := exists_of_populate ok
  obtain ⟨-, namesOne, -⟩ := List.nodup_append.mp names
  have same := withoutRelations_populateMany okMany
  have alike : one.related registry tables m between = one.related registry tables m e := by
    unfold ManyToOne.related Entity.reference?
    simp only [Entity.get?_eq_of_withoutRelations same]
  rw [populateOne_eq_fillIn] at okOne
  rw [← alike]
  exact Entity.relation?_fillIn namesOne (fun _ _ _ _ => rfl) declared okOne

end Metadata

/-! ## The reference behind a relation -/

section ForeignKey

variable {registry : Registry} {m : Metadata}

theorem Registry.metadataOf?_of_linked {property mappedTable : String} {other : Metadata}
    (linked : registry.linked m property mappedTable = .ok other) :
    registry.metadataOf? mappedTable = some other := by
  rw [Registry.linked] at linked
  split at linked
  · cases linked
  · split at linked
    · rename_i found
      cases linked
      exact found
    · cases linked

theorem OneToMany.exists_of_foreignKey {many : OneToMany} {property : String}
    (ok : many.foreignKey registry m = .ok property) :
    ∃ other column, registry.metadataOf? many.mappedTable = some other ∧
      other.joinColumn? many.mappedBy = some column ∧ other.propertyOf? column = some property := by
  unfold foreignKey at ok
  split at ok
  · cases ok
  · rename_i other linked
    split at ok
    · cases ok
    · rename_i column joined
      split at ok
      · cases ok
      · rename_i found
        cases ok
        exact ⟨other, column, Registry.metadataOf?_of_linked linked, joined, found⟩

theorem ManyToOne.propertyOf?_of_foreignKey {one : ManyToOne} {property : String}
    (ok : one.foreignKey registry m = .ok property) :
    m.propertyOf? one.joinColumn = some property := by
  unfold foreignKey at ok
  split at ok
  · cases ok
  · split at ok
    · cases ok
    · rename_i found
      cases ok
      exact found

/-- A name that is no field stands for the join column of the relation to one of that name. -/
theorem Metadata.joinColumn?_of_manyToOne (names : m.relationNames.Nodup) {one : ManyToOne}
    (declared : one ∈ m.manyToOne) (noField : one.property ∉ m.fields.map (·.property)) :
    m.joinColumn? one.property = some one.joinColumn := by
  have noColumn : m.columnOf? one.property = none := by
    rw [columnOf?, fieldOf?, Option.map_eq_none_iff, List.find?_eq_none]
    intro field member same
    exact noField (List.mem_map.mpr ⟨field, member, by simpa using same⟩)
  have namesOne := (List.nodup_append.mp names).2.1
  have first : m.manyToOne.find? (·.property == one.property) = some one :=
    find?_eq_some_of_distinct namesOne declared
  rw [joinColumn?, noColumn, first]
  rfl

end ForeignKey

/-! ## Registered descriptions -/

/-- What is registered for a table is the description given for it. -/
def Registry.Keeps (describe : String → Metadata) (registry : Registry) : Prop :=
  ∀ table m, registry.metadataOf? table = some m → m.table = table ∧ describe table = m

/-- The description that a call registers. -/
def Operation.registered? : Operation → Option Metadata
  | .register m => some m
  | _ => none

/-- The call uses its table by the description given for the table, and registers no other. -/
structure Operation.Keeps (describe : String → Metadata) (operation : Operation) : Prop where
  follows : operation.Follows describe
  registers : ∀ m, operation.registered? = some m → describe m.table = m

instance (describe : String → Metadata) (operation : Operation) :
    Decidable (operation.Keeps describe) :=
  decidable_of_iff (operation.Follows describe ∧ ∀ m ∈ operation.registered?, describe m.table = m)
    ⟨fun both => ⟨both.1, both.2⟩, fun keeps => ⟨keeps.follows, keeps.registers⟩⟩

theorem Registry.Keeps.register {describe : String → Metadata} {registry : Registry}
    (keeps : registry.Keeps describe) {m : Metadata} (given : describe m.table = m) :
    (registry.register m).Keeps describe := by
  intro table other found
  rw [metadataOf?_register] at found
  split at found
  case isTrue same =>
    cases found
    rw [same]
    exact ⟨rfl, given⟩
  case isFalse => exact keeps table other found

namespace Store

variable (s : Store) (m : Metadata)

theorem registry_findAll (condition : Option Condition) (sorting : Option Sorting) :
    (s.findAll m condition sorting).2.registry = s.registry := by
  simp only [findAll]
  split <;> rfl

theorem registry_findBy (condition : Condition) (sorting : Option Sorting) :
    (s.findBy m condition sorting).2.registry = s.registry := by
  simp only [findBy]
  split
  · rfl
  · split <;> rfl

theorem registry_insertAll (entities : List Entity) (ids : IdSequence) :
    (s.insertAll m entities ids).2.1.registry = s.registry := by
  unfold insertAll
  split
  · rfl
  · simp only [handOutAdded]
    generalize populateAll _ m _ = filled
    rcases filled with error | added <;> rfl

theorem registry_update (e : Entity) : (s.update m e).2.registry = s.registry := by
  unfold update
  split
  · rfl
  split
  · rfl
  split
  · rfl
  split
  · rw [refetch_snd, registry_findBy]
  · simp only [writeChanges]
    split <;> rfl

theorem registry_delete (condition : Option Condition) :
    (s.delete m condition).registry = s.registry := by
  cases condition <;> rfl

end Store

namespace Session

variable {describe : String → Metadata} {c : Session}

/-- Registrations that keep to the descriptions leave the registry doing so, and nothing
else adds to it. -/
theorem step_keeps (kept : c.store.registry.Keeps describe) {operation : Operation}
    (keeps : operation.Keeps describe) : (c.step operation).2.store.registry.Keeps describe := by
  cases operation with
  | register m => exact kept.register (keeps.registers m rfl)
  | destroy => exact fun _ _ found => by cases found
  | count m condition => exact kept
  | hasMatch m condition => exact kept
  | findAll m condition sorting =>
      show (c.store.findAll m condition sorting).2.registry.Keeps describe
      rwa [Store.registry_findAll]
  | findBy m condition sorting =>
      show (c.store.findBy m condition sorting).2.registry.Keeps describe
      rwa [Store.registry_findBy]
  | insert m e =>
      show (c.store.insert m e c.ids).2.1.registry.Keeps describe
      rwa [Store.insert_snd, Store.registry_insertAll]
  | insertAll m entities =>
      show (c.store.insertAll m entities c.ids).2.1.registry.Keeps describe
      rwa [Store.registry_insertAll]
  | update m e =>
      show (c.store.update m e).2.registry.Keeps describe
      rwa [Store.registry_update]
  | delete m condition =>
      show (c.store.delete m condition).registry.Keeps describe
      rwa [Store.registry_delete]

/-- After every run in which tables are used by and registered with the same descriptions, what
is registered for a table is the description given for it. -/
theorem run_keeps (idForm : IdForm) (ids : IdSequence) {operations : List Operation}
    (keeps : ∀ operation ∈ operations, operation.Keeps describe) :
    ((start idForm ids).run operations).store.registry.Keeps describe := by
  apply run_invariant (fun c => c.store.registry.Keeps describe)
  · exact fun _ kept operation member => step_keeps kept (keeps operation member)
  · exact fun _ _ found => by cases found

end Session

/-! ## The two directions -/

/-- A relation of one table to many of another, and the relation to one by which these lead
back. -/
structure Metadata.TwoWay (owner mapped : Metadata) (many : OneToMany) (one : ManyToOne) :
    Prop where
  ownerNames : owner.relationNames.Nodup
  mappedNames : mapped.relationNames.Nodup
  declaredMany : many ∈ owner.oneToMany
  declaredOne : one ∈ mapped.manyToOne
  leadsThere : many.mappedTable = mapped.table
  leadsBack : one.mappedTable = owner.table
  mappedBy : many.mappedBy = one.property
  noField : one.property ∉ mapped.fields.map (·.property)

/-- Entities that hold the different ids of their rows are different. -/
theorem Row.nodup_entities {m : Metadata} {rows : List Row} (distinct : (rows.map (·.id)).Nodup)
    (holdsId : ∀ row ∈ rows, row.entity.get? m.idProperty = some row.id) :
    (rows.map (·.entity)).Nodup := by
  have pairs : rows.Pairwise fun a b => a.id ≠ b.id := List.pairwise_map.mp distinct
  apply List.pairwise_map.mpr
  apply pairs.imp_of_mem
  intro a b memberA memberB differ same
  have ids := holdsId a memberA
  rw [same, holdsId b memberB] at ids
  exact differ (Option.some.inj ids).symm

/-- Rows refer to an entity that holds an id exactly if they have a reference to the id. -/
theorem OneToMany.referring_idOf? {m : Metadata} {e : Entity} {id : Value}
    (holds : e.get? m.idProperty = some id) (tables : Tables) (table property : String) :
    referring tables table property (m.idOf? e) =
      ((tables.rows table).filter fun row => row.entity.reference? property == some id).map
        (·.entity.withoutRelations) := by
  by_cases truthy : id.isTruthy = true
  · rw [Metadata.idOf?_of_get? holds truthy, referring]
    refine congrArg (List.map _) (List.filter_congr fun row _ => ?_)
    rw [Bool.eq_iff_iff, beq_iff_eq, beq_iff_eq, Entity.reference?_eq_some_iff]
    exact ⟨fun refers => ⟨refers, truthy⟩, And.left⟩
  · have anonymous : m.idOf? e = none := by
      refine Option.eq_none_iff_forall_ne_some.mpr fun id' identified => ?_
      cases holds.symm.trans (Metadata.get?_of_idOf? identified)
      exact truthy (Metadata.isTruthy_idOf? identified)
    have unreferred : ∀ row ∈ tables.rows table,
        ¬(row.entity.reference? property == some id) = true := by
      intro row _ refers
      exact truthy (Entity.reference?_eq_some_iff.mp (beq_iff_eq.mp refers)).2
    rw [anonymous, referring, List.filter_eq_nil_iff.mpr unreferred, List.map_nil]

/-- A reference is one to a stored row exactly if looking it up finds the row. -/
theorem Tracking.Mirrors.refers_iff {describe : String → Metadata} {tracking : Tracking}
    {tables : Tables} (mirrors : tracking.Mirrors describe tables) {table : String} {u : Row}
    (stored : u ∈ tables.rows table) (e : Entity) (property : String) :
    e.reference? property = some u.id ↔
      ((e.reference? property).bind (tables.row? table)).map (·.entity.withoutRelations) =
        some u.entity := by
  have holds := mirrors.holdsId table u stored
  constructor
  · intro reference
    rw [reference, Option.bind_some, mirrors.regular.row?_eq_some_iff.mpr ⟨stored, rfl⟩,
      Option.map_some, (mirrors.regular.rows table u stored).withoutRelations]
  · intro found
    obtain ⟨row, reached, same⟩ := Option.map_eq_some_iff.mp found
    obtain ⟨id, reference, here⟩ := Option.bind_eq_some_iff.mp reached
    obtain ⟨storedRow, rowId⟩ := mirrors.regular.row?_eq_some_iff.mp here
    have holdsRow := mirrors.holdsId table row storedRow
    rw [← (mirrors.regular.rows table row storedRow).withoutRelations, same, holds] at holdsRow
    rw [reference, ← rowId, Option.some.inj holdsRow]

namespace Metadata.TwoWay

variable {describe : String → Metadata} {registry : Registry} {tables : Tables}
  {owner mapped : Metadata} {many : OneToMany} {one : ManyToOne} {e populated : Entity}

/-- Under the relation to many stand the rows that refer to the id. -/
theorem relatedMany_eq (twoWay : owner.TwoWay mapped many one) (keeps : registry.Keeps describe)
    (given : describe mapped.table = mapped) {id : Value}
    (holds : e.get? owner.idProperty = some id)
    (ok : owner.populate registry tables e = .ok populated) :
    ∃ property, mapped.propertyOf? one.joinColumn = some property ∧
      populated.relatedMany many.property =
        ((tables.rows mapped.table).filter fun row =>
          row.entity.reference? property == some id).map (·.entity.withoutRelations) := by
  obtain ⟨related, found, stands⟩ :=
    relation?_populate_many twoWay.ownerNames twoWay.declaredMany ok
  unfold OneToMany.related at found
  split at found
  · cases found
  · rename_i property key
    cases found
    obtain ⟨other, column, registered, joined, named⟩ := many.exists_of_foreignKey key
    have isMapped : other = mapped := by
      rw [← (keeps _ _ registered).2, twoWay.leadsThere, given]
    rw [isMapped, twoWay.mappedBy,
      joinColumn?_of_manyToOne twoWay.mappedNames twoWay.declaredOne twoWay.noField] at joined
    cases joined
    rw [isMapped] at named
    refine ⟨property, named, ?_⟩
    rw [Entity.relatedMany, stands, ← twoWay.leadsThere]
    exact OneToMany.referring_idOf? holds tables many.mappedTable property

/-- Under the relation to one stands the row whose id equals the reference. -/
theorem relatedOne?_eq (twoWay : owner.TwoWay mapped many one)
    (ok : mapped.populate registry tables e = .ok populated) :
    ∃ property, mapped.propertyOf? one.joinColumn = some property ∧
      populated.relatedOne? one.property =
        ((e.reference? property).bind (tables.row? owner.table)).map
          (·.entity.withoutRelations) := by
  obtain ⟨related, found, stands⟩ :=
    relation?_populate_one twoWay.mappedNames twoWay.declaredOne ok
  unfold ManyToOne.related at found
  split at found
  · cases found
  · rename_i property key
    refine ⟨property, one.propertyOf?_of_foreignKey key, ?_⟩
    split at found
    · cases found
    · rename_i target reached
      cases found
      rw [Entity.relatedOne?, stands]
      simp only
      unfold ManyToOne.target at reached
      rw [twoWay.leadsBack] at reached
      split at reached
      · rename_i noReference
        cases reached
        rw [noReference]
        rfl
      · rename_i id reference
        rw [reference, Option.bind_some]
        split at reached
        · rename_i row stored
          cases reached
          rw [stored]
          rfl
        · cases reached

end Metadata.TwoWay

namespace Session

/-- After every run in which tables are used by and registered with the same descriptions, the
two directions of a relation agree: among the many of a stored row stand, once each and in the
order of their table, the rows whose one leads back to it. -/
theorem mem_relatedMany_iff (describe : String → Metadata) (idForm : IdForm) (ids : IdSequence)
    (operations : List Operation) (keeps : ∀ operation ∈ operations, operation.Keeps describe)
    {owner mapped : Metadata} (ownerGiven : describe owner.table = owner)
    (mappedGiven : describe mapped.table = mapped) {many : OneToMany} {one : ManyToOne}
    (twoWay : owner.TwoWay mapped many one) :
    let store := ((start idForm ids).run operations).store
    ∀ u ∈ store.tables.rows owner.table, ∀ populated,
      store.populate owner u.entity = .ok populated →
        (populated.relatedMany many.property).Sublist
            ((store.tables.rows mapped.table).map (·.entity)) ∧
          (populated.relatedMany many.property).Nodup ∧
          (∀ e ∈ populated.relatedMany many.property, e.relations = []) ∧
          ∀ c ∈ store.tables.rows mapped.table, ∀ populated',
            store.populate mapped c.entity = .ok populated' →
              (c.entity ∈ populated.relatedMany many.property ↔
                populated'.relatedOne? one.property = some u.entity) := by
  intro store u isOwner populated ok
  have mirrors : store.tracking.Mirrors describe store.tables :=
    run_mirrors idForm ids fun operation member => (keeps operation member).follows
  have registered : store.registry.Keeps describe := run_keeps idForm ids keeps
  have holds := mirrors.holdsId owner.table u isOwner
  rw [ownerGiven] at holds
  have holdsMapped := mirrors.holdsId mapped.table
  rw [mappedGiven] at holdsMapped
  have regular := mirrors.regular.rows mapped.table
  obtain ⟨property, named, listed⟩ := twoWay.relatedMany_eq registered mappedGiven holds ok
  have many_eq : populated.relatedMany many.property =
      ((store.tables.rows mapped.table).filter fun row =>
        row.entity.reference? property == some u.id).map (·.entity) := by
    rw [listed]
    apply List.map_congr_left
    exact fun row member => (regular row (List.mem_filter.mp member).1).withoutRelations
  have inOrder : (populated.relatedMany many.property).Sublist
      ((store.tables.rows mapped.table).map (·.entity)) := by
    rw [many_eq]
    exact List.filter_sublist.map _
  refine ⟨inOrder, ?_, ?_, ?_⟩
  · have distinct := Row.nodup_entities (mirrors.regular.distinct mapped.table) holdsMapped
    exact distinct.sublist inOrder
  · intro e member
    rcases List.mem_map.mp (inOrder.subset member) with ⟨row, isRow, rfl⟩
    exact (regular row isRow).plain
  · intro c isMapped populated' ok'
    obtain ⟨property', named', target⟩ := twoWay.relatedOne?_eq ok'
    cases named.symm.trans named'
    rw [target, ← mirrors.refers_iff isOwner, many_eq, List.mem_map]
    constructor
    · rintro ⟨row, member, same⟩
      rw [← same]
      simpa using (List.mem_filter.mp member).2
    · intro refers
      exact ⟨c, List.mem_filter.mpr ⟨isMapped, by simpa using refers⟩, rfl⟩

/-- A user has two of three carts; the last of these leads back to him. -/
theorem mem_relatedMany_iff_samples :
    let cart (id user : String) : Entity := (Samples.cart user "groceries" 20).set "id" id
    let calls := Samples.calls ++
      [.insert Samples.users (Samples.userOf "u2" "c1"),
        .insertAll Samples.carts [cart "k1" "u1", cart "k2" "u2", cart "k3" "u1"]]
    let store := ((start .text .start).run calls).store
    (∀ operation ∈ calls, operation.Keeps Samples.describe) ∧
      Samples.users.TwoWay Samples.carts ⟨"carts", "user", "carts"⟩ ⟨"user", "user_id", "users"⟩ ∧
      ∃ populated populated',
        store.populate Samples.users (Samples.userOf "u1" "c1") = .ok populated ∧
        store.populate Samples.carts (cart "k3" "u1") = .ok populated' ∧
        populated'.relatedOne? "user" = some (Samples.userOf "u1" "c1") ∧
        cart "k3" "u1" ∈ populated.relatedMany "carts" := by
  intro cart calls store
  have keeps : ∀ operation ∈ calls, operation.Keeps Samples.describe := by decide
  have twoWay : Samples.users.TwoWay Samples.carts ⟨"carts", "user", "carts"⟩
      ⟨"user", "user_id", "users"⟩ := by
    constructor <;> decide
  have users : store.tables.rows "users" =
      [⟨"u1", Samples.userOf "u1" "c1"⟩, ⟨"u2", Samples.userOf "u2" "c1"⟩] := by rfl
  have carts : store.tables.rows "carts" =
      [⟨"k1", cart "k1" "u1"⟩, ⟨"k2", cart "k2" "u2"⟩, ⟨"k3", cart "k3" "u1"⟩] := by rfl
  have isUser : ⟨"u1", Samples.userOf "u1" "c1"⟩ ∈ store.tables.rows "users" := by simp [users]
  have isCart : ⟨"k3", cart "k3" "u1"⟩ ∈ store.tables.rows "carts" := by simp [carts]
  let user := (Samples.userOf "u1" "c1").setRelation "carts"
    (.many [cart "k1" "u1", cart "k3" "u1"])
  have okUser : store.populate Samples.users (Samples.userOf "u1" "c1") =
      .ok (user.setRelation "contact"
        (.one (some ((Samples.contact "ada@example.org").set "id" "c1")))) := by rfl
  have okCart : store.populate Samples.carts (cart "k3" "u1") =
      .ok ((cart "k3" "u1").setRelation "user" (.one (some (Samples.userOf "u1" "c1")))) := by rfl
  have agree := mem_relatedMany_iff Samples.describe .text .start calls keeps rfl rfl twoWay
    _ isUser _ okUser
  have leadsBack := agree.2.2.2 _ isCart _ okCart
  exact ⟨keeps, twoWay, _, _, okUser, okCart, rfl, leadsBack.mpr rfl⟩

end Session

end EntityStore
