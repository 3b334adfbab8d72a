import EntityStore.Proofs.Sql.Assembly
import EntityStore.Samples

/-!
What the log of a build shows.

A log that follows the protocol of a condition (`CallLog.Follows`) shows every leaf
of the condition, in order, as one call for a test; an OR builder for every group of
any, and an AND builder for every member of such a group that is not one itself; no
test on an OR builder; and every builder attached once, where it belongs, with no
call on it from then on.  The log of a build is read off the assembly of the
condition (`recordBuild_eq`), and so is each of these.
-/

namespace EntityStore

/-! ## What is expected of a build -/

/-- The name under which a test is called for. -/
def Predicate.setterName : Predicate → String
  | .equals _ => "equals"
  | .before _ => "before"
  | .after _ => "after"
  | .between _ _ => "between"
  | .oneOf _ => "in_list"
  | .isNull => "is_null"
  | .isNotNull => "is_not_null"

namespace Condition

mutual

/-- The groups of any in a condition, each by its members; an outer group before those
inside it. -/
def anyGroups : Condition → List (List Condition)
  | .leaf _ => []
  | .all members => anyGroupsOfAll members
  | .any members => members :: anyGroupsOfAll members

/-- The groups of any in a list of conditions. -/
def anyGroupsOfAll : List Condition → List (List Condition)
  | [] => []
  | member :: members => anyGroups member ++ anyGroupsOfAll members

end

end Condition

namespace Sql

/-- The call that a test of a property asks for: on the column of the first field for the
property, and as a comparison of points in time where the property holds them and the
predicate is no check for null. -/
def Scope.setterCall? (scope : Scope) (test : PropertyTest) : Option SetterCall :=
  (scope.fields.find? (·.property == test.property)).map fun field =>
    { table := scope.table
      column := field.column
      predicate.name :=
        if test.property ∈ scope.temporals.map (·.property) ∧ test.predicate.isNullCheck = false
        then test.predicate.setterName ++ "_as_time"
        else test.predicate.setterName
      predicate.operands := test.predicate.operands }

/-- The builder that a call makes or is made on. -/
def Call.builder : Call → BuilderId
  | .created builder => builder
  | .set builder _ => builder
  | .attached builder _ => builder

/-- The text that a call attaches. -/
def Call.source? : Call → Option String
  | .attached _ source => some source
  | _ => none

namespace CallLog

/-- The builders made, in the order of creation. -/
def builders (log : CallLog) : List BuilderId :=
  log.calls.filterMap fun
    | .created builder => some builder
    | _ => none

/-- The calls for tests. -/
def setters (log : CallLog) : List SetterCall := log.tests.map (·.2)

/-- The log follows the protocol of building a condition. -/
structure Follows (log : CallLog) (scope : Scope) (condition : Condition) : Prop where
  /-- The calls for tests are the leaves, in order. -/
  setters_eq : log.setters.map some = condition.tests.map scope.setterCall?
  /-- There are as many of them as leaves are counted. -/
  setters_length : log.setters.length = condition.testCount
  /-- OR and AND builders, and no others, are numbered in the order of creation. -/
  numbers : log.builders.map (·.number) =
    List.range' 1 (log.countCreated .or + log.countCreated .and)
  /-- Each group of any has an OR builder. -/
  orBuilders : log.countCreated .or = condition.anyGroups.length
  /-- Each member of such a group that is not one itself has an AND builder. -/
  andBuilders : log.countCreated .and = condition.anyGroups.flatten.countP fun m => !m.isAny
  /-- No test is added to an OR builder. -/
  testsOffOr : ∀ call ∈ log.tests, call.1.role ≠ .or
  /-- A builder is attached where the assembly of the condition says, in its order. -/
  attachments_eq : log.attachments =
    (condition.assembly.attachments 1 .root).map fun edge => (edge.1, toString edge.2)
  /-- What is attached are the builders made, each once. -/
  attachedOnce : (log.attachments.map Prod.snd).Perm (log.builders.map toString) ∧
    (log.builders.map toString).Nodup
  /-- Nothing is called on a builder once it has been attached. -/
  attachedLast : log.calls.Pairwise fun earlier later =>
    earlier.source? ≠ some (toString later.builder)

end CallLog

/-! ## The texts of builders -/

/-- The first character of a role's name; no two names have the same. -/
def BuilderRole.initial : BuilderRole → Char
  | .root => 'r'
  | .and => 'a'
  | .or => 'o'

theorem BuilderRole.head?_name (role : BuilderRole) :
    role.name.toList.head? = some role.initial := by
  cases role <;> decide

namespace BuilderId

theorem head?_toString (id : BuilderId) : (toString id).toList.head? = some id.role.initial := by
  show id.toString.toList.head? = _
  rw [BuilderId.toString, String.toList_append, String.toList_append, List.append_assoc,
    List.head?_append, BuilderRole.head?_name]
  rfl

/-- Builders with the same text are the same. -/
theorem toString_injective {a b : BuilderId} (same : toString a = toString b) : a = b := by
  rcases a with ⟨role, number⟩
  rcases b with ⟨role', number'⟩
  have initials : some role.initial = some role'.initial := by
    have first := head?_toString ⟨role, number⟩
    rw [same, head?_toString] at first
    exact first.symm
  have roles : role = role' := by
    cases role <;> cases role' <;> simp_all [BuilderRole.initial]
  have written : role.name ++ "#" ++ toString number = role'.name ++ "#" ++ toString number' :=
    same
  rw [roles, String.append_right_inj] at written
  rw [roles, toString_number_injective written]

end BuilderId

/-! ## The log of an assembly -/

/-- The test of the column of the first field for a property. -/
def Scope.columnTest (scope : Scope) (test : PropertyTest) : ColumnTest where
  table := scope.table
  column := ((scope.fields.find? (·.property == test.property)).map (·.column)).getD ""
  predicate := test.predicate
  asTime := scope.temporals.any (·.property == test.property)

/-- A test is called for by the name of its predicate, marked where points in time are compared,
and with its operands. -/
theorem ColumnTest.setterCall_eq (t : ColumnTest) :
    t.setterCall =
      ⟨t.table, t.column,
        if t.comparesTime then t.predicate.setterName ++ "_as_time" else t.predicate.setterName,
        t.predicate.operands⟩ := by
  rcases t with ⟨table, column, predicate, asTime⟩
  cases predicate <;> rfl

section Declared

variable {scope : Scope} {test : PropertyTest}

theorem Scope.exists_field (declared : test.property ∈ scope.fields.map (·.property)) :
    ∃ field, scope.fields.find? (·.property == test.property) = some field := by
  rcases List.mem_map.mp declared with ⟨field, member, same⟩
  apply Option.isSome_iff_exists.mp
  apply List.find?_isSome.mpr
  exact ⟨field, member, by simpa using same⟩

/-- A test of a declared property is a test of a column. -/
theorem Scope.resolve_eq_columnTest (declared : test.property ∈ scope.fields.map (·.property)) :
    scope.resolve test = .ok (scope.columnTest test) := by
  rcases Scope.exists_field declared with ⟨field, found⟩
  rw [resolve, columnTest, found]
  rfl

/-- It is called for as expected. -/
theorem Scope.setterCall?_eq (declared : test.property ∈ scope.fields.map (·.property)) :
    scope.setterCall? test = some (scope.columnTest test).setterCall := by
  rcases Scope.exists_field declared with ⟨field, found⟩
  have temporal : (scope.columnTest test).comparesTime = true ↔
      test.property ∈ scope.temporals.map (·.property) ∧ test.predicate.isNullCheck = false := by
    simp [columnTest, ColumnTest.comparesTime]
  have column : (scope.columnTest test).column = field.column := by
    rw [columnTest, found]
    rfl
  rw [setterCall?, found, ColumnTest.setterCall_eq, column]
  simp only [temporal]
  rfl

end Declared

namespace Assembly

/-- The calls of carrying an assembly out. -/
def calls (scope : Scope) (next : Nat) (into : BuilderId) : Assembly → List Call
  | .done => []
  | .add test later => .set into (scope.columnTest test).setterCall :: later.calls scope next into
  | .attach connective own later =>
      .created ⟨connective.role, next⟩ ::
        (own.calls scope (next + 1) ⟨connective.role, next⟩ ++
          .attached into (toString (BuilderId.mk connective.role next)) ::
            later.calls scope (next + 1 + own.size) into)

end Assembly

/-- Carrying an assembly out writes its calls down. -/
theorem recorder_carryOut {scope : Scope} {assembly : Assembly}
    (declared : ∀ test ∈ assembly.leaves, test.property ∈ scope.fields.map (·.property))
    (into : BuilderId) (log : CallLog) :
    recorder.carryOut scope assembly into log =
      (.ok (), into,
        ⟨log.calls ++ assembly.calls scope (log.created + 1) into,
          log.created + assembly.size⟩) := by
  induction assembly generalizing into log with
  | done => simp [Backend.carryOut, Assembly.calls, Assembly.size]
  | add test later ih =>
      have resolved := Scope.resolve_eq_columnTest (declared test List.mem_cons_self)
      rw [Backend.carryOut_add resolved rfl,
        ih fun test member => declared test (List.mem_cons_of_mem _ member)]
      simp [CallLog.record, Assembly.calls, Assembly.size]
  | attach connective own later ihOwn ihLater =>
      have carriedOwn := ihOwn fun test member => declared test (List.mem_append_left _ member)
      rw [Backend.carryOut_attach rfl (carriedOwn _ _) rfl,
        ihLater fun test member => declared test (List.mem_append_right _ member)]
      have numbered : log.created + 1 + own.size + 1 = log.created + 1 + 1 + own.size := by omega
      have counted : log.created + 1 + own.size + later.size =
          log.created + (1 + own.size + later.size) := by omega
      simp only [CallLog.record, recorder, Assembly.calls, Assembly.size, numbered, counted,
        List.append_assoc, List.cons_append, List.nil_append]

/-- The log of a build holds the calls of the assembly of the condition. -/
theorem recordBuild_eq {scope : Scope} {condition : Condition}
    (declared : ∀ test ∈ condition.tests, test.property ∈ scope.fields.map (·.property)) :
    recordBuild scope condition =
      (.ok (), ⟨condition.assembly.calls scope 1 .root, condition.assembly.size⟩) := by
  rw [← Condition.leaves_assembly] at declared
  rw [recordBuild, Backend.build_eq_carryOut, recorder_carryOut declared]
  simp [CallLog.empty]

/-! ## What the calls of an assembly show -/

namespace Assembly

variable (scope : Scope) (assembly : Assembly) (next : Nat) (into : BuilderId)

/-- The log of the calls of an assembly. -/
def log : CallLog := ⟨assembly.calls scope next into, assembly.size⟩

theorem tests_log : (assembly.log scope next into).tests =
    (assembly.tests next into).map fun entry =>
      (entry.1, (scope.columnTest entry.2).setterCall) := by
  unfold log CallLog.tests
  induction assembly generalizing next into with
  | done => rfl
  | add test later ih => simp [calls, tests, ih]
  | attach connective own later ihOwn ihLater => simp [calls, tests, ihOwn, ihLater]

theorem attachments_log : (assembly.log scope next into).attachments =
    (assembly.attachments next into).map fun edge => (edge.1, toString edge.2) := by
  unfold log CallLog.attachments
  induction assembly generalizing next into with
  | done => rfl
  | add test later ih => simp [calls, attachments, ih]
  | attach connective own later ihOwn ihLater => simp [calls, attachments, ihOwn, ihLater]

theorem builders_log : (assembly.log scope next into).builders = assembly.builders next := by
  unfold log CallLog.builders
  induction assembly generalizing next into with
  | done => rfl
  | add test later ih => simp [calls, builders, ih]
  | attach connective own later ihOwn ihLater => simp [calls, builders, ihOwn, ihLater]

theorem countCreated_log (role : BuilderRole) : (assembly.log scope next into).countCreated role =
    (assembly.builders next).countP (·.role == role) := by
  unfold log CallLog.countCreated
  induction assembly generalizing next into with
  | done => rfl
  | add test later ih => simp [calls, builders, ih]
  | attach connective own later ihOwn ihLater =>
      simp [calls, builders, List.countP_cons, ihOwn, ihLater]

variable {scope assembly next into}

/-- A call is made on the builder at hand or on one that is numbered from `next` on. -/
theorem builder_of_mem_calls {call : Call} (member : call ∈ assembly.calls scope next into) :
    call.builder = into ∨
      next ≤ call.builder.number ∧ call.builder.number < next + assembly.size := by
  induction assembly generalizing next into with
  | done => cases member
  | add test later ih =>
      rcases List.mem_cons.mp member with rfl | member
      · exact .inl rfl
      · exact ih member
  | attach connective own later ihOwn ihLater =>
      rw [size]
      rcases List.mem_cons.mp member with rfl | member
      · right
        simp only [Call.builder]
        omega
      rcases List.mem_append.mp member with member | member
      · right
        rcases ihOwn member with same | bounds
        · rw [same]
          simp only
          omega
        · omega
      rcases List.mem_cons.mp member with rfl | member
      · exact .inl rfl
      · rcases ihLater member with same | bounds
        · exact .inl same
        · omega

/-- What is attached is numbered from `next` on. -/
theorem source_of_mem_calls {call : Call} (member : call ∈ assembly.calls scope next into)
    {source : BuilderId} (attached : call.source? = some (toString source)) :
    next ≤ source.number ∧ source.number < next + assembly.size := by
  induction assembly generalizing next into with
  | done => cases member
  | add test later ih =>
      rcases List.mem_cons.mp member with rfl | member
      · cases attached
      · exact ih member
  | attach connective own later ihOwn ihLater =>
      rw [size]
      rcases List.mem_cons.mp member with rfl | member
      · cases attached
      rcases List.mem_append.mp member with member | member
      · have bounds := ihOwn member
        omega
      rcases List.mem_cons.mp member with rfl | member
      · have same := BuilderId.toString_injective (Option.some.inj attached)
        rw [← same]
        simp only
        omega
      · have bounds := ihLater member
        omega

/-- Nothing is called on a builder once it has been attached. -/
theorem pairwise_calls (made : into.number < next) :
    (assembly.calls scope next into).Pairwise fun earlier later =>
      earlier.source? ≠ some (toString later.builder) := by
  induction assembly generalizing next into with
  | done => exact .nil
  | add test later ih => exact .cons (fun _ _ => nofun) (ih made)
  | attach connective own later ihOwn ihLater =>
      apply List.Pairwise.cons
      · exact fun _ _ => nofun
      apply List.pairwise_append.mpr
      refine ⟨ihOwn (Nat.lt_succ_self next), ?_, ?_⟩
      · apply List.Pairwise.cons
        · intro call member attached
          have same := BuilderId.toString_injective (Option.some.inj attached)
          have number := congrArg BuilderId.number same
          simp only at number
          rcases builder_of_mem_calls member with rfl | bounds <;> omega
        · apply ihLater
          omega
      · intro earlier own call member attached
        have source := source_of_mem_calls own attached
        rcases List.mem_cons.mp member with rfl | member
        · simp only [Call.builder] at source
          omega
        · rcases builder_of_mem_calls member with same | bounds
          · rw [same] at source
            omega
          · omega

end Assembly

end Sql

/-! ## What the assembly of a condition shows -/

namespace Condition

open Sql

mutual

/-- Only a group of any is built into an OR builder, so no test is added to one. -/
theorem tests_assembly_off_or : ∀ (condition : Condition) (next : Nat) (into : BuilderId),
    (into.role = .or → condition.isAny = true) →
      ∀ entry ∈ condition.assembly.tests next into, entry.1.role ≠ .or
  | .leaf test, next, into, allowed, entry, member => by
      rcases List.mem_singleton.mp member with rfl
      exact fun isOr => Bool.false_ne_true (allowed isOr)
  | .all members, next, into, allowed, entry, member => by
      apply tests_assemblyOfAll_off_or members next into _ entry member
      exact fun isOr => Bool.false_ne_true (allowed isOr)
  | .any members, next, into, allowed, entry, member => by
      rcases List.mem_append.mp member with member | member
      · exact tests_alternatives_off_or members _ _ entry member
      · cases member

theorem tests_assemblyOfAll_off_or : ∀ (members : List Condition) (next : Nat)
    (into : BuilderId), into.role ≠ .or →
      ∀ entry ∈ (assemblyOfAll members).tests next into, entry.1.role ≠ .or
  | [], next, into, notOr, entry, member => by cases member
  | first :: members, next, into, notOr, entry, member => by
      rw [assemblyOfAll, Assembly.tests_append] at member
      rcases List.mem_append.mp member with member | member
      · exact tests_assembly_off_or first _ into (fun isOr => absurd isOr notOr) entry member
      · exact tests_assemblyOfAll_off_or members _ into notOr entry member

theorem tests_alternatives_off_or : ∀ (members : List Condition) (next : Nat)
    (into : BuilderId), ∀ entry ∈ (alternatives members).tests next into, entry.1.role ≠ .or
  | [], next, into, entry, member => by cases member
  | first :: members, next, into, entry, member => by
      rw [alternatives] at member
      split at member
      case isTrue isAny =>
        rw [Assembly.tests_append] at member
        rcases List.mem_append.mp member with member | member
        · exact tests_assembly_off_or first _ into (fun _ => isAny) entry member
        · exact tests_alternatives_off_or members _ into entry member
      case isFalse =>
        rcases List.mem_append.mp member with member | member
        · apply tests_assembly_off_or first _ _ _ entry member
          exact fun isOr => absurd isOr (show BuilderRole.and ≠ .or by decide)
        · exact tests_alternatives_off_or members _ into entry member

end

mutual

/-- Each group of any has an OR builder, and each member that is not one itself an AND
builder. -/
theorem countP_builders_assembly : ∀ (condition : Condition) (next : Nat),
    (condition.assembly.builders next).countP (·.role == .or) = condition.anyGroups.length ∧
      (condition.assembly.builders next).countP (·.role == .and) =
        condition.anyGroups.flatten.countP fun m => !m.isAny
  | .leaf test, next => ⟨rfl, rfl⟩
  | .all members, next => countP_builders_assemblyOfAll members next
  | .any members, next => by
      obtain ⟨orBuilders, andBuilders⟩ := countP_builders_alternatives members (next + 1)
      simp [assembly, Assembly.builders, Connective.role, anyGroups, orBuilders, andBuilders,
        Nat.add_comm]

theorem countP_builders_assemblyOfAll : ∀ (members : List Condition) (next : Nat),
    ((assemblyOfAll members).builders next).countP (·.role == .or) =
        (anyGroupsOfAll members).length ∧
      ((assemblyOfAll members).builders next).countP (·.role == .and) =
        (anyGroupsOfAll members).flatten.countP fun m => !m.isAny
  | [], next => ⟨rfl, rfl⟩
  | member :: members, next => by
      obtain ⟨orBuilders, andBuilders⟩ := countP_builders_assembly member next
      obtain ⟨orLater, andLater⟩ :=
        countP_builders_assemblyOfAll members (next + member.assembly.size)
      simp [assemblyOfAll, anyGroupsOfAll, orBuilders, andBuilders, orLater, andLater]

theorem countP_builders_alternatives : ∀ (members : List Condition) (next : Nat),
    ((alternatives members).builders next).countP (·.role == .or) =
        (anyGroupsOfAll members).length ∧
      ((alternatives members).builders next).countP (·.role == .and) =
        (anyGroupsOfAll members).flatten.countP (fun m => !m.isAny) +
          members.countP fun m => !m.isAny
  | [], next => ⟨rfl, rfl⟩
  | member :: members, next => by
      rw [alternatives]
      split
      case isTrue isAny =>
        obtain ⟨orBuilders, andBuilders⟩ := countP_builders_assembly member next
        obtain ⟨orLater, andLater⟩ :=
          countP_builders_alternatives members (next + member.assembly.size)
        simp [anyGroupsOfAll, isAny, orBuilders, andBuilders, orLater, andLater, Nat.add_assoc]
      case isFalse notAny =>
        obtain ⟨orBuilders, andBuilders⟩ := countP_builders_assembly member (next + 1)
        obtain ⟨orLater, andLater⟩ :=
          countP_builders_alternatives members (next + 1 + member.assembly.size)
        simp [Assembly.builders, Connective.role, anyGroupsOfAll, notAny, orBuilders, andBuilders,
          orLater, andLater]
        omega

end

end Condition

/-! ## The protocol -/

namespace Sql

/-- A condition on declared properties is built, and the log of the build follows the
protocol of the condition. -/
theorem recordBuild_follows (scope : Scope) (condition : Condition)
    (declared : ∀ test ∈ condition.tests, test.property ∈ scope.fields.map (·.property)) :
    ∃ log, recordBuild scope condition = (.ok (), log) ∧ log.Follows scope condition := by
  refine ⟨condition.assembly.log scope 1 .root, recordBuild_eq declared, ?_⟩
  have leaves : (condition.assembly.tests 1 .root).map Prod.snd = condition.tests := by
    rw [Assembly.map_snd_tests, Condition.leaves_assembly]
  have setters : (condition.assembly.log scope 1 .root).setters =
      condition.tests.map fun test => (scope.columnTest test).setterCall := by
    rw [CallLog.setters, Assembly.tests_log, ← leaves, List.map_map, List.map_map]
    rfl
  have numbers := condition.assembly.numbers_builders 1
  have distinct : (condition.assembly.builders 1).Nodup := by
    apply List.Pairwise.of_map BuilderId.number (S := (· ≠ ·))
    · exact fun a b other same => other (congrArg _ same)
    · rw [numbers]
      exact List.nodup_range'
  obtain ⟨orBuilders, andBuilders⟩ := condition.countP_builders_assembly 1
  constructor
  case setters_eq =>
    rw [setters, List.map_map]
    apply List.map_congr_left
    exact fun test member => (Scope.setterCall?_eq (declared test member)).symm
  case setters_length =>
    rw [setters, List.length_map, Condition.length_tests]
  case numbers =>
    rw [Assembly.builders_log, numbers, Assembly.countCreated_log, Assembly.countCreated_log,
      Assembly.countP_builders]
  case orBuilders =>
    rw [Assembly.countCreated_log, orBuilders]
  case andBuilders =>
    rw [Assembly.countCreated_log, andBuilders]
  case testsOffOr =>
    rw [Assembly.tests_log]
    intro call member
    rcases List.mem_map.mp member with ⟨entry, added, rfl⟩
    exact condition.tests_assembly_off_or 1 .root nofun entry added
  case attachments_eq =>
    exact Assembly.attachments_log _ _ _ _
  case attachedOnce =>
    rw [Assembly.attachments_log, Assembly.builders_log, List.map_map]
    constructor
    · have once := condition.assembly.attachments_perm 1 .root
      have texts := once.map fun builder : BuilderId => toString builder
      rwa [List.map_map] at texts
    · apply List.Pairwise.map _ _ distinct
      exact fun a b other same => other (BuilderId.toString_injective same)
  case attachedLast =>
    exact Assembly.pairwise_calls Nat.zero_lt_one

/-- Groups of any inside groups of any, and a group of all that holds one. -/
theorem recordBuild_follows_samples :
    let scope := Scope.ofMetadata none Samples.users
    let condition : Condition := .any [.propertyEquals "name" "Ada",
      .any [.propertyAfter "createdAt" "2024-01-01T00:00:00Z", .propertyIsNull "createdAt"],
      .all [.propertyIn "city" ["Oulu", .null], .any []]]
    (∀ test ∈ condition.tests, test.property ∈ scope.fields.map (·.property)) ∧
      ∃ log, recordBuild scope condition = (.ok (), log) ∧ log.Follows scope condition := by
  intro scope condition
  have declared : ∀ test ∈ condition.tests, test.property ∈ scope.fields.map (·.property) := by
    decide
  exact ⟨declared, recordBuild_follows scope condition declared⟩

end Sql

end EntityStore
