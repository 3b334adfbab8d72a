import EntityStore.Sql.CallLog

/-!
What goes into which builder.

An `Assembly` lists what is put into one builder, in order: tests, and builders of
their own, each of which is attached when its own assembly is complete.  The
assembly of a condition puts a group of all into the builder at hand and gives a
group of any an OR builder, in which each member that is not a group of any itself
gets an AND builder.  Whatever a condition is built into, building it carries this
assembly out (`Backend.build_eq_carryOut`); so what holds of a build can be shown by
induction on the assembly.

An assembly does not name its builders.  They get their names where they are made:
numbered in the order of creation, a builder before those that go into it.
-/

namespace EntityStore

namespace Sql

/-- What is put into a builder, in order. -/
inductive Assembly where
  | done
  | add (test : PropertyTest) (later : Assembly)
  | attach (connective : Connective) (own later : Assembly)

namespace Assembly

/-- One assembly and then another, into the same builder. -/
def append : Assembly → Assembly → Assembly
  | .done, second => second
  | .add test later, second => .add test (later.append second)
  | .attach connective own later, second => .attach connective own (later.append second)

instance : Append Assembly := ⟨append⟩

/-- The number of builders made. -/
def size : Assembly → Nat
  | .done => 0
  | .add _ later => later.size
  | .attach _ own later => 1 + own.size + later.size

/-- The builders made, in the order of creation and numbered from `next` on. -/
def builders (next : Nat) : Assembly → List BuilderId
  | .done => []
  | .add _ later => later.builders next
  | .attach connective own later =>
      ⟨connective.role, next⟩ ::
        (own.builders (next + 1) ++ later.builders (next + 1 + own.size))

/-- The tests, wherever they are added. -/
def leaves : Assembly → List PropertyTest
  | .done => []
  | .add test later => test :: later.leaves
  | .attach _ own later => own.leaves ++ later.leaves

/-- The tests with the builders that they are added to. -/
def tests (next : Nat) (into : BuilderId) : Assembly → List (BuilderId × PropertyTest)
  | .done => []
  | .add test later => (into, test) :: later.tests next into
  | .attach connective own later =>
      own.tests (next + 1) ⟨connective.role, next⟩ ++ later.tests (next + 1 + own.size) into

/-- The attachments in order: which builder gets which. -/
def attachments (next : Nat) (into : BuilderId) : Assembly → List (BuilderId × BuilderId)
  | .done => []
  | .add _ later => later.attachments next into
  | .attach connective own later =>
      own.attachments (next + 1) ⟨connective.role, next⟩ ++
        (into, ⟨connective.role, next⟩) :: later.attachments (next + 1 + own.size) into

variable (first second : Assembly)

@[simp] theorem done_append : .done ++ second = second := rfl

@[simp] theorem add_append (test : PropertyTest) :
    .add test first ++ second = .add test (first ++ second) := rfl

@[simp] theorem attach_append (connective : Connective) (own : Assembly) :
    .attach connective own first ++ second = .attach connective own (first ++ second) := rfl

theorem append_assoc (third : Assembly) :
    first ++ second ++ third = first ++ (second ++ third) := by
  induction first with
  | done => rfl
  | add test later ih => simp [ih]
  | attach connective own later _ ih => simp [ih]

@[simp] theorem leaves_append : (first ++ second).leaves = first.leaves ++ second.leaves := by
  induction first with
  | done => rfl
  | add test later ih => simp [leaves, ih]
  | attach connective own later _ ih => simp [leaves, ih]

@[simp] theorem builders_append (next : Nat) :
    (first ++ second).builders next =
      first.builders next ++ second.builders (next + first.size) := by
  induction first generalizing next with
  | done => rfl
  | add test later ih => exact ih next
  | attach connective own later _ ih => simp [builders, size, ih, Nat.add_assoc]

@[simp] theorem tests_append (next : Nat) (into : BuilderId) :
    (first ++ second).tests next into =
      first.tests next into ++ second.tests (next + first.size) into := by
  induction first generalizing next with
  | done => rfl
  | add test later ih => simp [tests, size, ih]
  | attach connective own later _ ih => simp [tests, size, ih, Nat.add_assoc]

/-- Every test is added to some builder. -/
theorem map_snd_tests (assembly : Assembly) (next : Nat) (into : BuilderId) :
    (assembly.tests next into).map Prod.snd = assembly.leaves := by
  induction assembly generalizing next into with
  | done => rfl
  | add test later ih => simp [tests, leaves, ih]
  | attach connective own later ihOwn ihLater => simp [tests, leaves, ihOwn, ihLater]

/-- Builders are numbered in the order of creation. -/
theorem numbers_builders (assembly : Assembly) (next : Nat) :
    (assembly.builders next).map (·.number) = List.range' next assembly.size := by
  induction assembly generalizing next with
  | done => rfl
  | add test later ih => exact ih next
  | attach connective own later ihOwn ihLater =>
      have joined : List.range' (next + 1) own.size ++
          List.range' (next + 1 + own.size) later.size =
            List.range' (next + 1) (own.size + later.size) := List.range'_append_1
      have counted : 1 + own.size + later.size = own.size + later.size + 1 := by omega
      rw [builders, List.map_cons, List.map_append, ihOwn, ihLater, joined, size, counted,
        List.range'_succ]

/-- Every builder made is an OR builder or an AND builder. -/
theorem countP_builders (assembly : Assembly) (next : Nat) :
    (assembly.builders next).countP (·.role == .or) +
      (assembly.builders next).countP (·.role == .and) = assembly.size := by
  induction assembly generalizing next with
  | done => rfl
  | add test later ih => exact ih next
  | attach connective own later ihOwn ihLater =>
      have countedOwn := ihOwn (next + 1)
      have countedLater := ihLater (next + 1 + own.size)
      cases connective <;> simp [builders, size, Connective.role] <;> omega

/-- Every builder made is attached once. -/
theorem attachments_perm (assembly : Assembly) (next : Nat) (into : BuilderId) :
    ((assembly.attachments next into).map Prod.snd).Perm (assembly.builders next) := by
  induction assembly generalizing next into with
  | done => exact .nil
  | add test later ih => exact ih next into
  | attach connective own later ihOwn ihLater =>
      rw [attachments, List.map_append, List.map_cons, builders]
      apply List.perm_middle.trans
      apply List.Perm.cons
      exact (ihOwn _ _).append (ihLater _ _)

end Assembly

end Sql

/-! ## The assembly of a condition -/

namespace Condition

open Sql

mutual

/-- The assembly of a condition into the builder at hand. -/
def assembly : Condition → Assembly
  | .leaf test => .add test .done
  | .all members => assemblyOfAll members
  | .any members => .attach .or (alternatives members) .done

/-- The assembly of conditions into one builder. -/
def assemblyOfAll : List Condition → Assembly
  | [] => .done
  | member :: members => assembly member ++ assemblyOfAll members

/-- The assembly of the OR builder of a group of any. -/
def alternatives : List Condition → Assembly
  | [] => .done
  | member :: members =>
      if member.isAny then assembly member ++ alternatives members
      else .attach .and (assembly member) (alternatives members)

end

mutual

/-- The tests of a condition are its leaves, from left to right. -/
theorem leaves_assembly : ∀ condition : Condition, condition.assembly.leaves = condition.tests
  | .leaf test => rfl
  | .all members => leaves_assemblyOfAll members
  | .any members => by simp [assembly, Assembly.leaves, tests, leaves_alternatives members]

theorem leaves_assemblyOfAll : ∀ members : List Condition,
    (assemblyOfAll members).leaves = testsOfAll members
  | [] => rfl
  | member :: members => by
      simp [assemblyOfAll, testsOfAll, leaves_assembly member, leaves_assemblyOfAll members]

theorem leaves_alternatives : ∀ members : List Condition,
    (alternatives members).leaves = testsOfAll members
  | [] => rfl
  | member :: members => by
      rw [alternatives]
      split
      · simp [testsOfAll, leaves_assembly member, leaves_alternatives members]
      · simp [Assembly.leaves, testsOfAll, leaves_assembly member, leaves_alternatives members]

end

end Condition

/-! ## Carrying an assembly out -/

namespace Sql

namespace Backend

variable {β σ : Type} (backend : Backend β σ) (scope : Scope)

/-- Puts an assembly into a builder. -/
def carryOut : Assembly → β → σ → Except QueryError Unit × β × σ
  | .done, builder, shared => (.ok (), builder, shared)
  | .add test later, builder, shared =>
      match backend.build scope (.leaf test) builder shared with
      | (.error error, builder, shared) => (.error error, builder, shared)
      | (.ok (), builder, shared) => carryOut later builder shared
  | .attach connective own later, builder, shared =>
      match backend.create connective shared with
      | (inner, shared) =>
          match carryOut own inner shared with
          | (.error error, _, shared) => (.error error, builder, shared)
          | (.ok (), inner, shared) =>
              match backend.attach (backend.fragment inner) builder shared with
              | (builder, shared) => carryOut later builder shared

section Steps

variable {backend scope} {later own : Assembly} {builder builder' inner inner' : β}
  {shared shared' made built : σ}

/-- A test goes to the builder at hand. -/
theorem carryOut_add {test : PropertyTest} {column : ColumnTest}
    (resolved : scope.resolve test = .ok column)
    (added : backend.add column builder shared = (.ok (), builder', shared')) :
    backend.carryOut scope (.add test later) builder shared =
      backend.carryOut scope later builder' shared' := by
  have leaf : backend.build scope (.leaf test) builder shared = (.ok (), builder', shared') := by
    rw [build, resolved]
    exact added
  rw [carryOut, leaf]

/-- A builder is made, gets its own assembly, and is attached to the builder at hand. -/
theorem carryOut_attach {connective : Connective}
    (create : backend.create connective shared = (inner, made))
    (carried : backend.carryOut scope own inner made = (.ok (), inner', built))
    (attach : backend.attach (backend.fragment inner') builder built = (builder', shared')) :
    backend.carryOut scope (.attach connective own later) builder shared =
      backend.carryOut scope later builder' shared' := by
  rw [carryOut, create]
  simp only [carried, attach]

end Steps

theorem carryOut_append (first second : Assembly) :
    ∀ (builder : β) (shared : σ),
      backend.carryOut scope (first ++ second) builder shared =
        match backend.carryOut scope first builder shared with
        | (.error error, builder, shared) => (.error error, builder, shared)
        | (.ok (), builder, shared) => backend.carryOut scope second builder shared := by
  induction first with
  | done => exact fun _ _ => rfl
  | add test later ih =>
      intro builder shared
      rw [Assembly.add_append, carryOut, carryOut]
      split
      · rfl
      · exact ih _ _
  | attach connective own later _ ih =>
      intro builder shared
      rw [Assembly.attach_append, carryOut, carryOut]
      generalize backend.create connective shared = made
      rcases made with ⟨inner, shared⟩
      simp only
      generalize backend.carryOut scope own inner shared = outcome
      rcases outcome with ⟨error | _, inner, shared⟩
      · rfl
      · exact ih _ _

mutual

/-- Building a condition carries its assembly out. -/
theorem build_eq_carryOut : ∀ (condition : Condition) (builder : β) (shared : σ),
    backend.build scope condition builder shared =
      backend.carryOut scope condition.assembly builder shared
  | .leaf test, builder, shared => by
      rw [Condition.assembly, carryOut]
      generalize backend.build scope (.leaf test) builder shared = outcome
      rcases outcome with ⟨error | _, builder, shared⟩ <;> rfl
  | .all members, builder, shared => by
      rw [build]
      exact buildAll_eq_carryOut members builder shared
  | .any members, builder, shared => by
      rw [build, Condition.assembly, carryOut]
      generalize backend.create .or shared = made
      rcases made with ⟨own, shared⟩
      simp only [buildAlternatives_eq_carryOut members]
      generalize backend.carryOut scope (Condition.alternatives members) own shared = outcome
      rcases outcome with ⟨error | _, own, shared⟩
      · rfl
      · rfl

theorem buildAll_eq_carryOut : ∀ (members : List Condition) (builder : β) (shared : σ),
    backend.buildAll scope members builder shared =
      backend.carryOut scope (Condition.assemblyOfAll members) builder shared
  | [], builder, shared => by
      rw [buildAll]
      rfl
  | member :: members, builder, shared => by
      rw [buildAll, Condition.assemblyOfAll, carryOut_append, build_eq_carryOut member]
      generalize backend.carryOut scope member.assembly builder shared = outcome
      rcases outcome with ⟨error | _, builder, shared⟩
      · rfl
      · exact buildAll_eq_carryOut members _ _

theorem buildAlternatives_eq_carryOut : ∀ (members : List Condition) (builder : β) (shared : σ),
    backend.buildAlternatives scope members builder shared =
      backend.carryOut scope (Condition.alternatives members) builder shared
  | [], builder, shared => by
      rw [buildAlternatives]
      rfl
  | member :: members, builder, shared => by
      rw [buildAlternatives, Condition.alternatives]
      split
      · rw [carryOut_append, build_eq_carryOut member]
        generalize backend.carryOut scope member.assembly builder shared = outcome
        rcases outcome with ⟨error | _, builder, shared⟩
        · rfl
        · exact buildAlternatives_eq_carryOut members _ _
      · rw [carryOut]
        generalize backend.create .and shared = made
        rcases made with ⟨own, shared⟩
        simp only [build_eq_carryOut member]
        generalize backend.carryOut scope member.assembly own shared = outcome
        rcases outcome with ⟨error | _, own, shared⟩
        · rfl
        · exact buildAlternatives_eq_carryOut members _ _

end

end Backend

end Sql

end EntityStore
