import EntityStore.Condition.Matching

/-!
How the two comparisons of values agree.

`Value.compare?` leaves values of different kinds and nulls without an answer, also where they meet
inside arrays; `Value.order` answers always.  Where the first answers, the second gives the same
answer (`Value.order_of_compare?`), so it inherits the laws of the linear order.  What is its own is
where it answers: turned round it answers just as well (`Value.compare?_swap`), whatever lies
between two values keeps them comparable (`Value.compare?_lt_trans`), and a value compares as equal
to itself unless it contains a null (`Value.compare?_self_iff`).  So the predicates that compare
exclude each other, and they differ from equality in nulls alone (`Value.comparisons_agree`).
-/

namespace EntityStore

namespace Value

mutual

/-- Whether a value is null or contains a null, at any depth. -/
def containsNull : Value → Bool
  | .null => true
  | .array items => anyContainsNull items
  | _ => false

/-- Whether some of the values contains a null. -/
def anyContainsNull : List Value → Bool
  | [] => false
  | item :: items => containsNull item || anyContainsNull items

end

/-! ## Where the comparison within a kind answers -/

section Cases

variable {a b : Value} {as bs : List Value} {o : Ordering}

/-- Apart from arrays, values of one kind compare as they are ordered, unless they are null. -/
theorem compare?_of_not_array (single : a.kind ≠ .array) :
    a.compare? b = if a.kind = b.kind ∧ a.kind ≠ .null then some (a.order b) else none := by
  cases a <;> cases b <;> simp_all [compare?, order, kind]

/-- Two lists of items are decided by their first items, or else by the other items. -/
theorem compareItems?_cons_eq_some_iff :
    compareItems? (a :: as) (b :: bs) = some o ↔
      (a.compare? b = some o ∧ o ≠ .eq) ∨
        (a.compare? b = some .eq ∧ compareItems? as bs = some o) := by
  rw [compareItems?]
  cases a.compare? b with
  | none => simp
  | some decided => cases decided <;> simp <;> grind

end Cases

mutual

/-- Turned round, the comparison has the reverse outcome, or none if it had none. -/
theorem compare?_swap (a b : Value) : b.compare? a = (a.compare? b).map Ordering.swap := by
  by_cases same : a.kind = b.kind
  · by_cases single : a.kind = .array
    · cases a <;> simp only [kind, reduceCtorEq] at single
      cases b <;> simp only [kind, reduceCtorEq] at same
      exact compareItems?_swap _ _
    · rw [compare?_of_not_array single, compare?_of_not_array (same ▸ single), same,
        order_swap b a]
      split <;> rfl
  · cases a <;> cases b <;> first | rfl | exact (same rfl).elim

/-- The same for lists. -/
theorem compareItems?_swap : ∀ as bs : List Value,
    compareItems? bs as = (compareItems? as bs).map Ordering.swap
  | [], bs => by cases bs <;> rfl
  | a :: as, bs => by
      cases bs with
      | nil => rfl
      | cons b bs =>
          rw [compareItems?, compareItems?, compare?_swap a b]
          cases a.compare? b with
          | none => rfl
          | some decided =>
              cases decided with
              | lt => rfl
              | eq => exact compareItems?_swap as bs
              | gt => rfl

end

mutual

/-- Where values are comparable, they are ordered as they compare. -/
theorem order_of_compare? {a b : Value} {o : Ordering} (compared : a.compare? b = some o) :
    a.order b = o := by
  by_cases single : a.kind = .array
  · cases a <;> simp only [kind, reduceCtorEq] at single
    cases b <;> simp only [compare?, reduceCtorEq] at compared
    exact orderItems_of_compareItems? compared
  · rw [compare?_of_not_array single] at compared
    split at compared
    · exact Option.some.inj compared
    · cases compared

/-- The same for lists. -/
theorem orderItems_of_compareItems? : ∀ {as bs : List Value} {o : Ordering},
    compareItems? as bs = some o → orderItems as bs = o
  | [], bs, o, compared => by
      cases bs <;> exact Option.some.inj compared
  | a :: as, [], o, compared => Option.some.inj compared
  | a :: as, b :: bs, o, compared => by
      rw [orderItems]
      rcases compareItems?_cons_eq_some_iff.mp compared with ⟨first, decided⟩ | ⟨first, rest⟩
      · rw [order_of_compare? first]
        cases o <;> simp_all
      · rw [order_of_compare? first, orderItems_of_compareItems? rest]
        rfl

end

mutual

/-- A value compares as equal to itself unless it contains a null. -/
theorem compare?_self_iff : ∀ a : Value, a.compare? a = some .eq ↔ a.containsNull = false
  | .array items => compareItems?_self_iff items
  | .null => by simp [compare?, containsNull]
  | .bool _ => by simp [compare?, containsNull]
  | .integer _ => by simp [compare?, containsNull]
  | .text _ => by simp [compare?, containsNull]
  | .bytes _ => by simp [compare?, containsNull]
  | .timestamp _ => by simp [compare?, containsNull]

/-- The same for lists. -/
theorem compareItems?_self_iff : ∀ items : List Value,
    compareItems? items items = some .eq ↔ anyContainsNull items = false
  | [] => by simp [compareItems?, anyContainsNull]
  | item :: items => by
      rw [compareItems?_cons_eq_some_iff, compare?_self_iff item, compareItems?_self_iff items]
      simp [anyContainsNull]

end

/-- Only equal values without nulls compare as equal. -/
theorem compare?_eq_iff {a b : Value} :
    a.compare? b = some .eq ↔ a = b ∧ a.containsNull = false := by
  constructor
  · intro compared
    obtain rfl := (order_eq_iff a b).mp (order_of_compare? compared)
    exact ⟨rfl, (compare?_self_iff a).mp compared⟩
  · rintro ⟨rfl, full⟩
    exact (compare?_self_iff a).mpr full

mutual

/-- A value that is less than a lesser one is comparable with the greater one, and less. -/
theorem compare?_lt_trans {a b c : Value} (ab : a.compare? b = some .lt)
    (bc : b.compare? c = some .lt) : a.compare? c = some .lt := by
  by_cases single : a.kind = .array
  · cases a <;> simp only [kind, reduceCtorEq] at single
    cases b <;> simp only [compare?, reduceCtorEq] at ab
    cases c <;> simp only [compare?, reduceCtorEq] at bc
    exact compareItems?_lt_trans ab bc
  · have less : compare a c = .lt :=
      Std.TransCmp.lt_trans (order_of_compare? ab) (order_of_compare? bc)
    rw [compare?_of_not_array single] at ab ⊢
    split at ab
    · rename_i alike
      rw [compare?_of_not_array (alike.1 ▸ single)] at bc
      split at bc
      · rename_i alike'
        rw [if_pos ⟨alike.1.trans alike'.1, alike.2⟩]
        exact congrArg some less
      · cases bc
    · cases ab

/-- The same for lists. -/
theorem compareItems?_lt_trans : ∀ {as bs cs : List Value}, compareItems? as bs = some .lt →
    compareItems? bs cs = some .lt → compareItems? as cs = some .lt
  | [], bs, [], _, bc => by cases bs <;> cases bc
  | [], _, _ :: _, _, _ => rfl
  | _ :: _, [], _, ab, _ => by cases ab
  | _ :: _, _ :: _, [], _, bc => by cases bc
  | a :: as, b :: bs, c :: cs, ab, bc => by
      rw [compareItems?_cons_eq_some_iff] at ab bc ⊢
      rcases ab with ⟨ab, -⟩ | ⟨ab, restAB⟩
      · rcases bc with ⟨bc, -⟩ | ⟨bc, -⟩
        · exact .inl ⟨compare?_lt_trans ab bc, nofun⟩
        · obtain ⟨rfl, -⟩ := compare?_eq_iff.mp bc
          exact .inl ⟨ab, nofun⟩
      · obtain ⟨rfl, -⟩ := compare?_eq_iff.mp ab
        rcases bc with bc | ⟨bc, restBC⟩
        · exact .inl bc
        · exact .inr ⟨bc, compareItems?_lt_trans restAB restBC⟩

end

end Value

/-! ## What the predicates that compare have in common -/

namespace Predicate

variable {value : Option Value} {operand : Value}

theorem holds_before_iff :
    (before operand).holds value = true ↔ value.bind (·.compare? operand) = some .lt := by
  simp [holds]

theorem holds_after_iff :
    (after operand).holds value = true ↔ value.bind (·.compare? operand) = some .gt := by
  simp [holds]

/-- A range of one value holds of what compares as equal to it. -/
theorem holds_between_self_iff :
    (between operand operand).holds value = true ↔
      value.bind (·.compare? operand) = some .eq := by
  simp only [holds]
  generalize value.bind (·.compare? operand) = compared
  cases compared with
  | none => simp
  | some decided => cases decided <;> simp

/-- A range of one value is equality with it, if it contains no null. -/
theorem holds_between_self_iff_equals :
    (between operand operand).holds value = true ↔
      (equals operand).holds value = true ∧ operand.containsNull = false := by
  rw [holds_between_self_iff]
  cases value with
  | none => simp [holds]
  | some v =>
      rw [Option.bind_some, Value.compare?_eq_iff]
      simp only [holds, beq_iff_eq, Option.some.injEq]
      constructor
      · rintro ⟨rfl, full⟩
        exact ⟨rfl, full⟩
      · rintro ⟨rfl, full⟩
        exact ⟨rfl, full⟩

/-- Before, within and after the range of one value: these exclude each other. -/
theorem countP_holds_le_one :
    [before operand, between operand operand, after operand].countP (·.holds value) ≤ 1 := by
  simp only [List.countP_cons, List.countP_nil, holds_before_iff, holds_between_self_iff,
    holds_after_iff]
  generalize value.bind (·.compare? operand) = compared
  cases compared with
  | none => simp
  | some decided => cases decided <;> simp

end Predicate

namespace Value

/-- The order of all values is linear, with null as the least.  The comparison within a kind is
reversed by turning it round, agrees with the order where it answers, carries on over values that
are each less than the next, and finds nothing equal but equal values without nulls.  So a range of
one value accepts what equality with it accepts, unless it contains a null, and no value lies in two
of the places before, within and after it. -/
theorem comparisons_agree (a b c operand : Value) (o : Ordering) (value : Option Value) :
    ((a.order b = .eq ↔ a = b) ∧ b.order a = (a.order b).swap ∧
        ((a.order b).isLE = true → (b.order c).isLE = true → (a.order c).isLE = true) ∧
        (null.order a).isLE = true) ∧
      b.compare? a = (a.compare? b).map Ordering.swap ∧
      (a.compare? b = some o → a.order b = o) ∧
      (a.compare? b = some .lt → b.compare? c = some .lt → a.compare? c = some .lt) ∧
      (a.compare? b = some .eq ↔ a = b ∧ a.containsNull = false) ∧
      ((Predicate.between operand operand).holds value = true ↔
        (Predicate.equals operand).holds value = true ∧ operand.containsNull = false) ∧
      [Predicate.before operand, .between operand operand, .after operand].countP
        (·.holds value) ≤ 1 := by
  have nullFirst : (null.order a).isLE = true := by cases a <;> rfl
  exact ⟨⟨order_eq_iff a b, order_swap b a, order_trans a b c, nullFirst⟩, compare?_swap a b,
    order_of_compare?, compare?_lt_trans, compare?_eq_iff,
    Predicate.holds_between_self_iff_equals, Predicate.countP_holds_le_one⟩

/-- An array with a null behind the place that decides is compared all the same, and lies between
two others; with itself it is not comparable, so no range of one value accepts it. -/
theorem comparisons_agree_samples :
    let low := array [integer 1, null]
    let middle := array [integer 2, null]
    let high := array [integer 3]
    low.compare? middle = some .lt ∧ middle.compare? high = some .lt ∧
      low.compare? high = some .lt ∧ low.order high = .lt ∧
      (low.order middle).isLE = true ∧ (middle.order high).isLE = true ∧
      (low.order high).isLE = true ∧
      (Predicate.equals middle).holds (some middle) = true ∧
      (Predicate.between middle middle).holds (some middle) ≠ true := by
  intro low middle high
  have first : low.compare? middle = some .lt := by rfl
  have second : middle.compare? high = some .lt := by rfl
  obtain ⟨⟨-, -, transitive, -⟩, -, -, carriesOn, -, range, -⟩ :=
    comparisons_agree low middle high middle .lt (some middle)
  obtain ⟨-, -, agrees, -⟩ := comparisons_agree low high high high .lt none
  have compared : low.compare? high = some .lt := carriesOn first second
  have lowFirst : (low.order middle).isLE = true := by rfl
  have highLast : (middle.order high).isLE = true := by rfl
  refine ⟨first, second, compared, agrees compared, lowFirst, highLast,
    transitive lowFirst highLast, by rfl, fun within => ?_⟩
  have full : middle.containsNull = false := (range.mp within).2
  cases full

end Value

end EntityStore
