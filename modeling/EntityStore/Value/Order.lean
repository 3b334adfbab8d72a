import EntityStore.Value.Basic

/-!
Two comparisons of values.

`Value.compare?` compares within one kind, as conditions do: values of
different kinds, and nulls, are incomparable, also where they meet inside
arrays.  `Value.order` compares any two values, as sorting does: kinds come in
the order of their ranks, null first, and values of one kind by content.
Arrays compare item by item and then by length in both.

`Value.order` is a linear order (`instTransOrd`, `instLawfulEqOrd`), so values
can be keys of a `SortedMap`, and equality of values is decided by it.
-/

namespace EntityStore

namespace Value

mutual

/-- Compares two values of one kind; other pairs, and nulls, are incomparable. -/
def compare? : Value → Value → Option Ordering
  | .bool a, .bool b => some (compare a b)
  | .integer a, .integer b => some (compare a b)
  | .text a, .text b => some (compare a b)
  | .bytes a, .bytes b => some (compare a b)
  | .timestamp a, .timestamp b => some (compare a b)
  | .array as, .array bs => compareItems? as bs
  | _, _ => none

/-- The first pair of items that does not compare as equal decides, an
incomparable pair by making the arrays incomparable; then the length decides. -/
def compareItems? : List Value → List Value → Option Ordering
  | [], [] => some .eq
  | [], _ :: _ => some .lt
  | _ :: _, [] => some .gt
  | a :: as, b :: bs =>
      match compare? a b with
      | some .eq => compareItems? as bs
      | decided => decided

end

mutual

/-- Compares any two values: by kind, then by content. -/
def order : Value → Value → Ordering
  | .bool a, .bool b => compare a b
  | .integer a, .integer b => compare a b
  | .text a, .text b => compare a b
  | .bytes a, .bytes b => compare a b
  | .timestamp a, .timestamp b => compare a b
  | .array as, .array bs => orderItems as bs
  | a, b => compare a.kind.rank b.kind.rank

/-- The first pair of items that differ decides, then the length. -/
def orderItems : List Value → List Value → Ordering
  | [], [] => .eq
  | [], _ :: _ => .lt
  | _ :: _, [] => .gt
  | a :: as, b :: bs => (order a b).then (orderItems as bs)

end

instance : Ord Value := ⟨order⟩

/-! ## The order is linear -/

/-- Different kinds have different ranks. -/
theorem Kind.rank_injective {k l : Kind} (same : k.rank = l.rank) : k = l := by
  cases k <;> cases l <;> simp_all [Kind.rank]

/-- Values of different kinds compare as their ranks do. -/
theorem order_of_rank_ne {a b : Value} (other : a.kind.rank ≠ b.kind.rank) :
    a.order b = compare a.kind.rank b.kind.rank := by
  cases a <;> cases b <;> simp_all [order, kind]

mutual

/-- Only equal values compare as equal. -/
theorem order_eq_iff : ∀ a b : Value, a.order b = .eq ↔ a = b
  | .null, b => by cases b <;> simp [order, kind, Kind.rank]
  | .bool _, b => by cases b <;> simp [order, kind, Kind.rank]
  | .integer _, b => by cases b <;> simp [order, kind, Kind.rank]
  | .text _, b => by cases b <;> simp [order, kind, Kind.rank]
  | .bytes _, b => by cases b <;> simp [order, kind, Kind.rank]
  | .timestamp _, b => by cases b <;> simp [order, kind, Kind.rank]
  | .array as, b => by cases b <;> simp [order, kind, Kind.rank, orderItems_eq_iff as]

/-- Only equal lists compare as equal. -/
theorem orderItems_eq_iff : ∀ as bs : List Value, orderItems as bs = .eq ↔ as = bs
  | [], bs => by cases bs <;> simp [orderItems]
  | a :: as, bs => by
      cases bs <;>
        simp [orderItems, Ordering.then_eq_eq, order_eq_iff a, orderItems_eq_iff as]

end

/-- A lesser value is not of a greater kind. -/
theorem rank_le_of_order {a b : Value} (le : (a.order b).isLE) : a.kind.rank ≤ b.kind.rank := by
  by_cases same : a.kind.rank = b.kind.rank
  · exact Nat.le_of_eq same
  · rw [order_of_rank_ne same] at le
    exact Nat.isLE_compare.mp le

mutual

/-- Turning a comparison round reverses its outcome. -/
theorem order_swap : ∀ a b : Value, a.order b = (b.order a).swap
  | .array as, .array bs => orderItems_swap as bs
  | .array _, .null => rfl
  | .array _, .bool _ => rfl
  | .array _, .integer _ => rfl
  | .array _, .text _ => rfl
  | .array _, .bytes _ => rfl
  | .array _, .timestamp _ => rfl
  | .null, b => by cases b <;> rfl
  | .bool _, b => by cases b <;> simp only [order] <;> exact Std.OrientedOrd.eq_swap
  | .integer _, b => by cases b <;> simp only [order] <;> exact Std.OrientedOrd.eq_swap
  | .text _, b => by cases b <;> simp only [order] <;> exact Std.OrientedOrd.eq_swap
  | .bytes _, b => by cases b <;> simp only [order] <;> exact Std.OrientedOrd.eq_swap
  | .timestamp _, b => by cases b <;> simp only [order] <;> exact Std.OrientedOrd.eq_swap

/-- Turning a comparison of lists round reverses its outcome. -/
theorem orderItems_swap : ∀ as bs : List Value, orderItems as bs = (orderItems bs as).swap
  | [], bs => by cases bs <;> rfl
  | a :: as, bs => by
      cases bs with
      | nil => rfl
      | cons b bs =>
          simp [orderItems, order_swap a b, orderItems_swap as bs, Ordering.swap_then]

end

/-- Where the kinds do not all agree, their ranks make the order transitive. -/
theorem order_trans_of_kind {a b c : Value} (ab : (a.order b).isLE) (bc : (b.order c).isLE)
    (mixed : ¬(a.kind = b.kind ∧ b.kind = c.kind)) : (a.order c).isLE := by
  have below := rank_le_of_order ab
  have above := rank_le_of_order bc
  have less : a.kind.rank < c.kind.rank := by
    refine Nat.lt_of_le_of_ne (Nat.le_trans below above) fun same => mixed ⟨?_, ?_⟩
    · exact Kind.rank_injective (by omega)
    · exact Kind.rank_injective (by omega)
  rw [order_of_rank_ne (Nat.ne_of_lt less)]
  exact Nat.isLE_compare.mpr (Nat.le_of_lt less)

mutual

/-- The order of values is transitive. -/
theorem order_trans (a b c : Value) (ab : (a.order b).isLE) (bc : (b.order c).isLE) :
    (a.order c).isLE := by
  by_cases same : a.kind = b.kind ∧ b.kind = c.kind
  · obtain ⟨sameAB, sameBC⟩ := same
    cases a <;> cases b <;> simp only [kind, reduceCtorEq] at sameAB <;>
      cases c <;> simp only [kind, reduceCtorEq] at sameBC
    · rfl
    · exact Std.TransOrd.isLE_trans ab bc
    · exact Std.TransOrd.isLE_trans ab bc
    · exact Std.TransOrd.isLE_trans ab bc
    · exact Std.TransOrd.isLE_trans ab bc
    · exact Std.TransOrd.isLE_trans ab bc
    · exact orderItems_trans _ _ _ ab bc
  · exact order_trans_of_kind ab bc same

/-- The order of lists is transitive. -/
theorem orderItems_trans : ∀ as bs cs : List Value, (orderItems as bs).isLE →
    (orderItems bs cs).isLE → (orderItems as cs).isLE
  | [], _, cs => by cases cs <;> simp [orderItems]
  | _ :: _, [], _ => by simp [orderItems]
  | _ :: _, _ :: _, [] => by simp [orderItems]
  | a :: as, b :: bs, c :: cs => fun ab bc => by
      simp only [orderItems, Ordering.isLE_then_iff_or] at ab bc ⊢
      rcases ab with ab | ⟨ab, asbs⟩
      · refine .inl ?_
        rcases bc with bc | ⟨bc, _⟩
        · have le := order_trans a b c (by simp [ab]) (by simp [bc])
          rcases Ordering.isLE_iff_eq_lt_or_eq_eq.mp le with less | same
          · exact less
          · obtain rfl := (order_eq_iff a c).mp same
            simp [order_swap a b, bc] at ab
        · obtain rfl := (order_eq_iff b c).mp bc
          exact ab
      · obtain rfl := (order_eq_iff a b).mp ab
        rcases bc with bc | ⟨bc, bscs⟩
        · exact .inl bc
        · exact .inr ⟨bc, orderItems_trans as bs cs asbs bscs⟩

end

/-! ## Values as keys -/

instance instTransOrd : Std.TransOrd Value where
  eq_swap := order_swap _ _
  isLE_trans := order_trans _ _ _

instance instLawfulEqOrd : Std.LawfulEqOrd Value where
  compare_self {a} := (order_eq_iff a a).mpr rfl
  eq_of_compare {a b} := (order_eq_iff a b).mp

/-- Equality of values is decided by the order. -/
instance : DecidableEq Value := fun a b => decidable_of_iff (a.order b = .eq) (order_eq_iff a b)

end Value

end EntityStore
