import EntityStore.Proofs.Sql.Reading

/-!
What a fragment means.

A fragment means a truth value in a row on a level (`Fragment.Means`) if, wherever
its parameters stand among those of the query, its text is read on that level as a
condition that is true in the row exactly if the truth value is `true`.  Fragments
put together by a connective or by parentheses mean what their parts make of it.
-/

namespace EntityStore.Sql

/-- The fragment, with its parameters after others and before others, is read as a
condition that is true in the row exactly if `holds` is. -/
def Fragment.Means (row : String → Value) (level : Level) (f : Fragment) (holds : Bool) : Prop :=
  ∀ before after : List Value, ∃ (tokens : List Token) (expr : Expr),
    Scans f.text.toList (before.length + 1) f.values.length tokens ∧ Reads level tokens expr ∧
      (expr.eval row (before ++ f.values ++ after) = some true ↔ holds = true)

/-! ## Separators -/

theorem Separates.and : Separates " AND ".toList [.and] :=
  ⟨rfl, fun _ => .cons (by decide) (by decide), fun _ => rfl⟩

theorem Separates.or : Separates " OR ".toList [.or] :=
  ⟨rfl, fun _ => .cons (by decide) (by decide), fun _ => rfl⟩

theorem Separates.open : Separates "(".toList [.open] :=
  ⟨rfl, fun _ => .cons (by decide) (by decide), fun _ => rfl⟩

theorem Separates.close : Separates ")".toList [.close] :=
  ⟨rfl, fun _ => .cons (by decide) (by decide), fun _ => rfl⟩

/-! ## Fragments put together -/

namespace Fragment.Means

variable {row : String → Value} {f g : Fragment} {a b : Bool}

theorem conjunction (means : f.Means row .term a) : f.Means row .conjunction a := by
  intro before after
  obtain ⟨tokens, expr, scans, reads, eval⟩ := means before after
  exact ⟨tokens, expr, scans, reads.conjunction, eval⟩

theorem disjunction (means : f.Means row .conjunction a) : f.Means row .disjunction a := by
  intro before after
  obtain ⟨tokens, expr, scans, reads, eval⟩ := means before after
  exact ⟨tokens, expr, scans, reads.disjunction, eval⟩

theorem and (left : f.Means row .term a) (right : g.Means row .conjunction b) :
    (Fragment.mk (f.text ++ " AND " ++ g.text) (f.values ++ g.values)).Means row .conjunction
      (a && b) := by
  intro before after
  obtain ⟨tokens, expr, scans, reads, eval⟩ := left before (g.values ++ after)
  obtain ⟨tokens', expr', scans', reads', eval'⟩ := right (before ++ f.values) after
  rw [List.length_append, Nat.add_right_comm] at scans'
  refine ⟨_, _, ?_, reads.and reads', ?_⟩
  · rw [String.toList_append, String.toList_append, List.length_append]
    exact scans.join .and scans'
  · simp only [List.append_assoc] at eval eval' ⊢
    simp only [Expr.eval, Truth.and_eq_true, eval, eval', Bool.and_eq_true]

theorem or (left : f.Means row .conjunction a) (right : g.Means row .disjunction b) :
    (Fragment.mk (f.text ++ " OR " ++ g.text) (f.values ++ g.values)).Means row .disjunction
      (a || b) := by
  intro before after
  obtain ⟨tokens, expr, scans, reads, eval⟩ := left before (g.values ++ after)
  obtain ⟨tokens', expr', scans', reads', eval'⟩ := right (before ++ f.values) after
  rw [List.length_append, Nat.add_right_comm] at scans'
  refine ⟨_, _, ?_, reads.or reads', ?_⟩
  · rw [String.toList_append, String.toList_append, List.length_append]
    exact scans.join .or scans'
  · simp only [List.append_assoc] at eval eval' ⊢
    simp only [Expr.eval, Truth.or_eq_true, eval, eval', Bool.or_eq_true]

theorem grouped (means : f.Means row .disjunction a) : f.grouped.Means row .term a := by
  intro before after
  obtain ⟨tokens, expr, scans, reads, eval⟩ := means before after
  refine ⟨_, expr, ?_, reads.group, eval⟩
  have opened := Scans.nil.join .open scans
  have closed := opened.join .close .nil
  rw [List.nil_append, List.append_nil, Nat.zero_add] at closed
  have text : f.grouped.text.toList = "(".toList ++ f.text.toList ++ ")".toList := by
    rw [← String.toList_append, ← String.toList_append]
    rfl
  rw [text]
  exact closed

theorem truth (b : Bool) :
    (Fragment.mk (if b then "TRUE" else "FALSE") []).Means row .term b := by
  intro before after
  have scans : ∀ next, Scans (if b then "TRUE" else "FALSE").toList next 0 [.truth b] := by
    intro next
    cases b with
    | false => exact @Scans.words next "FALSE".toList "FALSE".toList [] rfl fun _ => rfl
    | true => exact @Scans.words next "TRUE".toList "TRUE".toList [] rfl fun _ => rfl
  refine ⟨[.truth b], .truth b, scans _, .truth b, ?_⟩
  simp [Expr.eval]

end Fragment.Means

end EntityStore.Sql
