import EntityStore.Sql.Fragment

/-!
Markers by their positions.

A question mark is a marker where the quotes before it are balanced.  This says
of each position alone what numbering finds out on its way through the text, so
it tells what finished text has to look like (`finishedFrom`): the k-th marker
gives way to `$k`, and every other character stays.  Numbering writes exactly that
(`toList_numberPlaceholders`), and behind balanced text it starts afresh
(`finishedFrom_append`).
-/

namespace EntityStore.Sql

/-- The text leaves no quote open. -/
def Balanced (text : List Char) : Prop := text.count '"' % 2 = 0

instance (text : List Char) : Decidable (Balanced text) :=
  inferInstanceAs (Decidable (_ = _))

/-- A marker stands at the position: a question mark behind balanced text. -/
def MarkerAt (text : List Char) (i : Nat) : Prop :=
  text[i]? = some '?' ∧ Balanced (text.take i)

instance (text : List Char) (i : Nat) : Decidable (MarkerAt text i) :=
  inferInstanceAs (Decidable (_ ∧ _))

/-- The number of markers before a position. -/
def markersBefore (text : List Char) (i : Nat) : Nat :=
  (List.range i).countP fun j => decide (MarkerAt text j)

/-- The number of markers. -/
def markers (text : List Char) : Nat := markersBefore text text.length

/-- What finished text has for the character at a position: `$` and its number for
a marker, where `before` markers stand before the text, and else the character. -/
def finishedAt (before : Nat) (text : List Char) (i : Nat) : List Char :=
  if MarkerAt text i then '$' :: (toString (before + markersBefore text i + 1)).toList
  else text[i]?.toList

/-- The finished form of text before which `before` markers stand. -/
def finishedFrom (before : Nat) (text : List Char) : List Char :=
  (List.range text.length).flatMap (finishedAt before text)

/-! ## Balanced text -/

theorem balanced_nil : Balanced [] := rfl

theorem balanced_append_iff {text rest : List Char} (balanced : Balanced text) :
    Balanced (text ++ rest) ↔ Balanced rest := by
  unfold Balanced at *
  rw [List.count_append]
  omega

theorem balanced_append {text rest : List Char} (balanced : Balanced text)
    (balancedRest : Balanced rest) : Balanced (text ++ rest) :=
  (balanced_append_iff balanced).mpr balancedRest

/-- A quote opens or closes; any other character leaves the balance as it is. -/
theorem balanced_concat (text : List Char) (c : Char) :
    Balanced (text ++ [c]) ↔ if c = '"' then ¬Balanced text else Balanced text := by
  unfold Balanced
  rw [List.count_append]
  by_cases quote : c = '"'
  · simp only [quote, List.count_singleton_self, if_true]
    omega
  · simp [quote]

/-! ## Counting markers -/

theorem markerAt_append {text : List Char} (rest : List Char) {i : Nat} (inside : i < text.length) :
    MarkerAt (text ++ rest) i ↔ MarkerAt text i := by
  unfold MarkerAt
  rw [List.getElem?_append_left inside, List.take_append_of_le_length (Nat.le_of_lt inside)]

theorem markerAt_length (text rest : List Char) (c : Char) :
    MarkerAt (text ++ c :: rest) text.length ↔ c = '?' ∧ Balanced text := by
  unfold MarkerAt
  rw [List.getElem?_append_right (Nat.le_refl _), List.take_left, Nat.sub_self]
  simp

/-- The markers before a position depend on the text before it alone. -/
theorem markersBefore_append {text : List Char} (rest : List Char) {i : Nat}
    (inside : i ≤ text.length) : markersBefore (text ++ rest) i = markersBefore text i := by
  apply List.countP_congr
  intro j member
  have before : j < text.length := Nat.lt_of_lt_of_le (List.mem_range.mp member) inside
  simp [markerAt_append rest before]

theorem markersBefore_length (text rest : List Char) :
    markersBefore (text ++ rest) text.length = markers text :=
  markersBefore_append rest (Nat.le_refl _)

theorem markers_concat (text : List Char) (c : Char) :
    markers (text ++ [c]) = markers text + if c = '?' ∧ Balanced text then 1 else 0 := by
  unfold markers
  rw [List.length_append, List.length_singleton]
  unfold markersBefore
  rw [List.range_succ, List.countP_append, List.countP_singleton]
  congr 1
  · exact markersBefore_length text [c]
  · simp [markerAt_length text [] c]

/-- What text adds to the markers before it depends only on whether a quote is open. -/
theorem markers_append_add (text : List Char) :
    ∀ {first second : List Char}, (Balanced first ↔ Balanced second) →
      markers (first ++ text) + markers second = markers (second ++ text) + markers first := by
  induction text with
  | nil =>
      intro first second _
      simp only [List.append_nil]
      omega
  | cons c text ih =>
      intro first second same
      have extended : Balanced (first ++ [c]) ↔ Balanced (second ++ [c]) := by
        rw [balanced_concat, balanced_concat, same]
      have moved := ih extended
      rw [List.append_assoc, List.append_assoc, markers_concat, markers_concat] at moved
      simp only [same, List.singleton_append] at moved
      omega

theorem markers_append {text : List Char} (balanced : Balanced text) (rest : List Char) :
    markers (text ++ rest) = markers text + markers rest := by
  have alike : Balanced text ↔ Balanced [] := ⟨fun _ => balanced_nil, fun _ => balanced⟩
  have moved := markers_append_add rest alike
  have none : markers [] = 0 := rfl
  rw [List.nil_append] at moved
  omega

/-! ## Numbering -/

/-- Numbering writes the finished form of each position, given what stands before. -/
theorem numberFrom_eq_flatMap (before : Nat) (text : List Char) :
    ∀ start : List Char,
      numberFrom (!decide (Balanced start)) (before + markers start + 1) text =
        (List.range' start.length text.length).flatMap (finishedAt before (start ++ text)) := by
  induction text with
  | nil => exact fun _ => rfl
  | cons c rest ih =>
      intro start
      have others := ih (start ++ [c])
      rw [List.append_assoc, List.singleton_append, List.length_append, List.length_singleton,
        markers_concat] at others
      have here : (start ++ c :: rest)[start.length]? = some c := by simp
      rw [List.length_cons, List.range'_succ, List.flatMap_cons, ← others]
      unfold finishedAt
      rw [markersBefore_length, here]
      simp only [balanced_concat, markerAt_length]
      by_cases quote : c = '"'
      · subst quote
        by_cases balanced : Balanced start
        · simp [numberFrom, balanced]
        · simp [numberFrom, balanced]
      · by_cases marker : c = '?' ∧ Balanced start
        · rcases marker with ⟨rfl, balanced⟩
          simp [numberFrom, balanced, Nat.add_assoc]
        · have unquoted : ¬(c = '?' ∧ (!decide (Balanced start)) = false) := by
            simpa using marker
          rw [numberFrom, if_neg quote, if_neg unquoted, if_neg marker, if_neg marker]
          simp [quote]

theorem numberFrom_eq_finishedFrom (before : Nat) (text : List Char) :
    numberFrom false (before + 1) text = finishedFrom before text := by
  unfold finishedFrom
  rw [List.range_eq_range']
  exact numberFrom_eq_flatMap before text []

/-- Numbering replaces the k-th marker by `$k` and changes nothing else. -/
theorem toList_numberPlaceholders (text : String) :
    (numberPlaceholders text).toList = finishedFrom 0 text.toList := by
  unfold numberPlaceholders
  rw [String.toList_ofList]
  exact numberFrom_eq_finishedFrom 0 text.toList

theorem finishedAt_append (before : Nat) {text : List Char} (rest : List Char) {i : Nat}
    (inside : i < text.length) : finishedAt before (text ++ rest) i = finishedAt before text i := by
  unfold finishedAt
  rw [markersBefore_append rest (Nat.le_of_lt inside), List.getElem?_append_left inside]
  simp only [markerAt_append rest inside]

/-- Behind balanced text numbering starts afresh, with the next number. -/
theorem finishedFrom_append {text : List Char} (balanced : Balanced text) (before : Nat)
    (rest : List Char) :
    finishedFrom before (text ++ rest) =
      finishedFrom before text ++ finishedFrom (before + markers text) rest := by
  have behind := numberFrom_eq_flatMap before rest text
  have closed : (!decide (Balanced text)) = false := by simp [balanced]
  rw [closed, numberFrom_eq_finishedFrom] at behind
  have ahead : (List.range text.length).flatMap (finishedAt before (text ++ rest)) =
      finishedFrom before text := by
    unfold finishedFrom
    rw [List.flatMap_def, List.flatMap_def]
    apply congrArg List.flatten
    apply List.map_congr_left
    intro i member
    exact finishedAt_append before rest (List.mem_range.mp member)
  have positions : List.range (text ++ rest).length =
      List.range text.length ++ List.range' text.length rest.length := by
    rw [List.range_eq_range', List.range_eq_range', List.length_append, ← List.range'_append_1,
      Nat.zero_add]
  rw [behind, ← ahead, ← List.flatMap_append, ← positions]
  rfl

end EntityStore.Sql
