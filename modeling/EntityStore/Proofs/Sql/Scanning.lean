import EntityStore.Proofs.Sql.Grammar

/-!
The tokens of the text of a fragment.

Numbering and lexing go through text in step, so a piece of text has tokens of its
own (`Scans`): whatever follows it, its tokens come first and its markers take the
next numbers.  What follows has to be apart, which means that it must not go on
with the last token.  A separator sees to that, so pieces of text can be joined by
separators (`Scans.join`).
-/

namespace EntityStore.Sql

/-- The tokens of text with markers, numbered from `next` on. -/
def scan (next : Nat) (text : List Char) : List Token := lex .outside (numberFrom false next text)

/-- Text that does not go on with a name, a number or a word. -/
def Apart (text : List Char) : Prop := ∀ c ∈ text.head?, c.isAlphanum = false ∧ c ≠ '"'

/-- The text has tokens of its own and as many markers as `count`. -/
def Scans (text : List Char) (next count : Nat) (tokens : List Token) : Prop :=
  ∀ rest, Apart rest → scan next (text ++ rest) = tokens ++ scan (next + count) rest

/-- Whether text has neither quotes nor markers. -/
def isPlain (text : List Char) : Bool := text.all fun c => c != '"' && c != '?'

/-- Plain text that has its tokens whatever stands before and after it. -/
structure Separates (text : List Char) (tokens : List Token) : Prop where
  plain : isPlain text = true
  apart : ∀ rest, Apart (text ++ rest)
  lexed : ∀ rest, lex .outside (text ++ rest) = tokens ++ lex .outside rest

theorem Apart.nil : Apart [] := nofun

theorem Apart.cons {c : Char} {rest : List Char} (letter : c.isAlphanum = false) (quote : c ≠ '"') :
    Apart (c :: rest) := by
  intro first isFirst
  cases isFirst
  exact ⟨letter, quote⟩

theorem Apart.numberFrom {text : List Char} (apart : Apart text) (next : Nat) :
    Apart (numberFrom false next text) := by
  cases text with
  | nil => exact .nil
  | cons c rest =>
      obtain ⟨letter, quote⟩ := apart c rfl
      rw [Sql.numberFrom, if_neg quote]
      split
      · exact .cons (by decide) (by decide)
      · exact .cons letter quote

/-! ## Numbering -/

/-- Plain text is left as it is. -/
theorem numberFrom_plain {text : List Char} (plain : isPlain text = true) (next : Nat)
    (rest : List Char) :
    numberFrom false next (text ++ rest) = text ++ numberFrom false next rest := by
  induction text with
  | nil => rfl
  | cons c text ih =>
      have both : (c ≠ '"' ∧ c ≠ '?') ∧ isPlain text = true := by
        simpa [isPlain] using plain
      obtain ⟨⟨quote, marker⟩, plainText⟩ := both
      rw [List.cons_append, numberFrom, if_neg quote, if_neg fun both => marker both.1,
        ih plainText]
      rfl

theorem numberFrom_doubleQuotes (name : List Char) (next : Nat) (rest : List Char) :
    numberFrom true next (doubleQuotes name ++ rest) =
      doubleQuotes name ++ numberFrom true next rest := by
  induction name with
  | nil => rfl
  | cons c name ih =>
      by_cases quote : c = '"'
      · simp [doubleQuotes, numberFrom, quote, ih]
      · simp [doubleQuotes, numberFrom, quote, ih]

/-- A quoted name is left as it is, whatever it contains. -/
theorem numberFrom_quotedChars (name : List Char) (next : Nat) (rest : List Char) :
    numberFrom false next (quotedChars name ++ rest) =
      quotedChars name ++ numberFrom false next rest := by
  have opened : numberFrom false next (quotedChars name ++ rest) =
      '"' :: numberFrom true next (doubleQuotes name ++ '"' :: rest) := by
    simp [quotedChars, numberFrom]
  rw [opened, numberFrom_doubleQuotes]
  simp [quotedChars, numberFrom]

/-! ## Lexing -/

/-- A token ends before what is apart. -/
theorem lex_of_apart {mode : Mode} {rest : List Char} (apart : Apart rest)
    (ends : ∀ c : Char, c.isAlphanum = false → c ≠ '"' → mode.continue? c = none) :
    lex mode rest = mode.finish ++ lex .outside rest := by
  cases rest with
  | nil => simp [lex, Mode.finish]
  | cons c rest =>
      obtain ⟨letter, quote⟩ := apart c rfl
      have outside : Mode.outside.continue? c = none := rfl
      rw [lex, ends c letter quote, lex, outside]
      simp [Mode.finish]

theorem lex_word (text : List Char) {rest : List Char} (apart : Apart rest) :
    lex (.word text) rest = .ofWord (String.ofList text) :: lex .outside rest := by
  refine lex_of_apart apart fun c letter _ => ?_
  simp [Mode.continue?, letter]

theorem lex_number {n : Nat} {rest : List Char} (apart : Apart rest) :
    lex (.number (some n)) rest = .parameter n :: lex .outside rest := by
  refine lex_of_apart apart fun c letter _ => ?_
  have digit : c.isDigit = false := by
    unfold Char.isAlphanum at letter
    exact (Bool.or_eq_false_iff.mp letter).2
  simp [Mode.continue?, digit]

theorem lex_closing {name rest : List Char} (apart : Apart rest) :
    lex (.closing name) rest = .identifier (String.ofList name) :: lex .outside rest := by
  refine lex_of_apart apart fun c _ quote => ?_
  simp [Mode.continue?, quote]

theorem lex_doubleQuotes (name read rest : List Char) :
    lex (.quoted read) (doubleQuotes name ++ rest) = lex (.quoted (read ++ name)) rest := by
  induction name generalizing read with
  | nil => simp [doubleQuotes]
  | cons c name ih =>
      by_cases quote : c = '"'
      · simp [doubleQuotes, lex, Mode.continue?, quote, ih]
      · simp [doubleQuotes, lex, Mode.continue?, quote, ih]

/-- A quoted name is one identifier, with its quotes undoubled. -/
theorem lex_quotedChars {name rest : List Char} (apart : Apart rest) :
    lex .outside (quotedChars name ++ rest) =
      .identifier (String.ofList name) :: lex .outside rest := by
  have opened : lex .outside (quotedChars name ++ rest) =
      lex (.quoted []) (doubleQuotes name ++ '"' :: rest) := by
    simp [quotedChars, lex, Mode.continue?, Mode.finish, Mode.start]
  have closed : lex (.quoted name) ('"' :: rest) = lex (.closing name) rest := by
    simp [lex, Mode.continue?]
  rw [opened, lex_doubleQuotes, List.nil_append, closed, lex_closing apart]

theorem lex_digits {digits rest : List Char} (number : ∀ c ∈ digits, c.isDigit = true)
    (n : Nat) :
    lex (.number (some n)) (digits ++ rest) =
      lex (.number (some (Nat.ofDigitChars 10 digits n))) rest := by
  induction digits generalizing n with
  | nil => simp
  | cons c digits ih =>
      have digit : c.isDigit = true := number c List.mem_cons_self
      rw [List.cons_append, lex, Nat.ofDigitChars_cons,
        ← ih fun c member => number c (List.mem_cons_of_mem _ member)]
      simp [Mode.continue?, digit]

/-- A dollar sign and a number are a parameter. -/
theorem lex_parameter {n : Nat} {rest : List Char} (apart : Apart rest) :
    lex .outside ('$' :: ((toString n).toList ++ rest)) =
      .parameter n :: lex .outside rest := by
  have number : ∀ c ∈ Nat.toDigits 10 n, c.isDigit = true :=
    fun c member => Nat.isDigit_of_mem_toDigits (by decide) (by decide) member
  have value : Nat.ofDigitChars 10 (Nat.toDigits 10 n) 0 = n := Nat.ofDigitChars_ten_toDigits
  rw [Nat.toString_eq_ofList_toDigits, String.toList_ofList]
  have opened : ∀ text, lex .outside ('$' :: text) = lex (.number none) text := fun _ => rfl
  rw [opened]
  cases digits : Nat.toDigits 10 n with
  | nil => exact (Nat.toDigits_ne_nil digits).elim
  | cons first others =>
      rw [digits] at number value
      have digit : first.isDigit = true := number first List.mem_cons_self
      have begun : lex (.number none) (first :: (others ++ rest)) =
          lex (.number (some (10 * 0 + (first.toNat - '0'.toNat)))) (others ++ rest) := by
        simp [lex, Mode.continue?, digit]
      rw [List.cons_append, begun,
        lex_digits fun c member => number c (List.mem_cons_of_mem _ member),
        ← Nat.ofDigitChars_cons, value, lex_number apart]

/-! ## Pieces of text -/

namespace Scans

variable {next : Nat}

theorem nil : Scans [] next 0 [] := fun _ _ => rfl

/-- Two pieces of text, the second of which does not go on with the first. -/
theorem append {text text' : List Char} {count count' : Nat} {tokens tokens' : List Token}
    (first : Scans text next count tokens) (second : Scans text' (next + count) count' tokens')
    (apart : ∀ rest, Apart rest → Apart (text' ++ rest)) :
    Scans (text ++ text') next (count + count') (tokens ++ tokens') := by
  intro rest apartRest
  rw [List.append_assoc, first _ (apart rest apartRest), second rest apartRest, List.append_assoc,
    Nat.add_assoc]

theorem plain {text : List Char} {tokens : List Token} (plain : isPlain text = true)
    (lexed : ∀ rest, Apart rest → lex .outside (text ++ rest) = tokens ++ lex .outside rest) :
    Scans text next 0 tokens := by
  intro rest apart
  unfold scan
  rw [numberFrom_plain plain, lexed _ (apart.numberFrom next)]
  rfl

/-- Text whose last token is a word. -/
theorem words {text word : List Char} {tokens : List Token} (plain : isPlain text = true)
    (lexed : ∀ rest, lex .outside (text ++ rest) = tokens ++ lex (.word word) rest) :
    Scans text next 0 (tokens ++ [.ofWord (String.ofList word)]) := by
  refine .plain plain fun rest apart => ?_
  rw [lexed, lex_word word apart, List.append_assoc]
  rfl

theorem identifier (name : String) :
    Scans (quoteIdentifier name).toList next 0 [.identifier name] := by
  intro rest apart
  unfold scan quoteIdentifier
  rw [String.toList_ofList, numberFrom_quotedChars, lex_quotedChars (apart.numberFrom next),
    String.ofList_toList]
  rfl

theorem marker : Scans "?".toList next 1 [.parameter next] := by
  intro rest apart
  have numbered : numberFrom false next ('?' :: rest) =
      '$' :: ((toString next).toList ++ numberFrom false (next + 1) rest) := by
    simp [numberFrom]
  exact (congrArg (lex .outside) numbered).trans (lex_parameter (apart.numberFrom _))

/-- Three pieces of text, the middle one of which keeps the others apart. -/
theorem join {text text' separator : List Char} {count count' : Nat}
    {tokens tokens' between : List Token} (first : Scans text next count tokens)
    (separates : Separates separator between)
    (second : Scans text' (next + count) count' tokens') :
    Scans (text ++ separator ++ text') next (count + count') (tokens ++ (between ++ tokens')) := by
  intro rest apart
  have middle : scan (next + count) (separator ++ (text' ++ rest)) =
      between ++ scan (next + count) (text' ++ rest) := by
    unfold scan
    rw [numberFrom_plain separates.plain, separates.lexed]
  rw [List.append_assoc, List.append_assoc, first _ (separates.apart _), middle,
    second rest apart, List.append_assoc, List.append_assoc, Nat.add_assoc]

end Scans

end EntityStore.Sql
