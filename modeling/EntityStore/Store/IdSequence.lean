import EntityStore.Metadata.Basic

/-!
Fresh ids.

An `IdSequence` counts upwards.  It is a value of its own, apart from any store,
so several stores can draw from one sequence.  The numbers that it hands out are
words of 64 bits: behind the largest they start again with 0, so they are
different as long as the sequence is not exhausted (`IdSequence.Unexhausted`).
`Metadata.freshId` gives a number the form of an id.
-/

namespace EntityStore

/-- A source of fresh numbers: how far it has counted.  The count goes on where
the numbers start again, and so tells whether they have. -/
structure IdSequence where
  count : Nat
  deriving DecidableEq, Inhabited

namespace IdSequence

/-- The sequence that starts with 1. -/
def start : IdSequence := ⟨0⟩

/-- The sequence that goes on after a number. -/
def startingAfter (last : Nat) : IdSequence := ⟨last⟩

/-- The last number handed out. -/
def last (ids : IdSequence) : UInt64 := .ofNat ids.count

/-- The next number; 0 comes behind the largest. -/
def next (ids : IdSequence) : UInt64 := ids.last + 1

/-- The sequence after its next number has been handed out. -/
def advance (ids : IdSequence) : IdSequence := ⟨ids.count + 1⟩

/-- The next numbers, as many as asked for. -/
def take : Nat → IdSequence → List UInt64 × IdSequence
  | 0, ids => ([], ids)
  | n + 1, ids =>
      let (rest, ids') := take n ids.advance
      (ids.next :: rest, ids')

/-- The numbers have not started again: the count is still a word. -/
def Unexhausted (ids : IdSequence) : Prop := ids.count < UInt64.size

instance (ids : IdSequence) : Decidable ids.Unexhausted :=
  inferInstanceAs (Decidable (ids.count < UInt64.size))

theorem next_eq_ofNat (ids : IdSequence) : ids.next = .ofNat (ids.count + 1) :=
  (UInt64.ofNat_add ids.count 1).symm

/-- As long as the numbers do not start again, they are the counts. -/
theorem toNat_next {ids : IdSequence} (unexhausted : ids.advance.Unexhausted) :
    ids.next.toNat = ids.count + 1 := by
  have fits : ids.count + 1 < UInt64.size := unexhausted
  rw [next_eq_ofNat, UInt64.toNat_ofNat_of_lt' fits]

end IdSequence

/-- The form of a fresh id where the table does not say. -/
inductive IdForm where
  | text
  | number
  deriving DecidableEq, Inhabited

namespace Metadata

/-- Whether fresh ids of a table are numbers: an id field that stores integers
or text decides, otherwise the form that the store is set to. -/
def hasNumericIds (m : Metadata) (form : IdForm) : Bool :=
  match m.idType? with
  | some .integer => true
  | some .text => false
  | _ => form == .number

/-- Whether a number can be the content of an integer value. -/
def fitsInteger (n : UInt64) : Bool := decide (n.toNat ≤ 9223372036854775807)

/-- The id that a fresh number stands for; integers end at the largest signed
word of 64 bits. -/
def freshId (m : Metadata) (form : IdForm) (n : UInt64) : Except Error Value :=
  if m.hasNumericIds form then
    if fitsInteger n then .ok (.integer (Int64.ofNat n.toNat))
    else .error (.invalidOperation "id sequence exhausted")
  else .ok (.text (toString n))

/-- A fresh id is its number, as an integer that does not overflow or as text. -/
theorem freshId_of_ok {m : Metadata} {form : IdForm} {n : UInt64} {id : Value}
    (fresh : m.freshId form n = .ok id) :
    (id = .integer (Int64.ofNat n.toNat) ∧ (Int64.ofNat n.toNat).toInt = n.toNat) ∨
      id = .text (toString n) := by
  unfold freshId at fresh
  split at fresh
  · split at fresh
    · rename_i fits
      cases fresh
      have bound : n.toNat < 2 ^ 63 := Nat.lt_succ_of_le (of_decide_eq_true fits)
      exact .inl ⟨rfl, Int64.toInt_ofNat_of_lt bound⟩
    · cases fresh
  · cases fresh
    exact .inr rfl

end Metadata

end EntityStore
