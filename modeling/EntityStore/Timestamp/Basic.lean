/-!
Points in time.

A `Timestamp` counts whole seconds from the start of 1970 (UTC) and
nanoseconds within the second.  Nanoseconds from 1 000 000 000 on stand for the
leap second that follows the last second of a minute: the order of timestamps
is lexicographic, so such a point lies after every other point of its second
and before the next second.
-/

namespace EntityStore

/-- Seconds since 1970-01-01T00:00:00Z, possibly negative, and nanoseconds
within the second. -/
structure Timestamp where
  seconds : Int
  nanos : Nat
  deriving DecidableEq, Inhabited

namespace Timestamp

/-- Earlier seconds first, then earlier nanoseconds. -/
instance : Ord Timestamp := ⟨compareLex (compareOn seconds) (compareOn nanos)⟩

instance : Std.TransOrd Timestamp :=
  inferInstanceAs (Std.TransCmp (compareLex (compareOn seconds) (compareOn nanos)))

instance : Std.LawfulEqOrd Timestamp where
  eq_of_compare {a b} same := by
    have parts : compare a.seconds b.seconds = .eq ∧ compare a.nanos b.nanos = .eq :=
      compareLex_eq_eq.mp same
    cases a; cases b
    simp_all

/-- The length of a second in nanoseconds. -/
def nanosPerSecond : Nat := 1000000000

/-- The length of a day in seconds. -/
def secondsPerDay : Int := 86400

/-- Whether the point lies in a leap second. -/
def inLeapSecond (t : Timestamp) : Bool := decide (nanosPerSecond ≤ t.nanos)

end Timestamp

end EntityStore
