import EntityStore.Timestamp.Text
import EntityStore.Value.Basic

/-!
How values are written.

Text stands for itself, without quotes; a byte string is `0x` and two
hexadecimal digits per octet; an array lists its items in square brackets.
-/

namespace EntityStore

/-- Numbers with the same digits are the same. -/
theorem toString_number_injective {m n : Nat} (same : toString m = toString n) : m = n := by
  rw [Nat.toString_eq_ofList_toDigits, Nat.toString_eq_ofList_toDigits, String.ofList_inj] at same
  calc
    m = Nat.ofDigitChars 10 (Nat.toDigits 10 m) 0 := Nat.ofDigitChars_ten_toDigits.symm
    _ = Nat.ofDigitChars 10 (Nat.toDigits 10 n) 0 := by rw [same]
    _ = n := Nat.ofDigitChars_ten_toDigits

namespace Value

/-- The lower-case hexadecimal digit of a number below sixteen. -/
def hexDigit (n : Nat) : Char :=
  if n < 10 then Char.ofNat ('0'.toNat + n) else Char.ofNat ('a'.toNat + (n - 10))

/-- Two hexadecimal digits per octet. -/
def hexText (octets : List UInt8) : String :=
  String.ofList (octets.flatMap fun octet =>
    [hexDigit (octet.toNat / 16), hexDigit (octet.toNat % 16)])

mutual

/-- The written form of a value. -/
protected def toString : Value → String
  | .null => "null"
  | .bool b => if b then "true" else "false"
  | .integer n => toString n.toInt
  | .text s => s
  | .bytes octets => "0x" ++ hexText octets
  | .timestamp t => toString t
  | .array items => "[" ++ ", ".intercalate (itemTexts items) ++ "]"

/-- The written forms of the items of an array. -/
def itemTexts : List Value → List String
  | [] => []
  | item :: items => Value.toString item :: itemTexts items

end

instance : ToString Value := ⟨Value.toString⟩

end Value

end EntityStore
