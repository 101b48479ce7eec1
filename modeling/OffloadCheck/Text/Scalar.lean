/-!
Switches and whole numbers as text. A natural number is written in decimal or in fixed-width
lower-case hexadecimal, and a signed decimal is read with an optional sign, any number of leading
zeros and nothing else; the bounds of a machine word are a separate check on the value read.
-/
namespace OffloadCheck.Text

def ofBool (value : Bool) : String := if value then "true" else "false"

def bool? (s : String) : Option Bool :=
  if s = "true" then some true else if s = "false" then some false else none

theorem bool?_ofBool (b : Bool) : bool? (ofBool b) = some b := by
  cases b <;> decide

def digit? (c : Char) : Option Nat :=
  if '0' ≤ c ∧ c ≤ '9' then some (c.toNat - '0'.toNat) else none

def hexDigit? (c : Char) : Option Nat :=
  if '0' ≤ c ∧ c ≤ '9' then some (c.toNat - '0'.toNat)
  else if 'a' ≤ c ∧ c ≤ 'f' then some (c.toNat - 'a'.toNat + 10)
  else if 'A' ≤ c ∧ c ≤ 'F' then some (c.toNat - 'A'.toNat + 10)
  else none

/-- The number that digits of a base spell after `acc`; a character that is no digit refuses. -/
def digitsFrom (base : Nat) (value : Char → Option Nat) : Nat → List Char → Option Nat
  | acc, [] => some acc
  | acc, c :: cs => (value c).bind fun d => digitsFrom base value (acc * base + d) cs

def decimal? : List Char → Option Nat
  | [] => none
  | cs => digitsFrom 10 digit? 0 cs

def signedDecimal? : List Char → Option Int
  | '+' :: cs => (decimal? cs).map Int.ofNat
  | '-' :: cs => (decimal? cs).map fun n => -Int.ofNat n
  | cs => (decimal? cs).map Int.ofNat

def FitsInt64 (n : Int) : Prop := Int64.minValue.toInt ≤ n ∧ n ≤ Int64.maxValue.toInt

instance (n : Int) : Decidable (FitsInt64 n) := inferInstanceAs (Decidable (_ ∧ _))

def int64? (s : String) : Option Int :=
  (signedDecimal? s.toList).filter fun n => decide (FitsInt64 n)

def ofNat (n : Nat) : String := String.ofList (Nat.toDigits 10 n)

theorem ofNat_injective {m n : Nat} (h : ofNat m = ofNat n) : m = n := by
  have hdigits := String.ofList_injective h
  rw [← @Nat.ofDigitChars_ten_toDigits m, hdigits, Nat.ofDigitChars_ten_toDigits]

def ofInt : Int → String
  | .ofNat n => ofNat n
  | .negSucc n => "-" ++ ofNat (n + 1)

def hexDigit (n : Nat) : Char := Nat.digitChar (n % 16)

/-- The last `width` hexadecimal digits of a number. -/
def hex : Nat → Nat → List Char
  | 0, _ => []
  | width + 1, n => hex width (n / 16) ++ [hexDigit n]

end OffloadCheck.Text
