import OffloadCheck.Text.Scalar

/-!
How large a number in JSON text may be when its value is needed and it need not be whole. The
digits are taken as a whole number of 64 bits with a power of ten; digits that do not fit any more
count for the power alone. Both factors are rounded to doubles and so is their product, which has
to be finite. The three roundings can carry a number just below the greatest double past it.
-/
namespace OffloadCheck.Json

/-- The binary digits of a double. -/
def precision : Nat := 53

/-- A natural number rounded to `precision` binary digits; a half goes to the even neighbour. -/
def roundToDouble (n : Nat) : Nat :=
  let unit := 1 <<< (n.log2 + 1 - precision)
  let count := n / unit
  let rest := n % unit
  if unit < 2 * rest || (2 * rest = unit && count % 2 = 1) then (count + 1) * unit
  else count * unit

/-- The least power of two that no finite double reaches. -/
def doubleLimit : Nat := 1 <<< 1024

/-- The greatest power of ten that a double holds. -/
def maxPower : Nat := 308

/-- Whether a whole number times a power of ten is finite as a product of doubles. -/
def isFiniteProduct (significand : Nat) (power : Int) : Bool :=
  if significand = 0 then true
  else if Int.ofNat maxPower < power then false
  else if power < 0 then true
  else
    roundToDouble (roundToDouble significand * roundToDouble (Nat.pow 10 power.toNat)) < doubleLimit

/-- Appends digits to a number until it would not fit 64 bits, and gives the digits left over. -/
def takeDigits (n : Nat) : List Char → Nat × List Char
  | [] => (n, [])
  | c :: cs =>
    let more := n * 10 + (Text.digit? c).getD 0
    if more < UInt64.size then takeDigits more cs else (n, c :: cs)

def isFinite (lexeme : List Char) : Bool :=
  let (mantissa, exponentPart) := (lexeme.dropWhile (· = '-')).span fun c => c ≠ 'e' && c ≠ 'E'
  let (whole, fractionPart) := mantissa.span (· ≠ '.')
  let places := fractionPart.drop 1
  let (n, surplus) := takeDigits 0 whole
  let (significand, dropped) := takeDigits n places
  let exponent := (Text.signedDecimal? (exponentPart.drop 1)).getD 0
  isFiniteProduct significand
    (exponent + Int.ofNat surplus.length - Int.ofNat (places.length - dropped.length))

end OffloadCheck.Json
