/-!
Text as bytes in UTF-8 and back. Where bytes that are no text have to be shown all the same, U+FFFD
stands for each longest run of bytes that begins a character and does not end it, and for each byte
that begins none.
-/
namespace OffloadCheck.Text

def encode (s : String) : List UInt8 := s.toUTF8.toList

def decode? (bytes : List UInt8) : Option String := String.fromUTF8? ⟨bytes.toArray⟩

/-! ## Bytes that need not be text -/

def replacement : Char := '\uFFFD'

/-- A character whose last bytes have not been read. -/
structure Begun where
  /-- The number that the bytes so far stand for. -/
  number : Nat
  /-- How many bytes are missing. -/
  missing : Nat
  least : Nat
  greatest : Nat
deriving DecidableEq

/-- The character of several bytes that a byte begins. The bounds of the next byte keep out the
numbers that take fewer bytes, the surrogates and the numbers beyond the last character. -/
def begun? (byte : Nat) : Option Begun :=
  if byte < 0xC2 then none
  else if byte < 0xE0 then some ⟨byte - 0xC0, 1, 0x80, 0xBF⟩
  else if byte < 0xF0 then
    some ⟨byte - 0xE0, 2, if byte = 0xE0 then 0xA0 else 0x80, if byte = 0xED then 0x9F else 0xBF⟩
  else if byte < 0xF5 then
    some ⟨byte - 0xF0, 3, if byte = 0xF0 then 0x90 else 0x80, if byte = 0xF4 then 0x8F else 0xBF⟩
  else none

/-- What is shown of a byte that continues no character, and the character that it begins. -/
def showFirst (byte : Nat) : List Char × Option Begun :=
  if byte < 0x80 then ([Char.ofNat byte], none)
  else
    match begun? byte with
    | some begun => ([], some begun)
    | none => ([replacement], none)

def showNext : Option Begun → Nat → List Char × Option Begun
  | none, byte => showFirst byte
  | some begun, byte =>
    if begun.least ≤ byte ∧ byte ≤ begun.greatest then
      let number := begun.number * 64 + (byte - 0x80)
      if begun.missing = 1 then ([Char.ofNat number], none)
      else ([], some ⟨number, begun.missing - 1, 0x80, 0xBF⟩)
    else
      let (shown, next) := showFirst byte
      (replacement :: shown, next)

def showFrom (begun : Option Begun) : List UInt8 → List Char
  | [] => if begun.isSome then [replacement] else []
  | byte :: bytes =>
    let (shown, next) := showNext begun byte.toNat
    shown ++ showFrom next bytes

/-- The text that bytes are shown as. -/
def decodeLossy (bytes : List UInt8) : String := String.ofList (showFrom none bytes)

end OffloadCheck.Text
