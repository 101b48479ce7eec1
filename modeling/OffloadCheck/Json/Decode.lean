import OffloadCheck.Json.Basic
import OffloadCheck.Json.Number

/-!
Looking at JSON values as records, variants, numbers and lists. A record is an object with its
fields in any order, where unknown members are skipped and a field given twice is refused, or an
array of its fields in their order. A variant is a name alone or an object with the name as its one
member. A whole number is one written without point and exponent.
-/
namespace OffloadCheck.Json

def string? : Json → Option String
  | .string s => s
  | _ => none

def bool? : Json → Option Bool
  | .bool b => some b
  | _ => none

/-- A number written as digits alone, at most `max`. -/
def natUpTo? (max : Nat) : Json → Option Nat
  | .number lexeme => (Text.decimal? lexeme).filter (· ≤ max)
  | _ => none

/-- A number written as digits behind an optional minus; zero has no minus. -/
def int? : Json → Option Int
  | .number ('-' :: ds) =>
    (Text.decimal? ds).bind fun n => if n = 0 then none else some (-Int.ofNat n)
  | .number ds => (Text.decimal? ds).map Int.ofNat
  | _ => none

def word64? (j : Json) : Option Nat := natUpTo? (UInt64.size - 1) j

def uint32? (j : Json) : Option UInt32 := (natUpTo? (UInt32.size - 1) j).map UInt32.ofNat

def byte? (j : Json) : Option UInt8 := (natUpTo? 255 j).map UInt8.ofNat

def int32? (j : Json) : Option Int32 :=
  (int? j).bind fun n =>
    if Int32.minValue.toInt ≤ n ∧ n ≤ Int32.maxValue.toInt then some (Int32.ofInt n) else none

def list? (decode : Json → Option α) : Json → Option (List α)
  | .array es => es.mapM decode
  | _ => none

/-- `null` as nothing, and any other value as `decode` takes it. -/
def nullable? (decode : Json → Option α) : Json → Option (Option α)
  | .null => some none
  | j => (decode j).map some

/-- The fields of a record. -/
structure Fields where
  /-- Whether the record was an array. -/
  positional : Bool
  /-- The values, in the order of the field names. -/
  values : List (Option Json)

/-- The members of an object if every key spells a text. -/
def textMembers? (members : List (Option String × Json)) : Option (List (String × Json)) :=
  members.mapM fun (k, j) => k.map (·, j)

def fields? (names : List String) : Json → Option Fields
  | .object members =>
    (textMembers? members).bind fun members =>
      if names.all fun n => members.countP (fun m => m.1 = n) ≤ 1 then
        some ⟨false, names.map fun n => members.lookup n⟩
      else none
  | .array es => if es.length ≤ names.length then some ⟨true, es.map some⟩ else none
  | _ => none

namespace Fields

def value? (f : Fields) (i : Nat) : Option Json := (f.values[i]?).join

def required (f : Fields) (i : Nat) (decode : Json → Option α) : Option α :=
  (f.value? i).bind decode

/-- A field that may be missing from an object, and may be `null`. -/
def optional (f : Fields) (i : Nat) (decode : Json → Option α) : Option (Option α) :=
  match f.value? i with
  | some j => nullable? decode j
  | none => if f.positional then none else some none

def defaulted (f : Fields) (i : Nat) (decode : Json → Option α) (default : α) : Option α :=
  match f.value? i with
  | some j => decode j
  | none => some default

end Fields

/-- The name of a variant and what the variant holds, if it is written with something. -/
def variant? : Json → Option (String × Option Json)
  | .string s => s.map (·, none)
  | .object [(k, j)] => k.map (·, some j)
  | _ => none

/-- Whether a variant without content may hold this. -/
def isUnit : Option Json → Bool
  | none | some .null => true
  | _ => false

mutual

/-- Whether every string in a value spells a text and every number is finite. -/
def isReadable : Json → Bool
  | .string s => s.isSome
  | .number lexeme => isFinite lexeme
  | .array es => areReadable es
  | .object ms => membersAreReadable ms
  | _ => true

def areReadable : List Json → Bool
  | [] => true
  | j :: js => isReadable j && areReadable js

def membersAreReadable : List (Option String × Json) → Bool
  | [] => true
  | (k, j) :: ms => k.isSome && isReadable j && membersAreReadable ms

end

/-- How many arrays and objects may be open at once in a value that is looked at whole. -/
def maxDepth : Nat := 127

/-- Whether a value that stands inside `level` arrays and objects can be set aside for later: it has
to be readable throughout and not too deep. -/
def isStorable (level : Nat) (j : Json) : Bool := j.isReadable && level + j.depth ≤ maxDepth

end OffloadCheck.Json
