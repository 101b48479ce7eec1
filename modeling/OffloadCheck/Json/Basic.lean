import OffloadCheck.Text.Scalar

/-!
JSON values with nothing lost that a later reading can depend on: numbers keep the way they are
written, members keep their order and their repetitions, and a string in which a surrogate stands
alone is kept as one that spells no text.
-/
namespace OffloadCheck

inductive Json
  | null
  | bool (value : Bool)
  /-- A number as written. -/
  | number (lexeme : List Char)
  /-- A string; `none` when a surrogate in it has no partner. -/
  | string (text : Option String)
  | array (elements : List Json)
  | object (members : List (Option String × Json))
deriving Inhabited

namespace Json

def text (s : String) : Json := .string (some s)

def nat (n : Nat) : Json := .number (Text.ofNat n).toList

def int (n : Int) : Json := .number (Text.ofInt n).toList

/-- An object with distinct keys. -/
def record (members : List (String × Json)) : Json :=
  .object (members.map fun m => (some m.1, m.2))

/-- The value inside, or `null`. -/
def orNull : Option Json → Json
  | none => .null
  | some j => j

mutual

/-- How many arrays and objects are open at the deepest place. -/
def depth : Json → Nat
  | .array es => depthOfElements es + 1
  | .object ms => depthOfMembers ms + 1
  | _ => 0

def depthOfElements : List Json → Nat
  | [] => 0
  | j :: js => max (depth j) (depthOfElements js)

def depthOfMembers : List (Option String × Json) → Nat
  | [] => 0
  | (_, j) :: ms => max (depth j) (depthOfMembers ms)

end

end Json
end OffloadCheck
