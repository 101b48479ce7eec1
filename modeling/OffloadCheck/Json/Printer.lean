import OffloadCheck.Json.Basic

/-!
JSON text. The compact form has no blanks; the pretty form puts every element and member on a line
of its own, two spaces further in than what holds it. Quotes, backslashes and control characters are
escaped and everything else is written as it is.
-/
namespace OffloadCheck.Json

def escaped (c : Char) : List Char :=
  if c = '"' then ['\\', '"']
  else if c = '\\' then ['\\', '\\']
  else if c = '\x08' then ['\\', 'b']
  else if c = '\t' then ['\\', 't']
  else if c = '\n' then ['\\', 'n']
  else if c = '\x0c' then ['\\', 'f']
  else if c = '\r' then ['\\', 'r']
  else if c.toNat < 32 then '\\' :: 'u' :: Text.hex 4 c.toNat
  else [c]

/-- A string in quotes; one that spells no text is written as a lone surrogate. -/
def quoted : Option String → List Char
  | some s => '"' :: (s.toList.flatMap escaped ++ ['"'])
  | none => "\"\\ud800\"".toList

mutual

def compact : Json → List Char
  | .null => "null".toList
  | .bool b => (Text.ofBool b).toList
  | .number lexeme => lexeme
  | .string s => quoted s
  | .array es => '[' :: (compactElements es ++ [']'])
  | .object ms => '{' :: (compactMembers ms ++ ['}'])

def compactElements : List Json → List Char
  | [] => []
  | [j] => compact j
  | j :: js => compact j ++ ',' :: compactElements js

def compactMembers : List (Option String × Json) → List Char
  | [] => []
  | [(k, j)] => quoted k ++ ':' :: compact j
  | (k, j) :: ms => quoted k ++ ':' :: (compact j ++ ',' :: compactMembers ms)

end

def newLine (level : Nat) : List Char := '\n' :: List.replicate (2 * level) ' '

mutual

def prettyAt (level : Nat) : Json → List Char
  | .array [] => ['[', ']']
  | .array (j :: js) =>
    '[' :: (newLine (level + 1) ++ prettyAt (level + 1) j ++ prettyElements (level + 1) js ++
      newLine level ++ [']'])
  | .object [] => ['{', '}']
  | .object ((k, j) :: ms) =>
    '{' :: (newLine (level + 1) ++ quoted k ++ [':', ' '] ++ prettyAt (level + 1) j ++
      prettyMembers (level + 1) ms ++ newLine level ++ ['}'])
  | .null => "null".toList
  | .bool b => (Text.ofBool b).toList
  | .number lexeme => lexeme
  | .string s => quoted s

/-- The elements after the first, each behind a comma on a new line. -/
def prettyElements (level : Nat) : List Json → List Char
  | [] => []
  | j :: js => ',' :: (newLine level ++ prettyAt level j ++ prettyElements level js)

def prettyMembers (level : Nat) : List (Option String × Json) → List Char
  | [] => []
  | (k, j) :: ms =>
    ',' :: (newLine level ++ quoted k ++ [':', ' '] ++ prettyAt level j ++ prettyMembers level ms)

end

def render (j : Json) : String := String.ofList (compact j)

def pretty (j : Json) : String := String.ofList (prettyAt 0 j)

end OffloadCheck.Json
