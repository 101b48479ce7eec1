import OffloadCheck.Toml.Scalar
import OffloadCheck.Toml.Value

/-!
TOML text of values and of flat tables. A string takes the plainest notation that can hold it:
double quotes without escapes, single quotes, their forms of several lines, and escapes only when
nothing else will do. An array of two or more elements has one element on a line.
-/
namespace OffloadCheck.Toml

def longestRun (c : Char) (cs : List Char) : Nat :=
  (cs.foldl (fun (best, run) x => if x = c then (max best (run + 1), run + 1) else (best, 0))
    (0, 0)).1

/-- Whether a character needs an escape in every notation. -/
def needsEscape (c : Char) : Bool := !isPlain c && c ≠ '\n'

inductive Style
  | basic
  | literal
  | longBasic
  | longLiteral
deriving DecidableEq, Repr

def styleOf (cs : List Char) : Style :=
  let escapes := cs.any needsEscape
  let backslash := cs.contains '\\'
  let lines := cs.contains '\n'
  let doubles := longestRun '"' cs
  let singles := longestRun '\'' cs
  if !escapes && !backslash && doubles = 0 && !lines then .basic
  else if !escapes && singles = 0 && !lines then .literal
  else if !escapes && !backslash && doubles ≤ 2 then .longBasic
  else if !escapes && singles ≤ 2 then .longLiteral
  else if lines then .longBasic
  else .basic

/-- A character within double quotes. With `long` line ends stand for themselves, and `run` quotes
stand before the character. -/
def escaped (long : Bool) (run : Nat) (c : Char) : List Char :=
  if c = '"' then (if long && run < 2 then ['"'] else ['\\', '"'])
  else if c = '\\' then ['\\', '\\']
  else if c = '\x08' then ['\\', 'b']
  else if c = '\t' then ['\\', 't']
  else if c = '\n' then (if long then ['\n'] else ['\\', 'n'])
  else if c = '\x0c' then ['\\', 'f']
  else if c = '\r' then ['\\', 'r']
  else if c.toNat < 0x20 || c.toNat = 0x7F then
    '\\' :: 'u' :: (Text.hex 4 c.toNat).map Char.toUpper
  else [c]

/-- Characters within double quotes, behind `run` quotes that stand for themselves. -/
def escapedFrom (long : Bool) (run : Nat) : List Char → List Char
  | [] => []
  | c :: cs =>
    escaped long run c ++
      escapedFrom long (if c = '"' && long && run < 2 then run + 1 else 0) cs

def opening (cs : List Char) : List Char := if cs.contains '\n' then ['\n'] else []

def quoted (s : String) : List Char :=
  let cs := s.toList
  match styleOf cs with
  | .basic => '"' :: (escapedFrom false 0 cs ++ ['"'])
  | .literal => '\'' :: (cs ++ ['\''])
  | .longBasic => "\"\"\"".toList ++ opening cs ++ escapedFrom true 0 cs ++ "\"\"\"".toList
  | .longLiteral => "'''".toList ++ opening cs ++ cs ++ "'''".toList

def stringArray : List String → List Char
  | [] => ['[', ']']
  | [s] => '[' :: (quoted s ++ [']'])
  | ss => '[' :: (ss.flatMap (fun s => "\n    ".toList ++ quoted s ++ [',']) ++ ['\n', ']'])

/-- What a line of a table sets a key to. -/
inductive Line
  | text (s : String)
  | integer (n : Nat)
  | texts (ss : List String)
deriving DecidableEq, Repr

def Line.value : Line → List Char
  | .text s => quoted s
  | .integer n => (Text.ofNat n).toList
  | .texts ss => stringArray ss

/-- The lines of a table, each key bare. -/
def renderLines (lines : List (String × Line)) : List Char :=
  lines.flatMap fun (key, line) => key.toList ++ " = ".toList ++ line.value ++ ['\n']

def render (top : List (String × Line)) (table : String) (below : List (String × Line)) : String :=
  String.ofList (renderLines top ++ '\n' :: '[' :: (table.toList ++ [']', '\n']) ++
    renderLines below)

end OffloadCheck.Toml
