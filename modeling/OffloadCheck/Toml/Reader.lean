import OffloadCheck.Toml.Scalar
import OffloadCheck.Toml.Value

/-!
Reading TOML text into the table of its document. The text is read as a list of statements, from
which the table is then built. Every step takes a character, so the length of the text bounds the
steps and the fuel never runs out; arrays and inline tables nest to a fixed depth.
-/
namespace OffloadCheck.Toml

/-- Arrays and inline tables may be open in fewer levels than this, and a key has fewer parts. -/
def depthLimit : Nat := 80

/-- Whether a character may stand in a key without quotes. -/
def isBare (c : Char) : Bool := c.isAlphanum || c = '_' || c = '-'

def keyPart (cs : List Char) : Option (String × List Char) :=
  match cs with
  | '"' :: rest => basicString (rest.length + 1) [] rest
  | '\'' :: rest => literalString rest
  | cs =>
    let body := cs.takeWhile isBare
    if body.isEmpty then none else some (String.ofList body, cs.drop body.length)

/-- The parts of a key with points between them and blanks around them. -/
def keyParts (fuel : Nat) (cs : List Char) : Option (List String × List Char) :=
  match fuel with
  | 0 => none
  | fuel + 1 => do
    let (part, rest) ← keyPart (skipBlanks cs)
    match skipBlanks rest with
    | '.' :: rest => (keyParts fuel rest).map fun (parts, rest) => (part :: parts, rest)
    | rest => some ([part], rest)

/-- A key as the path to it and its last part. -/
def key? (cs : List Char) : Option ((List String × String) × List Char) := do
  let (parts, rest) ← keyParts (cs.length + 1) cs
  let last ← parts.getLast?
  if depthLimit ≤ parts.length then none else some ((parts.dropLast, last), rest)

/-- The text behind blanks, comments and line ends, as they may stand within an array. -/
def skipLines (fuel : Nat) (cs : List Char) : List Char :=
  match fuel with
  | 0 => cs
  | fuel + 1 =>
    let behind := skipBlanks cs
    match newline? (skipComment behind) with
    | some rest => skipLines fuel rest
    | none => behind

def word : List Char → List Char → Option (List Char)
  | [], cs => some cs
  | w :: ws, c :: cs => if w = c then word ws cs else none
  | _ :: _, [] => none

mutual

/-- A value inside `level` arrays and inline tables. -/
def value (fuel level : Nat) (cs : List Char) : Option (Value × List Char) :=
  match fuel with
  | 0 => none
  | fuel + 1 =>
    match cs with
    | [] => none
    | c :: rest =>
      if c = '"' || c = '\'' then (string? cs).map fun (s, rest) => (.string s, rest)
      else if c = '[' then
        if depthLimit ≤ level + 1 then none
        else (elements fuel (level + 1) rest).map fun (vs, rest) => (.array vs, rest)
      else if c = '{' then
        if depthLimit ≤ level + 1 then none
        else
          match skipBlanks rest with
          | '}' :: rest => some (.table [], rest)
          | rest => do
            let (ps, rest) ← pairs fuel (level + 1) rest
            let ms ← tableOf? ps
            return (.table ms, rest)
      else if c = 't' then (word "true".toList cs).map fun rest => (.bool true, rest)
      else if c = 'f' then (word "false".toList cs).map fun rest => (.bool false, rest)
      else
        match moment? cs with
        | some (lexeme, rest) => some (.moment lexeme, rest)
        | none =>
          match float? cs with
          | some (lexeme, rest) => some (.float lexeme, rest)
          | none => (integer? cs).map fun (n, rest) => (.integer n, rest)

/-- The elements of an array up to its closing bracket; a comma may stand behind the last. -/
def elements (fuel level : Nat) (cs : List Char) : Option (List Value × List Char) :=
  match fuel with
  | 0 => none
  | fuel + 1 =>
    match skipLines (cs.length + 1) cs with
    | ']' :: rest => some ([], rest)
    | cs => do
      let (v, rest) ← value fuel level cs
      match skipLines (rest.length + 1) rest with
      | ',' :: rest => (elements fuel level rest).map fun (vs, rest) => (v :: vs, rest)
      | ']' :: rest => some ([v], rest)
      | _ => none

def pairs (fuel level : Nat) (cs : List Char) : Option (List Statement × List Char) :=
  match fuel with
  | 0 => none
  | fuel + 1 => do
    let ((path, key), rest) ← key? cs
    let (v, rest) ← value fuel level (skipBlanks (← mark '=' rest))
    match skipBlanks rest with
    | ',' :: rest =>
      (pairs fuel level rest).map fun (ps, rest) => (.pair path key v :: ps, rest)
    | '}' :: rest => some ([.pair path key v], rest)
    | _ => none

end

/-- The text behind the end of a line with blanks and a comment before it. The end of the text ends
the line too. -/
def lineEnd (cs : List Char) : Option (List Char) :=
  match skipComment (skipBlanks cs) with
  | [] => some []
  | cs => newline? cs

def statement (cs : List Char) : Option (Statement × List Char) :=
  match cs with
  | '[' :: '[' :: rest => do
    let ((path, key), rest) ← key? rest
    let rest ← mark ']' (← mark ']' rest)
    return (.element path key, ← lineEnd rest)
  | '[' :: rest => do
    let ((path, key), rest) ← key? rest
    return (.header path key, ← lineEnd (← mark ']' rest))
  | cs => do
    let ((path, key), rest) ← key? cs
    let rest := skipBlanks (← mark '=' rest)
    let (v, rest) ← value (2 * rest.length + 2) 0 rest
    return (.pair path key v, ← lineEnd rest)

def statements (fuel : Nat) (cs : List Char) : Option (List Statement) :=
  match fuel with
  | 0 => none
  | fuel + 1 =>
    match skipBlanks cs with
    | [] => some []
    | c :: rest =>
      if c = '#' || c = '\n' || c = '\r' then (lineEnd (c :: rest)).bind (statements fuel)
      else (statement (c :: rest)).bind fun (s, rest) => (statements fuel rest).map (s :: ·)

/-- A text without the mark of byte order that may stand in front. -/
def withoutMark : List Char → List Char
  | c :: rest => if c = '\uFEFF' then rest else c :: rest
  | [] => []

def parse? (s : String) : Option (List (String × Value)) :=
  let cs := withoutMark s.toList
  (statements (cs.length + 1) cs).bind tableOf?

end OffloadCheck.Toml
