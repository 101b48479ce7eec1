import OffloadCheck.Json.Basic

/-!
Reading JSON text. The reader takes one value with blanks around it and nothing behind it. It checks
the grammar alone: what a number or a string means is left to whoever looks at it. Every step takes
a character, so the length of the text bounds the steps and the fuel never runs out.
-/
namespace OffloadCheck.Json

def isBlank (c : Char) : Bool := c = ' ' || c = '\n' || c = '\t' || c = '\r'

def skipBlanks (cs : List Char) : List Char := cs.dropWhile isBlank

def expect : List Char → List Char → Option (List Char)
  | [], cs => some cs
  | w :: ws, c :: cs => if w = c then expect ws cs else none
  | _ :: _, [] => none

def fourDigits : List Char → Option (Nat × List Char)
  | a :: b :: c :: d :: rest =>
    (Text.digitsFrom 16 Text.hexDigit? 0 [a, b, c, d]).map fun n => (n, rest)
  | _ => none

/-- A piece of a string: a character, or a unit of sixteen bits given by its number. -/
inductive StringPiece
  | char (c : Char)
  | unit (n : Nat)
deriving DecidableEq, Repr

def escape? : Char → Option Char
  | '"' => some '"'
  | '\\' => some '\\'
  | '/' => some '/'
  | 'b' => some '\x08'
  | 'f' => some '\x0c'
  | 'n' => some '\n'
  | 'r' => some '\r'
  | 't' => some '\t'
  | _ => none

/-- The pieces of a string up to its closing quote, and the text behind it. The pieces met so far
come last first. -/
def stringPieces (fuel : Nat) (met : List StringPiece) (cs : List Char) :
    Option (List StringPiece × List Char) :=
  match fuel, cs with
  | 0, _ => none
  | _, [] => none
  | fuel + 1, c :: cs =>
    if c = '"' then some (met.reverse, cs)
    else if c = '\\' then
      match cs with
      | [] => none
      | e :: cs =>
        if e = 'u' then
          (fourDigits cs).bind fun (n, cs) => stringPieces fuel (.unit n :: met) cs
        else (escape? e).bind fun c => stringPieces fuel (.char c :: met) cs
    else if c.toNat < 32 then none
    else stringPieces fuel (.char c :: met) cs

/-- Whether a unit is the first half of a pair. -/
def isLead (n : Nat) : Bool := 0xD800 ≤ n && n ≤ 0xDBFF

def isTrail (n : Nat) : Bool := 0xDC00 ≤ n && n ≤ 0xDFFF

/-- The characters that pieces spell, if every half of a pair has its partner. -/
def spell : List StringPiece → Option (List Char)
  | [] => some []
  | .char c :: ps => (spell ps).map (c :: ·)
  | [.unit n] => if isLead n || isTrail n then none else some [Char.ofNat n]
  | .unit n :: .char c :: ps =>
    if isLead n || isTrail n then none else (spell ps).map fun cs => Char.ofNat n :: c :: cs
  | .unit n :: .unit m :: ps =>
    if isLead n then
      if isTrail m then
        (spell ps).map (Char.ofNat (0x10000 + (n - 0xD800) * 0x400 + (m - 0xDC00)) :: ·)
      else none
    else if isTrail n then none
    else (spell (.unit m :: ps)).map (Char.ofNat n :: ·)

def readString (cs : List Char) : Option (Option String × List Char) :=
  (stringPieces (cs.length + 1) [] cs).map fun (ps, rest) => ((spell ps).map String.ofList, rest)

def isDigit (c : Char) : Bool := (Text.digit? c).isSome

def someDigits (cs : List Char) : Option (List Char × List Char) :=
  match cs.span isDigit with
  | ([], _) => none
  | found => some found

/-- The digits before the point: no zero stands in front. -/
def wholePart (cs : List Char) : Option (List Char × List Char) :=
  match cs with
  | '0' :: rest => some (['0'], rest)
  | cs => someDigits cs

def fraction (cs : List Char) : Option (List Char × List Char) :=
  match cs with
  | '.' :: rest => (someDigits rest).map fun (ds, rest) => ('.' :: ds, rest)
  | cs => some ([], cs)

def exponent (cs : List Char) : Option (List Char × List Char) :=
  match cs with
  | e :: rest =>
    if e = 'e' || e = 'E' then
      match rest with
      | s :: rest' =>
        if s = '+' || s = '-' then (someDigits rest').map fun (ds, rest) => (e :: s :: ds, rest)
        else (someDigits rest).map fun (ds, rest) => (e :: ds, rest)
      | [] => none
    else some ([], e :: rest)
  | [] => some ([], [])

def readNumber (cs : List Char) : Option (List Char × List Char) := do
  let (sign, cs) := match cs with
    | '-' :: rest => (['-'], rest)
    | cs => ([], cs)
  let (whole, cs) ← wholePart cs
  let (frac, cs) ← fraction cs
  let (exp, cs) ← exponent cs
  return (sign ++ whole ++ frac ++ exp, cs)

mutual

/-- A value at the start of a text without leading blanks, and the text behind it. -/
def readValue (fuel : Nat) (cs : List Char) : Option (Json × List Char) :=
  match fuel with
  | 0 => none
  | fuel + 1 =>
    match cs with
    | [] => none
    | '"' :: rest => (readString rest).map fun (s, rest) => (.string s, rest)
    | '[' :: rest =>
      match skipBlanks rest with
      | ']' :: rest => some (.array [], rest)
      | rest => (readElements fuel rest).map fun (es, rest) => (.array es, rest)
    | '{' :: rest =>
      match skipBlanks rest with
      | '}' :: rest => some (.object [], rest)
      | rest => (readMembers fuel rest).map fun (ms, rest) => (.object ms, rest)
    | 'n' :: rest => (expect "ull".toList rest).map fun rest => (.null, rest)
    | 't' :: rest => (expect "rue".toList rest).map fun rest => (.bool true, rest)
    | 'f' :: rest => (expect "alse".toList rest).map fun rest => (.bool false, rest)
    | cs => (readNumber cs).map fun (n, rest) => (.number n, rest)

def readElements (fuel : Nat) (cs : List Char) : Option (List Json × List Char) :=
  match fuel with
  | 0 => none
  | fuel + 1 => do
    let (j, rest) ← readValue fuel (skipBlanks cs)
    match skipBlanks rest with
    | ']' :: rest => some ([j], rest)
    | ',' :: rest => (readElements fuel rest).map fun (js, rest) => (j :: js, rest)
    | _ => none

def readMembers (fuel : Nat) (cs : List Char) : Option (List (Option String × Json) × List Char) :=
  match fuel with
  | 0 => none
  | fuel + 1 => do
    let rest ← expect ['"'] (skipBlanks cs)
    let (k, rest) ← readString rest
    let rest ← expect [':'] (skipBlanks rest)
    let (j, rest) ← readValue fuel (skipBlanks rest)
    match skipBlanks rest with
    | '}' :: rest => some ([(k, j)], rest)
    | ',' :: rest => (readMembers fuel rest).map fun (ms, rest) => ((k, j) :: ms, rest)
    | _ => none

end

def parse? (s : String) : Option Json :=
  let cs := s.toList
  match readValue (2 * cs.length + 2) (skipBlanks cs) with
  | some (j, rest) => if skipBlanks rest = [] then some j else none
  | none => none

end OffloadCheck.Json
