import OffloadCheck.Text.Scalar
import OffloadCheck.Timestamp

/-!
The scalars of TOML text: strings in four notations, numbers and moments. Every reader takes a
scalar from the start of a text and gives what is behind it.
-/
namespace OffloadCheck.Toml

def isBlank (c : Char) : Bool := c = ' ' || c = '\t'

def skipBlanks (cs : List Char) : List Char := cs.dropWhile isBlank

def newline? : List Char → Option (List Char)
  | '\n' :: rest => some rest
  | '\r' :: '\n' :: rest => some rest
  | _ => none

/-- Whether a character may stand in a comment: no control character but the tab. -/
def isPlain (c : Char) : Bool := c = '\t' || (0x20 ≤ c.toNat && c.toNat ≠ 0x7F)

def skipComment : List Char → List Char
  | '#' :: rest => rest.dropWhile isPlain
  | cs => cs

def scalar? (n : Nat) : Option Char := if n.isValidChar then some (Char.ofNat n) else none

/-- The character that `digits` hexadecimal digits name. -/
def namedChar (digits : Nat) (cs : List Char) : Option (Char × List Char) :=
  let ds := cs.take digits
  if ds.length < digits then none
  else
    ((Text.digitsFrom 16 Text.hexDigit? 0 ds).bind scalar?).map fun c => (c, cs.drop digits)

/-- The character of an escape behind its backslash. -/
def escape : List Char → Option (Char × List Char)
  | 'b' :: rest => some ('\x08', rest)
  | 't' :: rest => some ('\t', rest)
  | 'n' :: rest => some ('\n', rest)
  | 'f' :: rest => some ('\x0c', rest)
  | 'r' :: rest => some ('\r', rest)
  | '"' :: rest => some ('"', rest)
  | '\\' :: rest => some ('\\', rest)
  | 'u' :: rest => namedChar 4 rest
  | 'U' :: rest => namedChar 8 rest
  | _ => none

/-- A string in double quotes behind the first of them. What was met comes last first. -/
def basicString (fuel : Nat) (met : List Char) (cs : List Char) : Option (String × List Char) :=
  match fuel, cs with
  | 0, _ => none
  | _, [] => none
  | fuel + 1, c :: cs =>
    if c = '"' then some (String.ofList met.reverse, cs)
    else if c = '\\' then (escape cs).bind fun (c, cs) => basicString fuel (c :: met) cs
    else if isPlain c then basicString fuel (c :: met) cs
    else none

def literalString (cs : List Char) : Option (String × List Char) :=
  let body := cs.takeWhile fun c => isPlain c && c ≠ '\''
  match cs.drop body.length with
  | '\'' :: rest => some (String.ofList body, rest)
  | _ => none

/-- The text behind an escaped end of line: all blanks and line ends up to the next character. -/
def skipBlankLines : List Char → List Char
  | '\r' :: '\n' :: rest => skipBlankLines rest
  | c :: rest => if c = '\n' || isBlank c then skipBlankLines rest else c :: rest
  | [] => []

/-- How many quotes of a run end up inside a string of several lines, when the run closes it: the
last three are the closing ones, and at most two stand before them. -/
def closingQuotes (run : Nat) : Option Nat := if 3 ≤ run then some (min run 5 - 3) else none

/-- A string of several lines behind its opening quotes. With `escapes` a backslash starts an
escape. Line ends count as line feeds. -/
def longString (quote : Char) (escapes : Bool) (fuel : Nat) (met : List Char) (cs : List Char) :
    Option (String × List Char) :=
  match fuel, cs with
  | 0, _ => none
  | _, [] => none
  | fuel + 1, c :: rest =>
    if c = quote then
      let run := (cs.takeWhile (· = quote)).length
      match closingQuotes run with
      | some inside =>
        some (String.ofList (List.replicate inside quote ++ met).reverse, cs.drop (inside + 3))
      | none => longString quote escapes fuel (c :: met) rest
    else if c = '\\' && escapes then
      match newline? (skipBlanks rest) with
      | some rest => longString quote escapes fuel met (skipBlankLines rest)
      | none => (escape rest).bind fun (c, rest) => longString quote escapes fuel (c :: met) rest
    else
      match newline? cs with
      | some rest => longString quote escapes fuel ('\n' :: met) rest
      | none => if isPlain c then longString quote escapes fuel (c :: met) rest else none

def skipNewline (cs : List Char) : List Char := (newline? cs).getD cs

def string? (cs : List Char) : Option (String × List Char) :=
  match cs with
  | '"' :: '"' :: '"' :: rest => longString '"' true (rest.length + 1) [] (skipNewline rest)
  | '"' :: rest => basicString (rest.length + 1) [] rest
  | '\'' :: '\'' :: '\'' :: rest => longString '\'' false (rest.length + 1) [] (skipNewline rest)
  | '\'' :: rest => literalString rest
  | _ => none

/-! ## Numbers -/

def isDigit (c : Char) : Bool := (Text.digit? c).isSome

/-- The digits behind a digit, with single underscores between them; the underscores are left out.
An underscore without a digit behind it refuses. -/
def moreDigits (isDigit : Char → Bool) : List Char → Option (List Char × List Char)
  | [] => some ([], [])
  | '_' :: c :: rest =>
    if isDigit c then (moreDigits isDigit rest).map fun (ds, rest) => (c :: ds, rest) else none
  | ['_'] => none
  | c :: rest =>
    if isDigit c then (moreDigits isDigit rest).map fun (ds, rest) => (c :: ds, rest)
    else some ([], c :: rest)

def digits (isDigit : Char → Bool) : List Char → Option (List Char × List Char)
  | c :: rest =>
    if isDigit c then (moreDigits isDigit rest).map fun (ds, rest) => (c :: ds, rest) else none
  | [] => none

def sign : List Char → List Char × List Char
  | '+' :: rest => ([], rest)
  | '-' :: rest => (['-'], rest)
  | cs => ([], cs)

/-- A decimal number behind its sign: a zero in front stands alone. -/
def decimalDigits : List Char → Option (List Char × List Char)
  | '0' :: rest => some (['0'], rest)
  | cs => digits isDigit cs

def basedInteger (base : Nat) (cs : List Char) : Option (Int × List Char) := do
  let (ds, rest) ← digits (fun c => ((Text.hexDigit? c).filter (· < base)).isSome) cs
  let n ← Text.digitsFrom base Text.hexDigit? 0 ds
  return (Int.ofNat n, rest)

def integer? (cs : List Char) : Option (Int × List Char) :=
  let found := match cs with
    | '0' :: 'x' :: rest => basedInteger 16 rest
    | '0' :: 'o' :: rest => basedInteger 8 rest
    | '0' :: 'b' :: rest => basedInteger 2 rest
    | cs => do
      let (minus, cs) := sign cs
      let (ds, rest) ← decimalDigits cs
      let n ← Text.signedDecimal? (minus ++ ds)
      return (n, rest)
  found.filter fun (n, _) => decide (Text.FitsInt64 n)

def exponent? : List Char → Option (List Char × List Char)
  | e :: rest =>
    if e = 'e' || e = 'E' then
      let (minus, rest) := sign rest
      (digits isDigit rest).map fun (ds, rest) => ('e' :: minus ++ ds, rest)
    else none
  | [] => none

/-- Whether a decimal number is less than the least one that a double rounds to infinity. -/
def fitsDouble (whole frac exponent : List Char) : Bool :=
  let m := (Text.decimal? (whole ++ frac)).getD 0
  let e := (Text.signedDecimal? (exponent.drop 1)).getD 0 - Int.ofNat frac.length
  if m = 0 then true
  else if 400 < e then false
  else if e < -400 - Int.ofNat (whole.length + frac.length) then true
  else m * Nat.pow 10 e.toNat < (1 <<< 1024 - 1 <<< 970) * Nat.pow 10 (-e).toNat

/-- A number with a point or an exponent, or one of the special ones. A positive number too large
for a double is refused. -/
def float? (cs : List Char) : Option (List Char × List Char) :=
  let (minus, unsigned) := sign cs
  match unsigned with
  | 'i' :: 'n' :: 'f' :: rest => some (minus ++ "inf".toList, rest)
  | 'n' :: 'a' :: 'n' :: rest => some (minus ++ "nan".toList, rest)
  | unsigned => do
    let (whole, rest) ← decimalDigits unsigned
    let (frac, rest, pointed) ← match rest with
      | '.' :: rest => (digits isDigit rest).map fun (ds, rest) => (ds, rest, true)
      | rest => some ([], rest, false)
    let (exponent, rest) := (exponent? rest).getD ([], rest)
    if !pointed && exponent.isEmpty then none
    else if minus.isEmpty && !fitsDouble whole frac exponent then none
    else some (minus ++ whole ++ (if pointed then '.' :: frac else []) ++ exponent, rest)

/-! ## Moments -/

def fixedField (width low high : Nat) (cs : List Char) : Option (Nat × List Char) :=
  let ds := cs.take width
  if ds.length < width then none
  else
    ((Text.decimal? ds).filter fun n => low ≤ n && n ≤ high).map fun n => (n, cs.drop width)

def mark (c : Char) : List Char → Option (List Char)
  | x :: rest => if x = c then some rest else none
  | [] => none

def skipDate (cs : List Char) : Option (List Char) := do
  let (year, cs) ← fixedField 4 0 9999 cs
  let (month, cs) ← fixedField 2 1 12 (← mark '-' cs)
  let (day, cs) ← fixedField 2 1 31 (← mark '-' cs)
  if day ≤ Timestamp.daysIn year month then some cs else none

def skipTime (cs : List Char) : Option (List Char) := do
  let (_, cs) ← fixedField 2 0 23 cs
  let (_, cs) ← fixedField 2 0 59 (← mark ':' cs)
  let (_, cs) ← fixedField 2 0 60 (← mark ':' cs)
  match cs with
  | '.' :: d :: rest => some (if isDigit d then rest.dropWhile isDigit else cs)
  | cs => some cs

def skipOffset : List Char → Option (List Char)
  | c :: rest =>
    if c = 'Z' || c = 'z' then some rest
    else if c = '+' || c = '-' then do
      let (_, cs) ← fixedField 2 0 23 rest
      let (_, cs) ← fixedField 2 0 59 (← mark ':' cs)
      return cs
    else some (c :: rest)
  | [] => some []

/-- The text behind a time with its offset that follows a date, or the text behind the date. -/
def skipTimeOfDate (cs : List Char) : Option (List Char) :=
  match cs with
  | c :: rest =>
    if c = 'T' || c = 't' || c = ' ' then
      match skipTime rest with
      | some rest => skipOffset rest
      | none => some cs
    else some cs
  | [] => some []

/-- A moment: a date, a time of day, or both. -/
def moment? (cs : List Char) : Option (List Char × List Char) := do
  let rest ← match skipDate cs with
    | some rest => skipTimeOfDate rest
    | none => skipTime cs
  return (cs.take (cs.length - rest.length), rest)

end OffloadCheck.Toml
