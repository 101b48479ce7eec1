import OffloadCheck.Text.Blank
import OffloadCheck.Text.Scalar

/-!
Moments in universal time, with the text forms of RFC 3339. Writing is canonical: `T`, a fraction of
no, three, six or nine digits, and `Z`. Reading is lenient about blanks, the letter between date and
time, digits of the fraction beyond the ninth and years of other lengths, and moves the moment from
its offset to universal time. A leap second is the second 59 with a fraction of a second or more.
-/
namespace OffloadCheck

/-- A moment in universal time. -/
structure Timestamp where
  year : Int
  month : Nat
  day : Nat
  secondOfDay : Nat
  /-- The fraction in nanoseconds; from `10 ^ 9` on the moment lies in a leap second. -/
  nanos : Nat
deriving DecidableEq, Repr, Inhabited

namespace Timestamp

def isLeapYear (year : Int) : Bool := year % 4 = 0 && (year % 100 ≠ 0 || year % 400 = 0)

def daysIn (year : Int) (month : Nat) : Nat :=
  if month = 2 then (if isLeapYear year then 29 else 28)
  else if month = 4 || month = 6 || month = 9 || month = 11 then 30
  else 31

def minYear : Int := -262143

def maxYear : Int := 262142

def dayBefore : Int × Nat × Nat → Int × Nat × Nat
  | (y, m, d) =>
    if 1 < d then (y, m, d - 1)
    else if 1 < m then (y, m - 1, daysIn y (m - 1))
    else (y - 1, 12, 31)

def dayAfter : Int × Nat × Nat → Int × Nat × Nat
  | (y, m, d) =>
    if d < daysIn y m then (y, m, d + 1) else if m < 12 then (y, m + 1, 1) else (y + 1, 1, 1)

/-- The moment with a date and a second of the day, counted at an offset in seconds east of
universal time. -/
def ofLocal? (date : Int × Nat × Nat) (second : Nat) (nanos : Nat) (offset : Int) :
    Option Timestamp :=
  let s := Int.ofNat second - offset
  let (y, m, d) := if s < 0 then dayBefore date else if 86400 ≤ s then dayAfter date else date
  if minYear ≤ y ∧ y ≤ maxYear then some ⟨y, m, d, (s % 86400).toNat, nanos⟩ else none

def padded (width n : Nat) : List Char :=
  let ds := Nat.toDigits 10 n
  List.replicate (width - ds.length) '0' ++ ds

/-- A year: four digits, or a sign and at least four when four do not hold it. -/
def yearText (year : Int) : List Char :=
  if 0 ≤ year ∧ year ≤ 9999 then padded 4 year.toNat
  else (if year < 0 then '-' else '+') :: padded 4 year.natAbs

/-- A fraction of a second with as many groups of three digits as it needs. -/
def fractionText (nanos : Nat) : List Char :=
  if nanos = 0 then []
  else if nanos % 1000000 = 0 then '.' :: padded 3 (nanos / 1000000)
  else if nanos % 1000 = 0 then '.' :: padded 6 (nanos / 1000)
  else '.' :: padded 9 nanos

def render (t : Timestamp) : String :=
  let second := t.secondOfDay % 60 + t.nanos / 1000000000
  String.ofList (yearText t.year ++ '-' :: padded 2 t.month ++ '-' :: padded 2 t.day ++
    'T' :: padded 2 (t.secondOfDay / 3600) ++ ':' :: padded 2 (t.secondOfDay / 60 % 60) ++
    ':' :: padded 2 second ++ fractionText (t.nanos % 1000000000) ++ ['Z'])

/-- A number of one to `width` digits, and the text behind it. -/
def number (width : Nat) (cs : List Char) : Option (Nat × List Char) :=
  let ds := (cs.take width).takeWhile fun c => (Text.digit? c).isSome
  (Text.decimal? ds).map fun n => (n, cs.drop ds.length)

def field (low high : Nat) (cs : List Char) : Option (Nat × List Char) :=
  (number 2 (Text.skipBlanks cs)).filter fun (n, _) => low ≤ n && n ≤ high

/-- A year behind blanks: up to four digits, or any number of them behind a sign. -/
def yearField (cs : List Char) : Option (Int × List Char) :=
  match Text.skipBlanks cs with
  | '-' :: rest => (number rest.length rest).map fun (n, rest) => (-Int.ofNat n, rest)
  | '+' :: rest => (number rest.length rest).map fun (n, rest) => (Int.ofNat n, rest)
  | cs => (number 4 cs).map fun (n, rest) => (Int.ofNat n, rest)

def separator (c : Char) (cs : List Char) : Option (List Char) :=
  match Text.skipBlanks cs with
  | x :: rest => if x = c then some (Text.skipBlanks rest) else none
  | [] => none

def fractionField (cs : List Char) : Option (Nat × List Char) :=
  match cs with
  | '.' :: rest =>
    (number 9 rest).map fun (n, behind) =>
      (n * Nat.pow 10 (9 - (rest.length - behind.length)),
        behind.dropWhile fun c => (Text.digit? c).isSome)
  | cs => some (0, cs)

def twoDigits : List Char → Option (Nat × List Char)
  | a :: b :: rest => (Text.decimal? [a, b]).map fun n => (n, rest)
  | _ => none

/-- The hours and minutes of an offset behind its sign, in seconds. -/
def offsetAmount (cs : List Char) : Option (Nat × List Char) := do
  let (hours, cs) ← twoDigits cs
  let (minutes, cs) ← twoDigits (cs.dropWhile fun c => c = ':' || Text.isBlank c)
  if minutes < 60 then some (hours * 3600 + minutes * 60, cs) else none

/-- An offset from universal time in seconds: a name of universal time, or a signed amount. -/
def offsetField (cs : List Char) : Option (Int × List Char) :=
  if (cs.take 3).map Char.toUpper = ['U', 'T', 'C'] then some (0, cs.drop 3)
  else
    match cs with
    | c :: rest =>
      if c = 'Z' || c = 'z' then some (0, rest)
      else if c = '+' then (offsetAmount rest).map fun (n, rest) => (Int.ofNat n, rest)
      else if c = '-' || c = '\u2212' then
        (offsetAmount rest).map fun (n, rest) => (-Int.ofNat n, rest)
      else none
    | [] => none

def parse? (s : String) : Option Timestamp := do
  let (year, cs) ← yearField s.toList
  let (month, cs) ← field 1 12 (← separator '-' cs)
  let (day, cs) ← field 1 31 (← separator '-' cs)
  let cs ← match cs with
    | c :: cs => if c = 'T' || c = 't' || c = ' ' then some cs else none
    | [] => none
  let (hour, cs) ← field 0 23 cs
  let (minute, cs) ← field 0 59 (← separator ':' cs)
  let (second, cs) ← field 0 60 (← separator ':' cs)
  let (nanos, cs) ← fractionField cs
  let (offset, cs) ← offsetField (Text.skipBlanks cs)
  if !(Text.skipBlanks cs).isEmpty || 86400 ≤ offset.natAbs then none
  else if year < minYear || maxYear < year || daysIn year month < day then none
  else
    let (second, nanos) := if second = 60 then (59, nanos + 1000000000) else (second, nanos)
    ofLocal? (year, month, day) (hour * 3600 + minute * 60 + second) nanos offset

end Timestamp
end OffloadCheck
