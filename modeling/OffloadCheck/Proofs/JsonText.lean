import Mathlib.Data.List.TakeDrop
import OffloadCheck.Json.Printer
import OffloadCheck.Json.Reader
import OffloadCheck.Proofs.Numerals

/-! # JSON text and the values it stands for

Both printers write one text but for the blanks between its parts, and blanks do not matter to the
reader. So a value is printed here with any layout, and the reader is shown to give it back. -/
namespace OffloadCheck.Json

/-! ## Layouts -/

/-- The blanks that a text has between its parts: line starts by their level, and what follows the
colon of a member. -/
structure Layout where
  line : Nat → List Char
  gap : List Char
  line_blank : ∀ level, (line level).all isBlank = true
  gap_blank : gap.all isBlank = true

namespace Layout

def ofCompact : Layout := ⟨fun _ => [], [], fun _ => rfl, rfl⟩

def ofPretty : Layout where
  line := newLine
  gap := [' ']
  line_blank level := by simp [newLine, isBlank]
  gap_blank := rfl

@[simp] theorem line_ofCompact (level : Nat) : ofCompact.line level = [] := rfl

@[simp] theorem gap_ofCompact : ofCompact.gap = [] := rfl

@[simp] theorem line_ofPretty : ofPretty.line = newLine := rfl

@[simp] theorem gap_ofPretty : ofPretty.gap = [' '] := rfl

mutual

/-- A value as text whose lines start at a level. -/
def text (y : Layout) (level : Nat) : Json → List Char
  | .null => "null".toList
  | .bool b => (Text.ofBool b).toList
  | .number lexeme => lexeme
  | .string s => quoted s
  | .array [] => ['[', ']']
  | .array (j :: js) =>
    '[' :: (y.line (level + 1) ++ y.text (level + 1) j ++ y.elements (level + 1) js ++
      y.line level ++ [']'])
  | .object [] => ['{', '}']
  | .object ((k, j) :: ms) =>
    '{' :: (y.line (level + 1) ++ quoted k ++ ':' :: y.gap ++ y.text (level + 1) j ++
      y.members (level + 1) ms ++ y.line level ++ ['}'])

/-- The elements after the first, each behind a comma. -/
def elements (y : Layout) (level : Nat) : List Json → List Char
  | [] => []
  | j :: js => ',' :: (y.line level ++ y.text level j ++ y.elements level js)

def members (y : Layout) (level : Nat) : List (Option String × Json) → List Char
  | [] => []
  | (k, j) :: ms =>
    ',' :: (y.line level ++ quoted k ++ ':' :: y.gap ++ y.text level j ++ y.members level ms)

end

mutual

theorem text_ofPretty (level : Nat) : ∀ j, ofPretty.text level j = prettyAt level j
  | .null | .bool _ | .number _ | .string _ | .array [] | .object [] => by
    simp [text, prettyAt]
  | .array (j :: js) => by
    simp [text, prettyAt, text_ofPretty (level + 1) j, elements_ofPretty (level + 1) js]
  | .object ((k, j) :: ms) => by
    simp [text, prettyAt, text_ofPretty (level + 1) j, members_ofPretty (level + 1) ms]

theorem elements_ofPretty (level : Nat) : ∀ js, ofPretty.elements level js = prettyElements level js
  | [] => by simp [elements, prettyElements]
  | j :: js => by
    simp [elements, prettyElements, text_ofPretty level j, elements_ofPretty level js]

theorem members_ofPretty (level : Nat) : ∀ ms, ofPretty.members level ms = prettyMembers level ms
  | [] => by simp [members, prettyMembers]
  | (k, j) :: ms => by
    simp [members, prettyMembers, text_ofPretty level j, members_ofPretty level ms]

end

mutual

theorem text_ofCompact (level : Nat) : ∀ j, ofCompact.text level j = compact j
  | .null | .bool _ | .number _ | .string _ | .array [] | .object [] => by
    simp [text, compact, compactElements, compactMembers]
  | .array [j] => by
    simp [text, compact, elements, compactElements, text_ofCompact (level + 1) j]
  | .array (j :: j' :: js) => by
    have hrest := elements_ofCompact (level + 1) (j' :: js) (List.cons_ne_nil _ _)
    simp [text, compact, compactElements, text_ofCompact (level + 1) j, hrest]
  | .object [(k, j)] => by
    simp [text, compact, members, compactMembers, text_ofCompact (level + 1) j]
  | .object ((k, j) :: m :: ms) => by
    have hrest := members_ofCompact (level + 1) (m :: ms) (List.cons_ne_nil _ _)
    simp [text, compact, compactMembers, text_ofCompact (level + 1) j, hrest]

theorem elements_ofCompact (level : Nat) : ∀ js, js ≠ [] →
    ofCompact.elements level js = ',' :: compactElements js
  | [], hne => absurd rfl hne
  | [j], _ => by simp [elements, compactElements, text_ofCompact level j]
  | j :: j' :: js, _ => by
    have hrest := elements_ofCompact level (j' :: js) (List.cons_ne_nil _ _)
    rw [elements, hrest]
    simp [compactElements, text_ofCompact level j]

theorem members_ofCompact (level : Nat) : ∀ ms, ms ≠ [] →
    ofCompact.members level ms = ',' :: compactMembers ms
  | [], hne => absurd rfl hne
  | [(k, j)], _ => by simp [members, compactMembers, text_ofCompact level j]
  | (k, j) :: m :: ms, _ => by
    have hrest := members_ofCompact level (m :: ms) (List.cons_ne_nil _ _)
    rw [members, hrest]
    simp [compactMembers, text_ofCompact level j]

end

end Layout

/-! ## Strings -/

theorem quoted_some (s : String) :
    quoted (some s) = '"' :: (s.toList.flatMap escaped ++ ['"']) := rfl

/-- The piece as which a character is read back: a control character without an escape of its own
comes as a number. -/
def pieceOf (c : Char) : StringPiece :=
  if c.toNat < 32 ∧ c ∉ ['\x08', '\t', '\n', '\x0c', '\r'] then .unit c.toNat else .char c

theorem fourDigits_hex {n : Nat} (h : n < 0x10000) (rest : List Char) :
    fourDigits (Text.hex 4 n ++ rest) = some (n, rest) := by
  have hread := Text.digitsFrom_hex (f := id) Text.hexDigit?_hexDigit h
  rw [List.map_id] at hread
  simp only [Text.hex, List.nil_append, List.cons_append] at hread ⊢
  simp only [fourDigits, hread, Option.map_some]

theorem stringPieces_escaped (fuel : Nat) (met : List StringPiece) (c : Char) (rest : List Char) :
    stringPieces (fuel + 1) met (escaped c ++ rest) =
      stringPieces fuel (pieceOf c :: met) rest := by
  unfold escaped
  split
  · next h => subst h; rfl
  split
  · next h => subst h; rfl
  split
  · next h => subst h; rfl
  split
  · next h => subst h; rfl
  split
  · next h => subst h; rfl
  split
  · next h => subst h; rfl
  split
  · next h => subst h; rfl
  next hquote hbackslash hb ht hn hf hr =>
  split
  · next hsmall =>
    have hpiece : pieceOf c = .unit c.toNat := if_pos ⟨hsmall, by simp [hb, ht, hn, hf, hr]⟩
    have hlt : c.toNat < 0x10000 := by omega
    simp [stringPieces, fourDigits_hex hlt, hpiece]
  · next hlarge =>
    have hpiece : pieceOf c = .char c := if_neg fun h => hlarge h.1
    simp [stringPieces, hquote, hbackslash, hlarge, hpiece]

theorem stringPieces_flatMap_escaped (cs : List Char) (fuel : Nat) (hfuel : cs.length < fuel)
    (met : List StringPiece) (rest : List Char) :
    stringPieces fuel met (cs.flatMap escaped ++ '"' :: rest) =
      some (met.reverse ++ cs.map pieceOf, rest) := by
  induction cs generalizing fuel met with
  | nil =>
    obtain ⟨fuel, rfl⟩ := Nat.exists_eq_add_one_of_ne_zero (Nat.ne_zero_of_lt hfuel)
    simp [stringPieces]
  | cons c cs ih =>
    obtain ⟨fuel, rfl⟩ := Nat.exists_eq_add_one_of_ne_zero (Nat.ne_zero_of_lt hfuel)
    rw [List.flatMap_cons, List.append_assoc, stringPieces_escaped,
      ih fuel (by simpa using hfuel)]
    simp

/-- A number that is no half of a pair spells a character whatever follows. -/
theorem spell_unit {n : Nat} (hlead : isLead n = false) (htrail : isTrail n = false)
    (ps : List StringPiece) : spell (.unit n :: ps) = (spell ps).map (Char.ofNat n :: ·) := by
  rcases ps with _ | ⟨_ | _, ps⟩ <;> simp [spell, hlead, htrail, Function.comp_def]

theorem spell_map_pieceOf (cs : List Char) : spell (cs.map pieceOf) = some cs := by
  induction cs with
  | nil => rfl
  | cons c cs ih =>
    rw [List.map_cons, pieceOf]
    split
    · next h =>
      have hlead : isLead c.toNat = false := by simp [isLead]; omega
      have htrail : isTrail c.toNat = false := by simp [isTrail]; omega
      rw [spell_unit hlead htrail, ih, Char.ofNat_toNat]
      rfl
    · rw [spell, ih]
      rfl

theorem escaped_ne_nil (c : Char) : escaped c ≠ [] := by
  unfold escaped
  repeat' split
  all_goals exact List.cons_ne_nil _ _

theorem length_le_flatMap_escaped (cs : List Char) : cs.length ≤ (cs.flatMap escaped).length := by
  induction cs with
  | nil => exact Nat.le_refl 0
  | cons c cs ih =>
    have hpos := List.length_pos_iff.2 (escaped_ne_nil c)
    rw [List.flatMap_cons, List.length_append, List.length_cons]
    omega

/-- A string is read back from what stands behind its opening quote. -/
theorem readString_quoted (s : String) (rest : List Char) :
    readString (s.toList.flatMap escaped ++ '"' :: rest) = some (some s, rest) := by
  have hfuel : s.toList.length < (s.toList.flatMap escaped ++ '"' :: rest).length + 1 := by
    have hlength := length_le_flatMap_escaped s.toList
    rw [List.length_append]
    omega
  rw [readString, stringPieces_flatMap_escaped _ _ hfuel]
  simp [spell_map_pieceOf]

/-! ## Numbers -/

/-- A text does not go on with a number that ends before it. -/
def EndsNumber (rest : List Char) : Prop :=
  ∀ c ∈ rest.head?, c.isDigit = false ∧ c ≠ '.' ∧ c ≠ 'e' ∧ c ≠ 'E'

theorem someDigits_append {ds rest : List Char} (hds : ∀ c ∈ ds, c.isDigit = true) (hne : ds ≠ [])
    (hrest : EndsNumber rest) : someDigits (ds ++ rest) = some (ds, rest) := by
  have hdigit : isDigit = Char.isDigit := funext Text.isSome_digit?
  have hspan : (ds ++ rest).span isDigit = (ds, rest) := by
    rw [List.span_eq_takeWhile_dropWhile, hdigit, List.takeWhile_append_of_pos hds,
      List.dropWhile_append_of_pos hds]
    cases rest with
    | nil => simp
    | cons c cs => simp [(hrest c rfl).1]
  unfold someDigits
  rw [hspan]
  cases ds with
  | nil => exact absurd rfl hne
  | cons => rfl

theorem wholePart_toDigits (n : Nat) {rest : List Char} (hrest : EndsNumber rest) :
    wholePart (Nat.toDigits 10 n ++ rest) = some (Nat.toDigits 10 n, rest) := by
  obtain ⟨c, ds, hdigits, _⟩ := Text.toDigits_starts n
  by_cases hc : c = '0'
  · subst hc
    obtain rfl := Text.eq_zero_of_toDigits hdigits
    rfl
  · have hread := someDigits_append (fun _ => Text.isDigit_of_mem_toDigits)
      (Nat.toDigits_ne_nil : Nat.toDigits 10 n ≠ []) hrest
    rw [hdigits] at hread ⊢
    simpa [wholePart, hc] using hread

theorem fraction_of_end {rest : List Char} (h : EndsNumber rest) :
    fraction rest = some ([], rest) := by
  cases rest with
  | nil => rfl
  | cons c cs => simp [fraction, (h c rfl).2.1]

theorem exponent_of_end {rest : List Char} (h : EndsNumber rest) :
    exponent rest = some ([], rest) := by
  cases rest with
  | nil => rfl
  | cons c cs => simp [exponent, (h c rfl).2.2]

theorem readNumber_ofInt (n : Int) {rest : List Char} (hrest : EndsNumber rest) :
    readNumber ((Text.ofInt n).toList ++ rest) = some ((Text.ofInt n).toList, rest) := by
  have hbehind := fraction_of_end hrest
  have hend := exponent_of_end hrest
  cases n with
  | ofNat n =>
    rw [Text.ofInt, Text.toList_ofNat]
    have hwhole := wholePart_toDigits n hrest
    obtain ⟨c, ds, hdigits, hc, _⟩ := Text.toDigits_starts n
    have hsign : c ≠ '-' := Text.ne_of_isDigit hc rfl
    rw [hdigits] at hwhole ⊢
    simp only [List.cons_append] at hwhole ⊢
    simp [readNumber, hsign, hwhole, hbehind, hend]
  | negSucc n =>
    rw [Text.toList_ofInt_negSucc, List.cons_append]
    simp [readNumber, wholePart_toDigits (n + 1) hrest, hbehind, hend]

/-! ## The step of the reader

The first character of a value tells how the reader goes on. -/

section

variable (fuel : Nat) (cs : List Char)

theorem readValue_quote : readValue (fuel + 1) ('"' :: cs) =
    (readString cs).map fun found => (.string found.1, found.2) := rfl

theorem readValue_bracket : readValue (fuel + 1) ('[' :: cs) =
    match skipBlanks cs with
    | ']' :: rest => some (.array [], rest)
    | rest => (readElements fuel rest).map fun found => (.array found.1, found.2) := rfl

theorem readValue_brace : readValue (fuel + 1) ('{' :: cs) =
    match skipBlanks cs with
    | '}' :: rest => some (.object [], rest)
    | rest => (readMembers fuel rest).map fun found => (.object found.1, found.2) := rfl

theorem readValue_null : readValue (fuel + 1) ("null".toList ++ cs) = some (.null, cs) := rfl

theorem readValue_bool (b : Bool) :
    readValue (fuel + 1) ((Text.ofBool b).toList ++ cs) = some (.bool b, cs) := by
  cases b <;> rfl

theorem readValue_number {c : Char} (hc : c ∉ ['"', '[', '{', 'n', 't', 'f']) :
    readValue (fuel + 1) (c :: cs) =
      (readNumber (c :: cs)).map fun found => (.number found.1, found.2) := by
  simp only [List.mem_cons, List.not_mem_nil, not_or] at hc
  simp [readValue, hc]

end

/-! ## Values -/

/-- A value that is written with nothing lost: its numbers are whole, and its strings and the keys
of its objects spell texts. -/
inductive Plain : Json → Prop
  | null : Plain .null
  | bool (b : Bool) : Plain (.bool b)
  | int (n : Int) : Plain (.int n)
  | text (s : String) : Plain (.text s)
  | array {js : List Json} : (∀ j ∈ js, Plain j) → Plain (.array js)
  | record {ms : List (String × Json)} : (∀ m ∈ ms, Plain m.2) → Plain (.record ms)

theorem skipBlanks_append {blanks : List Char} (h : blanks.all isBlank = true) (cs : List Char) :
    skipBlanks (blanks ++ cs) = skipBlanks cs :=
  List.dropWhile_append_of_pos (List.all_eq_true.1 h)

theorem skipBlanks_cons {c : Char} (h : isBlank c = false) (cs : List Char) :
    skipBlanks (c :: cs) = c :: cs :=
  List.dropWhile_cons_of_neg (ne_true_of_eq_false h)

theorem endsNumber_append {blanks : List Char} (h : blanks.all isBlank = true) {c : Char}
    (hc : c = ']' ∨ c = '}') (cs : List Char) : EndsNumber (blanks ++ c :: cs) := by
  intro d hd
  cases blanks with
  | nil =>
    obtain rfl : c = d := by simpa using hd
    rcases hc with rfl | rfl <;> decide
  | cons b bs =>
    obtain rfl : b = d := by simpa using hd
    have hb : isBlank b = true := List.all_eq_true.1 h b List.mem_cons_self
    simp only [isBlank, Bool.or_eq_true, decide_eq_true_eq] at hb
    rcases hb with ((rfl | rfl) | rfl) | rfl <;> decide

theorem endsNumber_comma (cs : List Char) : EndsNumber (',' :: cs) := by
  intro d hd
  obtain rfl : ',' = d := by simpa using hd
  decide

namespace Layout

variable {y : Layout}

/-- The text of a value starts with something that is no blank and closes no array, and the value is
read back from it when there is as much fuel as twice its length. -/
structure Reads (y : Layout) (j : Json) : Prop where
  starts : ∀ level, ∃ c cs, y.text level j = c :: cs ∧ isBlank c = false ∧ c ≠ ']'
  read : ∀ level fuel rest, 2 * (y.text level j).length ≤ fuel → EndsNumber rest →
    readValue fuel (y.text level j ++ rest) = some (j, rest)

theorem Reads.skipBlanks {j : Json} (h : y.Reads j) {blanks : List Char}
    (hblanks : blanks.all isBlank = true) (level : Nat) (rest : List Char) :
    Json.skipBlanks (blanks ++ (y.text level j ++ rest)) = y.text level j ++ rest := by
  obtain ⟨c, cs, htext, hc, _⟩ := h.starts level
  rw [skipBlanks_append hblanks, htext]
  exact skipBlanks_cons hc _

/-- The elements of an array are read back, behind blanks and up to the closing bracket. -/
theorem readElements_of_reads {j : Json} {js : List Json} (hj : y.Reads j)
    (hjs : ∀ j ∈ js, y.Reads j) (level fuel : Nat) {blanks close : List Char}
    (hblanks : blanks.all isBlank = true) (hclose : close.all isBlank = true) (rest : List Char)
    (hfuel : 2 * (y.text level j ++ y.elements level js).length < fuel) :
    readElements fuel
      (blanks ++ (y.text level j ++ (y.elements level js ++ (close ++ ']' :: rest)))) =
        some (j :: js, rest) := by
  induction js generalizing j fuel blanks with
  | nil =>
    obtain ⟨fuel, rfl⟩ := Nat.exists_eq_add_one_of_ne_zero (Nat.ne_zero_of_lt hfuel)
    have hlength : 2 * (y.text level j).length ≤ fuel :=
      Nat.le_of_lt_add_one (by simpa [elements] using hfuel)
    have hread := hj.read level fuel _ hlength
      (endsNumber_append hclose (.inl rfl) rest)
    simp [readElements, elements, hj.skipBlanks hblanks, hread, skipBlanks_append hclose,
      skipBlanks_cons (c := ']') (by decide)]
  | cons j' js ih =>
    obtain ⟨fuel, rfl⟩ := Nat.exists_eq_add_one_of_ne_zero (Nat.ne_zero_of_lt hfuel)
    obtain ⟨hj', hjs'⟩ := List.forall_mem_cons.1 hjs
    simp only [elements, List.length_append, List.length_cons] at hfuel
    have hread := hj.read level fuel _ (by omega)
      (endsNumber_comma (y.line level ++ (y.text level j' ++ (y.elements level js ++
        (close ++ ']' :: rest)))))
    have hrest := ih hj' hjs' fuel (y.line_blank level) (by rw [List.length_append]; omega)
    simp [readElements, elements, hj.skipBlanks hblanks, hread, hrest,
      skipBlanks_cons (c := ',') (by decide)]

/-- The key of a member is read back, and its value as the reader of values has it. -/
theorem readMembers_of_value {k : String} {j : Json} {fuel : Nat} {c : Char}
    {blanks cs behind rest : List Char} (hblanks : blanks.all isBlank = true)
    (hread : readValue fuel (Json.skipBlanks cs) = some (j, behind))
    (hbehind : Json.skipBlanks behind = c :: rest) (hc : c = '}' ∨ c = ',') :
    readMembers (fuel + 1) (blanks ++ (quoted (some k) ++ ':' :: cs)) =
      if c = '}' then some ([(some k, j)], rest)
      else (readMembers fuel rest).map fun found => ((some k, j) :: found.1, found.2) := by
  have hquote : Json.skipBlanks (blanks ++ (quoted (some k) ++ ':' :: cs)) =
      '"' :: (k.toList.flatMap escaped ++ '"' :: ':' :: cs) := by
    rw [skipBlanks_append hblanks, quoted_some, List.cons_append, skipBlanks_cons rfl]
    simp
  have hcolon : Json.skipBlanks (':' :: cs) = ':' :: cs := skipBlanks_cons rfl cs
  rw [readMembers, hquote]
  rcases hc with rfl | rfl
  · simp [expect, readString_quoted, hcolon, hread, hbehind]
  · simp [expect, readString_quoted, hcolon, hread, hbehind]

/-- The members of an object are read back, behind blanks and up to the closing brace. -/
theorem readMembers_of_reads {m : String × Json} {ms : List (String × Json)} (hm : y.Reads m.2)
    (hms : ∀ m ∈ ms, y.Reads m.2) (level fuel : Nat) {blanks close : List Char}
    (hblanks : blanks.all isBlank = true) (hclose : close.all isBlank = true) (rest : List Char)
    (hfuel : 2 * (y.text level m.2 ++
      y.members level (ms.map fun m => (some m.1, m.2))).length < fuel) :
    readMembers fuel
      (blanks ++ (quoted (some m.1) ++ ':' :: (y.gap ++ (y.text level m.2 ++
        (y.members level (ms.map fun m => (some m.1, m.2)) ++ (close ++ '}' :: rest)))))) =
        some ((m :: ms).map fun m => (some m.1, m.2), rest) := by
  induction ms generalizing m fuel blanks with
  | nil =>
    obtain ⟨fuel, rfl⟩ := Nat.exists_eq_add_one_of_ne_zero (Nat.ne_zero_of_lt hfuel)
    have hlength : 2 * (y.text level m.2).length ≤ fuel :=
      Nat.le_of_lt_add_one (by simpa [members] using hfuel)
    have hread := hm.read level fuel _ hlength (endsNumber_append hclose (.inr rfl) rest)
    rw [← hm.skipBlanks y.gap_blank] at hread
    have hend : Json.skipBlanks (close ++ '}' :: rest) = '}' :: rest := by
      rw [skipBlanks_append hclose, skipBlanks_cons rfl]
    simp only [List.map_nil, members, List.nil_append]
    exact (readMembers_of_value hblanks hread hend (.inl rfl)).trans (if_pos rfl)
  | cons m' ms ih =>
    obtain ⟨fuel, rfl⟩ := Nat.exists_eq_add_one_of_ne_zero (Nat.ne_zero_of_lt hfuel)
    obtain ⟨hm', hms'⟩ := List.forall_mem_cons.1 hms
    simp only [members, List.map_cons, List.length_append, List.length_cons] at hfuel
    have hrest := ih hm' hms' fuel (y.line_blank level) (by rw [List.length_append]; omega)
    have hread := hm.read level fuel _ (by omega) (endsNumber_comma (y.line level ++
      (quoted (some m'.1) ++ ':' :: (y.gap ++ (y.text level m'.2 ++
        (y.members level (ms.map fun m => (some m.1, m.2)) ++ (close ++ '}' :: rest)))))))
    rw [← hm.skipBlanks y.gap_blank] at hread
    simp only [List.map_cons, members, List.append_assoc, List.cons_append]
    rw [readMembers_of_value hblanks hread (skipBlanks_cons rfl _) (.inr rfl),
      if_neg (by decide), hrest]
    simp

/-- The start of a text takes one step. -/
theorem Reads.of_step {j : Json}
    (starts : ∀ level, ∃ c cs, y.text level j = c :: cs ∧ isBlank c = false ∧ c ≠ ']')
    (step : ∀ level fuel rest, 2 * (y.text level j).length ≤ fuel + 1 → EndsNumber rest →
      readValue (fuel + 1) (y.text level j ++ rest) = some (j, rest)) : y.Reads j := by
  refine ⟨starts, fun level fuel rest hfuel hrest => ?_⟩
  obtain ⟨c, cs, htext, _⟩ := starts level
  have hpos : fuel ≠ 0 := by
    rintro rfl
    simp [htext] at hfuel
  obtain ⟨fuel, rfl⟩ := Nat.exists_eq_add_one_of_ne_zero hpos
  exact step level fuel rest hfuel hrest

theorem starts_ofInt (n : Int) :
    ∃ c cs, (Text.ofInt n).toList = c :: cs ∧ (c.isDigit = true ∨ c = '-') := by
  cases n with
  | ofNat n =>
    rw [Text.ofInt, Text.toList_ofNat]
    obtain ⟨c, cs, hdigits, hc, _⟩ := Text.toDigits_starts n
    exact ⟨c, cs, hdigits, .inl hc⟩
  | negSucc n => exact ⟨'-', _, Text.toList_ofInt_negSucc n, .inr rfl⟩

theorem reads_int (y : Layout) (n : Int) : y.Reads (.int n) := by
  obtain ⟨c, cs, htext, hc⟩ := starts_ofInt n
  have hne {d : Char} (hdigit : d.isDigit = false) (hd : d ≠ '-') : c ≠ d := by
    rcases hc with hc | rfl
    · exact Text.ne_of_isDigit hc hdigit
    · exact hd.symm
  refine .of_step (fun level => ⟨c, cs, htext, ?_, hne rfl (by decide)⟩) ?_
  · simp [isBlank, hne (d := ' ') rfl (by decide), hne (d := '\n') rfl (by decide),
      hne (d := '\t') rfl (by decide), hne (d := '\r') rfl (by decide)]
  · intro level fuel rest _ hrest
    have hread := readNumber_ofInt n hrest
    change readValue (fuel + 1) ((Text.ofInt n).toList ++ rest) = _
    have hnumber : c ∉ ['"', '[', '{', 'n', 't', 'f'] := by
      intro hmem
      simp only [List.mem_cons, List.not_mem_nil, or_false] at hmem
      rcases hmem with rfl | rfl | rfl | rfl | rfl | rfl
      all_goals exact absurd hc (by decide)
    rw [htext, List.cons_append] at hread ⊢
    rw [readValue_number _ _ hnumber, hread, int, htext]
    rfl

theorem reads_text (y : Layout) (s : String) : y.Reads (.text s) := by
  refine .of_step (fun level => ⟨'"', _, quoted_some s, by decide, by decide⟩) ?_
  intro level fuel rest _ _
  have hread := readString_quoted s rest
  change readValue (fuel + 1) (quoted (some s) ++ rest) = _
  rw [quoted_some, List.cons_append, List.append_assoc, readValue_quote]
  simp only [List.cons_append, List.nil_append, hread, Option.map_some]
  rfl

theorem readValue_of_elements {fuel : Nat} {c : Char} {cs cs' rest : List Char} {js : List Json}
    (hskip : Json.skipBlanks cs = c :: cs') (hc : c ≠ ']')
    (hread : readElements fuel (c :: cs') = some (js, rest)) :
    readValue (fuel + 1) ('[' :: cs) = some (.array js, rest) := by
  simp [readValue_bracket, hskip, hc, hread]

theorem readValue_of_members {fuel : Nat} {c : Char} {cs cs' rest : List Char}
    {ms : List (Option String × Json)} (hskip : Json.skipBlanks cs = c :: cs') (hc : c ≠ '}')
    (hread : readMembers fuel (c :: cs') = some (ms, rest)) :
    readValue (fuel + 1) ('{' :: cs) = some (.object ms, rest) := by
  simp [readValue_brace, hskip, hc, hread]

theorem reads_array {js : List Json} (h : ∀ j ∈ js, y.Reads j) : y.Reads (.array js) := by
  cases js with
  | nil =>
    refine .of_step (fun level => ⟨'[', _, rfl, by decide, by decide⟩) ?_
    intro level fuel rest _ _
    simp [text, readValue_bracket, skipBlanks_cons (show isBlank ']' = false from rfl)]
  | cons j js =>
    obtain ⟨hj, hjs⟩ := List.forall_mem_cons.1 h
    refine .of_step (fun level => ⟨'[', _, rfl, by decide, by decide⟩) ?_
    intro level fuel rest hfuel _
    simp only [text, List.length_cons, List.length_append] at hfuel
    have hread := readElements_of_reads hj hjs (level + 1) fuel List.all_nil
      (y.line_blank level) rest (by rw [List.length_append]; omega)
    have hskip := hj.skipBlanks (y.line_blank (level + 1)) (level + 1)
      (y.elements (level + 1) js ++ (y.line level ++ ']' :: rest))
    obtain ⟨c, cs, htext, _, hc⟩ := hj.starts (level + 1)
    rw [htext, List.cons_append] at hread hskip
    simp only [text, htext, List.cons_append, List.append_assoc, List.nil_append]
    exact readValue_of_elements hskip hc hread

theorem reads_record {ms : List (String × Json)} (h : ∀ m ∈ ms, y.Reads m.2) :
    y.Reads (.record ms) := by
  cases ms with
  | nil =>
    refine .of_step (fun level => ⟨'{', _, rfl, by decide, by decide⟩) ?_
    intro level fuel rest _ _
    simp [record, text, readValue_brace, skipBlanks_cons (show isBlank '}' = false from rfl)]
  | cons m ms =>
    obtain ⟨hm, hms⟩ := List.forall_mem_cons.1 h
    refine .of_step (fun level => ⟨'{', _, rfl, by decide, by decide⟩) ?_
    intro level fuel rest hfuel _
    simp only [record, List.map_cons, text, List.length_cons, List.length_append] at hfuel
    have hread := readMembers_of_reads hm hms (level + 1) fuel List.all_nil
      (y.line_blank level) rest (by rw [List.length_append]; omega)
    rw [List.nil_append, quoted_some, List.cons_append] at hread
    have hskip (cs : List Char) :
        Json.skipBlanks (y.line (level + 1) ++ '"' :: cs) = '"' :: cs := by
      rw [skipBlanks_append (y.line_blank _), skipBlanks_cons rfl]
    simp only [record, List.map_cons, text, quoted_some, List.cons_append, List.append_assoc,
      List.nil_append] at hread ⊢
    exact readValue_of_members (hskip _) (by decide) hread

end Layout

/-- What is written with nothing lost is read back, in any layout. -/
theorem Plain.reads {j : Json} (h : j.Plain) (y : Layout) : y.Reads j := by
  induction h with
  | null =>
    refine .of_step (fun _ => ⟨'n', _, rfl, by decide, by decide⟩) fun _ _ _ _ _ => ?_
    exact readValue_null _ _
  | bool b =>
    refine .of_step (fun _ => ?_) fun _ _ _ _ _ => readValue_bool _ _ b
    cases b with
    | true => exact ⟨'t', _, rfl, by decide, by decide⟩
    | false => exact ⟨'f', _, rfl, by decide, by decide⟩
  | int n => exact Layout.reads_int y n
  | text s => exact Layout.reads_text y s
  | array _ ih => exact Layout.reads_array ih
  | record _ ih => exact Layout.reads_record ih

theorem Plain.parse?_text {j : Json} (h : j.Plain) (y : Layout) :
    parse? (String.ofList (y.text 0 j)) = some j := by
  have hend : EndsNumber [] := by rintro _ ⟨⟩
  have hread := (h.reads y).read 0 (2 * (y.text 0 j).length + 2) [] (Nat.le_add_right _ _) hend
  have hskip := (h.reads y).skipBlanks List.all_nil 0 []
  rw [List.append_nil] at hread hskip
  rw [List.nil_append] at hskip
  simp only [parse?, String.toList_ofList, hskip, hread]
  rfl

theorem Plain.parse?_render {j : Json} (h : j.Plain) : parse? j.render = some j := by
  rw [render, ← Layout.text_ofCompact 0]
  exact h.parse?_text _

theorem Plain.parse?_pretty {j : Json} (h : j.Plain) : parse? j.pretty = some j := by
  rw [pretty, ← Layout.text_ofPretty 0]
  exact h.parse?_text _

end OffloadCheck.Json
