import OffloadCheck.Proofs.Numerals
import OffloadCheck.Toml.Printer
import OffloadCheck.Toml.Reader

/-! # Strings and numbers in TOML text

A string is read back in whichever notation it was written. Within double quotes every character has
a piece that is read as it, in one line and in several. Within three quotes the pieces are read as
long as no more than two quotes stand next to each other, since a third would close the string. -/
namespace OffloadCheck.Toml

/-! ## Characters -/

theorem isPlain_of_not_needsEscape {c : Char} (h : needsEscape c = false) (hline : c ≠ '\n') :
    isPlain c = true := by
  simpa [needsEscape, hline] using h

theorem not_newline_of_isPlain {c : Char} (h : isPlain c = true) : c ≠ '\n' ∧ c ≠ '\r' := by
  constructor
  · rintro rfl
    cases h
  · rintro rfl
    cases h

theorem newline?_cons {c : Char} (h : c ≠ '\n') (h' : c ≠ '\r') (cs : List Char) :
    newline? (c :: cs) = none := by
  simp [newline?, h, h']

theorem skipBlanks_cons {c : Char} (h : isBlank c = false) (cs : List Char) :
    skipBlanks (c :: cs) = c :: cs :=
  List.dropWhile_cons_of_neg (ne_true_of_eq_false h)

/-- A character is read back from its number. -/
theorem namedChar_hex {c : Char} (h : c.toNat < 0x10000) (rest : List Char) :
    namedChar 4 ((Text.hex 4 c.toNat).map Char.toUpper ++ rest) = some (c, rest) := by
  have hread := Text.digitsFrom_hex (f := Char.toUpper) Text.hexDigit?_toUpper_hexDigit h
  have hlength : ((Text.hex 4 c.toNat).map Char.toUpper).length = 4 := by simp [Text.hex]
  have hscalar : scalar? c.toNat = some c := by
    rw [scalar?, if_pos (show c.toNat.isValidChar from c.valid), Char.ofNat_toNat]
  simp only [namedChar, List.take_left' hlength, List.drop_left' hlength, hlength, hread,
    Nat.lt_irrefl, if_false, Option.bind_some, hscalar, Option.map_some]

/-- What stands for a character within double quotes: the character itself, or an escape that is
read as it. -/
inductive Piece (long : Bool) (c : Char) : List Char → Prop
  | self : isPlain c = true → c ≠ '"' → c ≠ '\\' → Piece long c [c]
  | lineEnd : long = true → c = '\n' → Piece long c [c]
  | escape {e : Char} {es : List Char} : isBlank e = false → e ≠ '\n' → e ≠ '\r' →
      (∀ rest, escape (e :: (es ++ rest)) = some (c, rest)) → Piece long c ('\\' :: e :: es)

theorem piece_escaped {long : Bool} {run : Nat} {c : Char}
    (h : c = '"' → (long && run < 2) = false) : Piece long c (escaped long run c) := by
  have hletter {e : Char} (hblank : isBlank e = false) (hline : e ≠ '\n') (hreturn : e ≠ '\r')
      (hread : ∀ rest, escape (e :: rest) = some (c, rest)) : Piece long c ['\\', e] :=
    .escape hblank hline hreturn hread
  unfold escaped
  split
  · next hquote =>
    subst hquote
    rw [if_neg (ne_true_of_eq_false (h rfl))]
    exact hletter rfl (by decide) (by decide) fun _ => rfl
  next hquote =>
  split
  · next heq => subst heq; exact hletter rfl (by decide) (by decide) fun _ => rfl
  next hbackslash =>
  split
  · next heq => subst heq; exact hletter rfl (by decide) (by decide) fun _ => rfl
  split
  · next heq => subst heq; exact hletter rfl (by decide) (by decide) fun _ => rfl
  next htab =>
  split
  · next heq =>
    subst heq
    split
    · next hlong => exact .lineEnd hlong rfl
    · exact hletter rfl (by decide) (by decide) fun _ => rfl
  split
  · next heq => subst heq; exact hletter rfl (by decide) (by decide) fun _ => rfl
  split
  · next heq => subst heq; exact hletter rfl (by decide) (by decide) fun _ => rfl
  split
  · next hcontrol =>
    have hlt : c.toNat < 0x10000 := by
      simp only [Bool.or_eq_true, decide_eq_true_eq] at hcontrol
      omega
    exact .escape rfl (by decide) (by decide) (namedChar_hex hlt)
  · next hcontrol =>
    have hplain : isPlain c = true := by
      simp only [Bool.or_eq_true, decide_eq_true_eq, not_or] at hcontrol
      simp [isPlain, hcontrol.2, Nat.not_lt.1 hcontrol.1]
    exact .self hplain hquote hbackslash

/-- What stands for a character does not close the string, and starts a line only where the
character does. -/
theorem Piece.starts {long : Bool} {c : Char} {piece : List Char} (h : Piece long c piece) :
    ∃ d ds, piece = d :: ds ∧ d ≠ '"' ∧ d ≠ '\r' ∧ (d = '\n' → c = '\n') := by
  cases h with
  | self hplain hquote =>
    exact ⟨c, [], rfl, hquote, (not_newline_of_isPlain hplain).2, id⟩
  | lineEnd _ hline => exact ⟨c, [], rfl, by simp [hline], by simp [hline], fun _ => hline⟩
  | escape => exact ⟨_, _, rfl, by decide, by decide, fun h => absurd h (by decide)⟩

/-! ## Strings of one line -/

theorem basicString_piece {c : Char} {piece : List Char} (h : Piece false c piece) (fuel : Nat)
    (met rest : List Char) :
    basicString (fuel + 1) met (piece ++ rest) = basicString fuel (c :: met) rest := by
  cases h with
  | self hplain hquote hbackslash => simp [basicString, hquote, hbackslash, hplain]
  | lineEnd hlong => cases hlong
  | escape _ _ _ hread => simp [basicString, hread]

theorem basicString_escapedFrom (cs : List Char) {fuel : Nat} (hfuel : cs.length < fuel) (run : Nat)
    (met rest : List Char) : basicString fuel met (escapedFrom false run cs ++ '"' :: rest) =
      some (String.ofList (met.reverse ++ cs), rest) := by
  induction cs generalizing fuel run met with
  | nil =>
    obtain ⟨fuel, rfl⟩ := Nat.exists_eq_add_one_of_ne_zero (Nat.ne_zero_of_lt hfuel)
    simp [escapedFrom, basicString]
  | cons c cs ih =>
    obtain ⟨fuel, rfl⟩ := Nat.exists_eq_add_one_of_ne_zero (Nat.ne_zero_of_lt hfuel)
    have hpiece : Piece false c (escaped false run c) := piece_escaped fun _ => rfl
    rw [escapedFrom, List.append_assoc, basicString_piece hpiece, ih (Nat.lt_of_succ_lt_succ hfuel)]
    simp

theorem literalString_append {cs : List Char} (h : ∀ c ∈ cs, isPlain c = true ∧ c ≠ '\'')
    (rest : List Char) : literalString (cs ++ '\'' :: rest) = some (String.ofList cs, rest) := by
  have hinside : ∀ c ∈ cs, (isPlain c && c ≠ '\'') = true := by simpa using h
  have hbody : (cs ++ '\'' :: rest).takeWhile (fun c => isPlain c && c ≠ '\'') = cs := by
    rw [List.takeWhile_append_of_pos hinside]
    simp
  simp only [literalString, hbody, List.drop_left]

/-! ## Strings of several lines -/

theorem longString_piece {c : Char} {piece : List Char} (h : Piece true c piece) (fuel : Nat)
    (met rest : List Char) : longString '"' true (fuel + 1) met (piece ++ rest) =
      longString '"' true fuel (c :: met) rest := by
  cases h with
  | self hplain hquote hbackslash =>
    obtain ⟨hline, hreturn⟩ := not_newline_of_isPlain hplain
    simp [longString, hquote, hbackslash, hplain, newline?_cons hline hreturn]
  | lineEnd _ hline =>
    subst hline
    simp [longString, newline?]
  | escape hblank hline hreturn hread =>
    simp [longString, skipBlanks_cons hblank, newline?_cons hline hreturn, hread]

/-- A text within three quotes, `run` quotes behind the last other character: no more than two
quotes stand next to each other, and what stands between them is read character by character. -/
inductive LongText (quote : Char) (escapes : Bool) : Nat → List Char → List Char → Prop
  | nil {run : Nat} : LongText quote escapes run [] []
  | quote {run : Nat} {cs text : List Char} : run < 2 → LongText quote escapes (run + 1) cs text →
      LongText quote escapes run (quote :: cs) (quote :: text)
  | piece {run : Nat} {c d : Char} {cs ds text : List Char} : d ≠ quote →
      (∀ fuel met rest, longString quote escapes (fuel + 1) met (d :: (ds ++ rest)) =
        longString quote escapes fuel (c :: met) rest) →
      LongText quote escapes 0 cs text → LongText quote escapes run (c :: cs) (d :: (ds ++ text))

section

variable {quote : Char} {escapes : Bool} {run : Nat} {cs text rest : List Char}

theorem LongText.length_le (h : LongText quote escapes run cs text) : cs.length ≤ text.length := by
  induction h with
  | nil => exact Nat.le_refl 0
  | quote _ _ ih => exact Nat.succ_le_succ ih
  | piece _ _ _ ih =>
    simp only [List.length_cons, List.length_append]
    omega

/-- A text starts with at most two quotes, and if there is nothing else then they stand for
themselves. -/
theorem LongText.leading (h : LongText quote escapes run cs text) (hrun : run ≤ 2) :
    ∃ k, k + run ≤ 2 ∧ ((cs = List.replicate k quote ∧ text = List.replicate k quote) ∨
      ∃ d ds, d ≠ quote ∧ text = List.replicate k quote ++ d :: ds) := by
  induction h with
  | nil => exact ⟨0, by omega, .inl ⟨rfl, rfl⟩⟩
  | quote hlt _ ih =>
    obtain ⟨k, hk, hall | ⟨d, ds, hd, htext⟩⟩ := ih hlt
    · exact ⟨k + 1, by omega, .inl ⟨congrArg (_ :: ·) hall.1, congrArg (_ :: ·) hall.2⟩⟩
    · exact ⟨k + 1, by omega, .inr ⟨d, ds, hd, congrArg (_ :: ·) htext⟩⟩
  | piece hd _ _ _ => exact ⟨0, by omega, .inr ⟨_, _, hd, rfl⟩⟩

theorem takeWhile_quotes (k : Nat) (hrest : rest.head? ≠ some quote) :
    (List.replicate k quote ++ rest).takeWhile (· = quote) = List.replicate k quote := by
  rw [List.takeWhile_append_of_pos (by simp)]
  cases rest with
  | nil => simp
  | cons c cs =>
    have hc : c ≠ quote := fun heq => hrest (congrArg some heq)
    simp [hc]

/-- Up to two quotes before the closing ones end up inside. -/
theorem longString_close {k : Nat} (hk : k ≤ 2) (hrest : rest.head? ≠ some quote) (fuel : Nat)
    (met : List Char) : longString quote escapes (fuel + 1) met
      (List.replicate k quote ++ quote :: quote :: quote :: rest) =
        some (String.ofList (met.reverse ++ List.replicate k quote), rest) := by
  have hquotes : List.replicate k quote ++ quote :: quote :: quote :: rest =
      List.replicate (k + 3) quote ++ rest := by
    rw [← List.replicate_append_replicate, List.append_assoc]
    rfl
  have hinside : closingQuotes (k + 3) = some k := by
    have hmin : min (k + 3) 5 - 3 = k := by omega
    simp [closingQuotes, hmin]
  have hcons : List.replicate (k + 3) quote ++ rest =
      quote :: (List.replicate (k + 2) quote ++ rest) := rfl
  rw [hquotes, hcons, longString, if_pos rfl, ← hcons, takeWhile_quotes _ hrest,
    List.length_replicate]
  simp only [hinside, List.drop_left' List.length_replicate, List.reverse_append,
    List.reverse_replicate]

/-- One or two quotes before something else stand for themselves. -/
theorem longString_quote (hrun : ((quote :: rest).takeWhile (· = quote)).length ≤ 2) (fuel : Nat)
    (met : List Char) : longString quote escapes (fuel + 1) met (quote :: rest) =
      longString quote escapes fuel (quote :: met) rest := by
  have hopen : closingQuotes ((quote :: rest).takeWhile (· = quote)).length = none :=
    if_neg (Nat.not_le.2 (Nat.lt_succ_of_le hrun))
  simp only [longString, if_true, hopen]

/-- A text is read back up to the three quotes that close it. -/
theorem LongText.read (h : LongText quote escapes run cs text) (hrun : run ≤ 2)
    (hrest : rest.head? ≠ some quote) {fuel : Nat} (hfuel : cs.length < fuel) (met : List Char) :
    longString quote escapes fuel met (text ++ quote :: quote :: quote :: rest) =
      some (String.ofList (met.reverse ++ cs), rest) := by
  induction h generalizing fuel met with
  | nil =>
    obtain ⟨fuel, rfl⟩ := Nat.exists_eq_add_one_of_ne_zero (Nat.ne_zero_of_lt hfuel)
    exact longString_close (Nat.zero_le 2) hrest fuel met
  | quote hlt htext ih =>
    obtain ⟨fuel, rfl⟩ := Nat.exists_eq_add_one_of_ne_zero (Nat.ne_zero_of_lt hfuel)
    obtain ⟨k, hk, ⟨hcs, hall⟩ | ⟨d, ds, hd, hmore⟩⟩ := (LongText.quote hlt htext).leading hrun
    · rw [hcs, hall]
      exact longString_close (by omega) hrest fuel met
    · -- The quotes end before the text does, so they do not close the string.
      have hend : (d :: (ds ++ quote :: quote :: quote :: rest)).head? ≠ some quote := by simp [hd]
      have hquotes := takeWhile_quotes k hend
      rw [← List.cons_append, ← List.append_assoc, ← hmore] at hquotes
      rw [List.cons_append] at hquotes ⊢
      rw [longString_quote (by rw [hquotes, List.length_replicate]; omega),
        ih hlt (Nat.lt_of_succ_lt_succ hfuel)]
      simp
  | piece hd hstep _ ih =>
    obtain ⟨fuel, rfl⟩ := Nat.exists_eq_add_one_of_ne_zero (Nat.ne_zero_of_lt hfuel)
    rw [List.cons_append, List.append_assoc, hstep,
      ih (Nat.zero_le 2) (Nat.lt_of_succ_lt_succ hfuel)]
    simp

end

theorem longText_escapedFrom (cs : List Char) (run : Nat) :
    LongText '"' true run cs (escapedFrom true run cs) := by
  induction cs generalizing run with
  | nil => exact .nil
  | cons c cs ih =>
    by_cases hquote : c = '"' ∧ run < 2
    · obtain ⟨rfl, hrun⟩ := hquote
      simp only [escapedFrom, escaped, hrun]
      exact .quote hrun (ih (run + 1))
    · have hpiece : Piece true c (escaped true run c) := piece_escaped fun hc => by
        simpa using fun hrun => hquote ⟨hc, hrun⟩
      have hrest : escapedFrom true run (c :: cs) =
          escaped true run c ++ escapedFrom true 0 cs := by
        rw [escapedFrom, if_neg]
        simpa using fun hc hrun => hquote ⟨hc, hrun⟩
      obtain ⟨d, ds, hstart, hd, _⟩ := hpiece.starts
      have hstep := longString_piece hpiece
      rw [hrest]
      rw [hstart] at hstep ⊢
      exact .piece hd hstep (ih 0)

/-- The longest run so far and the run at the end, with one more character. -/
def tally (c : Char) : Nat × Nat → Char → Nat × Nat
  | (best, run), x => if x = c then (max best (run + 1), run + 1) else (best, 0)

theorem longestRun_eq (c : Char) (cs : List Char) :
    longestRun c cs = (cs.foldl (tally c) (0, 0)).1 := rfl

theorem le_tally (c : Char) (cs : List Char) (best run : Nat) :
    best ≤ (cs.foldl (tally c) (best, run)).1 := by
  induction cs generalizing best run with
  | nil => exact Nat.le_refl best
  | cons x cs ih =>
    rw [List.foldl_cons, tally]
    split
    · exact Nat.le_trans (Nat.le_max_left _ _) (ih _ _)
    · exact ih _ _

theorem not_mem_of_longestRun {c : Char} {cs : List Char} (h : longestRun c cs = 0) : c ∉ cs := by
  intro hmem
  obtain ⟨front, behind, rfl⟩ := List.append_of_mem hmem
  rw [longestRun_eq, List.foldl_append, List.foldl_cons, tally, if_pos rfl] at h
  have hle := le_tally c behind (max (front.foldl (tally c) (0, 0)).1
    ((front.foldl (tally c) (0, 0)).2 + 1)) ((front.foldl (tally c) (0, 0)).2 + 1)
  omega

/-- Text without escapes in single quotes stands for itself. -/
theorem longText_of_tally {cs : List Char} {best run : Nat}
    (h : (cs.foldl (tally '\'') (best, run)).1 ≤ 2) (hcs : ∀ c ∈ cs, needsEscape c = false) :
    LongText '\'' false run cs cs := by
  induction cs generalizing best run with
  | nil => exact .nil
  | cons c cs ih =>
    obtain ⟨hc, htail⟩ := List.forall_mem_cons.1 hcs
    rw [List.foldl_cons, tally] at h
    split at h
    · next hquote =>
      subst hquote
      have hrun := Nat.le_trans (Nat.le_max_right _ _) (Nat.le_trans (le_tally _ _ _ _) h)
      exact .quote hrun (ih h htail)
    · next hquote =>
      have hstep (fuel : Nat) (met rest : List Char) :
          longString '\'' false (fuel + 1) met (c :: ([] ++ rest)) =
            longString '\'' false fuel (c :: met) rest := by
        by_cases hline : c = '\n'
        · subst hline
          simp [longString, newline?]
        · have hplain := isPlain_of_not_needsEscape hc hline
          have hreturn := (not_newline_of_isPlain hplain).2
          simp [longString, hquote, newline?_cons hline hreturn, hplain]
      exact .piece hquote hstep (ih h htail)

/-! ## Every notation -/

theorem styleOf_literal {cs : List Char} (h : styleOf cs = .literal) :
    cs ≠ [] ∧ ∀ c ∈ cs, isPlain c = true ∧ c ≠ '\'' := by
  refine ⟨?_, fun c hc => ?_⟩
  · rintro rfl
    cases h
  · simp only [styleOf] at h
    split at h
    · cases h
    split at h
    · next hcond =>
      simp only [Bool.and_eq_true, Bool.not_eq_true', decide_eq_true_eq, List.any_eq_false,
        List.contains_eq_mem, decide_eq_false_iff_not] at hcond
      have hline : c ≠ '\n' := fun heq => hcond.2 (heq ▸ hc)
      have hquote : c ≠ '\'' := fun heq => not_mem_of_longestRun hcond.1.2 (heq ▸ hc)
      have hescape : needsEscape c = false := Bool.eq_false_iff.2 (hcond.1.1 c hc)
      exact ⟨isPlain_of_not_needsEscape hescape hline, hquote⟩
    · repeat' split at h
      all_goals cases h

theorem styleOf_longLiteral {cs : List Char} (h : styleOf cs = .longLiteral) :
    longestRun '\'' cs ≤ 2 ∧ ∀ c ∈ cs, needsEscape c = false := by
  simp only [styleOf] at h
  split at h
  · cases h
  split at h
  · cases h
  split at h
  · cases h
  split at h
  · next hcond =>
    simp only [Bool.and_eq_true, Bool.not_eq_true', decide_eq_true_eq, List.any_eq_false] at hcond
    exact ⟨hcond.2, fun c hc => Bool.eq_false_iff.2 (hcond.1 c hc)⟩
  · split at h
    all_goals cases h

/-- Something is written for every character, and it starts a line only where the character does. -/
theorem escaped_starts (long : Bool) (run : Nat) (c : Char) :
    ∃ d ds, escaped long run c = d :: ds ∧ d ≠ '\r' ∧ (d = '\n' → c = '\n') := by
  by_cases h : c = '"' ∧ (long && run < 2) = true
  · obtain ⟨rfl, hraw⟩ := h
    exact ⟨'"', [], by simp only [escaped, hraw, if_true], by decide, fun h => absurd h (by decide)⟩
  · obtain ⟨d, ds, hstart, _, hreturn, hline⟩ :=
      (piece_escaped fun hc => Bool.eq_false_iff.2 fun hraw => h ⟨hc, hraw⟩ :
        Piece long c (escaped long run c)).starts
    exact ⟨d, ds, hstart, hreturn, hline⟩

theorem length_le_escapedFrom (long : Bool) (run : Nat) (cs : List Char) :
    cs.length ≤ (escapedFrom long run cs).length := by
  induction cs generalizing run with
  | nil => exact Nat.le_refl 0
  | cons c cs ih =>
    obtain ⟨d, ds, hstart, _⟩ := escaped_starts long run c
    have hrest := ih (if c = '"' && long && run < 2 then run + 1 else 0)
    rw [escapedFrom, hstart]
    simp only [List.length_append, List.length_cons]
    omega

theorem string?_basic (cs : List Char) {rest : List Char} (hrest : rest.head? ≠ some '"') :
    string? ('"' :: (escapedFrom false 0 cs ++ '"' :: rest)) = some (String.ofList cs, rest) := by
  have hfuel : cs.length < (escapedFrom false 0 cs ++ '"' :: rest).length + 1 := by
    have hlength := length_le_escapedFrom false 0 cs
    rw [List.length_append]
    omega
  have hread := basicString_escapedFrom cs hfuel 0 [] rest
  -- Three quotes at the start would open a string of several lines.
  have hone : ∀ behind, escapedFrom false 0 cs ++ '"' :: rest ≠ '"' :: '"' :: behind := by
    intro behind heq
    cases cs with
    | nil => exact hrest (congrArg List.head? (List.cons.inj heq).2)
    | cons c cs =>
      obtain ⟨d, ds, hstart, hd, _⟩ := (piece_escaped fun _ => rfl :
        Piece false c (escaped false 0 c)).starts
      rw [escapedFrom, hstart] at heq
      exact hd (List.cons.inj heq).1
  rw [string?, hread]
  · rfl
  · exact hone

theorem string?_literal {cs : List Char} (hne : cs ≠ [])
    (h : ∀ c ∈ cs, isPlain c = true ∧ c ≠ '\'') (rest : List Char) :
    string? ('\'' :: (cs ++ '\'' :: rest)) = some (String.ofList cs, rest) := by
  have hread := literalString_append h rest
  obtain ⟨c, cs, rfl⟩ := List.exists_cons_of_ne_nil hne
  have hc : c ≠ '\'' := (h c List.mem_cons_self).2
  rw [List.cons_append] at hread ⊢
  simp [string?, hc, hread]

/-- The line end behind opening quotes is written where the string has line ends, and skipped. -/
theorem skipNewline_opening {cs ds : List Char} {d : Char} (hreturn : d ≠ '\r')
    (hline : d = '\n' → '\n' ∈ cs) : skipNewline (opening cs ++ d :: ds) = d :: ds := by
  by_cases hmem : '\n' ∈ cs
  · simp [opening, hmem, skipNewline, newline?]
  · have hd : d ≠ '\n' := fun heq => hmem (hline heq)
    simp [opening, hmem, skipNewline, newline?_cons hd hreturn]

theorem LongText.read_opened {quote : Char} {escapes : Bool} {cs text rest : List Char}
    (h : LongText quote escapes 0 cs text) (hquote : quote = '"' ∨ quote = '\'')
    (hrest : rest.head? ≠ some quote)
    (hstarts : ∀ d ds, text = d :: ds → d ≠ '\r' ∧ (d = '\n' → '\n' ∈ cs)) :
    longString quote escapes
      ((opening cs ++ (text ++ quote :: quote :: quote :: rest)).length + 1) []
      (skipNewline (opening cs ++ (text ++ quote :: quote :: quote :: rest))) =
        some (String.ofList cs, rest) := by
  have hskip : skipNewline (opening cs ++ (text ++ quote :: quote :: quote :: rest)) =
      text ++ quote :: quote :: quote :: rest := by
    cases text with
    | nil =>
      refine skipNewline_opening ?_ ?_
      · rcases hquote with rfl | rfl <;> decide
      · rcases hquote with rfl | rfl <;> exact fun h => absurd h (by decide)
    | cons d ds =>
      obtain ⟨hreturn, hline⟩ := hstarts d ds rfl
      exact skipNewline_opening hreturn hline
  have hfuel : cs.length <
      (opening cs ++ (text ++ quote :: quote :: quote :: rest)).length + 1 := by
    have hlength := h.length_le
    simp only [List.length_append]
    omega
  rw [hskip, h.read (Nat.zero_le 2) hrest hfuel []]
  rfl

theorem string?_longBasic (cs : List Char) {rest : List Char} (hrest : rest.head? ≠ some '"') :
    string? ('"' :: '"' :: '"' :: (opening cs ++ (escapedFrom true 0 cs ++
      '"' :: '"' :: '"' :: rest))) = some (String.ofList cs, rest) := by
  refine (longText_escapedFrom cs 0).read_opened (.inl rfl) hrest fun d ds htext => ?_
  cases cs with
  | nil => cases htext
  | cons c cs =>
    obtain ⟨d', ds', hstart, hreturn, hline⟩ := escaped_starts true 0 c
    rw [escapedFrom, hstart] at htext
    obtain rfl := (List.cons.inj htext).1
    exact ⟨hreturn, fun h => hline h ▸ List.mem_cons_self⟩

theorem string?_longLiteral {cs rest : List Char} (hrun : longestRun '\'' cs ≤ 2)
    (hcs : ∀ c ∈ cs, needsEscape c = false) (hrest : rest.head? ≠ some '\'') :
    string? ('\'' :: '\'' :: '\'' :: (opening cs ++ (cs ++
      '\'' :: '\'' :: '\'' :: rest))) = some (String.ofList cs, rest) := by
  refine (longText_of_tally hrun hcs).read_opened (.inr rfl) hrest fun d ds htext => ?_
  have hd : d ∈ cs := htext ▸ List.mem_cons_self
  refine ⟨?_, fun hline => hline ▸ hd⟩
  rintro rfl
  cases hcs _ hd

/-- A string is read back in the notation it was written in. -/
theorem string?_quoted (s : String) {rest : List Char} (hdouble : rest.head? ≠ some '"')
    (hsingle : rest.head? ≠ some '\'') : string? (quoted s ++ rest) = some (s, rest) := by
  cases hstyle : styleOf s.toList with
  | basic => simpa [quoted, hstyle] using string?_basic s.toList hdouble
  | literal =>
    obtain ⟨hne, hplain⟩ := styleOf_literal hstyle
    simpa [quoted, hstyle] using string?_literal hne hplain rest
  | longBasic => simpa [quoted, hstyle] using string?_longBasic s.toList hdouble
  | longLiteral =>
    obtain ⟨hrun, hcs⟩ := styleOf_longLiteral hstyle
    simpa [quoted, hstyle] using string?_longLiteral hrun hcs hsingle

/-! ## Numbers -/

/-- A text goes on behind digits with a line end. -/
theorem moreDigits_of_digits {ds : List Char} (h : ∀ c ∈ ds, c.isDigit = true) (rest : List Char) :
    moreDigits isDigit (ds ++ '\n' :: rest) = some (ds, '\n' :: rest) := by
  induction ds with
  | nil => rfl
  | cons c ds ih =>
    obtain ⟨hc, hds⟩ := List.forall_mem_cons.1 h
    have hscore : c ≠ '_' := Text.ne_of_isDigit hc rfl
    have hdigit : isDigit c = true := by rw [isDigit, Text.isSome_digit?, hc]
    simp [moreDigits, hscore, hdigit, ih hds]

theorem decimalDigits_toDigits (n : Nat) (rest : List Char) :
    decimalDigits (Nat.toDigits 10 n ++ '\n' :: rest) = some (Nat.toDigits 10 n, '\n' :: rest) := by
  obtain ⟨c, ds, hdigits, hc, hds⟩ := Text.toDigits_starts n
  by_cases hzero : c = '0'
  · subst hzero
    obtain rfl := Text.eq_zero_of_toDigits hdigits
    rfl
  · have hdigit : isDigit c = true := by rw [isDigit, Text.isSome_digit?, hc]
    rw [hdigits]
    simp [decimalDigits, hzero, digits, hdigit, moreDigits_of_digits hds]

/-- What a field of fixed width leaves of digits before a line end is again such a text. -/
theorem fixedField_of_digits {width low high n : Nat} {ds rest cs : List Char}
    (hds : ∀ c ∈ ds, c.isDigit = true)
    (h : fixedField width low high (ds ++ '\n' :: rest) = some (n, cs)) :
    ∃ ds', (∀ c ∈ ds', c.isDigit = true) ∧ cs = ds' ++ '\n' :: rest := by
  by_cases hwidth : width ≤ ds.length
  · refine ⟨ds.drop width, fun c hc => hds c (List.mem_of_mem_drop hc), ?_⟩
    simp only [fixedField] at h
    split at h
    · cases h
    · obtain ⟨_, _, heq⟩ := Option.map_eq_some_iff.1 h
      rw [← (Prod.mk.inj heq).2, List.drop_append_of_le_length hwidth]
  · -- A longer field meets the line end, which is no digit.
    obtain ⟨k, hk⟩ : ∃ k, width - ds.length = k + 1 := ⟨width - ds.length - 1, by omega⟩
    have hline : '\n' ∈ (ds ++ '\n' :: rest).take width := by
      rw [List.take_append, hk]
      simp
    have hnone : Text.decimal? ((ds ++ '\n' :: rest).take width) = none :=
      Text.decimal?_eq_none hline rfl
    simp [fixedField, hnone] at h

theorem mark_of_digits {c : Char} (hc : c.isDigit = false) (hline : c ≠ '\n') {ds : List Char}
    (hds : ∀ d ∈ ds, d.isDigit = true) (rest : List Char) :
    mark c (ds ++ '\n' :: rest) = none := by
  cases ds with
  | nil => exact if_neg hline.symm
  | cons d ds => exact if_neg (Text.ne_of_isDigit (hds d List.mem_cons_self) hc)

/-- Digits before a line end are no moment. -/
theorem moment?_of_digits {ds : List Char} (h : ∀ c ∈ ds, c.isDigit = true) (rest : List Char) :
    moment? (ds ++ '\n' :: rest) = none := by
  have hdate : skipDate (ds ++ '\n' :: rest) = none := by
    unfold skipDate
    cases hyear : fixedField 4 0 9999 (ds ++ '\n' :: rest) with
    | none => rfl
    | some found =>
      obtain ⟨ds', hds', hcs⟩ := fixedField_of_digits h hyear
      simp [hcs, mark_of_digits (c := '-') rfl (by decide) hds']
  have htime : skipTime (ds ++ '\n' :: rest) = none := by
    unfold skipTime
    cases hhour : fixedField 2 0 23 (ds ++ '\n' :: rest) with
    | none => rfl
    | some found =>
      obtain ⟨ds', hds', hcs⟩ := fixedField_of_digits h hhour
      simp [hcs, mark_of_digits (c := ':') rfl (by decide) hds']
  simp [moment?, hdate, htime]

theorem sign_toDigits (n : Nat) (rest : List Char) :
    sign (Nat.toDigits 10 n ++ rest) = ([], Nat.toDigits 10 n ++ rest) := by
  obtain ⟨c, ds, hdigits, hc, _⟩ := Text.toDigits_starts n
  have hplus : c ≠ '+' := Text.ne_of_isDigit hc rfl
  have hminus : c ≠ '-' := Text.ne_of_isDigit hc rfl
  rw [hdigits]
  simp [sign, hplus, hminus]

/-- A number before a line end has neither point nor exponent. -/
theorem float?_toDigits (n : Nat) (rest : List Char) :
    float? (Nat.toDigits 10 n ++ '\n' :: rest) = none := by
  have hsign := sign_toDigits n ('\n' :: rest)
  have hread := decimalDigits_toDigits n rest
  have hexponent : exponent? ('\n' :: rest) = none := rfl
  obtain ⟨c, ds, hdigits, hc, _⟩ := Text.toDigits_starts n
  have hinf : c ≠ 'i' := Text.ne_of_isDigit hc rfl
  have hnan : c ≠ 'n' := Text.ne_of_isDigit hc rfl
  rw [hdigits, List.cons_append] at hsign hread ⊢
  simp [float?, hsign, hinf, hnan, hread, hexponent]

theorem integer?_toDigits {n : Nat} (h : Text.FitsInt64 n) (rest : List Char) :
    integer? (Nat.toDigits 10 n ++ '\n' :: rest) = some ((n : Int), '\n' :: rest) := by
  have hsign := sign_toDigits n ('\n' :: rest)
  have hread := decimalDigits_toDigits n rest
  have hvalue := Text.signedDecimal?_ofInt (.ofNat n)
  obtain ⟨c, ds, hdigits, _⟩ := Text.toDigits_starts n
  rw [Text.ofInt, Text.toList_ofNat, hdigits] at hvalue
  rw [hdigits, List.cons_append] at hsign hread ⊢
  by_cases hzero : c = '0'
  · subst hzero
    obtain rfl := Text.eq_zero_of_toDigits hdigits
    obtain rfl : [] = ds := (List.cons.inj hdigits).2
    rfl
  · simp [integer?, hzero, hsign, hread, hvalue, Option.filter, h]

end OffloadCheck.Toml
