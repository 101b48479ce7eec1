import OffloadCheck.Proofs.Numerals
import OffloadCheck.Timestamp

/-! # Moments and their text

Every part of a moment is written with its own number of digits and read back by a reader that stops
where these end, so the text of a moment is read as that moment. -/
namespace OffloadCheck.Timestamp

/-- A moment that a calendar and a clock can show. -/
structure Valid (t : Timestamp) : Prop where
  year : minYear ≤ t.year ∧ t.year ≤ maxYear
  month : 1 ≤ t.month ∧ t.month ≤ 12
  day : 1 ≤ t.day ∧ t.day ≤ daysIn t.year t.month
  secondOfDay : t.secondOfDay < 86400
  /-- Only the last second of a minute can be followed by a leap second. -/
  nanos : t.nanos < 1000000000 ∨ (t.nanos < 2000000000 ∧ t.secondOfDay % 60 = 59)

instance (t : Timestamp) : Decidable t.Valid :=
  decidable_of_iff ((minYear ≤ t.year ∧ t.year ≤ maxYear) ∧ (1 ≤ t.month ∧ t.month ≤ 12) ∧
      (1 ≤ t.day ∧ t.day ≤ daysIn t.year t.month) ∧ t.secondOfDay < 86400 ∧
      (t.nanos < 1000000000 ∨ (t.nanos < 2000000000 ∧ t.secondOfDay % 60 = 59)))
    ⟨fun ⟨hy, hm, hd, hs, hn⟩ => ⟨hy, hm, hd, hs, hn⟩,
      fun ⟨hy, hm, hd, hs, hn⟩ => ⟨hy, hm, hd, hs, hn⟩⟩

theorem daysIn_le (year : Int) (month : Nat) : daysIn year month ≤ 31 := by
  unfold daysIn
  split
  · split <;> decide
  · split <;> decide

/-! ## Digits with zeros in front -/

theorem isDigit_of_mem_padded {width n : Nat} {c : Char} (h : c ∈ padded width n) :
    c.isDigit = true := by
  rcases List.mem_append.1 h with h | h
  · rw [(List.mem_replicate.1 h).2]
    rfl
  · exact Text.isDigit_of_mem_toDigits h

theorem padded_ne_nil (width n : Nat) : padded width n ≠ [] :=
  List.append_ne_nil_of_right_ne_nil _ Nat.toDigits_ne_nil

theorem padded_starts (width n : Nat) :
    ∃ c ds, padded width n = c :: ds ∧ c.isDigit = true := by
  obtain ⟨c, ds, hdigits⟩ := List.exists_cons_of_ne_nil (padded_ne_nil width n)
  exact ⟨c, ds, hdigits, isDigit_of_mem_padded (hdigits ▸ List.mem_cons_self)⟩

theorem ofDigitChars_padded (width n : Nat) : Nat.ofDigitChars 10 (padded width n) 0 = n := by
  rw [padded, Nat.ofDigitChars_append, Nat.ofDigitChars_replicate_zero, Nat.mul_zero,
    Nat.ofDigitChars_ten_toDigits]

theorem length_padded {width n : Nat} (hwidth : 0 < width) (h : n < Nat.pow 10 width) :
    (padded width n).length = width := by
  have hdigits := (Nat.length_toDigits_le_iff (by decide) hwidth).2 h
  simp only [padded, List.length_append, List.length_replicate]
  omega

theorem number_of_digits {width : Nat} {ds rest : List Char} (hds : ∀ c ∈ ds, c.isDigit = true)
    (hne : ds ≠ []) (hlength : ds.length ≤ width)
    (hend : ds.length = width ∨ ∀ c ∈ rest.head?, c.isDigit = false) :
    number width (ds ++ rest) = some (Nat.ofDigitChars 10 ds 0, rest) := by
  have hdigit : (fun c => (Text.digit? c).isSome) = Char.isDigit := funext Text.isSome_digit?
  have hbehind : (rest.take (width - ds.length)).takeWhile Char.isDigit = [] := by
    rcases hend with hwidth | hhead
    · rw [hwidth, Nat.sub_self, List.take_zero, List.takeWhile_nil]
    · cases rest with
      | nil => rw [List.take_nil, List.takeWhile_nil]
      | cons c cs =>
        cases width - ds.length with
        | zero => rfl
        | succ n => simp [hhead c rfl]
  have hfront : ((ds ++ rest).take width).takeWhile Char.isDigit = ds := by
    rw [List.take_append, List.take_of_length_le hlength, List.takeWhile_append_of_pos hds, hbehind,
      List.append_nil]
  simp only [number, hdigit, hfront, Text.decimal?_of_digits hds hne, Option.map_some,
    List.drop_left]

theorem number_padded {width n : Nat} (hwidth : 0 < width) (h : n < Nat.pow 10 width)
    (rest : List Char) : number width (padded width n ++ rest) = some (n, rest) := by
  have hlength := length_padded hwidth h
  rw [number_of_digits (fun _ => isDigit_of_mem_padded) (padded_ne_nil _ _) (Nat.le_of_eq hlength)
    (.inl hlength), ofDigitChars_padded]

/-! ## Parts of a date and a time -/

theorem isBlank_of_isDigit {c : Char} (h : c.isDigit = true) : Text.isBlank c = false := by
  simp only [Char.isDigit, ge_iff_le, Bool.and_eq_true, decide_eq_true_eq,
    UInt32.le_iff_toNat_le] at h
  have hlow : 48 ≤ c.toNat := h.1
  have hhigh : c.toNat ≤ 57 := h.2
  simp only [Text.isBlank, Bool.or_eq_false_iff, Bool.and_eq_false_iff, decide_eq_false_iff_not]
  omega

theorem skipBlanks_cons {c : Char} (h : Text.isBlank c = false) (cs : List Char) :
    Text.skipBlanks (c :: cs) = c :: cs :=
  List.dropWhile_cons_of_neg (ne_true_of_eq_false h)

theorem skipBlanks_padded (width n : Nat) (rest : List Char) :
    Text.skipBlanks (padded width n ++ rest) = padded width n ++ rest := by
  obtain ⟨c, cs, hdigits, hc⟩ := padded_starts width n
  rw [hdigits, List.cons_append, skipBlanks_cons (isBlank_of_isDigit hc)]

theorem field_padded {low high n : Nat} (hlow : low ≤ n) (hhigh : n ≤ high) (h : high < 100)
    (rest : List Char) : field low high (padded 2 n ++ rest) = some (n, rest) := by
  have hwidth : n < Nat.pow 10 2 := Nat.lt_of_le_of_lt hhigh h
  simp [field, skipBlanks_padded, number_padded (by decide) hwidth, Option.filter, hlow, hhigh]

theorem separator_padded {c : Char} (h : Text.isBlank c = false) (width n : Nat)
    (rest : List Char) :
    separator c (c :: (padded width n ++ rest)) = some (padded width n ++ rest) := by
  simp [separator, skipBlanks_cons h, skipBlanks_padded]

theorem yearField_yearText (year : Int) (rest : List Char) :
    yearField (yearText year ++ '-' :: rest) = some (year, '-' :: rest) := by
  have hsigned (n : Nat) : number (padded 4 n ++ '-' :: rest).length (padded 4 n ++ '-' :: rest) =
      some (n, '-' :: rest) := by
    have hend : ∀ c ∈ ('-' :: rest).head?, c.isDigit = false := by
      rintro _ ⟨⟩
      rfl
    rw [number_of_digits (fun _ => isDigit_of_mem_padded) (padded_ne_nil _ _) (by simp)
      (.inr hend), ofDigitChars_padded]
  unfold yearText
  split
  · next h =>
    have hyear : year.toNat < Nat.pow 10 4 := by
      have hpow : Nat.pow 10 4 = 10000 := rfl
      omega
    have hread := number_padded (by decide) hyear ('-' :: rest)
    obtain ⟨c, cs, hdigits, hc⟩ := padded_starts 4 year.toNat
    have hminus : c ≠ '-' := Text.ne_of_isDigit hc rfl
    have hplus : c ≠ '+' := Text.ne_of_isDigit hc rfl
    rw [hdigits, List.cons_append] at hread ⊢
    simp [yearField, skipBlanks_cons (isBlank_of_isDigit hc), hminus, hplus, hread,
      Int.max_eq_left h.1]
  · split
    · next hneg =>
      have hyear : -(Int.ofNat year.natAbs) = year := by
        simp only [Int.ofNat_eq_natCast]
        omega
      rw [List.cons_append]
      simp only [yearField, skipBlanks_cons (c := '-') (by decide), hsigned, Option.map_some, hyear]
    · next hpos =>
      have hyear : Int.ofNat year.natAbs = year := by
        simp only [Int.ofNat_eq_natCast]
        omega
      rw [List.cons_append]
      simp only [yearField, skipBlanks_cons (c := '+') (by decide), hsigned, Option.map_some, hyear]

theorem fractionField_padded {width n : Nat} (hwidth : 0 < width) (hnine : width ≤ 9)
    (h : n < Nat.pow 10 width) :
    fractionField ('.' :: (padded width n ++ ['Z'])) =
      some (n * Nat.pow 10 (9 - width), ['Z']) := by
  have hlength := length_padded hwidth h
  have hend : ∀ c ∈ ['Z'].head?, c.isDigit = false := by
    rintro _ ⟨⟩
    rfl
  have hread : number 9 (padded width n ++ ['Z']) = some (n, ['Z']) := by
    rw [number_of_digits (fun _ => isDigit_of_mem_padded) (padded_ne_nil _ _) (by omega)
      (.inr hend), ofDigitChars_padded]
  have hdigit : (Text.digit? 'Z').isSome = false := rfl
  simp [fractionField, hread, hlength, hdigit]

theorem fractionField_fractionText {nanos : Nat} (h : nanos < 1000000000) :
    fractionField (fractionText nanos ++ ['Z']) = some (nanos, ['Z']) := by
  unfold fractionText
  split
  · next hzero => simp [fractionField, hzero]
  split
  · next hmilli =>
    rw [List.cons_append, fractionField_padded (by decide) (by decide)
      (show nanos / 1000000 < 1000 by omega)]
    have hback : nanos / 1000000 * 1000000 = nanos := by omega
    exact congrArg (fun n => some (n, ['Z'])) hback
  split
  · next hmicro =>
    rw [List.cons_append, fractionField_padded (by decide) (by decide)
      (show nanos / 1000 < 1000000 by omega)]
    have hback : nanos / 1000 * 1000 = nanos := by omega
    exact congrArg (fun n => some (n, ['Z'])) hback
  · rw [List.cons_append, fractionField_padded (by decide) (by decide) h]
    exact congrArg (fun n => some (n, ['Z'])) (Nat.mul_one nanos)

/-! ## A moment -/

theorem ofLocal?_universal {t : Timestamp} (h : t.Valid) :
    ofLocal? (t.year, t.month, t.day) t.secondOfDay t.nanos 0 = some t := by
  have hsecond := h.secondOfDay
  have hpositive : ¬((t.secondOfDay : Int) < 0) := by omega
  have hsame : ¬(86400 ≤ (t.secondOfDay : Int)) := by omega
  have hmod : ((t.secondOfDay : Int) % 86400).toNat = t.secondOfDay := by omega
  simp [ofLocal?, hpositive, hsame, hmod, h.year]

/-- The second 60 stands for a fraction of a second or more. -/
theorem clock_eq {second nanos : Nat}
    (h : nanos < 1000000000 ∨ (nanos < 2000000000 ∧ second % 60 = 59)) :
    (if second % 60 + nanos / 1000000000 = 60 then (59, nanos % 1000000000 + 1000000000)
      else (second % 60 + nanos / 1000000000, nanos % 1000000000)) = (second % 60, nanos) := by
  split
  · exact Prod.ext (by simp only; omega) (by simp only; omega)
  · exact Prod.ext (by simp only; omega) (by simp only; omega)

theorem bind_of_eq {α β : Type} {x : Option α} {a : α} (h : x = some a) (f : α → Option β) :
    x >>= f = f a := by
  rw [h]
  rfl

/-- The text of a moment is read back as that moment. -/
theorem Valid.parse?_render {t : Timestamp} (h : t.Valid) : parse? t.render = some t := by
  have hday : t.day ≤ 31 := Nat.le_trans h.day.2 (daysIn_le _ _)
  have hhour : t.secondOfDay / 3600 ≤ 23 := by
    have := h.secondOfDay
    omega
  have hminute : t.secondOfDay / 60 % 60 ≤ 59 := by omega
  have hsecond : t.secondOfDay % 60 + t.nanos / 1000000000 ≤ 60 := by
    have := h.nanos
    omega
  have hfraction : t.nanos % 1000000000 < 1000000000 := Nat.mod_lt _ (by decide)
  have hseconds : t.secondOfDay / 3600 * 3600 + t.secondOfDay / 60 % 60 * 60 +
      t.secondOfDay % 60 = t.secondOfDay := by omega
  have hyear : ¬(t.year < minYear) ∧ ¬(maxYear < t.year) :=
    ⟨Int.not_lt.2 h.year.1, Int.not_lt.2 h.year.2⟩
  have htext : t.render.toList = yearText t.year ++ '-' :: (padded 2 t.month ++
      '-' :: (padded 2 t.day ++ 'T' :: (padded 2 (t.secondOfDay / 3600) ++
        ':' :: (padded 2 (t.secondOfDay / 60 % 60) ++
          ':' :: (padded 2 (t.secondOfDay % 60 + t.nanos / 1000000000) ++
            (fractionText (t.nanos % 1000000000) ++ ['Z'])))))) := by
    simp [render]
  rw [parse?, htext]
  -- Each reader takes its part and leaves the rest to the next one.
  refine (bind_of_eq (yearField_yearText _ _) _).trans ?_
  refine (bind_of_eq (separator_padded (by decide) _ _ _) _).trans ?_
  refine (bind_of_eq (field_padded h.month.1 h.month.2 (by decide) _) _).trans ?_
  refine (bind_of_eq (separator_padded (by decide) _ _ _) _).trans ?_
  refine (bind_of_eq (field_padded h.day.1 hday (by decide) _) _).trans ?_
  refine (if_pos rfl).trans ?_
  refine (bind_of_eq rfl _).trans ?_
  refine (bind_of_eq (field_padded (Nat.zero_le _) hhour (by decide) _) _).trans ?_
  refine (bind_of_eq (separator_padded (by decide) _ _ _) _).trans ?_
  refine (bind_of_eq (field_padded (Nat.zero_le _) hminute (by decide) _) _).trans ?_
  refine (bind_of_eq (separator_padded (by decide) _ _ _) _).trans ?_
  refine (bind_of_eq (field_padded (Nat.zero_le _) hsecond (by decide) _) _).trans ?_
  refine (bind_of_eq (fractionField_fractionText hfraction) _).trans ?_
  refine (bind_of_eq (show offsetField (Text.skipBlanks ['Z']) = some (0, []) from rfl) _).trans ?_
  refine (if_neg (by decide)).trans ?_
  refine (if_neg (by simp [hyear, Nat.not_lt.2 h.day.2])).trans ?_
  rw [clock_eq h.nanos]
  simp only [hseconds]
  exact ofLocal?_universal h

end OffloadCheck.Timestamp
