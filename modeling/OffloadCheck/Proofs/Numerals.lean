import OffloadCheck.Text.Scalar

/-! # Numbers as text and back

Digits spell one number whatever stands behind them, and the digits of a number spell that number:
in decimal with a sign or without one, and in hexadecimal of a fixed width in both cases of letters.
The decimal form has no zero in front unless it is the zero. A text is read as a whole number exactly
if it is digits with a sign or none, and as one of 64 bits if these hold the number besides. -/
namespace OffloadCheck.Text

/-! ## Decimal -/

theorem isDigit_iff {c : Char} : c.isDigit = true ↔ '0' ≤ c ∧ c ≤ '9' := by
  simp only [Char.isDigit, ge_iff_le, Bool.and_eq_true, decide_eq_true_eq]
  exact Iff.rfl

theorem ne_of_isDigit {c d : Char} (hc : c.isDigit = true) (hd : d.isDigit = false) : c ≠ d := by
  rintro rfl
  rw [hc] at hd
  cases hd

theorem digit?_of_isDigit {c : Char} (h : c.isDigit = true) :
    digit? c = some (c.toNat - '0'.toNat) :=
  if_pos (isDigit_iff.1 h)

theorem digit?_eq_none {c : Char} (h : c.isDigit = false) : digit? c = none :=
  if_neg fun hc => ne_true_of_eq_false h (isDigit_iff.2 hc)

theorem isSome_digit? (c : Char) : (digit? c).isSome = c.isDigit := by
  cases h : c.isDigit with
  | true =>
    rw [digit?_of_isDigit h]
    rfl
  | false =>
    rw [digit?_eq_none h]
    rfl

theorem digitsFrom_of_digits {ds : List Char} (h : ∀ c ∈ ds, c.isDigit = true) (acc : Nat) :
    digitsFrom 10 digit? acc ds = some (Nat.ofDigitChars 10 ds acc) := by
  induction ds generalizing acc with
  | nil => rfl
  | cons c cs ih =>
    obtain ⟨hc, hcs⟩ := List.forall_mem_cons.1 h
    rw [digitsFrom, digit?_of_isDigit hc, Option.bind_some, ih hcs, Nat.ofDigitChars_cons,
      Nat.mul_comm]

theorem decimal?_of_digits {ds : List Char} (h : ∀ c ∈ ds, c.isDigit = true) (hne : ds ≠ []) :
    decimal? ds = some (Nat.ofDigitChars 10 ds 0) := by
  cases ds with
  | nil => exact absurd rfl hne
  | cons c cs => exact digitsFrom_of_digits h 0

theorem digitsFrom_eq_none {base : Nat} {value : Char → Option Nat} {c : Char} {cs : List Char}
    (hmem : c ∈ cs) (hc : value c = none) (acc : Nat) : digitsFrom base value acc cs = none := by
  induction cs generalizing acc with
  | nil => cases hmem
  | cons d cs ih =>
    rw [digitsFrom]
    rcases List.mem_cons.1 hmem with rfl | hmem
    · rw [hc, Option.bind_none]
    · cases value d with
      | none => rfl
      | some k => exact ih hmem _

/-- What is no digit keeps a text from being a number. -/
theorem decimal?_eq_none {c : Char} {cs : List Char} (hmem : c ∈ cs) (hc : c.isDigit = false) :
    decimal? cs = none := by
  cases cs with
  | nil => rfl
  | cons d cs => exact digitsFrom_eq_none hmem (digit?_eq_none hc) 0

theorem isDigit_of_mem_toDigits {n : Nat} {c : Char} (h : c ∈ Nat.toDigits 10 n) :
    c.isDigit = true :=
  Nat.isDigit_of_mem_toDigits (by decide) (by decide) h

theorem toDigits_starts (n : Nat) : ∃ c ds, Nat.toDigits 10 n = c :: ds ∧ c.isDigit = true ∧
    ∀ d ∈ ds, d.isDigit = true := by
  obtain ⟨c, ds, hdigits⟩ := List.exists_cons_of_ne_nil
    (Nat.toDigits_ne_nil : Nat.toDigits 10 n ≠ [])
  have hall : ∀ d ∈ c :: ds, d.isDigit = true := fun _ hd => isDigit_of_mem_toDigits (hdigits ▸ hd)
  exact ⟨c, ds, hdigits, List.forall_mem_cons.1 hall⟩

theorem decimal?_toDigits (n : Nat) : decimal? (Nat.toDigits 10 n) = some n := by
  rw [decimal?_of_digits (fun _ => isDigit_of_mem_toDigits) Nat.toDigits_ne_nil,
    Nat.ofDigitChars_ten_toDigits]

@[simp] theorem toList_ofNat (n : Nat) : (ofNat n).toList = Nat.toDigits 10 n :=
  String.toList_ofList

/-- Only the zero starts with a zero. -/
theorem eq_zero_of_toDigits {n : Nat} {ds : List Char} (h : Nat.toDigits 10 n = '0' :: ds) :
    n = 0 := by
  induction n using Nat.strongRecOn generalizing ds with
  | _ n ih =>
    rw [Nat.toDigits_eq_if (by decide)] at h
    split at h
    · next hlt =>
      have hfirst := congrArg Char.toNat (List.cons.inj h).1
      rw [Nat.toNat_digitChar_of_lt_ten hlt] at hfirst
      exact Nat.add_left_cancel hfirst
    · next hge =>
      have hsmaller : n / 10 < n := by omega
      obtain ⟨c, cs, hfront, _⟩ := toDigits_starts (n / 10)
      rw [hfront, List.cons_append, List.cons.injEq] at h
      have hzero := ih (n / 10) hsmaller (h.1 ▸ hfront)
      omega

theorem signedDecimal?_of_digits {ds : List Char} (h : ∀ c ∈ ds, c.isDigit = true) :
    signedDecimal? ds = (decimal? ds).map Int.ofNat := by
  unfold signedDecimal?
  split
  · cases h '+' List.mem_cons_self
  · cases h '-' List.mem_cons_self
  · rfl

theorem toList_ofInt_negSucc (n : Nat) :
    (ofInt (.negSucc n)).toList = '-' :: Nat.toDigits 10 (n + 1) := by
  simp [ofInt, String.toList_append]

theorem signedDecimal?_ofInt (n : Int) : signedDecimal? (ofInt n).toList = some n := by
  cases n with
  | ofNat n =>
    rw [ofInt, toList_ofNat, signedDecimal?_of_digits fun _ => isDigit_of_mem_toDigits,
      decimal?_toDigits]
    rfl
  | negSucc n =>
    rw [toList_ofInt_negSucc, signedDecimal?, decimal?_toDigits]
    rfl

/-! ## Decimals with a sign -/

/-- One or more decimal digits. -/
def IsDigits (ds : List Char) : Prop := ds ≠ [] ∧ ∀ c ∈ ds, c.isDigit = true

instance (ds : List Char) : Decidable (IsDigits ds) := inferInstanceAs (Decidable (_ ∧ _))

/-- The texts of whole numbers: digits with one sign in front of them or none. -/
inductive IsDecimal : List Char → Int → Prop
  | unsigned {ds : List Char} : IsDigits ds → IsDecimal ds (Nat.ofDigitChars 10 ds 0)
  | plus {ds : List Char} : IsDigits ds → IsDecimal ('+' :: ds) (Nat.ofDigitChars 10 ds 0)
  | minus {ds : List Char} : IsDigits ds → IsDecimal ('-' :: ds) (-Nat.ofDigitChars 10 ds 0)

theorem decimal?_eq_some_iff {cs : List Char} {n : Nat} :
    decimal? cs = some n ↔ IsDigits cs ∧ n = Nat.ofDigitChars 10 cs 0 := by
  constructor
  · intro h
    have hne : cs ≠ [] := by
      rintro rfl
      cases h
    have hdigits : ∀ c ∈ cs, c.isDigit = true := by
      intro c hc
      cases hdigit : c.isDigit with
      | true => rfl
      | false =>
        rw [decimal?_eq_none hc hdigit] at h
        cases h
    rw [decimal?_of_digits hdigits hne] at h
    exact ⟨⟨hne, hdigits⟩, (Option.some.inj h).symm⟩
  · rintro ⟨⟨hne, hdigits⟩, rfl⟩
    exact decimal?_of_digits hdigits hne

theorem signedDecimal?_eq_some_iff {cs : List Char} {n : Int} :
    signedDecimal? cs = some n ↔ IsDecimal cs n := by
  constructor
  · intro h
    unfold signedDecimal? at h
    split at h
    all_goals
      obtain ⟨m, hm, rfl⟩ := Option.map_eq_some_iff.1 h
      obtain ⟨hdigits, rfl⟩ := decimal?_eq_some_iff.1 hm
    · exact .plus hdigits
    · exact .minus hdigits
    · exact .unsigned hdigits
  · intro h
    cases h with
    | unsigned hdigits =>
      rw [signedDecimal?_of_digits hdigits.2, decimal?_of_digits hdigits.2 hdigits.1]
      rfl
    | plus hdigits =>
      rw [signedDecimal?, decimal?_of_digits hdigits.2 hdigits.1]
      rfl
    | minus hdigits =>
      rw [signedDecimal?, decimal?_of_digits hdigits.2 hdigits.1]
      rfl

theorem int64?_eq_some_iff {s : String} {n : Int} :
    int64? s = some n ↔ IsDecimal s.toList n ∧ FitsInt64 n := by
  rw [int64?, Option.filter_eq_some_iff, signedDecimal?_eq_some_iff, decide_eq_true_iff]

theorem isDecimal_ofInt (n : Int) : IsDecimal (ofInt n).toList n :=
  signedDecimal?_eq_some_iff.1 (signedDecimal?_ofInt n)

theorem int64?_ofInt (n : Int64) : int64? (ofInt n.toInt) = some n.toInt :=
  int64?_eq_some_iff.2 ⟨isDecimal_ofInt _, n.minValue_le_toInt, n.toInt_le⟩

/-! ## Hexadecimal -/

theorem hexDigit?_hexDigit (n : Nat) : hexDigit? (hexDigit n) = some (n % 16) := by
  have hdigit : ∀ k < 16, hexDigit? (Nat.digitChar k) = some k := by decide
  exact hdigit _ (Nat.mod_lt n (by decide))

theorem hexDigit?_toUpper_hexDigit (n : Nat) : hexDigit? (hexDigit n).toUpper = some (n % 16) := by
  have hdigit : ∀ k < 16, hexDigit? (Nat.digitChar k).toUpper = some k := by decide
  exact hdigit _ (Nat.mod_lt n (by decide))

/-- Four digits hold a number of sixteen bits, in letters of either case. -/
theorem digitsFrom_hex {f : Char → Char} (hf : ∀ n, hexDigit? (f (hexDigit n)) = some (n % 16))
    {n : Nat} (h : n < 0x10000) : digitsFrom 16 hexDigit? 0 ((hex 4 n).map f) = some n := by
  simp only [hex, List.map_cons, List.map_nil, List.nil_append, List.cons_append,
    digitsFrom, hf, Option.bind_some, Option.some.injEq]
  omega

end OffloadCheck.Text
