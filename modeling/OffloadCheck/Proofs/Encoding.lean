import Mathlib.Data.String.Basic
import OffloadCheck.Text.Utf8

/-! # Text as bytes

A text is decoded from the bytes that it was encoded as. The encoding keeps the order: of two
characters the greater one has a greater byte where their bytes first differ, and this is never
behind the end of one of them. So texts in the order of their characters are in the order of their
bytes. Bytes are shown as the text that they encode, if they encode one. -/
namespace OffloadCheck.Text

theorem toList_loop (bytes : ByteArray) (i : Nat) (met : List UInt8) :
    ByteArray.toList.loop bytes i met = met.reverse ++ bytes.data.toList.drop i := by
  fun_induction ByteArray.toList.loop bytes i met with
  | case1 i met hlt ih =>
    have hsize : i < bytes.data.toList.length := by simpa using hlt
    have hbyte : bytes.get! i = bytes.data.toList[i] := by
      simpa [ByteArray.get!] using getElem!_pos bytes.data i hlt
    rw [ih, List.drop_eq_getElem_cons hsize, hbyte]
    simp
  | case2 i met hge =>
    have hsize : bytes.data.toList.length ≤ i := by simpa using hge
    rw [List.drop_eq_nil_of_le hsize, List.append_nil]

theorem encode_eq_data (s : String) : encode s = s.toUTF8.data.toList := by
  rw [encode, ByteArray.toList, toList_loop]
  rfl

/-- A text is decoded from the bytes that it was encoded as. -/
theorem decode?_encode (s : String) : decode? (encode s) = some s := by
  have hbytes : (⟨(encode s).toArray⟩ : ByteArray) = s.toUTF8 := by
    rw [encode_eq_data]
  rw [decode?, hbytes]
  exact dif_pos s.isValidUTF8

/-! ## Order -/

/-- The bytes of a text are those of its characters, one after the other. -/
theorem encode_eq_flatMap (s : String) : encode s = s.toList.flatMap String.utf8EncodeChar := by
  rw [encode_eq_data, String.toUTF8, ← String.utf8Encode_toList, List.utf8Encode,
    List.toList_data_toByteArray]

theorem cons_ofNat_lt {x y : Nat} {xs ys : List UInt8} (hle : x ≤ y) (hy : y < 256)
    (h : x = y → xs < ys) : UInt8.ofNat x :: xs < UInt8.ofNat y :: ys := by
  rw [List.cons_lt_cons_iff]
  rcases Nat.lt_or_eq_of_le hle with hlt | heq
  · left
    rw [UInt8.lt_iff_toNat_lt, UInt8.toNat_ofNat', UInt8.toNat_ofNat']
    omega
  · exact .inr ⟨congrArg UInt8.ofNat heq, h heq⟩

/-- The bytes of a smaller character come first, whatever follows. -/
theorem utf8EncodeChar_append_lt {c d : Char} (h : c < d) (xs ys : List UInt8) :
    String.utf8EncodeChar c ++ xs < String.utf8EncodeChar d ++ ys := by
  have hlt : c.val.toNat < d.val.toNat := h
  have hd : d.val.toNat < 1114112 := by
    rcases d.valid with hvalid | hvalid
    · omega
    · exact hvalid.2
  simp only [String.utf8EncodeChar]
  generalize c.val.toNat = v at hlt
  generalize d.val.toNat = w at hlt hd
  -- A longer encoding starts with a greater byte; equally long ones are compared digit by digit.
  split_ifs
  all_goals
    simp only [List.cons_append, List.nil_append]
    repeat refine cons_ofNat_lt (by omega) (by omega) fun _ => ?_
    omega

theorem flatMap_utf8EncodeChar_lt {s t : List Char} (h : List.Lex (· < ·) s t) :
    s.flatMap String.utf8EncodeChar < t.flatMap String.utf8EncodeChar := by
  induction h with
  | @nil c s =>
    obtain ⟨byte, bytes, hbytes⟩ := List.exists_cons_of_ne_nil (String.utf8EncodeChar_ne_nil (c := c))
    rw [List.flatMap_nil, List.flatMap_cons, hbytes]
    exact List.nil_lt_cons _ _
  | @rel c s d t hlt =>
    rw [List.flatMap_cons, List.flatMap_cons]
    exact utf8EncodeChar_append_lt hlt _ _
  | @cons c s t _ ih =>
    rw [List.flatMap_cons, List.flatMap_cons]
    exact List.append_left_lt ih

theorem encode_lt_encode {s t : String} (h : s < t) : encode s < encode t := by
  rw [encode_eq_flatMap, encode_eq_flatMap]
  exact flatMap_utf8EncodeChar_lt (List.lex_lt.2 (String.lt_iff.1 h))

/-- Texts are ordered as their bytes are. -/
theorem encode_le_encode_iff {s t : String} : encode s ≤ encode t ↔ s ≤ t := by
  constructor
  · intro h
    exact String.not_lt.1 fun hlt => List.not_lt.2 h (encode_lt_encode hlt)
  · intro h
    rcases lt_or_eq_of_le h with hlt | rfl
    · exact List.le_of_lt (encode_lt_encode hlt)
    · exact List.le_refl _

/-! ## Showing bytes -/

theorem begun?_two : ∀ n < 32, 2 ≤ n → begun? (n + 192) = some ⟨n, 1, 128, 191⟩ := by decide

theorem begun?_three : ∀ n < 16, begun? (n + 224) =
    some ⟨n, 2, if n = 0 then 160 else 128, if n = 13 then 159 else 191⟩ := by decide

theorem begun?_four : ∀ n < 5, begun? (n + 240) =
    some ⟨n, 3, if n = 0 then 144 else 128, if n = 4 then 143 else 191⟩ := by decide

/-- The first of several bytes shows nothing yet. -/
theorem showFrom_begun {n : Nat} {begun : Begun} (hn : n < 256) (hmore : 128 ≤ n)
    (h : begun? n = some begun) (bytes : List UInt8) :
    showFrom none (UInt8.ofNat n :: bytes) = showFrom (some begun) bytes := by
  rw [showFrom, UInt8.toNat_ofNat', Nat.mod_eq_of_lt hn, showNext, showFirst, if_neg (by omega), h]
  rfl

/-- A further byte adds a digit to the number of the character, and the last one shows it. -/
theorem showFrom_continued {number missing least greatest n : Nat} (hn : n < 64)
    (hleast : least ≤ n + 128) (hgreatest : n + 128 ≤ greatest) (bytes : List UInt8) :
    showFrom (some ⟨number, missing, least, greatest⟩) (UInt8.ofNat (n + 128) :: bytes) =
      if missing = 1 then Char.ofNat (number * 64 + n) :: showFrom none bytes
      else showFrom (some ⟨number * 64 + n, missing - 1, 128, 191⟩) bytes := by
  rw [showFrom, UInt8.toNat_ofNat', Nat.mod_eq_of_lt (by omega), showNext,
    if_pos ⟨hleast, hgreatest⟩, Nat.add_sub_cancel]
  by_cases hlast : missing = 1
  · simp [hlast]
  · simp [hlast]

/-- The bytes of a character are shown as that character. -/
theorem showFrom_utf8EncodeChar (c : Char) (bytes : List UInt8) :
    showFrom none (String.utf8EncodeChar c ++ bytes) = c :: showFrom none bytes := by
  have hvalid : c.val.toNat < 55296 ∨ 57343 < c.val.toNat ∧ c.val.toNat < 1114112 := c.valid
  have hc : Char.ofNat c.val.toNat = c := Char.ofNat_toNat c
  simp only [String.utf8EncodeChar]
  generalize c.val.toNat = v at hvalid hc
  subst hc
  -- As many bytes as the number takes; what bounds the second one is what tells the number's range.
  split_ifs
  · rw [List.singleton_append, showFrom, UInt8.toNat_ofNat', Nat.mod_eq_of_lt (by omega), showNext,
      showFirst, if_pos (by omega)]
    rfl
  · rw [List.cons_append, showFrom_begun (by omega) (by omega) (begun?_two _ (by omega) (by omega)),
      List.singleton_append, showFrom_continued (by omega) (by omega) (by omega), if_pos rfl]
    congr 2
    omega
  · rw [List.cons_append, showFrom_begun (by omega) (by omega) (begun?_three _ (by omega)),
      List.cons_append, showFrom_continued (by omega) (by split <;> omega) (by split <;> omega),
      if_neg (by omega),
      List.singleton_append, showFrom_continued (by omega) (by omega) (by omega), if_pos rfl]
    congr 2
    omega
  · rw [List.cons_append, showFrom_begun (by omega) (by omega) (begun?_four _ (by omega)),
      List.cons_append, showFrom_continued (by omega) (by split <;> omega) (by split <;> omega),
      if_neg (by omega),
      List.cons_append, showFrom_continued (by omega) (by omega) (by omega), if_neg (by omega),
      List.singleton_append, showFrom_continued (by omega) (by omega) (by omega), if_pos rfl]
    congr 2
    omega

theorem showFrom_flatMap (cs : List Char) :
    showFrom none (cs.flatMap String.utf8EncodeChar) = cs := by
  induction cs with
  | nil => rfl
  | cons c cs ih => rw [List.flatMap_cons, showFrom_utf8EncodeChar, ih]

/-- A text is shown as it is. -/
theorem decodeLossy_encode (s : String) : decodeLossy (encode s) = s := by
  rw [decodeLossy, encode_eq_flatMap, showFrom_flatMap, String.ofList_toList]
example : decodeLossy [0x61, 0xFF, 0xE2, 0x82, 0x62] = "a\uFFFD\uFFFDb" := by decide

end OffloadCheck.Text
