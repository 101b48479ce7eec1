import OffloadCheck.Proofs.TomlText

/-! # TOML documents

A document of plain lines with one table behind them is read back line by line, and the statements
read build up the members that were written, in their order. -/
namespace OffloadCheck.Toml

/-! ## Lines -/

/-- The value that a line sets its key to. -/
def Line.toValue : Line → Value
  | .text s => .string s
  | .integer n => .integer n
  | .texts ss => .array (ss.map .string)

/-- Whether a document can hold a line. -/
def Line.Fits : Line → Prop
  | .integer n => Text.FitsInt64 n
  | _ => True

/-- A key that is written without quotes. -/
def IsBareKey (key : String) : Prop := key ≠ "" ∧ key.toList.all isBare = true

instance (key : String) : Decidable (IsBareKey key) := inferInstanceAs (Decidable (_ ∧ _))

theorem IsBareKey.starts {key : String} (h : IsBareKey key) :
    ∃ c cs, key.toList = c :: cs ∧ isBare c = true := by
  obtain ⟨c, cs, hkey⟩ := List.exists_cons_of_ne_nil fun hnil =>
    h.1 (String.toList_eq_nil_iff.1 hnil)
  exact ⟨c, cs, hkey, List.all_eq_true.1 h.2 c (hkey ▸ List.mem_cons_self)⟩

theorem ne_of_isBare {c d : Char} (hc : isBare c = true) (hd : isBare d = false) : c ≠ d := by
  rintro rfl
  rw [hc] at hd
  cases hd

theorem quoted_starts (s : String) : ∃ c cs, quoted s = c :: cs ∧ (c = '"' ∨ c = '\'') := by
  simp only [quoted]
  cases styleOf s.toList with
  | basic => exact ⟨'"', _, rfl, .inl rfl⟩
  | literal => exact ⟨'\'', _, rfl, .inr rfl⟩
  | longBasic => exact ⟨'"', _, rfl, .inl rfl⟩
  | longLiteral => exact ⟨'\'', _, rfl, .inr rfl⟩

theorem value_quoted (s : String) {rest : List Char} (hdouble : rest.head? ≠ some '"')
    (hsingle : rest.head? ≠ some '\'') (fuel level : Nat) :
    value (fuel + 1) level (quoted s ++ rest) = some (.string s, rest) := by
  have hread := string?_quoted s hdouble hsingle
  obtain ⟨c, cs, htext, hc⟩ := quoted_starts s
  rw [htext, List.cons_append] at hread ⊢
  simp [value, hc, hread]

theorem value_toDigits {n : Nat} (h : Text.FitsInt64 n) (rest : List Char) (fuel level : Nat) :
    value (fuel + 1) level (Nat.toDigits 10 n ++ '\n' :: rest) =
      some (.integer n, '\n' :: rest) := by
  have hmoment : moment? (Nat.toDigits 10 n ++ '\n' :: rest) = none :=
    moment?_of_digits (fun _ => Text.isDigit_of_mem_toDigits) rest
  have hfloat := float?_toDigits n rest
  have hread := integer?_toDigits h rest
  obtain ⟨c, ds, hdigits, hc, _⟩ := Text.toDigits_starts n
  have hne {d : Char} (hd : d.isDigit = false) : c ≠ d := Text.ne_of_isDigit hc hd
  rw [hdigits, List.cons_append] at hmoment hfloat hread ⊢
  simp [value, hne (d := '"') rfl, hne (d := '\'') rfl, hne (d := '[') rfl, hne (d := '{') rfl,
    hne (d := 't') rfl, hne (d := 'f') rfl, hmoment, hfloat, hread]

theorem key?_bare {key : String} (h : IsBareKey key) {rest : List Char}
    (hend : ∀ c ∈ rest.head?, isBare c = false) (hdot : (skipBlanks rest).head? ≠ some '.') :
    key? (key.toList ++ rest) = some (([], key), skipBlanks rest) := by
  have hbody : (key.toList ++ rest).takeWhile isBare = key.toList := by
    rw [List.takeWhile_append_of_pos (List.all_eq_true.1 h.2)]
    cases rest with
    | nil => simp
    | cons c cs => simp [hend c rfl]
  obtain ⟨c, cs, hkey, hc⟩ := h.starts
  have hne {d : Char} (hd : isBare d = false) : c ≠ d := ne_of_isBare hc hd
  have hblank : skipBlanks (key.toList ++ rest) = key.toList ++ rest := by
    rw [hkey, List.cons_append, skipBlanks_cons]
    simp [isBlank, hne (d := ' ') rfl, hne (d := '\t') rfl]
  have hpart : keyPart (key.toList ++ rest) = some (key, rest) := by
    rw [keyPart]
    · simp only [hbody, List.drop_left, String.ofList_toList]
      rw [hkey]
      rfl
    · intro behind heq
      rw [hkey] at heq
      exact hne rfl (List.cons.inj heq).1
    · intro behind heq
      rw [hkey] at heq
      exact hne rfl (List.cons.inj heq).1
  have hparts : keyParts ((key.toList ++ rest).length + 1) (key.toList ++ rest) =
      some ([key], skipBlanks rest) := by
    rw [keyParts, hblank, hpart]
    simp only [Option.bind_eq_bind, Option.bind_some]
    split
    · next heq => exact absurd (congrArg List.head? heq) hdot
    · rfl
  rw [key?, hparts]
  rfl

/-! ## Arrays -/

/-- Blanks before something else are skipped, and a line end before them too. -/
theorem skipLines_of_stop {c : Char} {cs rest : List Char} (h : skipBlanks cs = c :: rest)
    (hcomment : c ≠ '#') (hline : c ≠ '\n') (hreturn : c ≠ '\r') :
    skipLines (cs.length + 1) cs = c :: rest ∧
      skipLines (('\n' :: cs).length + 1) ('\n' :: cs) = c :: rest := by
  have hstop : skipLines (cs.length + 1) cs = c :: rest := by
    simp [skipLines, h, skipComment, hcomment, newline?_cons hline hreturn]
  have hskip : skipBlanks ('\n' :: cs) = '\n' :: cs := skipBlanks_cons rfl cs
  refine ⟨hstop, ?_⟩
  rw [skipLines]
  simp only [hskip, skipComment, newline?]
  exact hstop

theorem skipBlanks_quoted {blanks : List Char} (h : blanks.all isBlank = true) (s : String)
    (rest : List Char) : ∃ c cs, skipBlanks (blanks ++ (quoted s ++ rest)) = c :: cs ∧
      c :: cs = quoted s ++ rest ∧ (c = '"' ∨ c = '\'') := by
  obtain ⟨c, cs, htext, hc⟩ := quoted_starts s
  have hblank : isBlank c = false := by rcases hc with rfl | rfl <;> rfl
  refine ⟨c, cs ++ rest, ?_, by rw [htext]; rfl, hc⟩
  have hskip := skipBlanks_cons hblank (cs ++ rest)
  unfold skipBlanks at hskip ⊢
  rw [List.dropWhile_append_of_pos (List.all_eq_true.1 h), htext]
  exact hskip

/-- The text of an array of two or more strings between its brackets: an element on each line. -/
def elementLines (ss : List String) : List Char :=
  ss.flatMap (fun s => "\n    ".toList ++ quoted s ++ [',']) ++ ['\n']

theorem elements_close {fuel level : Nat} {cs rest : List Char}
    (h : skipLines (cs.length + 1) cs = ']' :: rest) :
    elements (fuel + 1) level cs = some ([], rest) := by
  simp [elements, h]

theorem elements_string {fuel level : Nat} {s : String} {cs rest : List Char} {c : Char}
    (h : skipLines (cs.length + 1) cs = quoted s ++ c :: rest) (hc : c = ',' ∨ c = ']') :
    elements (fuel + 2) level cs =
      if c = ',' then (elements (fuel + 1) level rest).map fun (vs, rest) => (.string s :: vs, rest)
      else some ([.string s], rest) := by
  have hends : (c :: rest).head? ≠ some '"' ∧ (c :: rest).head? ≠ some '\'' ∧
      isBlank c = false ∧ c ≠ '#' ∧ c ≠ '\n' ∧ c ≠ '\r' := by
    rcases hc with rfl | rfl <;> simp [isBlank]
  obtain ⟨hdouble, hsingle, hblank, hcomment, hline, hreturn⟩ := hends
  have hread := value_quoted s hdouble hsingle fuel level
  have hskip := (skipLines_of_stop (skipBlanks_cons hblank rest) hcomment hline hreturn).1
  obtain ⟨q, qs, htext, hq⟩ := quoted_starts s
  have hopen : q ≠ ']' := by rcases hq with rfl | rfl <;> decide
  rw [htext, List.cons_append] at h hread
  rw [List.length_cons] at hskip
  generalize hmore : elements (fuel + 1) level rest = more
  rcases hc with rfl | rfl
  · simp [elements, h, hopen, hread, hskip, ← hmore]
  · simp [elements, h, hopen, hread, hskip]

theorem elements_elementLines (ss : List String) (level : Nat) (rest : List Char) {fuel : Nat}
    (hfuel : ss.length < fuel) :
    elements (fuel + 1) level (elementLines ss ++ ']' :: rest) = some (ss.map .string, rest) := by
  induction ss generalizing fuel with
  | nil =>
    have hskip := skipLines_of_stop (skipBlanks_cons (c := ']') rfl rest) (by decide) (by decide)
      (by decide)
    exact elements_close hskip.2
  | cons s ss ih =>
    obtain ⟨fuel, rfl⟩ := Nat.exists_eq_add_one_of_ne_zero (Nat.ne_zero_of_lt hfuel)
    have htext : elementLines (s :: ss) ++ ']' :: rest =
        '\n' :: ("    ".toList ++ (quoted s ++ ',' :: (elementLines ss ++ ']' :: rest))) := by
      simp [elementLines]
    have hblanks : "    ".toList.all isBlank = true := rfl
    obtain ⟨c, cs, hskip, hquoted, hc⟩ := skipBlanks_quoted hblanks s
      (',' :: (elementLines ss ++ ']' :: rest))
    have hlines : skipLines ((elementLines (s :: ss) ++ ']' :: rest).length + 1)
        (elementLines (s :: ss) ++ ']' :: rest) =
          quoted s ++ ',' :: (elementLines ss ++ ']' :: rest) := by
      rw [htext, (skipLines_of_stop hskip ?_ ?_ ?_).2, hquoted]
      all_goals rcases hc with rfl | rfl <;> decide
    rw [elements_string hlines (.inl rfl), if_pos rfl, ih (Nat.lt_of_succ_lt_succ hfuel)]
    rfl

theorem stringArray_eq (s s' : String) (ss : List String) :
    stringArray (s :: s' :: ss) = '[' :: (elementLines (s :: s' :: ss) ++ [']']) := by
  simp [stringArray, elementLines]

theorem length_le_elementLines (ss : List String) : ss.length ≤ (elementLines ss).length := by
  induction ss with
  | nil => exact Nat.zero_le _
  | cons s ss ih =>
    simp only [elementLines, List.flatMap_cons, List.length_append, List.length_cons] at ih ⊢
    omega

theorem length_le_stringArray (ss : List String) : ss.length ≤ (stringArray ss).length := by
  match ss with
  | [] => exact Nat.zero_le _
  | [s] => simp [stringArray]
  | s :: s' :: ss =>
    have hlines := length_le_elementLines (s :: s' :: ss)
    rw [stringArray_eq]
    simp only [List.length_cons, List.length_append] at hlines ⊢
    omega

theorem value_stringArray (ss : List String) (rest : List Char) {fuel : Nat}
    (hfuel : ss.length + 2 ≤ fuel) :
    value (fuel + 1) 0 (stringArray ss ++ rest) = some (.array (ss.map .string), rest) := by
  have hopened {text : List Char} (hread : elements fuel 1 text = some (ss.map .string, rest)) :
      value (fuel + 1) 0 ('[' :: text) = some (.array (ss.map .string), rest) := by
    simp [value, depthLimit, hread]
  obtain ⟨fuel, rfl⟩ : ∃ k, fuel = k + 2 := ⟨fuel - 2, by omega⟩
  match ss with
  | [] =>
    have hskip := skipLines_of_stop (skipBlanks_cons (c := ']') rfl rest) (by decide) (by decide)
      (by decide)
    exact hopened (elements_close hskip.1)
  | [s] =>
    have hblanks : ([] : List Char).all isBlank = true := rfl
    obtain ⟨c, cs, hskip, hquoted, hc⟩ := skipBlanks_quoted hblanks s (']' :: rest)
    have hlines : skipLines ((quoted s ++ ']' :: rest).length + 1) (quoted s ++ ']' :: rest) =
        quoted s ++ ']' :: rest := by
      rw [← List.nil_append (quoted s ++ _), (skipLines_of_stop hskip ?_ ?_ ?_).1, hquoted]
      · rfl
      all_goals rcases hc with rfl | rfl <;> decide
    have hread : elements (fuel + 2) 1 (quoted s ++ ']' :: rest) = some ([.string s], rest) :=
      (elements_string hlines (.inr rfl)).trans (if_neg (by decide))
    rw [stringArray, List.cons_append, List.append_assoc]
    exact hopened hread
  | s :: s' :: ss =>
    have hlength : (s :: s' :: ss).length < fuel + 1 := by omega
    have hread := elements_elementLines (s :: s' :: ss) 1 rest hlength
    rw [stringArray_eq, List.cons_append, List.append_assoc]
    exact hopened hread

/-! ## Statements -/

theorem value_line {line : Line} (h : line.Fits) (rest : List Char) :
    value (2 * (line.value ++ '\n' :: rest).length + 2) 0 (line.value ++ '\n' :: rest) =
      some (line.toValue, '\n' :: rest) := by
  cases line with
  | text s => exact value_quoted s (by simp) (by simp) _ 0
  | integer n =>
    rw [Line.value, Text.toList_ofNat]
    exact value_toDigits h rest _ 0
  | texts ss =>
    have hlength := length_le_stringArray ss
    refine value_stringArray ss ('\n' :: rest) ?_
    simp only [Line.value, List.length_append, List.length_cons]
    omega

theorem Line.value_starts (line : Line) : ∃ c cs, line.value = c :: cs ∧ isBlank c = false := by
  cases line with
  | text s =>
    obtain ⟨c, cs, htext, hc⟩ := quoted_starts s
    exact ⟨c, cs, htext, by rcases hc with rfl | rfl <;> rfl⟩
  | integer n =>
    obtain ⟨c, cs, hdigits, hc, _⟩ := Text.toDigits_starts n
    refine ⟨c, cs, by rw [Line.value, Text.toList_ofNat, hdigits], ?_⟩
    have hspace : c ≠ ' ' := Text.ne_of_isDigit hc rfl
    have htab : c ≠ '\t' := Text.ne_of_isDigit hc rfl
    simp [isBlank, hspace, htab]
  | texts ss =>
    match ss with
    | [] | [_] | _ :: _ :: _ => exact ⟨'[', _, rfl, rfl⟩

theorem lineEnd_newline (rest : List Char) : lineEnd ('\n' :: rest) = some rest := by
  have hskip : skipBlanks ('\n' :: rest) = '\n' :: rest := skipBlanks_cons rfl rest
  simp [lineEnd, hskip, skipComment, newline?]

/-- The text of one line. -/
def lineText (key : String) (line : Line) : List Char :=
  key.toList ++ " = ".toList ++ line.value ++ ['\n']

theorem statement_line {key : String} {line : Line} (hkey : IsBareKey key) (h : line.Fits)
    (rest : List Char) :
    statement (lineText key line ++ rest) = some (.pair [] key line.toValue, rest) := by
  have htext : lineText key line ++ rest =
      key.toList ++ ' ' :: '=' :: ' ' :: (line.value ++ '\n' :: rest) := by
    simp [lineText]
  have hequals (cs : List Char) : skipBlanks (' ' :: '=' :: cs) = '=' :: cs := rfl
  have hend :
      ∀ c ∈ (' ' :: '=' :: ' ' :: (line.value ++ '\n' :: rest)).head?, isBare c = false := by
    rintro c ⟨⟩
    rfl
  have hread := key?_bare hkey hend (by simp [hequals])
  have hvalue := value_line h rest
  have hskip : skipBlanks (' ' :: (line.value ++ '\n' :: rest)) = line.value ++ '\n' :: rest := by
    obtain ⟨c, cs, hstart, hc⟩ := line.value_starts
    rw [hstart]
    exact skipBlanks_cons hc _
  have hopen (text behind : List Char) : key.toList ++ text ≠ '[' :: behind := by
    obtain ⟨c, cs, hstart, hc⟩ := hkey.starts
    rw [hstart]
    exact fun heq => ne_of_isBare hc rfl (List.cons.inj heq).1
  rw [htext, statement]
  · simp only [hread, hequals, mark, if_true, Option.bind_eq_bind, Option.bind_some, hskip, hvalue,
      lineEnd_newline]
    rfl
  · exact fun behind => hopen _ _
  · exact fun behind => hopen _ _

theorem statement_header {key : String} (hkey : IsBareKey key) (rest : List Char) :
    statement ('[' :: (key.toList ++ ']' :: '\n' :: rest)) = some (.header [] key, rest) := by
  have hskip : skipBlanks (']' :: '\n' :: rest) = ']' :: '\n' :: rest := rfl
  have hend : ∀ c ∈ (']' :: '\n' :: rest).head?, isBare c = false := by
    rintro c ⟨⟩
    rfl
  have hread := key?_bare hkey hend (by simp [hskip])
  rw [statement]
  · simp only [hread, hskip, mark, if_true, Option.bind_eq_bind, Option.bind_some, lineEnd_newline]
    rfl
  · intro behind heq
    obtain ⟨c, cs, hstart, hc⟩ := hkey.starts
    rw [hstart] at heq
    exact ne_of_isBare hc rfl (List.cons.inj heq).1

theorem renderLines_cons (l : String × Line) (lines : List (String × Line)) :
    renderLines (l :: lines) = lineText l.1 l.2 ++ renderLines lines := rfl

theorem statements_lines {lines : List (String × Line)}
    (h : ∀ l ∈ lines, IsBareKey l.1 ∧ l.2.Fits) (fuel : Nat) (rest : List Char) :
    statements (lines.length + fuel) (renderLines lines ++ rest) =
      (statements fuel rest).map
        ((lines.map fun l => Statement.pair [] l.1 l.2.toValue) ++ ·) := by
  induction lines with
  | nil => simp [renderLines]
  | cons l lines ih =>
    obtain ⟨⟨hkey, hfits⟩, hlines⟩ := List.forall_mem_cons.1 h
    have hread := statement_line hkey hfits (renderLines lines ++ rest)
    obtain ⟨c, cs, hstart, hc⟩ := hkey.starts
    have hne {d : Char} (hd : isBare d = false) : c ≠ d := ne_of_isBare hc hd
    have hblank : isBlank c = false := by
      simp [isBlank, hne (d := ' ') rfl, hne (d := '\t') rfl]
    have htext : lineText l.1 l.2 ++ (renderLines lines ++ rest) =
        c :: (cs ++ (" = ".toList ++ (l.2.value ++ '\n' :: (renderLines lines ++ rest)))) := by
      simp [lineText, hstart]
    have hfuel : (l :: lines).length + fuel = lines.length + fuel + 1 := by
      rw [List.length_cons]
      omega
    rw [htext] at hread
    rw [renderLines_cons, List.append_assoc, htext, hfuel, statements, skipBlanks_cons hblank]
    simp only [hne (d := '#') rfl, hne (d := '\n') rfl, hne (d := '\r') rfl, hread]
    rw [if_neg (by simp), Option.bind_some, ih hlines, Option.map_map]
    rfl

/-- A document of lines with one table behind them. -/
theorem statements_document {top below : List (String × Line)} {table : String}
    (htop : ∀ l ∈ top, IsBareKey l.1 ∧ l.2.Fits) (htable : IsBareKey table)
    (hbelow : ∀ l ∈ below, IsBareKey l.1 ∧ l.2.Fits) (fuel : Nat) :
    statements (top.length + (below.length + (fuel + 1) + 2))
      (renderLines top ++ '\n' :: '[' :: (table.toList ++ ']' :: '\n' :: renderLines below)) =
        some ((top.map fun l => .pair [] l.1 l.2.toValue) ++ .header [] table ::
          below.map fun l => .pair [] l.1 l.2.toValue) := by
  have hline (cs : List Char) (fuel : Nat) :
      statements (fuel + 1) ('\n' :: cs) = statements fuel cs := by
    have hskip : skipBlanks ('\n' :: cs) = '\n' :: cs := skipBlanks_cons rfl cs
    rw [statements, hskip]
    simp [lineEnd_newline]
  have hheader (fuel : Nat) :
      statements (fuel + 1) ('[' :: (table.toList ++ ']' :: '\n' :: renderLines below)) =
        (statements fuel (renderLines below)).map (.header [] table :: ·) := by
    have hskip (cs : List Char) : skipBlanks ('[' :: cs) = '[' :: cs := rfl
    rw [statements, hskip]
    simp [statement_header htable]
  have hbody := statements_lines hbelow (fuel + 1) []
  rw [List.append_nil] at hbody
  rw [statements_lines htop, hline, hheader, hbody]
  simp [statements, skipBlanks]

/-! ## Tables -/

theorem lookup_of_not_mem {α : Type} {ms : List (String × α)} {key : String}
    (h : key ∉ ms.map Prod.fst) : ms.lookup key = none := by
  refine List.lookup_eq_none_iff.2 fun m hm => ?_
  have hne : key ≠ m.1 := fun heq => h (heq ▸ List.mem_map_of_mem hm)
  simpa using hne

theorem lookup_behind {α : Type} {ms : List (String × α)} {key : String}
    (h : key ∉ ms.map Prod.fst) (x : α) : (ms ++ [(key, x)]).lookup key = some x := by
  rw [List.lookup_append, lookup_of_not_mem h, Option.none_or, List.lookup_cons_self]

theorem replace_behind {ms : Members} {key : String} (h : key ∉ ms.map Prod.fst)
    (old new : Node) : Members.replace (ms ++ [(key, old)]) key new = ms ++ [(key, new)] := by
  have hkept : ms.map (fun m => if m.1 = key then (key, new) else m) = ms := by
    refine (List.map_congr_left fun m hm => if_neg fun heq => ?_).trans (List.map_id ms)
    exact h (List.mem_map.2 ⟨m, hm, heq⟩)
  rw [Members.replace, List.map_append, hkept]
  simp

theorem add_top {ms : Members} {key : String} (h : key ∉ ms.map Prod.fst) (v : Value) :
    Draft.add ⟨ms, []⟩ (.pair [] key v) = some ⟨ms ++ [(key, .value v)], []⟩ := by
  simp [Draft.add, Members.descend, Members.insertValue, lookup_of_not_mem h]

theorem add_header {ms : Members} {table : String} (h : table ∉ ms.map Prod.fst) :
    Draft.add ⟨ms, []⟩ (.header [] table) = some ⟨ms ++ [(table, .table .header [])], [table]⟩ := by
  simp [Draft.add, Members.openTable, Members.descend, lookup_of_not_mem h]

theorem add_below {ms inner : Members} {table key : String} (htable : table ∉ ms.map Prod.fst)
    (h : key ∉ inner.map Prod.fst) (v : Value) :
    Draft.add ⟨ms ++ [(table, .table .header inner)], [table]⟩ (.pair [] key v) =
      some ⟨ms ++ [(table, .table .header (inner ++ [(key, .value v)]))], [table]⟩ := by
  simp [Draft.add, Members.descend, Members.insertValue, lookup_behind htable,
    replace_behind htable, lookup_of_not_mem h]

/-- The members that lines stand for. -/
def members (lines : List (String × Line)) : Members := lines.map fun l => (l.1, .value l.2.toValue)

/-- Wherever a new pair goes behind the others, lines go there in their order. -/
theorem foldlM_pairs (place : Members → Draft)
    (hadd : ∀ ms key v, key ∉ ms.map Prod.fst →
      (place ms).add (.pair [] key v) = some (place (ms ++ [(key, .value v)])))
    {lines : List (String × Line)} {ms : Members}
    (h : (ms.map Prod.fst ++ lines.map Prod.fst).Nodup) :
    (lines.map fun l => Statement.pair [] l.1 l.2.toValue).foldlM Draft.add (place ms) =
      some (place (ms ++ members lines)) := by
  induction lines generalizing ms with
  | nil => simp [members]
  | cons l lines ih =>
    have hnew : l.1 ∉ ms.map Prod.fst := fun hmem =>
      (List.nodup_append.1 h).2.2 _ hmem _ List.mem_cons_self rfl
    have hrest : ((ms ++ [(l.1, Node.value l.2.toValue)]).map Prod.fst ++
        lines.map Prod.fst).Nodup := by
      simpa using h
    rw [List.map_cons, List.foldlM_cons, hadd _ _ _ hnew]
    simp only [Option.bind_eq_bind, Option.bind_some, ih hrest]
    simp [members]

theorem foldlM_top {lines : List (String × Line)} (h : (lines.map Prod.fst).Nodup) :
    (lines.map fun l => Statement.pair [] l.1 l.2.toValue).foldlM Draft.add ⟨[], []⟩ =
      some ⟨members lines, []⟩ :=
  foldlM_pairs (fun ms => ⟨ms, []⟩) (fun _ _ v h => add_top h v) (by simpa using h)

theorem membersToValues_eq_map (ms : Members) :
    membersToValues ms = ms.map fun m => (m.1, m.2.toValue) := by
  induction ms with
  | nil => simp [membersToValues]
  | cons m ms ih => simp [membersToValues, ih]

theorem tableOf?_document {top below : List (String × Line)} {table : String}
    (htop : (top.map Prod.fst).Nodup) (htable : table ∉ top.map Prod.fst)
    (hbelow : (below.map Prod.fst).Nodup) :
    tableOf? ((top.map fun l => .pair [] l.1 l.2.toValue) ++ .header [] table ::
        below.map fun l => .pair [] l.1 l.2.toValue) =
      some ((top.map fun l => (l.1, l.2.toValue)) ++
        [(table, .table (below.map fun l => (l.1, l.2.toValue)))]) := by
  have hkeys : (members top).map Prod.fst = top.map Prod.fst := by simp [members]
  have hnew : table ∉ (members top).map Prod.fst := hkeys ▸ htable
  have hbehind : (below.map fun l => Statement.pair [] l.1 l.2.toValue).foldlM Draft.add
      ⟨members top ++ [(table, .table .header [])], [table]⟩ =
        some ⟨members top ++ [(table, .table .header (members below))], [table]⟩ :=
    foldlM_pairs (fun inner => ⟨members top ++ [(table, .table .header inner)], [table]⟩)
      (fun _ _ v h => add_below hnew h v) (by simpa using hbelow)
  rw [tableOf?, List.foldlM_append, foldlM_top htop]
  simp only [Option.bind_eq_bind, Option.bind_some, List.foldlM_cons, add_header hnew, hbehind]
  simp [membersToValues_eq_map, members, Node.toValue]

/-! ## Documents -/

theorem length_le_renderLines (lines : List (String × Line)) :
    lines.length ≤ (renderLines lines).length := by
  induction lines with
  | nil => exact Nat.le_refl 0
  | cons l lines ih =>
    rw [renderLines_cons]
    simp only [lineText, List.length_append, List.length_cons]
    omega

theorem withoutMark_renderLines {lines : List (String × Line)} (h : ∀ l ∈ lines, IsBareKey l.1)
    {rest : List Char} (hrest : withoutMark rest = rest) :
    withoutMark (renderLines lines ++ rest) = renderLines lines ++ rest := by
  cases lines with
  | nil => exact hrest
  | cons l lines =>
    obtain ⟨c, cs, hstart, hc⟩ := (h l List.mem_cons_self).starts
    rw [renderLines_cons, lineText, hstart]
    exact if_neg (ne_of_isBare hc (by decide))

/-- A document of lines alone is read as the members that were written. -/
theorem parse?_lines {lines : List (String × Line)} (h : ∀ l ∈ lines, IsBareKey l.1 ∧ l.2.Fits)
    (hnodup : (lines.map Prod.fst).Nodup) :
    parse? (String.ofList (renderLines lines)) =
      some (lines.map fun l => (l.1, l.2.toValue)) := by
  have hmark := withoutMark_renderLines (fun l hl => (h l hl).1) (show withoutMark [] = [] from rfl)
  rw [List.append_nil] at hmark
  obtain ⟨fuel, hfuel⟩ : ∃ fuel, (renderLines lines).length + 1 = lines.length + (fuel + 1) := by
    have hlength := length_le_renderLines lines
    exact ⟨(renderLines lines).length - lines.length, by omega⟩
  have hread := statements_lines h (fuel + 1) []
  rw [List.append_nil] at hread
  have hend : statements (fuel + 1) [] = some [] := rfl
  rw [parse?, String.toList_ofList, hmark]
  simp only [hfuel, hread, hend, Option.map_some, Option.bind_some, List.append_nil, tableOf?,
    foldlM_top hnodup, membersToValues_eq_map, members, List.map_map]
  rfl

/-- A document of lines with one table behind them is read as the members that were written. -/
theorem parse?_render {top below : List (String × Line)} {table : String}
    (htop : ∀ l ∈ top, IsBareKey l.1 ∧ l.2.Fits) (htable : IsBareKey table)
    (hbelow : ∀ l ∈ below, IsBareKey l.1 ∧ l.2.Fits) (hnodup : (top.map Prod.fst).Nodup)
    (hnew : table ∉ top.map Prod.fst) (hnodup' : (below.map Prod.fst).Nodup) :
    parse? (render top table below) = some ((top.map fun l => (l.1, l.2.toValue)) ++
      [(table, .table (below.map fun l => (l.1, l.2.toValue)))]) := by
  have htext : (render top table below).toList =
      renderLines top ++ '\n' :: '[' :: (table.toList ++ ']' :: '\n' :: renderLines below) := by
    simp [render]
  obtain ⟨fuel, hfuel⟩ : ∃ fuel, (renderLines top ++
      '\n' :: '[' :: (table.toList ++ ']' :: '\n' :: renderLines below)).length + 1 =
        top.length + (below.length + (fuel + 1) + 2) := by
    have hlength := length_le_renderLines top
    have hlength' := length_le_renderLines below
    simp only [List.length_append, List.length_cons]
    exact ⟨(renderLines top).length - top.length + table.toList.length + 2 +
      ((renderLines below).length - below.length), by omega⟩
  rw [parse?, htext, withoutMark_renderLines (fun l hl => (htop l hl).1) rfl]
  simp only [hfuel, statements_document htop htable hbelow, Option.bind_some,
    tableOf?_document hnodup hnew hnodup']

end OffloadCheck.Toml
