/-!
Text as pieces between separators. `splitOn` always gives at least one piece, and joining the pieces
again with the separator gives the text back (`joinWith_splitOn`).
-/
namespace OffloadCheck.Text

/-- The pieces of a text between the characters equal to `sep`; no separator gives one piece. -/
def splitOn (sep : Char) : List Char → List (List Char)
  | [] => [[]]
  | c :: cs =>
    if c = sep then [] :: splitOn sep cs
    else
      match splitOn sep cs with
      | [] => [[c]]
      | word :: words => (c :: word) :: words

theorem splitOn_ne_nil (sep : Char) (cs : List Char) : splitOn sep cs ≠ [] := by
  cases cs with
  | nil => simp [splitOn]
  | cons c cs =>
    simp only [splitOn]
    split
    · simp
    · split <;> simp

/-- The pieces with one separator between neighbours. -/
def joinWith (sep : Char) : List (List Char) → List Char
  | [] => []
  | [word] => word
  | word :: words => word ++ sep :: joinWith sep words

theorem joinWith_splitOn (sep : Char) (cs : List Char) : joinWith sep (splitOn sep cs) = cs := by
  induction cs with
  | nil => rfl
  | cons c cs ih =>
    simp only [splitOn]
    split
    next h =>
      cases hs : splitOn sep cs with
      | nil => exact absurd hs (splitOn_ne_nil sep cs)
      | cons w ws => simp [joinWith, ← hs, ih, h]
    next =>
      cases hs : splitOn sep cs with
      | nil => exact absurd hs (splitOn_ne_nil sep cs)
      | cons w ws =>
        rw [hs] at ih
        cases ws with
        | nil => simpa [joinWith] using ih
        | cons w' ws' => simpa [joinWith] using ih

/-- One more piece behind others comes with a separator in front of it. -/
theorem joinWith_concat {sep : Char} {words : List (List Char)} (h : words ≠ [])
    (word : List Char) : joinWith sep (words ++ [word]) = joinWith sep words ++ sep :: word := by
  induction words with
  | nil => exact absurd rfl h
  | cons first words ih =>
    cases words with
    | nil => rfl
    | cons second words =>
      have hrest := ih (List.cons_ne_nil _ _)
      rw [List.cons_append] at hrest ⊢
      simp only [joinWith, hrest, List.cons_append, List.append_assoc]

/-- Nothing of the pieces is lost between the separators. -/
theorem mem_joinWith {sep c : Char} {words : List (List Char)} {word : List Char}
    (h : word ∈ words) (hc : c ∈ word) : c ∈ joinWith sep words := by
  induction words with
  | nil => cases h
  | cons first words ih =>
    cases words with
    | nil => rwa [← List.mem_singleton.1 h]
    | cons second words =>
      rw [joinWith, List.mem_append, List.mem_cons]
      · rcases List.mem_cons.1 h with rfl | hlater
        · exact .inl hc
        · exact .inr (.inr (ih hlater))
      · exact List.cons_ne_nil _ _

end OffloadCheck.Text
