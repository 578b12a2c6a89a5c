/-!
# `Text.Blank` — blank characters and trimming

Blank means the property White_Space of the character database, which is more than the ASCII blanks.
-/

namespace Databind.Text

/-- Whether a character is blank. -/
def isBlank (c : Char) : Bool :=
  let n := c.toNat
  (9 ≤ n && n ≤ 13) || n == 32 || n == 0x85 || n == 0xa0 || n == 0x1680 || (0x2000 ≤ n && n ≤ 0x200a) ||
    n == 0x2028 || n == 0x2029 || n == 0x202f || n == 0x205f || n == 0x3000

/-- The text without the blanks in front. -/
def trimStart (cs : List Char) : List Char := cs.dropWhile isBlank

/-- The text without the blanks at its end. -/
def trimEnd (cs : List Char) : List Char := (cs.reverse.dropWhile isBlank).reverse

/-- The text without the blanks at either end. -/
def trimChars (cs : List Char) : List Char := trimEnd (trimStart cs)

/-- The text without the blanks at either end. -/
def trim (s : String) : String := String.ofList (trimChars s.toList)

/-- The text holds nothing but blanks. -/
def isBlankText (s : String) : Bool := trim s == ""

/-- The longest pieces of a text without a separator; empty pieces between two separators stay. -/
def splitWhere (p : Char → Bool) : List Char → List (List Char)
  | [] => [[]]
  | c :: rest =>
    if p c then [] :: splitWhere p rest
    else
      match splitWhere p rest with
      | [] => [[c]]
      | piece :: pieces => (c :: piece) :: pieces

theorem splitWhere_ne_nil (p : Char → Bool) (cs : List Char) : splitWhere p cs ≠ [] := by
  cases cs with
  | nil => simp [splitWhere]
  | cons c rest =>
    simp only [splitWhere]
    split
    · simp
    · split <;> simp

/-- The words of a text: its pieces between blanks, the empty ones left out. -/
def words (s : String) : List String :=
  ((splitWhere isBlank s.toList).filter (· ≠ [])).map String.ofList

/-- The text before the first occurrence of a character and the text behind it. -/
def splitAt? (c : Char) : List Char → Option (List Char × List Char)
  | [] => none
  | d :: rest =>
    if d = c then some ([], rest)
    else (splitAt? c rest).map fun (before, behind) => (d :: before, behind)

/-- **A split at the first occurrence loses only that character.** -/
theorem splitAt?_eq_some {c : Char} {cs before behind : List Char}
    (h : splitAt? c cs = some (before, behind)) : cs = before ++ c :: behind ∧ c ∉ before := by
  induction cs generalizing before with
  | nil => simp [splitAt?] at h
  | cons d rest ih =>
    simp only [splitAt?] at h
    split at h
    · next hd =>
      simp only [Option.some.injEq, Prod.mk.injEq] at h
      obtain ⟨rfl, rfl⟩ := h
      simp [hd]
    · next hd =>
      obtain ⟨⟨before', behind'⟩, hsplit, heq⟩ := Option.map_eq_some_iff.1 h
      simp only [Prod.mk.injEq] at heq
      obtain ⟨rfl, rfl⟩ := heq
      obtain ⟨hcs, hmem⟩ := ih hsplit
      refine ⟨by simp [hcs], ?_⟩
      simp only [List.mem_cons, not_or]
      exact ⟨fun he => hd he.symm, hmem⟩

end Databind.Text
