import Databind.Proofs.Reading

/-!
# `Proofs.Escaping` — text that is written as markup and read again

Markup shows an escaped text as it was. An escaped text has no tags. Its entities are resolved one kind after the other,
and each kind is resolved without touching the others: a text in which some special characters are still escaped becomes
the text in which one more kind of them is not (`Markup.replaceAll_entity`). The ampersand has to be the last one. As
long as it is escaped every ampersand begins an entity, and what has been resolved never makes up a new one.

So the markup of an element, if none was set, may be written back to it: its text stays what it was, whatever it and the
elements below it hold.

## Main definitions

* `Markup.IsSpecial` — the characters that markup escapes.
* `Markup.escapeBut` — the markup of a character when some are left as they are.
-/

namespace Databind

namespace Markup

variable {pattern front rest kept : List Char} {c d : Char}

/-! ## Replacing a pattern -/

/-- An occurrence of the pattern is replaced. -/
theorem replaceAll_pattern (hne : pattern ≠ []) (d : Char) (rest : List Char) :
    replaceAll pattern d (pattern ++ rest) = d :: replaceAll pattern d rest := by
  cases pattern with
  | nil => exact absurd rfl hne
  | cons p body =>
    have hhead : (p :: body).isPrefixOf (p :: (body ++ rest)) = true :=
      List.isPrefixOf_iff_prefix.mpr (List.prefix_append (p :: body) rest)
    rw [List.cons_append, replaceAll, if_pos ⟨hne, hhead⟩, ← List.cons_append, List.drop_left]

/-- A character that begins no occurrence stays. -/
theorem replaceAll_cons (h : pattern.isPrefixOf (c :: rest) = false) (d : Char) :
    replaceAll pattern d (c :: rest) = c :: replaceAll pattern d rest := by
  rw [replaceAll, if_neg]
  rintro ⟨-, hhead⟩
  rw [h] at hhead
  cases hhead

/-- Where the first character of the pattern is missing, nothing is replaced. -/
theorem replaceAll_append {p : Char} {body : List Char} (h : p ∉ front) (d : Char) (rest : List Char) :
    replaceAll (p :: body) d (front ++ rest) = front ++ replaceAll (p :: body) d rest := by
  induction front with
  | nil => rfl
  | cons c front ih =>
    rw [List.mem_cons, not_or] at h
    have hhead : (p :: body).isPrefixOf (c :: (front ++ rest)) = false := by
      rw [List.isPrefixOf_cons_cons, beq_false_of_ne h.1, Bool.false_and]
    rw [List.cons_append, replaceAll_cons hhead, ih h.2, List.cons_append]

/-! ## Entities -/

/-- **The characters that markup escapes.** -/
def IsSpecial (c : Char) : Prop := c = '&' ∨ c = '<' ∨ c = '>'

theorem escapeChar_of_plain (h : ¬IsSpecial c) : escapeChar c = [c] := by
  simp only [IsSpecial, not_or] at h
  rw [escapeChar, if_neg h.1, if_neg h.2.1, if_neg h.2.2]

/-- **An entity begins with an ampersand and has no other one.** -/
theorem escapeChar_of_special (h : IsSpecial c) : ∃ body, escapeChar c = '&' :: body ∧ '&' ∉ body := by
  rcases h with rfl | rfl | rfl <;> exact ⟨_, rfl, by decide⟩

/-- No entity is the beginning of another one. -/
theorem not_prefix_of_ne (hc : IsSpecial c) (hd : IsSpecial d) (hne : c ≠ d) (rest : List Char) :
    (escapeChar d).isPrefixOf (escapeChar c ++ rest) = false := by
  rcases hc with rfl | rfl | rfl <;> rcases hd with rfl | rfl | rfl <;> first | exact absurd rfl hne | rfl

/-- The markup of a character, when some characters are left as they are. -/
def escapeBut (kept : List Char) (c : Char) : List Char := if c ∈ kept then [c] else escapeChar c

/-- **What stands for one character is either the entity that is resolved, or stays.** -/
theorem replaceAll_escapeBut (hd : IsSpecial d) (hkept : '&' ∉ kept) (c : Char) (rest : List Char) :
    replaceAll (escapeChar d) d (escapeBut kept c ++ rest) =
      escapeBut (d :: kept) c ++ replaceAll (escapeChar d) d rest := by
  obtain ⟨body, hbody, -⟩ := escapeChar_of_special hd
  have hplain : c ≠ '&' → replaceAll (escapeChar d) d ([c] ++ rest) = [c] ++ replaceAll (escapeChar d) d rest := by
    intro hc
    rw [hbody]
    exact replaceAll_append (by simpa using Ne.symm hc) d rest
  unfold escapeBut
  by_cases hin : c ∈ kept
  · rw [if_pos hin, if_pos (List.mem_cons_of_mem d hin)]
    exact hplain fun hc => hkept (hc ▸ hin)
  rw [if_neg hin]
  by_cases heq : c = d
  · subst heq
    rw [if_pos List.mem_cons_self, replaceAll_pattern (by rw [hbody]; simp)]
    rfl
  rw [if_neg (by simp [heq, hin])]
  by_cases hc : IsSpecial c
  · -- another entity: its ampersand begins no occurrence, and nothing else in it does
    obtain ⟨body', hbody', hnone⟩ := escapeChar_of_special hc
    have hhead := not_prefix_of_ne hc hd heq rest
    rw [hbody', List.cons_append] at hhead ⊢
    rw [replaceAll_cons hhead, hbody, replaceAll_append hnone]
    rfl
  · rw [escapeChar_of_plain hc]
    exact hplain fun heq => hc (.inl heq)

/-- **One kind of entities is resolved**, while the ampersand is still escaped. -/
theorem replaceAll_entity (hd : IsSpecial d) (hkept : '&' ∉ kept) (cs : List Char) :
    replaceAll (escapeChar d) d (cs.flatMap (escapeBut kept)) = cs.flatMap (escapeBut (d :: kept)) := by
  induction cs with
  | nil => rw [List.flatMap_nil, replaceAll, List.flatMap_nil]
  | cons c cs ih => rw [List.flatMap_cons, replaceAll_escapeBut hd hkept, ih, List.flatMap_cons]

/-! ## Markup without tags -/

/-- Markup without an opening bracket has no tags. -/
theorem dropTags_of_not_mem {cs : List Char} (h : '<' ∉ cs) : dropTags false cs = cs := by
  induction cs with
  | nil => rfl
  | cons c cs ih =>
    rw [List.mem_cons, not_or] at h
    rw [dropTags, if_neg (Ne.symm h.1), if_neg (by simp), if_neg Bool.false_ne_true, ih h.2]

theorem not_mem_escapeChar (c : Char) : '<' ∉ escapeChar c := by
  by_cases hc : IsSpecial c
  · rcases hc with rfl | rfl | rfl <;> decide
  · rw [escapeChar_of_plain hc, List.mem_singleton]
    exact fun heq => hc (.inr (.inl heq.symm))

/-- **Markup shows an escaped text as it was.** -/
theorem strip_escape (t : String) : strip (escape t) = t := by
  have hnone : '<' ∉ t.toList.flatMap escapeChar := by
    rw [List.mem_flatMap]
    rintro ⟨c, -, hc⟩
    exact not_mem_escapeChar c hc
  have hless : replaceAll "&lt;".toList '<' (t.toList.flatMap (escapeBut [])) = t.toList.flatMap (escapeBut ['<']) :=
    replaceAll_entity (.inr (.inl rfl)) List.not_mem_nil t.toList
  have hmore : replaceAll "&gt;".toList '>' (t.toList.flatMap (escapeBut ['<'])) =
      t.toList.flatMap (escapeBut ['>', '<']) := replaceAll_entity (.inr (.inr rfl)) (by decide) t.toList
  have hand : replaceAll "&amp;".toList '&' (t.toList.flatMap (escapeBut ['>', '<'])) =
      t.toList.flatMap (escapeBut ['&', '>', '<']) := replaceAll_entity (.inl rfl) (by decide) t.toList
  have hnothing : escapeBut [] = escapeChar := rfl
  have hall : escapeBut ['&', '>', '<'] = fun c => [c] := by
    funext c
    by_cases hc : IsSpecial c
    · rcases hc with rfl | rfl | rfl <;> rfl
    · unfold escapeBut
      split
      · rfl
      · exact escapeChar_of_plain hc
  simp only [strip, escape, String.toList_ofList]
  rw [dropTags_of_not_mem hnone, ← hnothing, hless, hmore, hand, hall, List.flatMap_singleton', String.ofList_toList]

end Markup

namespace Arena

variable {arena : Arena} {x : Nat}

/-- An element has the text that its markup shows, once it is set. -/
theorem textContent_setHtml (hx : x < arena.size) (markup : String) :
    (arena.setHtml x markup).textContent x = Markup.strip markup := by
  have hcontent := arena.content_paint_self hx .html (.string markup)
  have hchildren := arena.children_paint x .html (.string markup) x (.inr ⟨rfl, rfl⟩)
  have htext := textContent_of_children hchildren
  rw [hcontent] at htext
  exact htext

theorem content_of_size_le (hx : arena.size ≤ x) : arena.content x = blank := by
  unfold content
  rw [Array.getElem?_eq_none hx]
  rfl

/-- An element that is not there has no text. -/
theorem textContent_of_size_le (hx : arena.size ≤ x) : arena.textContent x = "" := by
  have hchildren : arena.children x = [] := by
    unfold children
    rw [Array.getElem?_eq_none hx]
    rfl
  rw [textContent_of_children hchildren, content_of_size_le hx]
  rfl

theorem size_setHtml (arena : Arena) (x : Nat) (markup : String) : (arena.setHtml x markup).size = arena.size :=
  arena.size_paint x .html (.string markup)

/-- **Markup that is written back keeps its text.** What markup shows of an escaped text is the text, whatever
characters, entities or tags it holds. So an element whose markup was never set has the same text when its own markup is
set, be the text its own or that of elements below it, which are gone then. -/
theorem text_of_html_written_back (hmarkup : (arena.content x).markup = none) :
    (∀ t, Markup.strip (Markup.escape t) = t) ∧
      (arena.setHtml x (arena.html x)).textContent x = arena.textContent x := by
  refine ⟨Markup.strip_escape, ?_⟩
  have hhtml : arena.html x = Markup.escape (arena.textContent x) := by rw [html, hmarkup, Option.getD_none]
  by_cases hx : x < arena.size
  · rw [textContent_setHtml hx, hhtml, Markup.strip_escape]
  · have hle := Nat.le_of_not_lt hx
    rw [textContent_of_size_le hle, textContent_of_size_le (by rwa [size_setHtml])]

/-- A text that looks like markup, above another one. -/
def inequality : Arena :=
  .ofSpec (.node { Content.ofTag "p" with text := "1 &lt; 2 &amp;& " }
    [.node { Content.ofTag "b" with text := "<2>" } []])

/-- Neither is decoded twice, or taken for a tag. -/
theorem text_of_html_written_back_nested :
    (inequality.content 0).markup = none ∧ inequality.textContent 0 = "1 &lt; 2 &amp;& <2>" ∧
      inequality.html 0 = "1 &amp;lt; 2 &amp;amp;&amp; &lt;2&gt;" ∧
      (inequality.setHtml 0 (inequality.html 0)).textContent 0 = "1 &lt; 2 &amp;& <2>" := by
  have hmarkup : (inequality.content 0).markup = none := by decide +kernel
  have htext : inequality.textContent 0 = "1 &lt; 2 &amp;& <2>" := by decide +kernel
  exact ⟨hmarkup, htext, by decide +kernel, (text_of_html_written_back hmarkup).2.trans htext⟩

end Arena

end Databind
