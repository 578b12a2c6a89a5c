/-!
# `Tree.Markup` — text in markup

`escape` writes text so that markup shows it; `strip` gives back the text that markup shows, without its
tags and with three entities resolved.
-/

namespace Databind.Markup

/-- The markup of one character. -/
def escapeChar (c : Char) : List Char :=
  if c = '&' then "&amp;".toList
  else if c = '<' then "&lt;".toList
  else if c = '>' then "&gt;".toList
  else [c]

/-- Markup that shows a text. -/
def escape (s : String) : String := String.ofList (s.toList.flatMap escapeChar)

/-- The characters of markup outside its tags; a `>` outside a tag stays. -/
def dropTags (inTag : Bool) : List Char → List Char
  | [] => []
  | c :: rest =>
    if c = '<' then dropTags true rest
    else if c = '>' ∧ inTag then dropTags false rest
    else if inTag then dropTags inTag rest
    else c :: dropTags inTag rest

/-- The text with every occurrence of a pattern, from left to right, replaced. -/
def replaceAll (pattern : List Char) (replacement : Char) (cs : List Char) : List Char :=
  match cs with
  | [] => []
  | c :: rest =>
    if pattern ≠ [] ∧ pattern.isPrefixOf (c :: rest) then
      replacement :: replaceAll pattern replacement ((c :: rest).drop pattern.length)
    else c :: replaceAll pattern replacement rest
termination_by cs.length
decreasing_by
  · next h =>
    have := List.length_pos_iff.2 h.1
    simp only [List.length_drop, List.length_cons]; omega
  · simp

/-- The text that markup shows. -/
def strip (s : String) : String :=
  let text := dropTags false s.toList
  let text := replaceAll "&lt;".toList '<' text
  let text := replaceAll "&gt;".toList '>' text
  String.ofList (replaceAll "&amp;".toList '&' text)

end Databind.Markup
