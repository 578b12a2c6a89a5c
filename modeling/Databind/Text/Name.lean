import Databind.Text.Blank

/-!
# `Text.Name` — cleaned names

Field, attribute and event names come out of texts that also hold brackets, quotes and separators. A
cleaned name has those characters removed and no blanks at its ends.
-/

namespace Databind.Text

/-- Whether a character is left out of names. -/
def isStripped (c : Char) : Bool :=
  c ∈ ['|', ';', '"', '\'', '{', '}', '[', ']', '<', '>', '(', ')', '+', ',']

/-- The name in a text: without stripped characters, then trimmed. -/
def cleanChars (cs : List Char) : List Char := trimChars (cs.filter (!isStripped ·))

/-- The name in a text: without stripped characters, then trimmed. -/
def cleanName (s : String) : String := String.ofList (cleanChars s.toList)

end Databind.Text
