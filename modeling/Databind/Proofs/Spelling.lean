import Databind.Proofs.Numeral
import Databind.Proofs.Triggers

/-!
# `Proofs.Spelling` — words that read back

The text of an expression written word by word, and what becomes of it: the braces cut it into pieces, and each literal
between two fields is cut into tokens by itself. Both are undone here. The pieces of the text are those of its words
(`scanLiteral_text`), and the tokens of the pieces are the words without the blanks (`tokensOf_piecesFrom`), as long as
no two words run into each other (`Separate`).

Two words run into each other if the first is a number and the second starts with a digit, or if the first is an operator
and the second starts with a character that makes some operator longer.
-/

namespace Databind.Expression

/-- A name that may stand in braces and is read as it is written. -/
structure CleanName (name : String) : Prop where
  nonempty : name ≠ ""
  opening : '{' ∉ name.toList
  closing : '}' ∉ name.toList
  clean : Text.cleanName name = name

/-- A word of the text of an expression: a token as it is written, or a blank. -/
inductive Lexeme where
  | blank
  | word (token : Token)

namespace Lexeme

/-- How the word is written. -/
def spelling : Lexeme → List Char
  | blank => [' ']
  | word (.number n) => n.display
  | word (.field name) => '{' :: (name.toList ++ ['}'])
  | word (.op operator) => operator.spelling.toList
  | word .opening => ['(']
  | word .closing => [')']

/-- The words that are read as they are written: whole numbers, clean names, and all others. -/
def Plain : Lexeme → Prop
  | word (.number n) => n.Whole
  | word (.field name) => CleanName name
  | _ => True

/-- The token of a word; a blank has none. -/
def token? : Lexeme → Option Token
  | blank => none
  | word token => some token

/-- The field that a word is, if it is one. -/
def field? (l : Lexeme) : Option String := l.token?.bind Token.fieldName?

/-- The text of some words. -/
def text (ls : List Lexeme) : List Char := ls.flatMap spelling

/-- The tokens of some words. -/
def tokens (ls : List Lexeme) : List Token := ls.filterMap token?

theorem text_append (ls ls' : List Lexeme) : text (ls ++ ls') = text ls ++ text ls' := List.flatMap_append

theorem tokens_append (ls ls' : List Lexeme) : tokens (ls ++ ls') = tokens ls ++ tokens ls' := List.filterMap_append

theorem eq_of_field? {l : Lexeme} {name : String} (h : l.field? = some name) : l = word (.field name) := by
  cases l with
  | blank => cases h
  | word token =>
    cases token with
    | field name' =>
      cases h
      rfl
    | _ => cases h

end Lexeme

open Lexeme

/-! ## Words and pieces -/

/-- The pieces of some words, behind literal text that has been read. -/
def piecesFrom (before : List Char) : List Lexeme → List Piece
  | [] => [.literal before]
  | l :: ls =>
    match l.field? with
    | some name => .literal before :: .field name :: piecesFrom [] ls
    | none => piecesFrom (before ++ l.spelling) ls

theorem piecesFrom_field {l : Lexeme} {name : String} (h : l.field? = some name) (before : List Char)
    (ls : List Lexeme) :
    piecesFrom before (l :: ls) = .literal before :: .field name :: piecesFrom [] ls := by
  rw [piecesFrom, h]

theorem piecesFrom_literal {l : Lexeme} (h : l.field? = none) (before : List Char) (ls : List Lexeme) :
    piecesFrom before (l :: ls) = piecesFrom (before ++ l.spelling) ls := by
  rw [piecesFrom, h]

/-- The words between the fields are written in operator text. -/
theorem char_of_mem_spelling {l : Lexeme} (hplain : l.Plain) (h : l.field? = none) {c : Char} (hc : c ∈ l.spelling) :
    (isOperatorChar c || c.isDigit || c == ' ') = true := by
  cases l with
  | blank =>
    rw [List.mem_singleton.mp hc]
    decide
  | word token =>
    cases token with
    | number n =>
      obtain ⟨d, rest, hdisplay, hdigits, -⟩ := Number.Whole.display_cons hplain
      rw [hdigits c (hdisplay ▸ hc), Bool.or_true, Bool.true_or]
    | field name => cases h
    | op operator =>
      have hall : operator.spelling.toList.all isOperatorChar = true := by
        cases operator with
        | not => decide
        | binary op => cases op <;> decide
      rw [List.all_eq_true.mp hall c hc, Bool.true_or, Bool.true_or]
    | opening =>
      rw [List.mem_singleton.mp hc]
      decide
    | closing =>
      rw [List.mem_singleton.mp hc]
      decide

/-- Only fields are written with braces. -/
theorem not_brace_of_mem_spelling {l : Lexeme} (hplain : l.Plain) (h : l.field? = none) {c : Char}
    (hc : c ∈ l.spelling) : c ≠ '{' ∧ c ≠ '}' := by
  have hchar := char_of_mem_spelling hplain h hc
  constructor <;>
  · rintro rfl
    revert hchar
    decide

/-- Literal text without braces is read through. -/
theorem scanLiteral_append {cs : List Char} (h : ∀ c ∈ cs, c ≠ '{' ∧ c ≠ '}') (before rest : List Char) :
    Piece.scanLiteral before (cs ++ rest) = Piece.scanLiteral (before ++ cs) rest := by
  induction cs generalizing before with
  | nil => rw [List.nil_append, List.append_nil]
  | cons c cs ih =>
    obtain ⟨hopening, hclosing⟩ := h c List.mem_cons_self
    rw [List.cons_append, Piece.scanLiteral_char hopening hclosing,
      ih fun c hc => h c (List.mem_cons_of_mem _ hc), List.append_assoc, List.singleton_append]

/-- A name without braces is read up to the closing brace. -/
theorem scanToken_append {cs : List Char} (hopening : '{' ∉ cs) (hclosing : '}' ∉ cs) (raw rest : List Char) :
    Piece.scanToken raw (cs ++ rest) = Piece.scanToken (raw ++ cs) rest := by
  induction cs generalizing raw with
  | nil => rw [List.nil_append, List.append_nil]
  | cons c cs ih =>
    rw [List.mem_cons, not_or] at hopening hclosing
    rw [List.cons_append, Piece.scanToken_char (Ne.symm hopening.1) (Ne.symm hclosing.1),
      ih hopening.2 hclosing.2, List.append_assoc, List.singleton_append]

/-- A name in braces is read as a field, and the text behind it goes on outside of any token. -/
theorem scanLiteral_token {raw : List Char} (hopening : '{' ∉ raw) (hclosing : '}' ∉ raw)
    (hname : Text.cleanChars raw ≠ []) (before rest : List Char) :
    Piece.scanLiteral before ('{' :: (raw ++ '}' :: rest)) =
      (Piece.scanLiteral [] rest).map fun pieces =>
        .literal before :: .field (String.ofList (Text.cleanChars raw)) :: pieces := by
  rw [Piece.scanLiteral_opening, scanToken_append hopening hclosing, List.nil_append, Piece.scanToken_named hname]
  cases Piece.scanLiteral [] rest <;> rfl

/-- A clean name in braces is read as the field of that name. -/
theorem scanLiteral_field {name : String} (h : CleanName name) (before rest : List Char) :
    Piece.scanLiteral before ((word (.field name)).spelling ++ rest) =
      (Piece.scanLiteral [] rest).map fun pieces => .literal before :: .field name :: pieces := by
  have hname : Text.cleanChars name.toList ≠ [] := by
    intro hempty
    refine h.nonempty ?_
    rw [← h.clean, Text.cleanName, hempty]
  have hclean : String.ofList (Text.cleanChars name.toList) = name := h.clean
  rw [spelling, List.cons_append, List.append_assoc, List.singleton_append,
    scanLiteral_token h.opening h.closing hname, hclean]

/-- **The pieces of a text are those of its words.** -/
theorem scanLiteral_text {ls : List Lexeme} (h : ∀ l ∈ ls, l.Plain) (before : List Char) :
    Piece.scanLiteral before (text ls) = .ok (piecesFrom before ls) := by
  induction ls generalizing before with
  | nil => rfl
  | cons l ls ih =>
    have hplain := h l List.mem_cons_self
    have hrest := ih fun l hl => h l (List.mem_cons_of_mem _ hl)
    rw [text, List.flatMap_cons]
    show Piece.scanLiteral before (l.spelling ++ text ls) = _
    cases hfield : l.field? with
    | some name =>
      obtain rfl := eq_of_field? hfield
      rw [piecesFrom_field hfield, scanLiteral_field hplain, hrest]
      rfl
    | none =>
      rw [piecesFrom_literal hfield, scanLiteral_append fun c => not_brace_of_mem_spelling hplain hfield, hrest]

/-! ## Words and tokens -/

/-- The text does not start with a character that would make an operator longer. -/
def Unlengthened (cs : List Char) : Prop := ∀ c ∈ cs.head?, c ≠ '=' ∧ c ≠ '&' ∧ c ≠ '|'

/-- The text does not start with a digit. -/
def Undigited (cs : List Char) : Prop := ∀ c ∈ cs.head?, c.isDigit = false

theorem unlengthened_nil : Unlengthened [] := fun _ hc => nomatch hc

theorem undigited_nil : Undigited [] := fun _ hc => nomatch hc

/-- A word does not run into the text behind it. -/
def Lexeme.Before : Lexeme → List Char → Prop
  | word (.number _), cs => Undigited cs
  | word (.op _), cs => Unlengthened cs
  | _, _ => True

/-- No word runs into the words behind it. -/
def Separate : List Lexeme → Prop
  | [] => True
  | l :: ls => l.Before (text ls) ∧ Separate ls

/-- The longest operator at the head of a text is the one that is written there. -/
theorem leading?_spelling (operator : Operator) {cs : List Char} (h : Unlengthened cs) :
    Operator.leading? (operator.spelling.toList ++ cs) = some operator := by
  cases cs with
  | nil =>
    cases operator with
    | not => decide
    | binary op => cases op <;> decide
  | cons c cs =>
    have hlonger {d : Char} {ds : List Char} (hne : c ≠ d) : (d :: ds).isPrefixOf (c :: cs) = false := by
      rw [List.isPrefixOf_cons_cons, beq_false_of_ne hne.symm, Bool.false_and]
    obtain ⟨heq, hand, hor⟩ := h c rfl
    cases operator with
    | not => simp [Operator.leading?, Operator.all, Operator.spelling, BinaryOp.spelling, hlonger heq]
    | binary op =>
      cases op <;>
        simp [Operator.leading?, Operator.all, Operator.spelling, BinaryOp.spelling, hlonger heq, hlonger hand,
          hlonger hor]

/-- An operator starts with a character that starts nothing else. -/
theorem spelling_cons (operator : Operator) :
    ∃ c rest, operator.spelling.toList = c :: rest ∧ Text.isBlank c = false ∧ c.isDigit = false ∧ c ≠ '(' ∧ c ≠ ')' := by
  cases operator with
  | not => exact ⟨_, _, rfl, by decide, by decide, by decide, by decide⟩
  | binary op => cases op <;> exact ⟨_, _, rfl, by decide, by decide, by decide, by decide⟩

theorem isBlank_of_isDigit {c : Char} (h : c.isDigit = true) : Text.isBlank c = false := by
  have hrange : 48 ≤ c.toNat ∧ c.toNat ≤ 57 := by
    simpa [Char.isDigit, UInt32.le_iff_toNat_le] using h
  simp [Text.isBlank]
  omega

theorem Undigited.takeWhile {cs : List Char} (h : Undigited cs) : cs.takeWhile Char.isDigit = [] := by
  cases cs with
  | nil => rfl
  | cons c cs => rw [List.takeWhile_cons_of_neg (by rw [h c rfl]; decide)]

theorem Undigited.dropWhile {cs : List Char} (h : Undigited cs) : cs.dropWhile Char.isDigit = cs := by
  cases cs with
  | nil => rfl
  | cons c cs => rw [List.dropWhile_cons_of_neg (by rw [h c rfl]; decide)]

/-- **A word is cut off the head of a text that it does not run into.** -/
theorem scan_spelling {l : Lexeme} (hplain : l.Plain) (hfield : l.field? = none) {cs : List Char}
    (hbefore : l.Before cs) {behind : List Token} (h : Token.scan cs = .ok behind) :
    Token.scan (l.spelling ++ cs) = .ok (tokens [l] ++ behind) := by
  cases l with
  | blank =>
    show Token.scan (' ' :: cs) = .ok behind
    rw [Token.scan, if_pos (by decide), h]
  | word token =>
    cases token with
    | number n =>
      obtain ⟨c, rest, hdisplay, hdigits, hvalue⟩ := Number.Whole.display_cons hplain
      have hdigit := hdigits c List.mem_cons_self
      have hrest : ∀ d ∈ rest, d.isDigit = true := fun d hd => hdigits d (List.mem_cons_of_mem _ hd)
      rw [spelling, hdisplay, List.cons_append, Token.scan, isBlank_of_isDigit hdigit, if_neg (by decide),
        if_pos hdigit, List.takeWhile_append_of_pos hrest, List.dropWhile_append_of_pos hrest,
        Undigited.takeWhile hbefore, Undigited.dropWhile hbefore, List.append_nil, ← hvalue, h]
      rfl
    | field name => cases hfield
    | op operator =>
      obtain ⟨c, rest, hspelling, hblank, hdigit, hopening, hclosing⟩ := spelling_cons operator
      have hleading := leading?_spelling operator hbefore
      rw [hspelling, List.cons_append] at hleading
      rw [spelling, hspelling, List.cons_append, Token.scan, hblank, if_neg (by decide), hdigit, if_neg (by decide),
        if_neg hopening, if_neg hclosing, hleading]
      dsimp only
      rw [← List.cons_append, ← hspelling, List.drop_left, h]
      rfl
    | opening =>
      show Token.scan ('(' :: cs) = _
      rw [Token.scan, if_neg (by decide), if_neg (by decide), if_pos rfl, h]
      rfl
    | closing =>
      show Token.scan (')' :: cs) = _
      rw [Token.scan, if_neg (by decide), if_neg (by decide), if_neg (by decide), if_pos rfl, h]
      rfl

theorem Lexeme.Before.of_append {l : Lexeme} {cs cs' : List Char} (h : l.Before (cs ++ cs')) : l.Before cs := by
  have hhead : ∀ c ∈ cs.head?, c ∈ (cs ++ cs').head? := by
    cases cs with
    | nil => exact fun c hc => nomatch hc
    | cons d cs => exact fun c hc => hc
  cases l with
  | blank => trivial
  | word token =>
    cases token with
    | number n => exact fun c hc => h c (hhead c hc)
    | op operator => exact fun c hc => h c (hhead c hc)
    | _ => trivial

theorem Separate.left {ls ls' : List Lexeme} (h : Separate (ls ++ ls')) : Separate ls := by
  induction ls with
  | nil => trivial
  | cons l ls ih =>
    have hbefore : l.Before (text (ls ++ ls')) := h.1
    rw [text_append] at hbefore
    exact ⟨hbefore.of_append, ih h.2⟩

theorem Separate.right {ls ls' : List Lexeme} (h : Separate (ls ++ ls')) : Separate ls' := by
  induction ls with
  | nil => exact h
  | cons l ls ih => exact ih h.2

theorem scan_nil : Token.scan [] = .ok [] := by
  rw [Token.scan]

/-- Words that do not run into each other are cut apart. -/
theorem scan_text {ls : List Lexeme} (hplain : ∀ l ∈ ls, l.Plain) (hfield : ∀ l ∈ ls, l.field? = none)
    (h : Separate ls) : Token.scan (text ls) = .ok (tokens ls) := by
  induction ls with
  | nil => exact scan_nil
  | cons l ls ih =>
    have hrest := ih (fun l hl => hplain l (List.mem_cons_of_mem _ hl))
      (fun l hl => hfield l (List.mem_cons_of_mem _ hl)) h.2
    have hword := scan_spelling (hplain l List.mem_cons_self) (hfield l List.mem_cons_self) h.1 hrest
    rwa [← tokens_append] at hword

/-- **The tokens of the pieces of a text are the tokens of its words.** The literal before the next field has been
collected from the words `read`. -/
theorem tokensOf_piecesFrom {read ls : List Lexeme} (hplain : ∀ l ∈ read ++ ls, l.Plain)
    (hread : ∀ l ∈ read, l.field? = none) (h : Separate (read ++ ls)) :
    tokensOf (piecesFrom (text read) ls) = .ok (tokens (read ++ ls)) := by
  induction ls generalizing read with
  | nil =>
    rw [List.append_nil] at *
    rw [piecesFrom, tokensOf, scan_text hplain hread h]
    show Except.ok (tokens read ++ []) = _
    rw [List.append_nil]
  | cons l ls ih =>
    cases hfield : l.field? with
    | some name =>
      obtain rfl := eq_of_field? hfield
      have hhere := scan_text (fun l hl => hplain l (List.mem_append_left _ hl)) hread h.left
      have hbehind := @ih [] (fun l hl => hplain l (List.mem_append_right _ (List.mem_cons_of_mem _ hl)))
        (fun _ hl => nomatch hl) h.right.2
      rw [piecesFrom_field hfield, tokensOf, hhere]
      show (tokensOf (.field name :: piecesFrom (text []) ls) >>= fun behind => .ok (tokens read ++ behind)) = _
      rw [tokensOf, hbehind, tokens_append read]
      rfl
    | none =>
      have hread' : ∀ l' ∈ read ++ [l], l'.field? = none := by
        intro l' hl'
        rcases List.mem_append.mp hl' with hl' | hl'
        · exact hread l' hl'
        · rw [List.mem_singleton.mp hl', hfield]
      have htext : text (read ++ [l]) = text read ++ l.spelling := by
        rw [text_append]
        exact congrArg _ (List.append_nil _)
      have hsplit : read ++ l :: ls = read ++ [l] ++ ls := List.append_cons ..
      rw [hsplit] at hplain h ⊢
      rw [piecesFrom_literal hfield, ← htext]
      exact ih hplain hread' h

end Databind.Expression
