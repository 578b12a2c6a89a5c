import Databind.Proofs.Spelling
import Mathlib.Data.List.TakeWhile

/-!
# `Proofs.Printing` — expressions written and compiled

`Tree.text` writes an expression: fields in braces, a blank on both sides of a binary operator, a prefix operator right
before its operand, and parentheses around every operand that is a binary operation. Compiling that text gives the
expression back (`compile_text`).

The text has to pass three judges. The words of the text may not run into each other (`separate_words`). Every literal
between two fields has to be taken for operator text and not for the text of a template (`isLogic_words`). And the
tokens have to nest no deeper than the limit, which the parentheses and prefix operators of an expression do no more than
its height allows (`derives_words`).
-/

namespace Databind.Expression

open Lexeme

/-! ## The text of an expression -/

/-- The operator that is written for a prefix operator. -/
def UnaryOp.operator : UnaryOp → Operator
  | not => .not
  | neg => .binary .sub
  | plus => .binary .add

theorem UnaryOp.spelling_operator (op : UnaryOp) : op.operator.spelling = op.spelling := by
  cases op <;> rfl

theorem UnaryOp.operator_mem (op : UnaryOp) : (op.operator, op) ∈ unaryOperators := by
  cases op <;> decide

namespace Tree

/-- What an operand is written as: a binary operation stands between the given marks. -/
def enclosed {α : Type} (opening closing : α) (operand : Tree) (inner : List α) : List α :=
  match operand with
  | binary _ _ _ => opening :: (inner ++ [closing])
  | _ => inner

/-- **The text of an expression.** -/
def text : Tree → List Char
  | number n => n.display
  | field name => '{' :: (name.toList ++ ['}'])
  | unary op operand => op.spelling.toList ++ operand.enclosed '(' ')' operand.text
  | binary op left right =>
    left.enclosed '(' ')' left.text ++ ' ' :: (op.spelling.toList ++ ' ' :: right.enclosed '(' ')' right.text)

/-- Numbers that are natural numbers below `2 ^ 53`, and names that may stand in braces. -/
def Plain : Tree → Prop
  | number n => n.Whole
  | field name => CleanName name
  | unary _ operand => operand.Plain
  | binary _ left right => left.Plain ∧ right.Plain

/-- The words of an operand, from the words of the expression. -/
def operandWords (operand : Tree) (words : List Lexeme) : List Lexeme :=
  operand.enclosed (.word .opening) (.word .closing) words

/-- The words of the text of an expression. -/
def words : Tree → List Lexeme
  | number n => [.word (.number n)]
  | field name => [.word (.field name)]
  | unary op operand => .word (.op op.operator) :: operand.operandWords operand.words
  | binary op left right =>
    left.operandWords left.words ++
      .blank :: .word (.op (.binary op)) :: .blank :: right.operandWords right.words

theorem text_operandWords (operand : Tree) (ls : List Lexeme) :
    Lexeme.text (operand.operandWords ls) = operand.enclosed '(' ')' (Lexeme.text ls) := by
  cases operand with
  | binary op left right =>
    show '(' :: Lexeme.text (ls ++ [.word .closing]) = _
    rw [text_append]
    rfl
  | _ => rfl

/-- The text of an expression is the text of its words. -/
theorem text_words (tree : Tree) : Lexeme.text tree.words = tree.text := by
  induction tree with
  | number n => exact List.append_nil _
  | field name => exact List.append_nil _
  | unary op operand ih =>
    show op.operator.spelling.toList ++ Lexeme.text (operand.operandWords operand.words) = _
    rw [text_operandWords, ih, op.spelling_operator]
    rfl
  | binary op left right ihleft ihright =>
    rw [words, text_append, text_operandWords, ihleft, text]
    show _ ++ ' ' :: (op.spelling.toList ++ ' ' :: Lexeme.text (right.operandWords right.words)) = _
    rw [text_operandWords, ihright]

theorem mem_operandWords {operand : Tree} {ls : List Lexeme} {l : Lexeme} (h : l ∈ operand.operandWords ls) :
    l = .word .opening ∨ l ∈ ls ∨ l = .word .closing := by
  cases operand with
  | binary op left right =>
    rcases List.mem_cons.mp h with h | h
    · exact .inl h
    · rcases List.mem_append.mp h with h | h
      · exact .inr (.inl h)
      · exact .inr (.inr (List.mem_singleton.mp h))
  | _ => exact .inr (.inl h)

/-- The words of a plain expression are plain. -/
theorem plain_of_mem_words {tree : Tree} (h : tree.Plain) : ∀ l ∈ tree.words, l.Plain := by
  have plain_operand {operand : Tree} (h : ∀ l ∈ operand.words, l.Plain) :
      ∀ l ∈ operand.operandWords operand.words, l.Plain := by
    intro l hl
    rcases mem_operandWords hl with rfl | hl | rfl
    · trivial
    · exact h l hl
    · trivial
  induction tree with
  | number n =>
    intro l hl
    rw [List.mem_singleton.mp hl]
    exact h
  | field name =>
    intro l hl
    rw [List.mem_singleton.mp hl]
    exact h
  | unary op operand ih =>
    intro l hl
    rcases List.mem_cons.mp hl with rfl | hl
    · trivial
    · exact plain_operand (ih h) l hl
  | binary op left right ihleft ihright =>
    intro l hl
    rcases List.mem_append.mp hl with hl | hl
    · exact plain_operand (ihleft h.1) l hl
    · rcases List.mem_cons.mp hl with rfl | hl
      · trivial
      · rcases List.mem_cons.mp hl with rfl | hl
        · trivial
        · rcases List.mem_cons.mp hl with rfl | hl
          · trivial
          · exact plain_operand (ihright h.2) l hl

end Tree

/-! ## The tokens derive from the grammar -/

/-- **The tokens of an expression stand for it**, and nest less deep than it is high; so do those of an operand, which
may stand between any two operators. -/
theorem derives_words (tree : Tree) :
    (∃ nesting, Derives 1 (tokens tree.words) tree nesting ∧ nesting < tree.height) ∧
      ∃ nesting, Derives 9 (tokens (tree.operandWords tree.words)) tree nesting ∧ nesting < tree.height := by
  have of_operand {tree : Tree} {nesting : Nat} (h : Derives 9 (tokens tree.words) tree nesting)
      (hheight : nesting < tree.height) (hsame : tree.operandWords tree.words = tree.words) :
      (∃ nesting, Derives 1 (tokens tree.words) tree nesting ∧ nesting < tree.height) ∧
        ∃ nesting, Derives 9 (tokens (tree.operandWords tree.words)) tree nesting ∧ nesting < tree.height :=
    ⟨⟨nesting, h.loosen (by decide), hheight⟩, ⟨nesting, by rwa [hsame], hheight⟩⟩
  induction tree with
  | number n => exact of_operand (Derives.number.loosen (by decide)) Nat.one_pos rfl
  | field name => exact of_operand (Derives.field.loosen (by decide)) Nat.one_pos rfl
  | unary op operand ih =>
    obtain ⟨nesting, hderives, hheight⟩ := ih.2
    exact of_operand (hderives.unary op.operator_mem) (Nat.succ_lt_succ hheight) rfl
  | binary op left right ihleft ihright =>
    obtain ⟨n, hleft, hn⟩ := ihleft.2
    obtain ⟨k, hright, hk⟩ := ihright.2
    have hderives := Derives.binary (mem_operatorsAt.mpr rfl) (hleft.loosen (Nat.le_succ_of_le op.level_le))
      (hright.loosen (Nat.succ_le_succ op.level_le))
    have hwords : tokens (Tree.binary op left right).words =
        tokens (left.operandWords left.words) ++ .op (.binary op) :: tokens (right.operandWords right.words) :=
      tokens_append ..
    have hheight : max n k + 1 < (Tree.binary op left right).height := by
      rw [Tree.height]
      omega
    have hpos : 1 ≤ op.level := by cases op <;> decide
    rw [← hwords] at hderives
    -- as an operand it is in parentheses, which nest one deeper and are paid for by its own height
    refine ⟨⟨_, hderives.loosen hpos, Nat.lt_of_succ_lt hheight⟩, ⟨_, ?_, hheight⟩⟩
    have hgroup := (hderives.loosen hpos).group.loosen (show 9 ≤ 10 by decide)
    have henclosed : tokens ((Tree.binary op left right).operandWords (Tree.binary op left right).words) =
        .opening :: (tokens (Tree.binary op left right).words ++ [.closing]) :=
      congrArg (Token.opening :: ·) (tokens_append ..)
    rwa [← henclosed] at hgroup

/-! ## The words do not run into each other -/

/-- The text of an expression starts with a character that is no blank and makes no operator longer. -/
theorem Tree.text_cons {tree : Tree} (h : tree.Plain) :
    ∃ c rest, tree.text = c :: rest ∧ Text.isBlank c = false ∧ c ≠ '=' ∧ c ≠ '&' ∧ c ≠ '|' := by
  induction tree with
  | number n =>
    obtain ⟨c, rest, hdisplay, hdigits, -⟩ := Number.Whole.display_cons h
    have hdigit := hdigits c List.mem_cons_self
    refine ⟨c, rest, hdisplay, isBlank_of_isDigit hdigit, ?_, ?_, ?_⟩ <;> (rintro rfl; revert hdigit; decide)
  | field name => exact ⟨_, _, rfl, by decide, by decide, by decide, by decide⟩
  | unary op operand _ => cases op <;> exact ⟨_, _, rfl, by decide, by decide, by decide, by decide⟩
  | binary op left right ihleft _ =>
    obtain ⟨c, rest, htext, hc⟩ := ihleft h.1
    rw [text, htext]
    cases left with
    | binary op' left' right' => exact ⟨_, _, rfl, by decide, by decide, by decide, by decide⟩
    | _ => exact ⟨c, _, rfl, hc⟩

/-- No operator runs into an operand. -/
theorem unlengthened_operandWords {operand : Tree} (h : operand.Plain) (ls : List Lexeme) :
    Unlengthened (Lexeme.text (operand.operandWords operand.words ++ ls)) := by
  rw [text_append, Tree.text_operandWords, Tree.text_words]
  obtain ⟨c, rest, htext, -, hc⟩ := Tree.text_cons h
  rw [htext]
  cases operand with
  | binary op left right =>
    rintro d ⟨⟩
    decide
  | _ =>
    rintro d ⟨⟩
    exact hc

/-- **The words of an expression do not run into each other**, nor into words behind them that do not start with a
digit. -/
theorem separate_words {tree : Tree} (h : tree.Plain) {ls : List Lexeme} (hls : Separate ls)
    (hdigit : Undigited (Lexeme.text ls)) : Separate (tree.words ++ ls) := by
  have separate_operand {operand : Tree}
      (ih : ∀ {ls}, Separate ls → Undigited (Lexeme.text ls) → Separate (operand.words ++ ls)) {ls : List Lexeme}
      (hls : Separate ls) (hdigit : Undigited (Lexeme.text ls)) :
      Separate (operand.operandWords operand.words ++ ls) := by
    cases operand with
    | binary op left right =>
      have hclosing : Undigited (Lexeme.text (.word .closing :: ls)) := by
        rintro c ⟨⟩
        decide
      have hwords := @ih (.word .closing :: ls) ⟨trivial, hls⟩ hclosing
      show Separate (.word .opening :: ((Tree.binary op left right).words ++ [.word .closing] ++ ls))
      rw [List.append_assoc]
      exact ⟨trivial, hwords⟩
    | _ => exact ih hls hdigit
  induction tree generalizing ls with
  | number n => exact ⟨hdigit, hls⟩
  | field name => exact ⟨trivial, hls⟩
  | unary op operand ih =>
    have hbefore := unlengthened_operandWords (show operand.Plain from h) ls
    exact ⟨hbefore, separate_operand (ih h) hls hdigit⟩
  | binary op left right ihleft ihright =>
    have hright := separate_operand (ihright h.2) hls hdigit
    have hblank (ls : List Lexeme) : Unlengthened (Lexeme.text (.blank :: ls)) ∧ Undigited (Lexeme.text (.blank :: ls)) := by
      constructor <;>
      · rintro c ⟨⟩
        decide
    rw [Tree.words, List.append_assoc]
    exact separate_operand (ihleft h.1) ⟨trivial, (hblank _).1, trivial, hright⟩ (hblank _).2

/-! ## The literals are operator text -/

/-- Literal text that is empty or has a character of an operator. -/
def Marked (cs : List Char) : Prop := cs = [] ∨ cs.any isOperatorChar = true

/-- No literal of the words is plain text. -/
def Operative (before : List Char) (ls : List Lexeme) : Prop := ∀ cs, .literal cs ∈ piecesFrom before ls → Marked cs

theorem operative_field {before : List Char} (name : String) {ls : List Lexeme} (h : Marked before)
    (hls : Operative [] ls) : Operative before (.word (.field name) :: ls) := by
  intro cs hcs
  rw [piecesFrom_field rfl] at hcs
  rcases List.mem_cons.mp hcs with hcs | hcs
  · cases hcs
    exact h
  · rcases List.mem_cons.mp hcs with hcs | hcs
    · cases hcs
    · exact hls cs hcs

theorem operative_literal {l : Lexeme} (hl : l.field? = none) {before : List Char} {ls : List Lexeme}
    (h : Operative (before ++ l.spelling) ls) : Operative before (l :: ls) := by
  unfold Operative
  rwa [piecesFrom_literal hl]

/-- The word is written with a character of an operator, and marks the literal that it belongs to. -/
structure Marks (l : Lexeme) : Prop where
  literal : l.field? = none
  mark : l.spelling.any isOperatorChar = true

theorem marks_op (operator : Operator) : Marks (.word (.op operator)) := by
  refine ⟨rfl, ?_⟩
  cases operator with
  | not => decide
  | binary op => cases op <;> decide

theorem marks_opening : Marks (.word .opening) := ⟨rfl, by decide⟩

theorem marks_closing : Marks (.word .closing) := ⟨rfl, by decide⟩

theorem Marks.operative {l : Lexeme} (hl : Marks l) {before : List Char} {ls : List Lexeme}
    (h : ∀ before', before'.any isOperatorChar = true → Operative before' ls) : Operative before (l :: ls) := by
  refine operative_literal hl.literal (h _ ?_)
  rw [List.any_append, hl.mark, Bool.or_true]

/-- No literal of the words is plain text, whatever marked text they go on from. -/
def GoesOn (ls : List Lexeme) : Prop := ∀ before, Marked before → Operative before ls

theorem goesOn_nil : GoesOn [] := by
  intro before hmarked cs hcs
  cases List.mem_singleton.mp hcs
  exact hmarked

/-- An operand that is a binary operation brings its own mark, the opening parenthesis. -/
theorem operative_enclosed {op : BinaryOp} {left right : Tree} {ls : List Lexeme} (hls : GoesOn ls)
    (before : List Char)
    (h : ∀ {ls}, GoesOn ls → ∀ {before}, before.any isOperatorChar = true →
      Operative before ((Tree.binary op left right).words ++ ls)) :
    Operative before ((Tree.binary op left right).operandWords (Tree.binary op left right).words ++ ls) := by
  have hclosing : GoesOn (.word .closing :: ls) := by
    intro behind _
    apply marks_closing.operative
    intro behind hbehind
    exact hls behind (.inr hbehind)
  show Operative before (.word .opening :: ((Tree.binary op left right).words ++ [.word .closing] ++ ls))
  rw [List.append_assoc]
  apply marks_opening.operative
  intro before hbefore
  exact h hclosing hbefore

/-- An operand behind a mark is as the expression that it is. -/
theorem operative_operand {operand : Tree}
    (h : ∀ {ls}, GoesOn ls → ∀ {before}, before.any isOperatorChar = true → Operative before (operand.words ++ ls))
    {ls : List Lexeme} (hls : GoesOn ls) {before : List Char} (hbefore : before.any isOperatorChar = true) :
    Operative before (operand.operandWords operand.words ++ ls) := by
  cases operand with
  | binary op left right => exact operative_enclosed hls before h
  | _ => exact h hls hbefore

/-- **Behind a mark, an expression has marks in all its literals.** -/
theorem operative_words (tree : Tree) {ls : List Lexeme} (hls : GoesOn ls) {before : List Char}
    (h : before.any isOperatorChar = true) : Operative before (tree.words ++ ls) := by
  -- a word without a mark leaves the literal marked that it goes on from
  have goesOn {before : List Char} (h : before.any isOperatorChar = true) (l : Lexeme) :
      (before ++ l.spelling).any isOperatorChar = true := by
    rw [List.any_append, h, Bool.true_or]
  induction tree generalizing ls before with
  | number n =>
    apply operative_literal rfl
    exact hls _ (.inr (goesOn h _))
  | field name => exact operative_field name (.inr h) (hls [] (.inl rfl))
  | unary op operand ih =>
    apply (marks_op _).operative
    intro before h
    exact operative_operand ih hls h
  | binary op left right ihleft ihright =>
    rw [Tree.words, List.append_assoc]
    refine operative_operand ihleft ?_ h
    intro behind _
    apply operative_literal rfl
    apply (marks_op (.binary op)).operative
    intro before h
    apply operative_literal rfl
    exact operative_operand ihright hls (goesOn h _)

/-- An operand with a binary operator behind it has marks in all its literals, for the operator marks the one that is
open. -/
theorem operative_start (operand : Tree) {ls : List Lexeme} (hls : ∀ behind, Operative behind ls) :
    Operative [] (operand.operandWords operand.words ++ ls) := by
  have hgoesOn : GoesOn ls := fun behind _ => hls behind
  cases operand with
  | number n => exact operative_literal rfl (hls _)
  | field name => exact operative_field name (.inl rfl) (hls [])
  | unary op operand =>
    apply (marks_op _).operative
    intro before h
    exact operative_operand (operative_words operand) hgoesOn h
  | binary op left right => exact operative_enclosed hgoesOn [] (operative_words _)

/-- **All literals of an expression have marks**, unless it is a number. -/
theorem operative_of_ne_number {tree : Tree} (h : ∀ n, tree ≠ .number n) : Operative [] tree.words := by
  cases tree with
  | number n => exact absurd rfl (h n)
  | field name => exact operative_field name (.inl rfl) (goesOn_nil [] (.inl rfl))
  | unary op operand =>
    rw [← List.append_nil (Tree.words _)]
    apply (marks_op _).operative
    intro before h
    exact operative_operand (operative_words operand) goesOn_nil h
  | binary op left right =>
    apply operative_start left
    intro behind
    apply operative_literal rfl
    apply (marks_op (.binary op)).operative
    intro before h
    apply operative_literal rfl
    rw [← List.append_nil (Tree.operandWords _ _)]
    refine operative_operand (operative_words right) goesOn_nil ?_
    rw [List.any_append, h, Bool.true_or]

/-- The literals of words are written in operator text. -/
theorem char_of_mem_piecesFrom {before : List Char} {ls : List Lexeme} (hplain : ∀ l ∈ ls, l.Plain)
    (hbefore : ∀ c ∈ before, (isOperatorChar c || c.isDigit || c == ' ') = true) {cs : List Char}
    (h : .literal cs ∈ piecesFrom before ls) : ∀ c ∈ cs, (isOperatorChar c || c.isDigit || c == ' ') = true := by
  induction ls generalizing before with
  | nil =>
    cases List.mem_singleton.mp h
    exact hbefore
  | cons l ls ih =>
    have hrest : ∀ l ∈ ls, l.Plain := fun l hl => hplain l (List.mem_cons_of_mem _ hl)
    cases hfield : l.field? with
    | some name =>
      rw [piecesFrom_field hfield] at h
      rcases List.mem_cons.mp h with h | h
      · cases h
        exact hbefore
      · rcases List.mem_cons.mp h with h | h
        · cases h
        · exact ih hrest (fun _ hc => (List.not_mem_nil hc).elim) h
    | none =>
      rw [piecesFrom_literal hfield] at h
      refine ih hrest ?_ h
      intro c hc
      rcases List.mem_append.mp hc with hc | hc
      · exact hbefore c hc
      · exact char_of_mem_spelling (hplain l List.mem_cons_self) hfield hc

/-- The first literal goes on from the text before it. -/
theorem exists_piecesFrom (before : List Char) (ls : List Lexeme) :
    ∃ cs rest, piecesFrom before ls = .literal (before ++ cs) :: rest := by
  induction ls generalizing before with
  | nil => exact ⟨[], [], by rw [List.append_nil]; rfl⟩
  | cons l ls ih =>
    cases hfield : l.field? with
    | some name => exact ⟨[], _, by rw [List.append_nil, piecesFrom_field hfield]⟩
    | none =>
      obtain ⟨cs, rest, hpieces⟩ := ih (before ++ l.spelling)
      exact ⟨l.spelling ++ cs, rest, by rw [piecesFrom_literal hfield, hpieces, List.append_assoc]⟩

/-- Where a word marks a literal, there is a literal that is not empty. -/
theorem exists_literal {l : Lexeme} (hl : Marks l) {ls : List Lexeme} (hmem : l ∈ ls) (before : List Char) :
    ∃ cs, .literal cs ∈ piecesFrom before ls ∧ cs ≠ [] := by
  induction ls generalizing before with
  | nil => cases hmem
  | cons l' ls ih =>
    rcases List.mem_cons.mp hmem with rfl | hmem
    · obtain ⟨cs, rest, hpieces⟩ := exists_piecesFrom (before ++ l.spelling) ls
      refine ⟨before ++ l.spelling ++ cs, ?_, ?_⟩
      · rw [piecesFrom_literal hl.literal, hpieces]
        exact List.mem_cons_self
      · intro hempty
        have hmark := hl.mark
        rw [(List.append_eq_nil_iff.mp (List.append_eq_nil_iff.mp hempty).1).2] at hmark
        cases hmark
    · cases hfield : l'.field? with
      | some name =>
        obtain ⟨cs, hcs, hne⟩ := ih hmem []
        refine ⟨cs, ?_, hne⟩
        rw [piecesFrom_field hfield]
        exact List.mem_cons_of_mem _ (List.mem_cons_of_mem _ hcs)
      | none =>
        rw [piecesFrom_literal hfield]
        exact ih hmem _

theorem mem_literals {pieces : List Piece} {cs : List Char} :
    cs ∈ Piece.literals pieces ↔ .literal cs ∈ pieces ∧ cs ≠ [] := by
  constructor
  · intro h
    obtain ⟨piece, hpiece, hsome⟩ := List.mem_filterMap.mp h
    cases piece with
    | literal text =>
      dsimp only at hsome
      split at hsome
      · cases hsome
      · next hne =>
        cases hsome
        exact ⟨hpiece, hne⟩
    | field name => cases hsome
  · rintro ⟨hmem, hne⟩
    refine List.mem_filterMap.mpr ⟨_, hmem, ?_⟩
    dsimp only
    rw [if_neg hne]

/-- **The text of an expression is operator text**, unless the expression is a number or a field. -/
theorem isLogic_words {tree : Tree} (hplain : tree.Plain) (hnumber : ∀ n, tree ≠ .number n)
    (hfield : ∀ name, tree ≠ .field name) : isLogic (piecesFrom [] tree.words) = true := by
  have hmark : ∃ l ∈ tree.words, Marks l := by
    cases tree with
    | number n => exact absurd rfl (hnumber n)
    | field name => exact absurd rfl (hfield name)
    | unary op operand => exact ⟨_, List.mem_cons_self, marks_op _⟩
    | binary op left right => exact ⟨.word (.op (.binary op)), by simp [Tree.words], marks_op _⟩
  obtain ⟨l, hl, hmark⟩ := hmark
  obtain ⟨text, htext, hne⟩ := exists_literal hmark hl []
  have hmem := mem_literals.mpr ⟨htext, hne⟩
  unfold isLogic
  rw [Bool.and_eq_true]
  constructor
  · rw [Bool.not_eq_true', List.isEmpty_eq_false_iff]
    exact List.ne_nil_of_mem hmem
  · apply List.all_eq_true.mpr
    intro cs hcs
    obtain ⟨hcs, hne⟩ := mem_literals.mp hcs
    unfold isOperatorText
    rw [Bool.and_eq_true]
    constructor
    · apply List.all_eq_true.mpr
      exact char_of_mem_piecesFrom (Tree.plain_of_mem_words hplain) (fun _ hc => (List.not_mem_nil hc).elim) hcs
    · exact (operative_of_ne_number hnumber cs hcs).resolve_left hne

/-! ## The text compiles to the expression -/

/-- The tokens of the text of an expression stand for it. -/
theorem ofTokens?_words {tree : Tree} (hheight : tree.height ≤ maxNesting) :
    Tree.ofTokens? (tokens tree.words) = .ok tree := by
  obtain ⟨nesting, hderives, hlt⟩ := (derives_words tree).1
  rw [ofTokens?_of_derives hderives, if_pos ⟨Nat.le_trans (Nat.le_of_lt hlt) hheight, hheight⟩]

/-- Only a field and a negated field are written as a lone token: the tokens of that token stand for no other
expression. -/
theorem soleField?_words {tree : Tree} (hheight : tree.height ≤ maxNesting) {pieces : List Piece}
    (htokens : tokensOf pieces = .ok (tokens tree.words)) (hfield : ∀ name, tree ≠ .field name)
    (hnot : ∀ name, tree ≠ .unary .not (.field name)) : soleField? pieces = none := by
  -- one list of tokens stands for one tree
  have hparse {tokens' : List Token} {tree' : Tree} {nesting : Nat} (hderives : Derives 1 tokens' tree' nesting)
      (hlimits : nesting ≤ maxNesting ∧ tree'.height ≤ maxNesting) (h : tokensOf pieces = .ok tokens') :
      tree = tree' := by
    have htree := ofTokens?_of_derives hderives
    rw [if_pos hlimits, Except.ok.inj (h.symm.trans htokens), ofTokens?_words hheight] at htree
    exact Except.ok.inj htree
  cases hsole : soleField? pieces with
  | none => rfl
  | some found =>
    obtain ⟨name, negate⟩ := found
    obtain ⟨before, rfl | rfl, rfl⟩ := soleField?_eq_some hsole
    · have hlone : tokensOf [.literal [], .field name, .literal []] = .ok [.field name] := by
        rw [tokensOf, tokensOf, tokensOf, scan_nil]
        rfl
      exact absurd (hparse (Derives.field.loosen (by decide)) ⟨Nat.zero_le _, Reads.height_leaf⟩ hlone) (hfield name)
    · have hscan : Token.scan ['!'] = .ok [.op .not] :=
        @scan_spelling (.word (.op .not)) trivial rfl [] unlengthened_nil [] scan_nil
      have hnegated : tokensOf [.literal ['!'], .field name, .literal []] = .ok [.op .not, .field name] := by
        rw [tokensOf, tokensOf, tokensOf, scan_nil, hscan]
        rfl
      have hderives : Derives 9 [.op .not, .field name] (.unary .not (.field name)) 1 :=
        .unary (by decide) (Derives.field.loosen (by decide))
      exact absurd (hparse (hderives.loosen (by decide)) ⟨by decide, show 2 ≤ maxNesting by decide⟩ hnegated) (hnot name)

theorem isBlankText_of_mem {cs : List Char} {c : Char} (hmem : c ∈ cs) (h : Text.isBlank c = false) :
    Text.isBlankText (String.ofList cs) = false := by
  -- trimming stops at the character from either end
  have hstart : c ∈ Text.trimStart cs := by
    rw [← cs.takeWhile_append_dropWhile (p := Text.isBlank)] at hmem
    apply (List.mem_append.mp hmem).resolve_left
    intro hfront
    rw [List.mem_takeWhile_imp hfront] at h
    cases h
  have htrimmed : Text.trimChars cs ≠ [] := by
    intro hempty
    have hall := List.dropWhile_eq_nil_iff.mp (List.reverse_eq_nil_iff.mp hempty)
    rw [hall c (List.mem_reverse.mpr hstart)] at h
    cases h
  rw [Text.isBlankText, Text.trim, String.toList_ofList]
  simpa using htrimmed

/-- **An expression is compiled from its text.** The triggers are the names of its fields, each where it first appears.
A lone number, a lone field and a negated field are not read as operator expressions. -/
theorem compile_text {tree : Tree} (hheight : tree.height ≤ maxNesting) (hplain : tree.Plain)
    (hnumber : ∀ n, tree ≠ .number n) (hfield : ∀ name, tree ≠ .field name)
    (hnot : ∀ name, tree ≠ .unary .not (.field name)) :
    compile (String.ofList tree.text) = .ok ⟨.expression tree, false, tree.fieldNames.eraseDups⟩ := by
  have hwords := Tree.plain_of_mem_words hplain
  have hseparate : Separate tree.words := by
    have h := @separate_words tree hplain [] trivial undigited_nil
    rwa [List.append_nil] at h
  have hscan : Piece.scan tree.text = .ok (piecesFrom [] tree.words) := by
    rw [← Tree.text_words]
    exact scanLiteral_text hwords []
  have htokens : tokensOf (piecesFrom [] tree.words) = .ok (tokens tree.words) :=
    @tokensOf_piecesFrom [] tree.words hwords (fun _ hl => nomatch hl) hseparate
  have hparse := ofTokens?_words hheight
  have haccessor : accessorOf (piecesFrom [] tree.words) = .ok (.expression tree) := by
    unfold accessorOf
    rw [if_pos (isLogic_words hplain hnumber hfield), htokens]
    show ((Tree.ofTokens? (tokens tree.words)).mapError _ >>= _) = _
    rw [hparse]
    rfl
  have htriggers : Piece.triggers (piecesFrom [] tree.words) = tree.fieldNames.eraseDups := by
    obtain ⟨nesting, hderives, -⟩ := derives_of_ofTokens? hparse
    rw [triggers_eq_eraseDups, ← fieldNames_tokensOf htokens, hderives.fieldNames]
  obtain ⟨c, rest, htext, hblank, -⟩ := Tree.text_cons hplain
  have hnonblank : Text.isBlankText (String.ofList tree.text) = false :=
    isBlankText_of_mem (htext ▸ List.mem_cons_self) hblank
  unfold compile
  rw [hnonblank, if_neg (by decide), String.toList_ofList, hscan]
  show (compilePieces (piecesFrom [] tree.words)).mapError _ = _
  rw [compilePieces, soleField?_words hheight htokens hfield hnot]
  show (accessorOf _ >>= _).mapError _ = _
  rw [haccessor, ← htriggers]
  rfl

/-- Negations in front of each other and of parentheses, a sign behind a binary operator, a name with a blank. -/
theorem compile_text_signs :
    compile "(1 - -(!!{a} && ({b c} != -2))) <= {a}" =
      .ok ⟨.expression (.binary .le
        (.binary .sub (.number (.ofNat 1))
          (.unary .neg (.binary .and (.unary .not (.unary .not (.field "a")))
            (.binary .looseNe (.field "b c") (.unary .neg (.number (.ofNat 2)))))))
        (.field "a")), false, ["a", "b c"]⟩ := by
  have hone : (1 : Nat) < 2 ^ (53 : Nat) := by decide
  have htwo : (2 : Nat) < 2 ^ (53 : Nat) := by decide
  have ha : CleanName "a" := ⟨by decide, by decide, by decide, by decide⟩
  have hbc : CleanName "b c" := ⟨by decide, by decide, by decide, by decide⟩
  have hcompile := @compile_text (.binary .le
    (.binary .sub (.number (.ofNat 1))
      (.unary .neg (.binary .and (.unary .not (.unary .not (.field "a")))
        (.binary .looseNe (.field "b c") (.unary .neg (.number (.ofNat 2)))))))
    (.field "a")) (by decide) ⟨⟨⟨1, hone, rfl⟩, ⟨ha, hbc, 2, htwo, rfl⟩⟩, ha⟩
    (fun _ => Tree.noConfusion) (fun _ => Tree.noConfusion) (fun _ => Tree.noConfusion)
  simp only [Tree.text, Number.display_ofNat hone, Number.display_ofNat htwo] at hcompile
  exact hcompile

end Databind.Expression
