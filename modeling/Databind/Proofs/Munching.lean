import Databind.Proofs.Braces
import Databind.Proofs.Literal
import Databind.Proofs.Printing

/-!
# `Proofs.Munching` — the longest operator first

The lexer appends the words of operator text to the tokens it is given. At each place it takes a whole run of digits, a
parenthesis, or the first operator of its table that the rest of the text starts with. Many of these spellings are
prefixes of others, and the table has the longer ones first, so it takes the longest (`Operator.leading?_eq_some_iff`).

What the lexer does at its places is a relation between the text, the words taken and what is left (`Munch`). Operator
text is cut up to its end, or up to a `=` that no operator starts with, and these two exclude each other, as the lexer
goes on from wherever the relation leads (`Munch.lex`). So only an assignment is at fault in operator text: a run of
digits is always a number, and no other character is met.

## Main definitions

* `Operator.Longest` — the longest operator at the head of a text.
* `Word` — a word of operator text, as it is written.
* `lex`, `lexPieces` — the lexer, with the tokens so far.
* `Munch` — the words taken from the head of a text, and what is left.
-/

namespace Databind.Expression

-- Powers are the powers of natural numbers themselves, whatever algebra is in scope.
attribute [local instance (2000)] instPowNat

/-! ## The longest operator -/

/-- **The longest operator that a text starts with.** -/
structure Operator.Longest (operator : Operator) (cs : List Char) : Prop where
  head : operator.spelling.toList <+: cs
  longest : ∀ other : Operator, other.spelling.toList <+: cs →
    other.spelling.toList.length ≤ operator.spelling.toList.length

namespace Operator

variable {operator operator' : Operator} {cs : List Char}

theorem mem_all (operator : Operator) : operator ∈ all := by
  cases operator with
  | not => decide
  | binary op => cases op <;> decide

/-- **The table has no spelling in front of a longer one.** -/
theorem pairwise_all : all.Pairwise fun a b => b.spelling.toList.length ≤ a.spelling.toList.length := by decide

/-- No two operators are written alike. -/
theorem spelling_injective (h : operator.spelling.toList = operator'.spelling.toList) : operator = operator' := by
  have hall : ∀ a ∈ all, ∀ b ∈ all, a.spelling.toList = b.spelling.toList → a = b := by decide
  exact hall _ (mem_all _) _ (mem_all _) h

theorem Longest.unique (h : operator.Longest cs) (h' : operator'.Longest cs) : operator = operator' := by
  have hlength := Nat.le_antisymm (h'.longest _ h.head) (h.longest _ h'.head)
  exact spelling_injective ((List.prefix_of_prefix_length_le h.head h'.head hlength.le).eq_of_length hlength)

theorem leading?_eq_none_iff : leading? cs = none ↔ ∀ operator : Operator, ¬ operator.spelling.toList <+: cs := by
  rw [leading?, List.find?_eq_none]
  constructor
  · intro h operator hprefix
    exact h operator (mem_all operator) (List.isPrefixOf_iff_prefix.mpr hprefix)
  · intro h operator _ hprefix
    exact h operator (List.isPrefixOf_iff_prefix.mp hprefix)

theorem leading?_longest (h : leading? cs = some operator) : operator.Longest cs := by
  obtain ⟨hhead, before, behind, hsplit, hbefore⟩ := List.find?_eq_some_iff_append.mp h
  refine ⟨List.isPrefixOf_iff_prefix.mp hhead, fun other hother => ?_⟩
  have hmem : other ∈ before ++ operator :: behind := hsplit ▸ mem_all other
  -- the text starts with none of the operators in front, and none behind is longer
  rcases List.mem_append.mp hmem with hmem | hmem
  · have hnot := hbefore other hmem
    rw [List.isPrefixOf_iff_prefix.mpr hother] at hnot
    cases hnot
  · have hpairwise := pairwise_all
    rw [hsplit] at hpairwise
    rcases List.mem_cons.mp hmem with rfl | hmem
    · exact Nat.le_refl _
    · exact (List.pairwise_cons.mp (List.pairwise_append.mp hpairwise).2.1).1 other hmem

/-- **The first operator of the table that a text starts with is the longest one.** -/
theorem leading?_eq_some_iff : leading? cs = some operator ↔ operator.Longest cs := by
  refine ⟨leading?_longest, fun h => ?_⟩
  cases hleading : leading? cs with
  | none => exact absurd h.head (leading?_eq_none_iff.mp hleading operator)
  | some operator' => rw [h.unique (leading?_longest hleading)]

/-- What holds of each operator character in the list of them. -/
theorem of_isOperatorChar {c : Char} {p : Char → Bool} (h : isOperatorChar c = true)
    (hall : ['=', '>', '<', '!', '&', '|', '+', '-', '*', '/', '%', '(', ')'].all p = true) : p c = true :=
  List.all_eq_true.mp hall c (of_decide_eq_true h)

/-- Every operator character but the parentheses and `=` is an operator by itself. -/
theorem exists_single {c : Char} (h : isOperatorChar c = true) (hopening : c ≠ '(') (hclosing : c ≠ ')')
    (hequal : c ≠ '=') : ∃ operator : Operator, operator.spelling.toList = [c] := by
  have hc : (c = '(' || c = ')' || c = '=' || all.any fun operator => operator.spelling.toList = [c]) = true :=
    of_isOperatorChar (p := fun c => c = '(' || c = ')' || c = '=' ||
      all.any fun operator => operator.spelling.toList = [c]) h (by decide)
  rw [decide_eq_false hopening, decide_eq_false hclosing, decide_eq_false hequal] at hc
  obtain ⟨operator, -, hspelling⟩ := List.any_eq_true.mp hc
  exact ⟨operator, of_decide_eq_true hspelling⟩

end Operator

/-! ## Runs of digits -/

/-- **A run of digits is a number**, and its value is rounded once. -/
theorem ofLiteral?_of_digital {digits : List Char} (hne : digits ≠ []) (h : Decimal.Digital digits) :
    Number.ofLiteral? digits = some (.ofNat (Decimal.digitsValue digits)) := by
  have hwording : Decimal.Wording ⟨false, Decimal.digitsValue digits, 0⟩ digits := by
    have hliteral := Decimal.Wording.literal .absent (.whole hne h) .absent
    rw [List.nil_append, List.append_nil] at hliteral
    exact hliteral
  rw [Number.ofLiteral?_of_wording hwording, Decimal.toNumber_whole]
  rfl

/-! ## The lexer -/

/-- Why operator text is not cut into tokens. -/
inductive LexFault where
  | fault (fault : Fault)
  /-- A run of digits that is no number. -/
  | badNumber (digits : List Char)
deriving DecidableEq

/-- The number that a run of digits is. -/
def readNumber (digits : List Char) : Except LexFault Number :=
  match Number.ofLiteral? digits with
  | none => .error (.badNumber digits)
  | some n => .ok n

theorem readNumber_of_digital {digits : List Char} (hne : digits ≠ []) (h : Decimal.Digital digits) :
    readNumber digits = .ok (.ofNat (Decimal.digitsValue digits)) := by
  rw [readNumber, ofLiteral?_of_digital hne h]

/-- **The lexer**: the tokens so far, and behind them those of a text. -/
def lex (out : List Token) (cs : List Char) : Except LexFault (List Token) :=
  match cs with
  | [] => .ok out
  | c :: rest =>
    if Text.isBlank c then lex out rest
    else if c.isDigit then
      match readNumber (c :: rest.takeWhile Char.isDigit) with
      | .error fault => .error fault
      | .ok n => lex (out ++ [.number n]) (rest.dropWhile Char.isDigit)
    else if c = '(' then lex (out ++ [.opening]) rest
    else if c = ')' then lex (out ++ [.closing]) rest
    else
      match Operator.leading? (c :: rest) with
      | some operator => lex (out ++ [.op operator]) ((c :: rest).drop operator.spelling.toList.length)
      | none => .error (.fault (if c = '=' then .assignment else .character c))
termination_by cs.length
decreasing_by
  all_goals simp only [List.length_cons, List.length_drop]
  · omega
  · have := (List.dropWhile_sublist (l := rest) Char.isDigit).length_le
    omega
  · omega
  · omega
  · have := operator.spelling_length_pos
    omega

theorem lex_nil (out : List Token) : lex out [] = .ok out := by
  rw [lex.eq_def]

theorem lex_cons (out : List Token) (c : Char) (rest : List Char) :
    lex out (c :: rest) =
      if Text.isBlank c then lex out rest
      else if c.isDigit then
        match readNumber (c :: rest.takeWhile Char.isDigit) with
        | .error fault => .error fault
        | .ok n => lex (out ++ [.number n]) (rest.dropWhile Char.isDigit)
      else if c = '(' then lex (out ++ [.opening]) rest
      else if c = ')' then lex (out ++ [.closing]) rest
      else
        match Operator.leading? (c :: rest) with
        | some operator => lex (out ++ [.op operator]) ((c :: rest).drop operator.spelling.toList.length)
        | none => .error (.fault (if c = '=' then .assignment else .character c)) := by
  rw [lex.eq_def]

/-- The tokens so far, and behind them those of pieces whose literals are operator text. -/
def lexPieces (out : List Token) : List Piece → Except LexFault (List Token)
  | [] => .ok out
  | .literal text :: rest =>
    match lex out text with
    | .error fault => .error fault
    | .ok out => lexPieces out rest
  | .field name :: rest => lexPieces (out ++ [.field name]) rest

/-- Tokens behind others. -/
def behind (out : List Token) (result : Except Fault (List Token)) : Except LexFault (List Token) :=
  (result.map (out ++ ·)).mapError .fault

theorem behind_map (out : List Token) (token : Token) (result : Except Fault (List Token)) :
    behind out (result.map (token :: ·)) = behind (out ++ [token]) result := by
  cases result with
  | error fault => rfl
  | ok tokens => exact congrArg Except.ok (List.append_cons ..)

/-- **The tokens so far stay as they are**, and no run of digits is at fault. -/
theorem lex_eq (out : List Token) (cs : List Char) : lex out cs = behind out (Token.scan cs) := by
  fun_induction Token.scan cs generalizing out with
  | case1 =>
    rw [lex_nil]
    exact congrArg Except.ok (List.append_nil _).symm
  | case2 c rest hblank ih => rw [lex_cons, if_pos hblank, ih]
  | case3 c rest hblank hdigit ih =>
    have hdigits : Decimal.Digital (c :: rest.takeWhile Char.isDigit) :=
      List.forall_mem_cons.mpr ⟨hdigit, (Decimal.scanDigits_eq rest).1⟩
    rw [lex_cons, if_neg hblank, if_pos hdigit, readNumber_of_digital (List.cons_ne_nil _ _) hdigits]
    dsimp only
    rw [ih, behind_map]
  | case4 rest hblank hdigit ih => rw [lex_cons, if_neg hblank, if_neg hdigit, if_pos rfl, ih, behind_map]
  | case5 rest hblank hdigit hopening ih =>
    rw [lex_cons, if_neg hblank, if_neg hdigit, if_neg hopening, if_pos rfl, ih, behind_map]
  | case6 c rest hblank hdigit hopening hclosing operator hleading ih =>
    rw [lex_cons, if_neg hblank, if_neg hdigit, if_neg hopening, if_neg hclosing, hleading]
    dsimp only
    rw [ih, behind_map]
  | case7 c rest hblank hdigit hopening hclosing hleading =>
    rw [lex_cons, if_neg hblank, if_neg hdigit, if_neg hopening, if_neg hclosing, hleading]
    rfl

/-- The pieces of an expression are cut as their literals are, one behind the other. -/
theorem lexPieces_eq (out : List Token) (pieces : List Piece) :
    lexPieces out pieces = behind out (tokensOf pieces) := by
  induction pieces generalizing out with
  | nil => exact congrArg Except.ok (List.append_nil _).symm
  | cons piece pieces ih =>
    cases piece with
    | literal text =>
      rw [lexPieces, lex_eq, tokensOf]
      cases Token.scan text with
      | error fault => rfl
      | ok here =>
        show lexPieces (out ++ here) pieces = _
        rw [ih]
        cases tokensOf pieces with
        | error fault => rfl
        | ok tokens => exact congrArg Except.ok (List.append_assoc ..)
    | field name =>
      rw [lexPieces, ih, tokensOf, ← behind_map]
      cases tokensOf pieces <;> rfl

/-! ## What the lexer takes -/

/-- A word of operator text, as it is written. -/
inductive Word where
  | number (digits : List Char)
  | op (operator : Operator)
  | opening
  | closing
deriving DecidableEq

namespace Word

/-- How the word is written. -/
def text : Word → List Char
  | number digits => digits
  | op operator => operator.spelling.toList
  | opening => ['(']
  | closing => [')']

/-- The token of the word. -/
def token : Word → Token
  | number digits => .number (.ofNat (Decimal.digitsValue digits))
  | op operator => .op operator
  | opening => .opening
  | closing => .closing

end Word

/-- **The words taken from the head of a text, and what is left**: blanks are passed, a number is a run of digits that
does not go on, and an operator is the longest one there is. -/
inductive Munch : List Char → List Word → List Char → Prop
  | stop (cs : List Char) : Munch cs [] cs
  | space {cs rest : List Char} {words : List Word} (h : Munch cs words rest) : Munch (' ' :: cs) words rest
  | number {digits cs rest : List Char} {words : List Word} (hne : digits ≠ []) (hdigits : Decimal.Digital digits)
    (hmaximal : Undigited cs) (h : Munch cs words rest) : Munch (digits ++ cs) (.number digits :: words) rest
  | opening {cs rest : List Char} {words : List Word} (h : Munch cs words rest) :
    Munch ('(' :: cs) (.opening :: words) rest
  | closing {cs rest : List Char} {words : List Word} (h : Munch cs words rest) :
    Munch (')' :: cs) (.closing :: words) rest
  | op {operator : Operator} {cs rest : List Char} {words : List Word}
    (hlongest : operator.Longest (operator.spelling.toList ++ cs)) (h : Munch cs words rest) :
    Munch (operator.spelling.toList ++ cs) (.op operator :: words) rest

/-- The text starts with a `=` that no operator starts with. -/
def Assigns (cs : List Char) : Prop :=
  (∃ rest, cs = '=' :: rest) ∧ ∀ operator : Operator, ¬ operator.spelling.toList <+: cs

/-- Nothing but operator characters, digits and spaces. -/
def Operatory (cs : List Char) : Prop := ∀ c ∈ cs, isOperatorChar c = true ∨ c.isDigit = true ∨ c = ' '

instance (cs : List Char) : Decidable (Operatory cs) :=
  List.decidableBAll (fun c => isOperatorChar c = true ∨ c.isDigit = true ∨ c = ' ') cs

variable {cs rest : List Char} {words : List Word}

/-- A digit is no blank, and a run of digits that does not go on is taken whole. -/
theorem lex_number {digits : List Char} (hne : digits ≠ []) (hdigits : Decimal.Digital digits) (h : Undigited cs)
    (out : List Token) : lex out (digits ++ cs) = lex (out ++ [(Word.number digits).token]) cs := by
  obtain ⟨c, digits, rfl⟩ := List.exists_cons_of_ne_nil hne
  obtain ⟨hc, hrest⟩ := List.forall_mem_cons.mp hdigits
  rw [List.cons_append, lex_cons, isBlank_of_isDigit hc, if_neg Bool.false_ne_true, if_pos hc,
    List.takeWhile_append_of_pos hrest, List.dropWhile_append_of_pos hrest, h.takeWhile, h.dropWhile, List.append_nil,
    readNumber_of_digital hne hdigits]
  rfl

/-- The longest operator is taken whole. -/
theorem lex_operator {operator : Operator} (h : operator.Longest (operator.spelling.toList ++ cs)) (out : List Token) :
    lex out (operator.spelling.toList ++ cs) = lex (out ++ [.op operator]) cs := by
  obtain ⟨c, rest, hspelling, hblank, hdigit, hopening, hclosing⟩ := spelling_cons operator
  have hleading := Operator.leading?_eq_some_iff.mpr h
  rw [hspelling, List.cons_append] at hleading
  rw [hspelling, List.cons_append, lex_cons, hblank, if_neg Bool.false_ne_true, hdigit, if_neg Bool.false_ne_true,
    if_neg hopening, if_neg hclosing, hleading]
  dsimp only
  rw [← List.cons_append, ← hspelling, List.drop_left]

/-- A `=` that no operator starts with is an assignment. -/
theorem Assigns.lex (h : Assigns cs) (out : List Token) : lex out cs = .error (.fault .assignment) := by
  obtain ⟨⟨rest, rfl⟩, hnone⟩ := h
  rw [lex_cons, if_neg (by decide), if_neg (by decide), if_neg (by decide), if_neg (by decide),
    Operator.leading?_eq_none_iff.mpr hnone]
  rfl

theorem filter_of_digital {digits : List Char} (h : Decimal.Digital digits) : digits.filter (· ≠ ' ') = digits := by
  rw [List.filter_eq_self]
  intro c hc
  refine decide_eq_true fun hspace => ?_
  have hdigit := h c hc
  rw [hspace] at hdigit
  revert hdigit
  decide

theorem filter_spelling (operator : Operator) :
    operator.spelling.toList.filter (· ≠ ' ') = operator.spelling.toList := by
  cases operator with
  | not => decide
  | binary op => cases op <;> decide

namespace Munch

/-- **The lexer goes on from wherever the words lead.** -/
theorem lex (h : Munch cs words rest) (out : List Token) :
    Expression.lex out cs = Expression.lex (out ++ words.map Word.token) rest := by
  induction h generalizing out with
  | stop cs => rw [List.map_nil, List.append_nil]
  | space h ih => rw [lex_cons, if_pos (by decide), ih]
  | number hne hdigits hmaximal h ih =>
    rw [lex_number hne hdigits hmaximal, ih, List.append_assoc]
    rfl
  | opening h ih =>
    rw [lex_cons, if_neg (by decide), if_neg (by decide), if_pos rfl, ih, List.append_assoc]
    rfl
  | closing h ih =>
    rw [lex_cons, if_neg (by decide), if_neg (by decide), if_neg (by decide), if_pos rfl, ih, List.append_assoc]
    rfl
  | op hlongest h ih =>
    rw [lex_operator hlongest, ih, List.append_assoc]
    rfl

/-- **The words are the text without its spaces.** -/
theorem text (h : Munch cs words rest) :
    words.flatMap Word.text ++ rest.filter (· ≠ ' ') = cs.filter (· ≠ ' ') := by
  induction h with
  | stop cs => rfl
  | space h ih => exact ih
  | number hne hdigits hmaximal h ih =>
    rw [List.flatMap_cons, List.append_assoc, ih, List.filter_append, filter_of_digital hdigits]
    rfl
  | opening h ih => exact congrArg ('(' :: ·) ih
  | closing h ih => exact congrArg (')' :: ·) ih
  | @op operator cs rest words hlongest h ih =>
    rw [List.flatMap_cons, List.append_assoc, ih, List.filter_append, filter_spelling operator]
    rfl

end Munch

/-- The only blank in operator text is the space. -/
theorem eq_space_of_isBlank {c : Char} (h : isOperatorChar c = true ∨ c.isDigit = true ∨ c = ' ')
    (hblank : Text.isBlank c = true) : c = ' ' := by
  rcases h with hchar | hdigit | hspace
  · have hc : (!Text.isBlank c) = true := Operator.of_isOperatorChar (p := (!Text.isBlank ·)) hchar (by decide)
    rw [hblank] at hc
    cases hc
  · rw [isBlank_of_isDigit hdigit] at hblank
    cases hblank
  · exact hspace

/-- What is left behind a run of digits does not go on with a digit. -/
theorem undigited_dropWhile (cs : List Char) : Undigited (cs.dropWhile Char.isDigit) := by
  intro c hc
  have hhead := List.head?_dropWhile_not Char.isDigit cs
  rw [Option.mem_def.mp hc] at hhead
  exact hhead

/-- **Operator text is cut up to its end, or up to an assignment.** -/
theorem Operatory.munch (h : Operatory cs) : ∃ words rest, Munch cs words rest ∧ (rest = [] ∨ Assigns rest) := by
  -- on the steps of the scanner: each of them takes one word, or a space
  fun_induction Token.scan cs with
  | case1 => exact ⟨[], [], .stop _, .inl rfl⟩
  | case2 c rest hblank ih =>
    obtain ⟨hc, hrest⟩ := List.forall_mem_cons.mp h
    obtain ⟨words, behind, hmunch, hend⟩ := ih hrest
    rw [eq_space_of_isBlank hc hblank]
    exact ⟨words, behind, .space hmunch, hend⟩
  | case3 c rest hblank hdigit ih =>
    obtain ⟨hdigits, hsplit⟩ := Decimal.scanDigits_eq (c :: rest)
    rw [Decimal.scanDigits, List.takeWhile_cons_of_pos hdigit, List.dropWhile_cons_of_pos hdigit] at hdigits hsplit
    obtain ⟨words, behind, hmunch, hend⟩ := ih fun d hd =>
      h d (List.mem_cons_of_mem _ ((List.dropWhile_suffix _).mem hd))
    rw [hsplit]
    exact ⟨_, behind, .number (List.cons_ne_nil _ _) hdigits (undigited_dropWhile rest) hmunch, hend⟩
  | case4 rest hblank hdigit ih =>
    obtain ⟨words, behind, hmunch, hend⟩ := ih (List.forall_mem_cons.mp h).2
    exact ⟨_, behind, .opening hmunch, hend⟩
  | case5 rest hblank hdigit hopening ih =>
    obtain ⟨words, behind, hmunch, hend⟩ := ih (List.forall_mem_cons.mp h).2
    exact ⟨_, behind, .closing hmunch, hend⟩
  | case6 c rest hblank hdigit hopening hclosing operator hleading ih =>
    have hlongest := Operator.leading?_longest hleading
    obtain ⟨tail, htail⟩ := hlongest.head
    rw [← htail] at ih h hlongest ⊢
    rw [List.drop_left] at ih
    obtain ⟨words, behind, hmunch, hend⟩ := ih fun d hd => h d (List.mem_append_right _ hd)
    exact ⟨_, behind, .op hlongest hmunch, hend⟩
  | case7 c rest hblank hdigit hopening hclosing hleading =>
    have hnone := Operator.leading?_eq_none_iff.mp hleading
    refine ⟨[], c :: rest, .stop _, .inr ⟨⟨rest, ?_⟩, hnone⟩⟩
    -- any other character of operator text is an operator by itself
    by_contra hequal
    have hchar : isOperatorChar c = true := by
      rcases h c List.mem_cons_self with hchar | hdigit' | hspace
      · exact hchar
      · exact absurd hdigit' hdigit
      · exact absurd (hspace ▸ by decide) hblank
    obtain ⟨operator, hspelling⟩ := Operator.exists_single hchar hopening hclosing fun heq => hequal (heq ▸ rfl)
    exact hnone operator (hspelling ▸ ⟨rest, rfl⟩)

/-! ## What is at fault in an expression -/

/-- A fault that only text can have; words in a wrong place have others. -/
def Fault.Lexical : Fault → Prop
  | .assignment => True
  | .character _ => True
  | _ => False

theorem checked_ne_malformed {tree : Tree} {fault : Fault} : tree.checked ≠ .error (.malformed fault) := by
  unfold Tree.checked
  split
  · exact fun h => nomatch h
  · exact fun h => nomatch h

/-- **The parser finds no fault in the text of the words.** -/
theorem not_lexical_of_parse :
    (∀ nest tokens fault, operand nest tokens = .error (.malformed fault) → ¬ fault.Lexical) ∧
    (∀ nest level tokens fault, climb nest level tokens = .error (.malformed fault) → ¬ fault.Lexical) ∧
    (∀ nest level count left tokens fault, extend nest level count left tokens = .error (.malformed fault) →
      ¬ fault.Lexical) := by
  apply operand.mutual_induct
  case case1 => -- no tokens
    intro nest fault h
    rw [operand_nil] at h
    cases h
    exact id
  case case2 => -- a prefix operator at the limit
    intro token tokens op hop fault h
    rw [operand_unary_zero hop] at h
    cases h
  case case3 => -- a prefix operator
    intro token tokens op hop nest ih fault h
    rw [operand_unary_succ hop] at h
    rcases bind_eq_error h with hinner | ⟨⟨tree, rest⟩, -, h⟩
    · exact ih fault hinner
    · rcases bind_eq_error h with hchecked | ⟨tree', -, h⟩
      · exact absurd hchecked checked_ne_malformed
      · cases h
  case case4 => -- a number
    intro nest tokens n _ fault h
    rw [operand_number] at h
    cases h
  case case5 => -- a field
    intro nest tokens name _ fault h
    rw [operand_field] at h
    cases h
  case case6 => -- a closing parenthesis
    intro nest tokens _ fault h
    rw [operand_closing] at h
    cases h
    exact id
  case case7 => -- an operator that is no prefix operator
    intro nest tokens operator hop fault h
    rw [operand_op hop] at h
    cases h
    exact id
  case case8 => -- an opening parenthesis at the limit
    intro tokens _ fault h
    rw [operand_opening_zero] at h
    cases h
  case case9 => -- an opening parenthesis
    intro tokens nest _ ih fault h
    rw [operand_opening_succ] at h
    rcases bind_eq_error h with hinner | ⟨⟨tree, rest⟩, -, h⟩
    · exact ih fault hinner
    · dsimp only at h
      split at h
      · cases h
      · cases h
        exact id
  case case10 => -- an operand and what follows it
    intro nest level tokens ihoperand ihextend fault h
    rw [climb] at h
    rcases bind_eq_error h with hoperand | ⟨⟨left, rest⟩, -, h⟩
    · exact ihoperand fault hoperand
    · exact ihextend left rest fault h
  case case11 => -- an operator that is not tight enough
    intro nest level left count op rest hloose fault h
    rw [extend, dif_pos hloose] at h
    cases h
  case case12 => -- an operator that is
    intro nest level left count op rest htight ihclimb ihextend fault h
    rw [extend, dif_neg htight] at h
    rcases bind_eq_error h with hright | ⟨⟨right, rest'⟩, -, h⟩
    · exact ihclimb fault hright
    · rcases bind_eq_error h with hchecked | ⟨tree, -, h⟩
      · exact absurd hchecked checked_ne_malformed
      · exact ihextend rest' tree fault h
  case case13 => -- `!` in the place of a binary operator
    intro nest level left count rest fault h
    rw [extend] at h
    cases h
    exact id
  case case14 => -- no operator
    intro nest level count left tokens hbinary hnot fault h
    rw [extend] at h
    · cases h
    · exact hbinary
    · exact hnot

theorem not_lexical_of_ofTokens? {tokens : List Token} {fault : Fault}
    (h : Tree.ofTokens? tokens = .error (.malformed fault)) : ¬ fault.Lexical := by
  unfold Tree.ofTokens? at h
  rcases bind_eq_error h with hclimb | ⟨⟨tree, rest⟩, -, h⟩
  · exact not_lexical_of_parse.2.1 _ _ _ _ hclimb
  · dsimp only at h
    split at h
    · cases h
    · cases h
      exact id

/-- Tokens that are not cut fail in one of the literals. -/
theorem exists_literal_of_tokensOf {pieces : List Piece} {fault : Fault} (h : tokensOf pieces = .error fault) :
    ∃ text, .literal text ∈ pieces ∧ Token.scan text = .error fault := by
  induction pieces with
  | nil => cases h
  | cons piece pieces ih =>
    cases piece with
    | literal text =>
      rw [tokensOf] at h
      rcases bind_eq_error h with hscan | ⟨here, -, h⟩
      · exact ⟨text, List.mem_cons_self, hscan⟩
      · rcases bind_eq_error h with hrest | ⟨behind, -, h⟩
        · obtain ⟨text', hmem, hscan⟩ := ih hrest
          exact ⟨text', List.mem_cons_of_mem _ hmem, hscan⟩
        · cases h
    | field name =>
      rw [tokensOf] at h
      rcases bind_eq_error h with hrest | ⟨behind, -, h⟩
      · obtain ⟨text', hmem, hscan⟩ := ih hrest
        exact ⟨text', List.mem_cons_of_mem _ hmem, hscan⟩
      · cases h

/-- The literals of an operator expression are operator text, the empty ones as well. -/
theorem operatory_of_isLogic {pieces : List Piece} (h : isLogic pieces = true) {text : List Char}
    (hmem : .literal text ∈ pieces) : Operatory text := by
  by_cases hnil : text = []
  · rw [hnil]
    exact fun c hc => absurd hc List.not_mem_nil
  · have hall := List.all_eq_true.mp (Bool.and_eq_true_iff.mp h).2 text (mem_literals.mpr ⟨hmem, hnil⟩)
    intro c hc
    have hchar := List.all_eq_true.mp (Bool.and_eq_true_iff.mp hall).1 c hc
    rwa [Bool.or_eq_true, Bool.or_eq_true, beq_iff_eq, or_assoc] at hchar

/-- **Operator text has no fault but an assignment.** -/
theorem Operatory.fault_of_scan (h : Operatory cs) {fault : Fault} (hscan : Token.scan cs = .error fault) :
    fault = .assignment := by
  obtain ⟨words, rest, hmunch, hend⟩ := h.munch
  have hlex : lex [] cs = .error (.fault fault) := by
    rw [lex_eq, hscan]
    rfl
  rw [hmunch.lex] at hlex
  rcases hend with rfl | hassigns
  · rw [lex_nil] at hlex
    cases hlex
  · rw [hassigns.lex] at hlex
    cases hlex
    rfl

theorem fault_of_tokensOf {pieces : List Piece} (h : isLogic pieces = true) {fault : Fault}
    (htokens : tokensOf pieces = .error fault) : fault = .assignment := by
  obtain ⟨text, hmem, hscan⟩ := exists_literal_of_tokensOf htokens
  exact (operatory_of_isLogic h hmem).fault_of_scan hscan

/-- Pieces that do not compile are cut into tokens, and fail there or in the parser. -/
theorem exists_of_compilePieces {pieces : List Piece} {kind : ErrorKind} (h : compilePieces pieces = .error kind) :
    isLogic pieces = true ∧ ((∃ fault, tokensOf pieces = .error fault ∧ kind = .malformed fault) ∨
      ∃ tokens cause, Tree.ofTokens? tokens = .error cause ∧ kind = .ofParse cause) := by
  unfold compilePieces at h
  split at h
  · cases h
  · rcases bind_eq_error h with haccessor | ⟨accessor, -, h⟩
    · unfold accessorOf at haccessor
      split at haccessor
      · next hlogic =>
        refine ⟨hlogic, ?_⟩
        rcases bind_eq_error haccessor with htokens | ⟨tokens, -, haccessor⟩
        · obtain ⟨fault, hfault, rfl⟩ := mapError_eq_error htokens
          exact .inl ⟨fault, hfault, rfl⟩
        · rcases bind_eq_error haccessor with htree | ⟨tree, -, haccessor⟩
          · obtain ⟨cause, hcause, rfl⟩ := mapError_eq_error htree
            exact .inr ⟨tokens, cause, hcause, rfl⟩
          · cases haccessor
      · cases haccessor
    · cases h

/-- **No expression fails on a character.** Its literals are cut only if they are operator text, and the parser has
faults of its own. -/
theorem kind_ne_character {input : String} {e : Error} (h : compile input = .error e) (c : Char) :
    e.kind ≠ .malformed (.character c) := by
  intro hkind
  unfold compile at h
  split at h
  · cases h
    cases hkind
  · split at h
    · next braceFault hscan =>
      cases h
      cases braceFault <;> cases hkind
    · next pieces hscan =>
      obtain ⟨kind, hpieces, rfl⟩ := mapError_eq_error h
      obtain rfl : kind = .malformed (.character c) := hkind
      obtain ⟨hlogic, ⟨fault, htokens, heq⟩ | ⟨tokens, cause, htree, heq⟩⟩ := exists_of_compilePieces hpieces
      · cases heq
        cases fault_of_tokensOf hlogic htokens
      · cases cause with
        | malformed fault =>
          cases heq
          exact not_lexical_of_ofTokens? htree trivial
        | tooDeep => cases heq

/-! ## The lexer on operator text -/

/-- **Operator text is cut by longest match, up to an assignment.** Behind whatever tokens are there already, the lexer
appends the words that make up the text without its spaces, where every number is a run of digits that does not go on
and every operator the longest one at its place; or it fails. It fails exactly if these words lead to a `=` that no
operator starts with, and with that fault. So it is in every expression that is cut into tokens, and none fails on a
character or on a run of digits. -/
theorem lex_of_operatory :
    (∀ cs : List Char, Operatory cs → ∀ out : List Token,
      ((∃ words, Munch cs words [] ∧ words.flatMap Word.text = cs.filter (· ≠ ' ') ∧
          lex out cs = .ok (out ++ words.map Word.token)) ∨ lex out cs = .error (.fault .assignment)) ∧
      ((∃ fault, lex out cs = .error fault) ↔ ∃ words rest, Munch cs words rest ∧ Assigns rest)) ∧
    (∀ pieces, lexPieces [] pieces = (tokensOf pieces).mapError .fault) ∧
    (∀ pieces, isLogic pieces = true → ∀ fault, lexPieces [] pieces = .error fault → fault = .fault .assignment) ∧
    ∀ input e c, compile input = .error e → e.kind ≠ .malformed (.character c) := by
  have hpieces : ∀ pieces, lexPieces [] pieces = (tokensOf pieces).mapError .fault := by
    intro pieces
    rw [lexPieces_eq]
    cases tokensOf pieces <;> rfl
  refine ⟨fun cs h out => ?_, hpieces, fun pieces hlogic fault h => ?_, fun input e c h => kind_ne_character h c⟩
  · obtain ⟨words, rest, hmunch, rfl | hassigns⟩ := h.munch
    · have hlex : lex out cs = .ok (out ++ words.map Word.token) := by rw [hmunch.lex, lex_nil]
      have htext := hmunch.text
      rw [List.filter_nil, List.append_nil] at htext
      refine ⟨.inl ⟨words, hmunch, htext, hlex⟩, ?_, ?_⟩
      · rintro ⟨fault, hfault⟩
        rw [hlex] at hfault
        cases hfault
      · -- the words cannot lead to both, as the lexer goes on from either
        rintro ⟨words', rest, hmunch', hassigns⟩
        rw [hmunch'.lex, hassigns.lex] at hlex
        cases hlex
    · have hlex : lex out cs = .error (.fault .assignment) := by rw [hmunch.lex, hassigns.lex]
      exact ⟨.inr hlex, fun _ => ⟨words, rest, hmunch, hassigns⟩, fun _ => ⟨_, hlex⟩⟩
  · rw [hpieces] at h
    obtain ⟨cause, htokens, rfl⟩ := mapError_eq_error h
    rw [fault_of_tokensOf hlogic htokens]

/-- Behind the longest operator in `!===7` there is a lone `=`, and `!!==07` is cut to its end. -/
theorem lex_of_operatory_equals :
    (∃ words, Munch "!!== 07".toList words [] ∧ words.flatMap Word.text = "!!==07".toList ∧
      lex [.field "a"] "!!== 07".toList = .ok (.field "a" :: words.map Word.token)) ∧
    lex [.field "a"] "!!== 07".toList =
      .ok [.field "a", .op .not, .op (.binary .strictNe), .number (.ofNat 7)] ∧
    lex [.field "a"] "!===7".toList = .error (.fault .assignment) ∧
    (∃ words rest, Munch "!===7".toList words rest ∧ Assigns rest) ∧
    lexPieces [] [.literal [], .field "a", .literal "!===7".toList] = .error (.fault .assignment) ∧
    ∃ e, compile "\x7ba\x7d!===7" = .error e ∧ ∀ c, e.kind ≠ .malformed (.character c) := by
  obtain ⟨hlex, hpieces, hlogic, hcompile⟩ := lex_of_operatory
  have hcut : lex [.field "a"] "!!== 07".toList =
      .ok [.field "a", .op .not, .op (.binary .strictNe), .number (.ofNat 7)] := by decide +kernel
  have hfails : lex [.field "a"] "!===7".toList = .error (.fault .assignment) := by decide +kernel
  have hpiece : isLogic [.literal [], .field "a", .literal "!===7".toList] = true := by decide +kernel
  have herror : (compile "\x7ba\x7d!===7").map (fun _ => ()) = .error ⟨"\x7ba\x7d!===7", .malformed .assignment⟩ := by
    decide +kernel
  refine ⟨?_, hcut, hfails, ?_, ?_, ?_⟩
  · rcases (hlex "!!== 07".toList (by decide) [.field "a"]).1 with ⟨words, hmunch, htext, hok⟩ | hfault
    · exact ⟨words, hmunch, htext.trans (by decide), hok⟩
    · rw [hcut] at hfault
      cases hfault
  · exact ((hlex "!===7".toList (by decide) [.field "a"]).2).mp ⟨_, hfails⟩
  · cases hread : lexPieces [] [.literal [], .field "a", .literal "!===7".toList] with
    | error fault => rw [hlogic _ hpiece fault hread]
    | ok tokens =>
      have hnone : (lexPieces [] [.literal [], .field "a", .literal "!===7".toList]).isOk = false := by decide +kernel
      rw [hread] at hnone
      cases hnone
  · cases hresult : compile "\x7ba\x7d!===7" with
    | error e => exact ⟨e, rfl, fun c => hcompile _ _ c hresult⟩
    | ok compiled =>
      rw [hresult] at herror
      cases herror

end Databind.Expression
