import Databind.Proofs.Braces
import Databind.Proofs.Printing

/-!
# `Proofs.Prose` — texts that are shown, and texts that are computed

An expression is computed if all its literal text is operator text, and is shown as it stands otherwise. All literals
decide together: one that is prose makes the whole a template, and so does the absence of any. A template always
compiles, and loses nothing: what it shows is the text itself with each token replaced by what the field holds
(`filled_of_prosaic`).

A text without braces is one literal. If it is prose it is a constant, the text itself. If it is operator text it is a
constant only if its words make an expression: there are no tokens, yet the words may still be at fault
(`constant_of_braceless`).

## Main definitions

* `Prose` — literal text that makes a template.
* `Braced.Prosaic` — the literals of a text make it a template.
* `Braced.filled` — the text with its tokens filled in.
-/

namespace Databind.Expression

/-! ## Prose -/

/-- **Prose**: text with a character that is in no operator text, or without an operator. -/
def Prose (cs : List Char) : Prop :=
  (∃ c ∈ cs, isOperatorChar c = false ∧ c.isDigit = false ∧ c ≠ ' ') ∨ ∀ c ∈ cs, isOperatorChar c = false

theorem isOperatorText_eq_false_iff (cs : List Char) : isOperatorText cs = false ↔ Prose cs := by
  unfold isOperatorText Prose
  rw [Bool.and_eq_false_iff, List.all_eq_false, List.any_eq_false]
  simp [and_assoc]

instance (cs : List Char) : Decidable (Prose cs) := decidable_of_iff _ (isOperatorText_eq_false_iff cs)

namespace Braced

/-- The literal texts, the empty ones among them. -/
def literals (b : Braced) : List (List Char) := b.first :: b.stretches.map Stretch.literal

/-- **A lone token**, perhaps behind `!`, and nothing else. -/
def Lone (b : Braced) : Prop := (b.first = [] ∨ b.first = ['!']) ∧ ∃ s, b.stretches = [s] ∧ s.literal = []

/-- **The literals make a template**: none has any text, or one that has some is prose. -/
def Prosaic (b : Braced) : Prop := (∀ cs ∈ b.literals, cs = []) ∨ ∃ cs ∈ b.literals, cs ≠ [] ∧ Prose cs

theorem literal_mem_pieces {b : Braced} {cs : List Char} : .literal cs ∈ b.pieces ↔ cs ∈ b.literals := by
  simp only [pieces, literals, Stretch.pieces, List.mem_cons, List.mem_flatMap, List.mem_map, Piece.literal.injEq,
    List.not_mem_nil, or_false, reduceCtorEq, false_or]
  exact or_congr_right (exists_congr fun s => and_congr_right fun _ => eq_comm)

/-- **The literals of a text decide between the two shapes.** -/
theorem isLogic_eq_false_iff (b : Braced) : isLogic b.pieces = false ↔ b.Prosaic := by
  have hmem (cs : List Char) : cs ∈ Piece.literals b.pieces ↔ cs ∈ b.literals ∧ cs ≠ [] := by
    rw [mem_literals, literal_mem_pieces]
  unfold isLogic Prosaic
  rw [Bool.and_eq_false_iff, Bool.not_eq_false', List.isEmpty_iff, List.all_eq_false]
  refine or_congr ?_ (exists_congr fun cs => ?_)
  · rw [List.eq_nil_iff_forall_not_mem]
    exact forall_congr' fun cs => by rw [hmem, not_and, not_not]
  · rw [hmem, and_assoc, Bool.not_eq_true, isOperatorText_eq_false_iff]

/-- Only a lone token is read directly. -/
theorem soleField?_eq_none {b : Braced} (h : ¬ b.Lone) : soleField? b.pieces = none := by
  cases hsole : soleField? b.pieces with
  | none => rfl
  | some read =>
    obtain ⟨before, hbefore, heq⟩ := soleField?_eq_some hsole
    obtain ⟨first, stretches, hbraceless⟩ := b
    obtain ⟨hfirst, hrest⟩ := List.cons.inj heq
    -- one token makes three pieces, and two make five
    cases stretches with
    | nil => cases hrest
    | cons s stretches =>
      obtain ⟨-, hrest⟩ := List.cons.inj hrest
      obtain ⟨hliteral, hrest⟩ := List.cons.inj hrest
      cases stretches with
      | nil => exact absurd ⟨Piece.literal.inj hfirst ▸ hbefore, s, rfl, Piece.literal.inj hliteral⟩ h
      | cons s' stretches => cases hrest

end Braced

/-! ## What a template shows -/

/-- The text of the field that a token names; nothing if there is no such field. -/
def Stretch.shown (s : Stretch) (fields : Fields) : List Char :=
  let name := Text.cleanName (String.ofList s.raw)
  if fields.has name then (fields.get name).display.toList else []

/-- **The text with its tokens filled in.** -/
def Braced.filled (b : Braced) (fields : Fields) : List Char :=
  b.first ++ b.stretches.flatMap fun s => s.shown fields ++ s.literal

/-- What a template shows begins with what its first piece shows. -/
theorem Template.render_cons (fields : Fields) (piece : Piece) (rest : List Piece) :
    ((ofPieces (piece :: rest)).render fields).toList =
      ((ofPieces [piece]).render fields).toList ++ ((ofPieces rest).render fields).toList := by
  have hparts : (ofPieces (piece :: rest)).parts = (ofPieces [piece]).parts ++ (ofPieces rest).parts := by
    rw [← List.singleton_append]
    exact List.filterMap_append
  simp only [render, String.toList_join, hparts, List.map_append, List.flatMap_append]

theorem Template.render_literal (fields : Fields) (text : List Char) :
    ((ofPieces [.literal text]).render fields).toList = text := by
  by_cases hempty : text = []
  · simp [ofPieces, render, hempty]
  · simp [ofPieces, render, partText, hempty]

theorem Template.render_field (fields : Fields) (s : Stretch) :
    ((ofPieces [.field (String.ofList (Text.cleanChars s.raw))]).render fields).toList = s.shown fields := by
  simp only [ofPieces, render, String.toList_join, Stretch.shown, Text.cleanName, String.toList_ofList,
    List.filterMap_cons, List.filterMap_nil, List.map_cons, List.map_nil, List.flatMap_cons, List.flatMap_nil,
    List.append_nil, partText]
  split <;> rfl

/-- **A template shows its text with the tokens filled in.** -/
theorem Braced.render_pieces (b : Braced) (fields : Fields) :
    (Template.ofPieces b.pieces).render fields = String.ofList (b.filled fields) := by
  have hstretches (stretches : List Stretch) :
      ((Template.ofPieces (stretches.flatMap Stretch.pieces)).render fields).toList =
        stretches.flatMap fun s => s.shown fields ++ s.literal := by
    induction stretches with
    | nil => rfl
    | cons s rest ih =>
      rw [List.flatMap_cons, List.flatMap_cons, Stretch.pieces, List.cons_append, List.singleton_append,
        Template.render_cons, Template.render_field, Template.render_cons, Template.render_literal, ih,
        List.append_assoc]
  rw [← String.toList_inj, String.toList_ofList, pieces, Template.render_cons, Template.render_literal, hstretches,
    filled]

/-! ## What a text compiles to -/

/-- Pieces that are no lone token compile as their accessor does. -/
theorem compile_of_not_lone {input : String} (hblank : ¬ Text.AllBlank input.toList) {b : Braced}
    (htext : input.toList = b.text) (hlone : ¬ b.Lone) :
    compile input = ((accessorOf b.pieces).map fun accessor =>
      (⟨accessor, false, Piece.triggers b.pieces⟩ : Compiled)).mapError (⟨input, ·⟩) := by
  rw [compile_of_braced hblank htext, compilePieces, Braced.soleField?_eq_none hlone]
  cases accessorOf b.pieces <;> rfl

/-- Operator text is an expression if its words make one, and an accessor of it is never anything else. -/
theorem accessorOf_eq_ok_iff {pieces : List Piece} (h : isLogic pieces = true) {accessor : Accessor} :
    accessorOf pieces = .ok accessor ↔
      ∃ tokens tree, tokensOf pieces = .ok tokens ∧ Tree.ofTokens? tokens = .ok tree ∧ accessor = .expression tree := by
  constructor
  · intro haccessor
    rw [accessorOf, if_pos h] at haccessor
    obtain ⟨tokens, htokens, haccessor⟩ := bind_eq_ok haccessor
    obtain ⟨tree, htree, haccessor⟩ := bind_eq_ok haccessor
    cases haccessor
    exact ⟨tokens, tree, mapError_eq_ok htokens, mapError_eq_ok htree, rfl⟩
  · rintro ⟨tokens, tree, htokens, htree, rfl⟩
    rw [accessorOf, if_pos h, htokens]
    show ((Tree.ofTokens? tokens).mapError _ >>= _) = _
    rw [htree]
    rfl

theorem accessorOf_of_prosaic {b : Braced} (h : b.Prosaic) :
    accessorOf b.pieces = .ok (.template (.ofPieces b.pieces)) := by
  rw [accessorOf, b.isLogic_eq_false_iff.mpr h, if_neg (by decide)]

/-- **A template loses nothing.** A text whose braces are in order, and that is no lone token, is a template exactly if
its literals make it one. Then it compiles, and on every record it shows the text itself, each token replaced by what the
field of its cleaned name holds, and every other character where it stands. A blank text never gets as far as its
braces. -/
theorem filled_of_prosaic {input : String} (hblank : ¬ Text.AllBlank input.toList) {b : Braced}
    (htext : input.toList = b.text) (hlone : ¬ b.Lone) :
    ((∃ compiled template, compile input = .ok compiled ∧ compiled.accessor = .template template) ↔ b.Prosaic) ∧
    (b.Prosaic → ∃ compiled template, compile input = .ok compiled ∧ compiled.accessor = .template template ∧
      compiled.negate = false ∧
      ∀ r : Record, compiled.accessor.evaluate r.fields = .string (String.ofList (b.filled r.fields))) := by
  have hcompile := compile_of_not_lone hblank htext hlone
  have hshown (hprosaic : b.Prosaic) : ∃ compiled template, compile input = .ok compiled ∧
      compiled.accessor = .template template ∧ compiled.negate = false ∧
      ∀ r : Record, compiled.accessor.evaluate r.fields = .string (String.ofList (b.filled r.fields)) := by
    rw [accessorOf_of_prosaic hprosaic] at hcompile
    refine ⟨_, _, hcompile, rfl, rfl, fun r => ?_⟩
    rw [← b.render_pieces]
    rfl
  refine ⟨⟨?_, fun hprosaic => ?_⟩, hshown⟩
  · rintro ⟨compiled, template, hok, htemplate⟩
    by_contra hlogic
    rw [← b.isLogic_eq_false_iff, Bool.not_eq_false] at hlogic
    rw [hok] at hcompile
    obtain ⟨accessor, haccessor, rfl⟩ := map_eq_ok (mapError_eq_ok hcompile.symm)
    obtain ⟨tokens, tree, -, -, rfl⟩ := (accessorOf_eq_ok_iff hlogic).mp haccessor
    cases htemplate
  · obtain ⟨compiled, template, hok, htemplate, -⟩ := hshown hprosaic
    exact ⟨compiled, template, hok, htemplate⟩

/-- Literal text of both kinds, tokens side by side, and a name to be cleaned. -/
def Braced.mixed : Braced where
  first := ['5', ' ', 'x', ' ']
  stretches :=
    [⟨['a'], [], by decide, by decide, by decide⟩, ⟨[' ', 'b', ';'], [' ', '+', ' ', '1'], by decide, by decide, by decide⟩]
  braceless := by decide

/-- One literal that is prose is enough, and a field that is missing leaves a gap. -/
theorem filled_of_prosaic_mixed :
    ¬ Text.AllBlank Braced.mixed.text ∧ Braced.mixed.text = "5 x \x7ba\x7d\x7b b;\x7d + 1".toList ∧
      ¬ Braced.mixed.Lone ∧ Braced.mixed.Prosaic ∧
      ∃ compiled template, compile "5 x \x7ba\x7d\x7b b;\x7d + 1" = .ok compiled ∧
        compiled.accessor = .template template ∧
        compiled.accessor.evaluate (Record.ofFields (.ofEntries [("a", .string "two")])).fields = .string "5 x two + 1" := by
  have hblank : ¬ Text.AllBlank Braced.mixed.text := by decide
  have htext : "5 x \x7ba\x7d\x7b b;\x7d + 1".toList = Braced.mixed.text := by decide
  have hlone : ¬ Braced.mixed.Lone := by
    rintro ⟨-, s, hstretches, -⟩
    cases hstretches
  have hprosaic : Braced.mixed.Prosaic := .inr ⟨_, List.mem_cons_self, by decide, by decide⟩
  obtain ⟨compiled, template, hok, htemplate, -, hshown⟩ := (filled_of_prosaic (htext ▸ hblank) htext hlone).2 hprosaic
  have hfilled : String.ofList (Braced.mixed.filled (Record.ofFields (.ofEntries [("a", .string "two")])).fields) =
      "5 x two + 1" := by decide
  refine ⟨hblank, htext.symm, hlone, hprosaic, compiled, template, hok, htemplate, ?_⟩
  rw [hshown, hfilled]

/-! ## Texts without braces -/

/-- **The words of a text make an expression**, within both limits. -/
def Computes (cs : List Char) (tree : Tree) : Prop :=
  ∃ tokens nesting, Token.scan cs = .ok tokens ∧ Derives 1 tokens tree nesting ∧ nesting ≤ maxNesting ∧
    tree.height ≤ maxNesting

theorem computes_iff {cs : List Char} {tree : Tree} :
    Computes cs tree ↔ ∃ tokens, Token.scan cs = .ok tokens ∧ Tree.ofTokens? tokens = .ok tree := by
  constructor
  · rintro ⟨tokens, nesting, htokens, hderives, hlimits⟩
    refine ⟨tokens, htokens, ?_⟩
    rw [ofTokens?_of_derives hderives, if_pos hlimits]
  · rintro ⟨tokens, htokens, htree⟩
    obtain ⟨nesting, hderives, hlimits⟩ := derives_of_ofTokens? htree
    exact ⟨tokens, nesting, htokens, hderives, hlimits⟩

/-- The words of an expression without fields make that expression. -/
theorem computes_text {tree : Tree} (hheight : tree.height ≤ maxNesting) (hplain : tree.Plain)
    (hfields : tree.fieldNames = []) : Computes tree.text tree := by
  have hparse := ofTokens?_words hheight
  have hnone : ∀ l ∈ tree.words, l.field? = none := by
    obtain ⟨nesting, hderives, -⟩ := derives_of_ofTokens? hparse
    have hnames : (Lexeme.tokens tree.words).filterMap Token.fieldName? = [] := hderives.fieldNames.symm.trans hfields
    rw [Lexeme.tokens, List.filterMap_filterMap] at hnames
    exact List.filterMap_eq_nil_iff.mp hnames
  have hseparate : Separate tree.words := by
    have h := @separate_words tree hplain [] trivial undigited_nil
    rwa [List.append_nil] at h
  have htokens := scan_text (Tree.plain_of_mem_words hplain) hnone hseparate
  rw [Tree.text_words] at htokens
  exact computes_iff.mpr ⟨_, htokens, hparse⟩

theorem tokensOf_literal (cs : List Char) : tokensOf [.literal cs] = Token.scan cs := by
  rw [tokensOf, tokensOf]
  cases Token.scan cs with
  | error fault => rfl
  | ok tokens => exact congrArg Except.ok (List.append_nil _)

/-- A text without braces is one literal. -/
def Braced.ofBraceless {cs : List Char} (h : Braceless cs) : Braced := ⟨cs, [], h⟩

section

variable {input : String} (hblank : ¬ Text.AllBlank input.toList) (hbraceless : Braceless input.toList)

include hblank hbraceless

/-- It compiles as the accessor of this literal does, and has no triggers. -/
theorem compile_of_braceless :
    compile input = ((accessorOf [.literal input.toList]).map fun accessor =>
      (⟨accessor, false, []⟩ : Compiled)).mapError (⟨input, ·⟩) := by
  refine compile_of_not_lone (b := .ofBraceless hbraceless) hblank (List.append_nil _).symm ?_
  rintro ⟨-, s, hstretches, -⟩
  cases hstretches

/-- It is operator text or prose. -/
theorem isLogic_of_braceless : isLogic [.literal input.toList] = false ↔ Prose input.toList := by
  have hne : input.toList ≠ [] := fun hnil => hblank (hnil ▸ Text.allBlank_nil)
  refine (Braced.ofBraceless hbraceless).isLogic_eq_false_iff.trans ?_
  simp [Braced.Prosaic, Braced.literals, Braced.ofBraceless, hne]

/-- Prose shows as it stands. -/
theorem constant_of_prose (h : Prose input.toList) :
    ∃ compiled, compile input = .ok compiled ∧ compiled.triggers = [] ∧ compiled.negate = false ∧
      ∀ fields, compiled.accessor.evaluate fields = .string input := by
  have hcompile := compile_of_braceless hblank hbraceless
  rw [accessorOf, (isLogic_of_braceless hblank hbraceless).mpr h, if_neg (by decide)] at hcompile
  refine ⟨_, hcompile, rfl, rfl, fun fields => ?_⟩
  show Value.string ((Template.ofPieces (Braced.ofBraceless hbraceless).pieces).render fields) = _
  rw [Braced.render_pieces, show (Braced.ofBraceless hbraceless).filled fields = input.toList from List.append_nil _,
    String.ofList_toList]

/-- Operator text is computed if its words make an expression, and does not depend on any field. -/
theorem constant_of_computes (h : ¬ Prose input.toList) {tree : Tree} (hcomputes : Computes input.toList tree) :
    compile input = .ok ⟨.expression tree, false, []⟩ ∧ ∀ fields fields', tree.evaluate fields = tree.evaluate fields' := by
  obtain ⟨tokens, htokens, htree⟩ := computes_iff.mp hcomputes
  have hlogic : isLogic [.literal input.toList] = true := by
    rwa [← isLogic_of_braceless hblank hbraceless, Bool.not_eq_false] at h
  have haccessor : accessorOf [.literal input.toList] = .ok (.expression tree) :=
    (accessorOf_eq_ok_iff hlogic).mpr ⟨tokens, tree, (tokensOf_literal _).trans htokens, htree, rfl⟩
  refine ⟨?_, fun fields fields' => accessorOf_congr haccessor fun name hname => absurd hname List.not_mem_nil⟩
  rw [compile_of_braceless hblank hbraceless, haccessor]
  rfl

/-- Operator text whose words make no expression is refused. -/
theorem refused_of_not_computes (h : ¬ Prose input.toList) (hnone : ∀ tree, ¬ Computes input.toList tree) :
    ∃ kind, compile input = .error ⟨input, kind⟩ ∧ (kind = .tooDeep ∨ ∃ fault, kind = .malformed fault) := by
  have hlogic : isLogic [.literal input.toList] = true := by
    rwa [← isLogic_of_braceless hblank hbraceless, Bool.not_eq_false] at h
  cases hcompile : compile input with
  | ok compiled =>
    rw [compile_of_braceless hblank hbraceless] at hcompile
    obtain ⟨accessor, haccessor, -⟩ := map_eq_ok (mapError_eq_ok hcompile)
    obtain ⟨tokens, tree, htokens, htree, -⟩ := (accessorOf_eq_ok_iff hlogic).mp haccessor
    exact absurd (computes_iff.mpr ⟨tokens, (tokensOf_literal _).symm.trans htokens, htree⟩) (hnone tree)
  | error e =>
    rcases error_cases hblank hcompile with ⟨fault, hscan, -⟩ | rfl | ⟨fault, rfl⟩
    · rw [show input.toList = (Braced.ofBraceless hbraceless).text from (List.append_nil _).symm, Braced.scan] at hscan
      cases hscan
    · exact ⟨_, rfl, .inl rfl⟩
    · exact ⟨_, rfl, .inr ⟨fault, rfl⟩⟩

/-- **What becomes of a text without tokens.** If it is prose, or its words make an expression within both limits, it
compiles to a constant: no triggers, no negation, and one value on every record, which is the text itself for prose and
the value of the expression otherwise. Any other text without braces is refused for its operators. -/
theorem constant_of_tokenless :
    (Prose input.toList ∨ (∃ tree, Computes input.toList tree) →
      ∃ compiled v, compile input = .ok compiled ∧ compiled.triggers = [] ∧ compiled.negate = false ∧
        (∀ r : Record, compiled.accessor.evaluate r.fields = v) ∧ (Prose input.toList → v = .string input) ∧
        (¬ Prose input.toList → ∀ tree, Computes input.toList tree → v = tree.evaluate .empty)) ∧
    (¬ Prose input.toList → (∀ tree, ¬ Computes input.toList tree) →
      ∃ kind, compile input = .error ⟨input, kind⟩ ∧ (kind = .tooDeep ∨ ∃ fault, kind = .malformed fault)) := by
  refine ⟨fun hconstant => ?_, refused_of_not_computes hblank hbraceless⟩
  by_cases hprose : Prose input.toList
  · obtain ⟨compiled, hok, htriggers, hnegate, hvalue⟩ := constant_of_prose hblank hbraceless hprose
    exact ⟨compiled, _, hok, htriggers, hnegate, fun r => hvalue _, fun _ => rfl, fun hnot => absurd hprose hnot⟩
  · obtain ⟨tree, hcomputes⟩ := hconstant.resolve_left hprose
    obtain ⟨hok, hsame⟩ := constant_of_computes hblank hbraceless hprose hcomputes
    refine ⟨_, tree.evaluate .empty, hok, rfl, rfl, fun r => hsame _ _, fun h => absurd h hprose, ?_⟩
    intro _ tree' hcomputes'
    -- the words make one expression at most
    have hok' := (constant_of_computes hblank hbraceless hprose hcomputes').1
    rw [hok] at hok'
    cases hok'
    rfl

end

/-- An expression of numbers alone has its value on every record. -/
theorem constant_of_tokenless_sum :
    ¬ Text.AllBlank "1 + 2".toList ∧ Braceless "1 + 2".toList ∧
      ∃ compiled, compile "1 + 2" = .ok compiled ∧ compiled.triggers = [] ∧ compiled.negate = false ∧
        ∀ r : Record, compiled.accessor.evaluate r.fields = .number (.ofNat 3) := by
  have hblank : ¬ Text.AllBlank "1 + 2".toList := by decide
  have hbraceless : Braceless "1 + 2".toList := by decide
  have hprose : ¬ Prose "1 + 2".toList := by decide
  have hcomputes : Computes "1 + 2".toList (.binary .add (.number (.ofNat 1)) (.number (.ofNat 2))) := by
    have htext := @computes_text (.binary .add (.number (.ofNat 1)) (.number (.ofNat 2))) (by decide)
      ⟨⟨1, by decide, rfl⟩, 2, by decide, rfl⟩ rfl
    rwa [show Tree.text _ = "1 + 2".toList by decide +kernel] at htext
  obtain ⟨compiled, v, hok, htriggers, hnegate, hvalue, -, htree⟩ :=
    (constant_of_tokenless hblank hbraceless).1 (.inr ⟨_, hcomputes⟩)
  refine ⟨hblank, hbraceless, compiled, hok, htriggers, hnegate, fun r => ?_⟩
  rw [hvalue, htree hprose _ hcomputes]
  decide +kernel

/-- **A text without tokens or braces that is no constant**: the sign behind the number wants a second operand. -/
theorem refused_percentage :
    ¬ Text.AllBlank "100%".toList ∧ Braceless "100%".toList ∧
      compile "100%" = .error ⟨"100%", .malformed .unexpectedEnd⟩ := by
  have hblank : ¬ Text.AllBlank "100%".toList := by decide
  have hbraceless : Braceless "100%".toList := by decide
  refine ⟨hblank, hbraceless, ?_⟩
  let words : List Lexeme := [.word (.number (.ofNat 100)), .word (.op (.binary .rem))]
  have htokens : tokensOf [.literal "100%".toList] = .ok [.number (.ofNat 100), .op (.binary .rem)] := by
    have hplain : ∀ l ∈ words, l.Plain := by
      have hhundred : Number.Whole (.ofNat 100) := ⟨100, by decide, rfl⟩
      simp only [words, List.forall_mem_cons, Lexeme.Plain, hhundred, true_and]
      exact fun l hl => absurd hl List.not_mem_nil
    have hseparate : Separate words := by
      refine ⟨?_, ?_, trivial⟩ <;> (rintro c ⟨⟩; try decide)
    rw [tokensOf_literal, show "100%".toList = Lexeme.text words by decide +kernel]
    exact scan_text hplain (by decide) hseparate
  have htree : Tree.ofTokens? [.number (.ofNat 100), .op (.binary .rem)] = .error (.malformed .unexpectedEnd) := by
    have hoperand : climb maxNesting BinaryOp.rem.level [] = .error (.malformed .unexpectedEnd) := by
      rw [climb, operand_nil]
      rfl
    rw [Tree.ofTokens?, climb, operand_number]
    show extend maxNesting 0 (([] : List Token).length + 1) (.number (.ofNat 100)) [.op (.binary .rem)] >>= _ = _
    rw [extend_binary (by decide), hoperand]
    rfl
  rw [compile_of_braceless hblank hbraceless, accessorOf, if_pos (by decide), htokens]
  show (((Tree.ofTokens? _).mapError _ >>= _).map _).mapError _ = _
  rw [htree]
  rfl

end Databind.Expression
