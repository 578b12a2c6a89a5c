import Databind.Proofs.Spelling
import Databind.Proofs.Trimming

/-!
# `Proofs.Braces` — which texts the braces accept

An expression is literal text and tokens in turn, `L₀{T₁}L₁…{Tₙ}Lₙ`, where no text and no token has a brace and every
token has a name left once it is cleaned. The scanner takes exactly these texts, and its pieces are theirs in that order
(`scan_eq_ok_iff`).

On every other text it fails, and which fault it reports is told here without it. A place in a text violates the rule of
braces because of what stands behind the last brace in front of it and of the character that follows (`Violation`). Where
several places do, the one furthest to the left decides (`scan_eq_error_iff`). For the proof, a text is walked from a
place on, up to the first violation (`Walk`); the scanner is such a walk in either of its two modes.

## Main definitions

* `Braced` — a text of that form, with its pieces.
* `Violation` — a place that violates the rule of braces.
* `Leftmost` — the first such place has this fault.
-/

namespace Databind.Expression

/-! ## Texts of the right form -/

/-- A text without braces. -/
def Braceless (cs : List Char) : Prop := ∀ c ∈ cs, c ≠ '{' ∧ c ≠ '}'

instance (cs : List Char) : Decidable (Braceless cs) := List.decidableBAll (fun c => c ≠ '{' ∧ c ≠ '}') cs

theorem braceless_nil : Braceless [] := fun _ hc => absurd hc List.not_mem_nil

theorem Braceless.concat {cs : List Char} (h : Braceless cs) {c : Char} (hopening : c ≠ '{') (hclosing : c ≠ '}') :
    Braceless (cs ++ [c]) := by
  intro d hd
  rcases List.mem_append.mp hd with hd | hd
  · exact h d hd
  · rw [List.mem_singleton.mp hd]
    exact ⟨hopening, hclosing⟩

/-- A token that has a name, and the literal text behind it. -/
structure Stretch where
  raw : List Char
  literal : List Char
  raw_braceless : Braceless raw
  literal_braceless : Braceless literal
  named : Text.cleanChars raw ≠ []

/-- The token in its braces, and the literal text. -/
def Stretch.text (s : Stretch) : List Char := '{' :: (s.raw ++ '}' :: s.literal)

/-- The field of the cleaned name, and the literal text. -/
def Stretch.pieces (s : Stretch) : List Piece := [.field (String.ofList (Text.cleanChars s.raw)), .literal s.literal]

/-- **A text of the right form**: literal text, and tokens with literal text behind each. -/
structure Braced where
  first : List Char
  stretches : List Stretch
  braceless : Braceless first

namespace Braced

/-- The text that has this form. -/
def text (b : Braced) : List Char := b.first ++ b.stretches.flatMap Stretch.text

/-- Its pieces: the first literal, then a field and a literal in turn. -/
def pieces (b : Braced) : List Piece := .literal b.first :: b.stretches.flatMap Stretch.pieces

end Braced

/-- A token with a name is read up to the literal text behind it. -/
theorem scanLiteral_stretch (s : Stretch) (before rest : List Char) :
    Piece.scanLiteral before (s.text ++ rest) =
      (Piece.scanLiteral s.literal rest).map fun pieces =>
        .literal before :: .field (String.ofList (Text.cleanChars s.raw)) :: pieces := by
  have hopening : '{' ∉ s.raw := fun hmem => (s.raw_braceless _ hmem).1 rfl
  have hclosing : '}' ∉ s.raw := fun hmem => (s.raw_braceless _ hmem).2 rfl
  rw [Stretch.text, List.cons_append, List.append_assoc, List.cons_append, scanLiteral_token hopening hclosing s.named,
    scanLiteral_append s.literal_braceless, List.nil_append]

theorem scanLiteral_stretches (before : List Char) (stretches : List Stretch) :
    Piece.scanLiteral before (stretches.flatMap Stretch.text) =
      .ok (.literal before :: stretches.flatMap Stretch.pieces) := by
  induction stretches generalizing before with
  | nil => rw [List.flatMap_nil, List.flatMap_nil, Piece.scanLiteral_nil]
  | cons s stretches ih =>
    rw [List.flatMap_cons, scanLiteral_stretch, ih]
    rfl

/-- **A text of the right form has its pieces.** -/
theorem Braced.scan (b : Braced) : Piece.scan b.text = .ok b.pieces := by
  rw [Piece.scan, text, scanLiteral_append b.braceless, scanLiteral_stretches]
  rfl

/-- What is scanned has the right form: outside of a token, and inside of one of which `raw` has been read. -/
theorem braced_of_scan :
    (∀ text cs pieces, Piece.scanLiteral text cs = .ok pieces → Braceless text →
      ∃ b : Braced, text ++ cs = b.text ∧ pieces = b.pieces) ∧
    (∀ raw cs pieces, Piece.scanToken raw cs = .ok pieces → Braceless raw →
      ∃ stretches : List Stretch, '{' :: (raw ++ cs) = stretches.flatMap Stretch.text ∧
        pieces = stretches.flatMap Stretch.pieces) := by
  apply Piece.scanLiteral.mutual_induct
  case case1 => -- the end of the text
    intro text pieces h hbraceless
    rw [Piece.scanLiteral_nil] at h
    cases h
    exact ⟨⟨text, [], hbraceless⟩, rfl, rfl⟩
  case case2 => -- a brace opens
    intro text rest ih pieces h hbraceless
    rw [Piece.scanLiteral_opening] at h
    obtain ⟨pieces', hscan, rfl⟩ := map_eq_ok h
    obtain ⟨stretches, htext, rfl⟩ := ih _ hscan braceless_nil
    exact ⟨⟨text, stretches, hbraceless⟩, congrArg (text ++ ·) htext, rfl⟩
  case case3 => -- a brace closes outside of a token
    intro text rest _ pieces h
    rw [Piece.scanLiteral_closing] at h
    cases h
  case case4 => -- literal text
    intro text c rest hopening hclosing ih pieces h hbraceless
    rw [Piece.scanLiteral_char hopening hclosing] at h
    obtain ⟨b, htext, hpieces⟩ := ih _ h (hbraceless.concat hopening hclosing)
    rw [List.append_assoc] at htext
    exact ⟨b, htext, hpieces⟩
  case case5 => -- the text ends inside of a token
    intro raw pieces h
    rw [Piece.scanToken_nil] at h
    cases h
  case case6 => -- a brace opens inside of a token
    intro raw rest pieces h
    rw [Piece.scanToken_opening] at h
    cases h
  case case7 => -- a token without a name
    intro raw rest name hname hopening pieces h
    rw [Piece.scanToken_unnamed hname] at h
    cases h
  case case8 => -- a token ends
    intro raw rest name hname hopening ih pieces h hbraceless
    rw [Piece.scanToken_named hname] at h
    obtain ⟨pieces', hscan, rfl⟩ := map_eq_ok h
    obtain ⟨b, htext, rfl⟩ := ih _ hscan braceless_nil
    rw [List.nil_append] at htext
    refine ⟨⟨raw, b.first, hbraceless, b.braceless, hname⟩ :: b.stretches, ?_, rfl⟩
    rw [htext, List.flatMap_cons, Stretch.text, Braced.text]
    simp only [List.cons_append, List.append_assoc]
  case case9 => -- inside of a token
    intro raw c rest hopening hclosing ih pieces h hbraceless
    rw [Piece.scanToken_char hopening hclosing] at h
    obtain ⟨stretches, htext, hpieces⟩ := ih _ h (hbraceless.concat hopening hclosing)
    rw [List.append_assoc] at htext
    exact ⟨stretches, htext, hpieces⟩

/-- **The scanner takes the texts of the right form, and gives their pieces.** -/
theorem scan_eq_ok_iff (cs : List Char) (pieces : List Piece) :
    Piece.scan cs = .ok pieces ↔ ∃ b : Braced, cs = b.text ∧ pieces = b.pieces := by
  constructor
  · intro h
    exact braced_of_scan.1 [] cs pieces h braceless_nil
  · rintro ⟨b, rfl, rfl⟩
    exact b.scan

/-! ## Places that violate the rule of braces -/

/-- A token is open at the end of a text: `raw` has been read of it since the last brace, which opens it. -/
def Opens (front raw : List Char) : Prop := ∃ before, front = before ++ '{' :: raw ∧ Braceless raw

/-- **A place violates the rule of braces**: `front` stands in front of it, and the rest of the text behind. -/
inductive Violation : BraceFault → List Char → List Char → Prop
  /-- A token closes that cleans away. -/
  | unnamed {front raw behind : List Char} (opened : Opens front raw) (cleaned : Text.cleanChars raw = []) :
    Violation .emptyToken front ('}' :: behind)
  /-- A brace opens inside an open token. -/
  | nested {front raw behind : List Char} (opened : Opens front raw) : Violation .unbalanced front ('{' :: behind)
  /-- A brace closes where no token is open. -/
  | stray {front behind : List Char} (closed : ∀ raw, ¬ Opens front raw) : Violation .unbalanced front ('}' :: behind)
  /-- The text ends inside an open token. -/
  | unclosed {front raw : List Char} (opened : Opens front raw) : Violation .unbalanced front []

/-- **The leftmost violation of a text has this fault.** -/
def Leftmost (fault : BraceFault) (cs : List Char) : Prop :=
  ∃ front rest, cs = front ++ rest ∧ Violation fault front rest ∧
    ∀ front' rest' fault', cs = front' ++ rest' → Violation fault' front' rest' → front.length ≤ front'.length

/-- What is open behind one more character. -/
theorem opens_concat_iff {front raw : List Char} {c : Char} :
    Opens (front ++ [c]) raw ↔
      c = '{' ∧ raw = [] ∨ (c ≠ '{' ∧ c ≠ '}') ∧ ∃ raw', raw = raw' ++ [c] ∧ Opens front raw' := by
  constructor
  · rintro ⟨before, heq, hbraceless⟩
    -- the character is the brace that opens, or the last one that was read of the token
    rcases List.eq_nil_or_concat raw with rfl | ⟨raw', d, rfl⟩
    · obtain ⟨-, hc⟩ := List.append_inj' heq rfl
      exact .inl ⟨(List.cons.inj hc).1, rfl⟩
    · rw [List.concat_eq_append] at heq hbraceless ⊢
      rw [← List.cons_append, ← List.append_assoc] at heq
      obtain ⟨hfront, hc⟩ := List.append_inj' heq rfl
      obtain ⟨rfl, -⟩ := List.cons.inj hc
      refine .inr ⟨hbraceless c (List.mem_append_right _ List.mem_cons_self), raw', rfl, before, hfront, ?_⟩
      intro d hd
      exact hbraceless d (List.mem_append_left _ hd)
  · rintro (⟨rfl, rfl⟩ | ⟨⟨hopening, hclosing⟩, raw', rfl, before, rfl, hbraceless⟩)
    · exact ⟨front, rfl, braceless_nil⟩
    · refine ⟨before, ?_, hbraceless.concat hopening hclosing⟩
      rw [List.append_assoc, List.cons_append]

theorem not_opens_nil (raw : List Char) : ¬ Opens [] raw := by
  rintro ⟨before, heq, -⟩
  cases before <;> cases heq

/-- One token is open at most. -/
theorem Opens.unique {front raw raw' : List Char} (h : Opens front raw) (h' : Opens front raw') : raw = raw' := by
  induction front using List.reverseRecOn generalizing raw raw' with
  | nil => exact absurd h (not_opens_nil raw)
  | append_singleton front c ih =>
    rcases opens_concat_iff.mp h with ⟨rfl, rfl⟩ | ⟨hc, before, rfl, hbefore⟩
    · rcases opens_concat_iff.mp h' with ⟨-, rfl⟩ | ⟨hc, -⟩
      · rfl
      · exact absurd rfl hc.1
    · rcases opens_concat_iff.mp h' with ⟨rfl, -⟩ | ⟨-, before', rfl, hbefore'⟩
      · exact absurd rfl hc.1
      · rw [ih hbefore hbefore']

/-- A place has one fault at most. -/
theorem Violation.unique {fault fault' : BraceFault} {front rest : List Char} (h : Violation fault front rest)
    (h' : Violation fault' front rest) : fault = fault' := by
  cases h with
  | unnamed opened _ =>
    cases h' with
    | unnamed _ _ => rfl
    | stray closed => exact absurd opened (closed _)
  | nested _ => cases h'; rfl
  | stray closed =>
    cases h' with
    | unnamed opened _ => exact absurd opened (closed _)
    | stray _ => rfl
  | unclosed _ => cases h'; rfl

theorem Leftmost.unique {fault fault' : BraceFault} {cs : List Char} (h : Leftmost fault cs)
    (h' : Leftmost fault' cs) : fault = fault' := by
  obtain ⟨front, rest, heq, hviolation, hleast⟩ := h
  obtain ⟨front', rest', heq', hviolation', hleast'⟩ := h'
  -- each is no further to the right than the other, so they are the same place
  have hlength : front.length = front'.length :=
    Nat.le_antisymm (hleast _ _ _ heq' hviolation') (hleast' _ _ _ heq hviolation)
  obtain ⟨rfl, rfl⟩ := List.append_inj (heq.symm.trans heq') hlength
  exact hviolation.unique hviolation'

/-! ## The walk up to the first violation -/

/-- A text from a place on, with `front` in front of it: the fault of its first violation, if there is one. -/
inductive Walk : List Char → List Char → Option BraceFault → Prop
  | violation {fault : BraceFault} {front rest : List Char} (h : Violation fault front rest) : Walk front rest (some fault)
  | ended {front : List Char} (h : ∀ fault, ¬ Violation fault front []) : Walk front [] none
  | onward {front rest : List Char} {c : Char} {found : Option BraceFault}
    (h : ∀ fault, ¬ Violation fault front (c :: rest)) (behind : Walk (front ++ [c]) rest found) :
    Walk front (c :: rest) found

/-- A walk to the end has passed no violation. -/
theorem Walk.sound {front cs : List Char} (h : Walk front cs none) {middle rest : List Char} (heq : cs = middle ++ rest)
    (fault : BraceFault) : ¬ Violation fault (front ++ middle) rest := by
  -- every place behind the start is the start of the walk from there on
  generalize hfound : (none : Option BraceFault) = found at h
  induction h generalizing middle with
  | violation h => cases hfound
  | ended h =>
    obtain ⟨rfl, rfl⟩ := List.append_eq_nil_iff.mp heq.symm
    rw [List.append_nil]
    exact h fault
  | @onward front tail c found h _ ih =>
    cases middle with
    | nil =>
      obtain rfl : c :: tail = rest := heq
      rw [List.append_nil]
      exact h fault
    | cons d middle =>
      obtain ⟨rfl, hrest⟩ := List.cons.inj heq
      rw [← List.singleton_append, ← List.append_assoc]
      exact ih hrest hfound

/-- A walk that stops has come to the first violation. -/
theorem Walk.first {front cs : List Char} {fault : BraceFault} (h : Walk front cs (some fault)) :
    ∃ middle rest, cs = middle ++ rest ∧ Violation fault (front ++ middle) rest ∧
      ∀ middle' rest' fault', cs = middle' ++ rest' → Violation fault' (front ++ middle') rest' →
        middle.length ≤ middle'.length := by
  generalize hfound : some fault = found at h
  induction h with
  | @violation fault' front rest h =>
    cases hfound
    refine ⟨[], rest, rfl, ?_, fun _ _ _ _ _ => Nat.zero_le _⟩
    rwa [List.append_nil]
  | ended h => cases hfound
  | @onward front tail c found h _ ih =>
    obtain ⟨middle, rest, rfl, hviolation, hleast⟩ := ih hfound
    rw [List.append_assoc] at hviolation
    refine ⟨c :: middle, rest, rfl, hviolation, ?_⟩
    intro middle' rest' fault' heq hviolation'
    cases middle' with
    | nil =>
      -- the place itself is in order
      obtain rfl : c :: (middle ++ rest) = rest' := heq
      rw [List.append_nil] at hviolation'
      exact absurd hviolation' (h fault')
    | cons d middle' =>
      obtain ⟨rfl, hrest⟩ := List.cons.inj heq
      rw [← List.singleton_append, ← List.append_assoc] at hviolation'
      exact Nat.succ_le_succ (hleast middle' rest' fault' hrest hviolation')

/-- The fault that a scan ends with, if it fails. -/
def fault? {α : Type} : Except BraceFault α → Option BraceFault
  | .ok _ => none
  | .error fault => some fault

theorem fault?_map {α β : Type} (f : α → β) (scanned : Except BraceFault α) : fault? (scanned.map f) = fault? scanned := by
  cases scanned <;> rfl

/-- **The scanner stops at the first violation**: outside of a token, and inside of one of which `raw` has been read. -/
theorem walk_scan :
    (∀ text cs front, (∀ raw, ¬ Opens front raw) → Walk front cs (fault? (Piece.scanLiteral text cs))) ∧
    (∀ raw cs front, Opens front raw → Walk front cs (fault? (Piece.scanToken raw cs))) := by
  apply Piece.scanLiteral.mutual_induct
  case case1 => -- the end of the text
    intro text front hclosed
    rw [Piece.scanLiteral_nil]
    apply Walk.ended
    intro fault hviolation
    cases hviolation with
    | unclosed opened => exact hclosed _ opened
  case case2 => -- a brace opens
    intro text rest ih front hclosed
    rw [Piece.scanLiteral_opening, fault?_map]
    refine .onward ?_ (ih _ (opens_concat_iff.mpr (.inl ⟨rfl, rfl⟩)))
    intro fault hviolation
    cases hviolation with
    | nested opened => exact hclosed _ opened
  case case3 => -- a brace closes outside of a token
    intro text rest _ front hclosed
    rw [Piece.scanLiteral_closing]
    exact .violation (.stray hclosed)
  case case4 => -- literal text
    intro text c rest hopening hclosing ih front hclosed
    rw [Piece.scanLiteral_char hopening hclosing]
    refine .onward ?_ (ih _ ?_)
    · intro fault hviolation
      cases hviolation with
      | nested _ => exact hopening rfl
      | unnamed _ _ => exact hclosing rfl
      | stray _ => exact hclosing rfl
    · intro raw hopens
      rcases opens_concat_iff.mp hopens with ⟨hc, -⟩ | ⟨-, raw', -, hopens'⟩
      · exact hopening hc
      · exact hclosed raw' hopens'
  case case5 => -- the text ends inside of a token
    intro raw front hopens
    rw [Piece.scanToken_nil]
    exact .violation (.unclosed hopens)
  case case6 => -- a brace opens inside of a token
    intro raw rest front hopens
    rw [Piece.scanToken_opening]
    exact .violation (.nested hopens)
  case case7 => -- a token without a name
    intro raw rest name hname hopening front hopens
    rw [Piece.scanToken_unnamed hname]
    exact .violation (.unnamed hopens hname)
  case case8 => -- a token ends
    intro raw rest name hname hopening ih front hopens
    rw [Piece.scanToken_named hname, fault?_map]
    refine .onward ?_ (ih _ ?_)
    · intro fault hviolation
      cases hviolation with
      | unnamed opened cleaned =>
        rw [opened.unique hopens] at cleaned
        exact hname cleaned
      | stray closed => exact closed raw hopens
    · intro raw' hopens'
      rcases opens_concat_iff.mp hopens' with ⟨hc, -⟩ | ⟨hc, -⟩
      · exact hopening hc
      · exact hc.2 rfl
  case case9 => -- inside of a token
    intro raw c rest hopening hclosing ih front hopens
    rw [Piece.scanToken_char hopening hclosing]
    refine .onward ?_ (ih _ (opens_concat_iff.mpr (.inr ⟨⟨hopening, hclosing⟩, raw, rfl, hopens⟩)))
    intro fault hviolation
    cases hviolation with
    | nested _ => exact hopening rfl
    | unnamed _ _ => exact hclosing rfl
    | stray _ => exact hclosing rfl

/-- **The scanner fails with the fault of the leftmost violation**, and on no text without one. -/
theorem scan_eq_error_iff (cs : List Char) (fault : BraceFault) :
    Piece.scan cs = .error fault ↔ Leftmost fault cs := by
  have hwalk := walk_scan.1 [] cs [] not_opens_nil
  have hleftmost {fault' : BraceFault} (h : Piece.scan cs = .error fault') : Leftmost fault' cs := by
    rw [show Piece.scanLiteral [] cs = .error fault' from h] at hwalk
    exact hwalk.first
  constructor
  · exact hleftmost
  · intro h
    cases hscan : Piece.scan cs with
    | error fault' => rw [(hleftmost hscan).unique h]
    | ok pieces =>
      obtain ⟨front, rest, heq, hviolation, -⟩ := h
      rw [show Piece.scanLiteral [] cs = .ok pieces from hscan] at hwalk
      exact absurd hviolation (hwalk.sound heq fault)

/-! ## What becomes of a text -/

/-- A computation of two steps fails in the first or in the second. -/
theorem bind_eq_error {ε α β : Type} {x : Except ε α} {f : α → Except ε β} {e : ε} (h : x >>= f = .error e) :
    x = .error e ∨ ∃ a, x = .ok a ∧ f a = .error e := by
  cases x with
  | error e' =>
    cases h
    exact .inl rfl
  | ok a => exact .inr ⟨a, rfl, h⟩

theorem mapError_eq_error {ε ε' α : Type} {x : Except ε α} {f : ε → ε'} {e : ε'} (h : x.mapError f = .error e) :
    ∃ cause, x = .error cause ∧ f cause = e := by
  cases x with
  | ok a => cases h
  | error cause =>
    cases h
    exact ⟨cause, rfl, rfl⟩

/-- Pieces that do not compile fail in their operators, never in their braces. -/
theorem kind_of_compilePieces {pieces : List Piece} {kind : ErrorKind} (h : compilePieces pieces = .error kind) :
    kind = .tooDeep ∨ ∃ fault, kind = .malformed fault := by
  unfold compilePieces at h
  split at h
  · cases h
  · rcases bind_eq_error h with haccessor | ⟨accessor, -, h⟩
    · unfold accessorOf at haccessor
      split at haccessor
      · rcases bind_eq_error haccessor with htokens | ⟨tokens, -, haccessor⟩
        · obtain ⟨fault, -, rfl⟩ := mapError_eq_error htokens
          exact .inr ⟨fault, rfl⟩
        · rcases bind_eq_error haccessor with htree | ⟨tree, -, h⟩
          · obtain ⟨cause, -, rfl⟩ := mapError_eq_error htree
            cases cause with
            | malformed fault => exact .inr ⟨fault, rfl⟩
            | tooDeep => exact .inl rfl
          · cases h
      · cases haccessor
    · cases h

/-- A blank text is no expression. -/
theorem compile_of_blank {input : String} (h : Text.AllBlank input.toList) : compile input = .error ⟨input, .empty⟩ := by
  unfold compile
  rw [if_pos ((Text.isBlankText_iff input).mpr h)]

/-- Any other text compiles as its pieces do. -/
theorem compile_of_braced {input : String} (h : ¬ Text.AllBlank input.toList) {b : Braced}
    (htext : input.toList = b.text) : compile input = (compilePieces b.pieces).mapError (⟨input, ·⟩) := by
  unfold compile
  rw [if_neg (mt (Text.isBlankText_iff input).mp h), htext, b.scan]

/-- Without pieces it fails as the scanner does. -/
theorem compile_of_fault {input : String} (h : ¬ Text.AllBlank input.toList) {fault : BraceFault}
    (hscan : Piece.scan input.toList = .error fault) : compile input = .error ⟨input, .ofBraces fault⟩ := by
  unfold compile
  rw [if_neg (mt (Text.isBlankText_iff input).mp h), hscan]

/-- **An error of a text that is not blank** has the fault of the braces, or comes from pieces that do not compile. -/
theorem error_cases {input : String} (h : ¬ Text.AllBlank input.toList) {e : Error} (he : compile input = .error e) :
    (∃ fault, Piece.scan input.toList = .error fault ∧ e = ⟨input, .ofBraces fault⟩) ∨
      e = ⟨input, .tooDeep⟩ ∨ ∃ fault, e = ⟨input, .malformed fault⟩ := by
  cases hscan : Piece.scan input.toList with
  | error fault =>
    rw [compile_of_fault h hscan] at he
    cases he
    exact .inl ⟨fault, rfl, rfl⟩
  | ok pieces =>
    obtain ⟨b, htext, rfl⟩ := (scan_eq_ok_iff _ _).mp hscan
    rw [compile_of_braced h htext] at he
    obtain ⟨kind, hkind, rfl⟩ := mapError_eq_error he
    rcases kind_of_compilePieces hkind with rfl | ⟨fault, rfl⟩
    · exact .inr (.inl rfl)
    · exact .inr (.inr ⟨fault, rfl⟩)

/-- **The verdict of the braces on a text.** A blank one is empty. Any other passes if it has the right form, and goes on
with its pieces; if not, the leftmost violation decides. Whatever the error is, it carries the text. -/
theorem verdict_of_compile (input : String) :
    (compile input = .error ⟨input, .empty⟩ ↔ Text.AllBlank input.toList) ∧
    (∀ pieces, Piece.scan input.toList = .ok pieces ↔ ∃ b : Braced, input.toList = b.text ∧ pieces = b.pieces) ∧
    (¬ Text.AllBlank input.toList →
      (∀ b : Braced, input.toList = b.text → compile input = (compilePieces b.pieces).mapError (⟨input, ·⟩)) ∧
      ∀ fault, compile input = .error ⟨input, .ofBraces fault⟩ ↔ Leftmost fault input.toList) ∧
    ∀ e, compile input = .error e → e.input = input := by
  refine ⟨⟨?_, compile_of_blank⟩, scan_eq_ok_iff _, fun hblank => ⟨fun b => compile_of_braced hblank, ?_⟩, ?_⟩
  · -- no other error is of the kind of blank texts
    intro he
    by_contra hblank
    rcases error_cases hblank he with ⟨fault, -, heq⟩ | heq | ⟨fault, heq⟩
    · cases fault <;> cases heq
    · cases heq
    · cases heq
  · intro fault
    rw [← scan_eq_error_iff]
    constructor
    · intro he
      rcases error_cases hblank he with ⟨fault', hscan, heq⟩ | heq | ⟨fault', heq⟩
      · rw [hscan]
        cases fault <;> cases fault' <;> cases heq <;> rfl
      · cases fault <;> cases heq
      · cases fault <;> cases heq
    · exact compile_of_fault hblank
  · intro e he
    by_cases hblank : Text.AllBlank input.toList
    · rw [compile_of_blank hblank] at he
      cases he
      rfl
    · rcases error_cases hblank he with ⟨fault, -, rfl⟩ | rfl | ⟨fault, rfl⟩ <;> rfl

/-- Three violations: an empty token, a brace that closes nothing, and a token that is left open. -/
def threeFaults : String := "\x7ba\x7d + \x7b ; \x7d\x7d \x7b b"

/-- The first of them decides. -/
theorem verdict_of_threeFaults :
    ¬ Text.AllBlank threeFaults.toList ∧ Leftmost .emptyToken threeFaults.toList ∧
      compile threeFaults = .error ⟨threeFaults, .emptyToken⟩ := by
  have hcompile : compile threeFaults = .error ⟨threeFaults, .emptyToken⟩ := rfl
  have hverdict := (verdict_of_compile threeFaults).2.2.1 (by decide)
  exact ⟨by decide, (hverdict.2 .emptyToken).mp hcompile, hcompile⟩

end Databind.Expression
