import Databind.Binding
import Databind.Expression.Compile
import Databind.Proofs.Parsing
import Databind.Record.Basic
import Mathlib.Data.List.Induction

/-!
# `Proofs.Triggers` — an expression reads nothing but its triggers

The triggers of an expression come from the pieces of its text, and its accessor from another pass over the same
pieces. Three lists of names have to agree: those written in braces in the text (`tokenNames`), those of the pieces
(`Piece.names`), and those that the accessor reads. For an operator expression the names go through two more hands,
the tokens and the tree that the grammar gives them.

An accessor sees the fields it reads only through `has` and `get`. Fields that agree on the triggers (`Fields.Agree`)
are therefore the same to it, and so are the fields before and after a write to anything else.
-/

namespace Databind

/-! ## Fields that agree on some names -/

/-- Two records hold the same under the given names. -/
def Fields.Agree (names : List String) (fields fields' : Fields) : Prop :=
  ∀ name ∈ names, fields.has name = fields'.has name ∧ fields.get name = fields'.get name

namespace Fields.Agree

variable {names names' : List String} {fields fields' : Fields}

theorem mono (h : Agree names fields fields') (hsub : names' ⊆ names) : Agree names' fields fields' := by
  intro name hmem
  exact h name (hsub hmem)

/-- To agree on a name it is enough to hold the same under it. -/
theorem of_get? (h : ∀ name ∈ names, Dict.get? fields name = Dict.get? fields' name) : Agree names fields fields' := by
  intro name hmem
  unfold has get Dict.contains
  rw [h name hmem]
  exact ⟨rfl, rfl⟩

end Fields.Agree

namespace Expression

/-! ## What an accessor reads -/

section

variable {fields fields' : Fields}

/-- **An operator expression depends only on the fields at its leaves.** -/
theorem Tree.evaluate_congr {tree : Tree} (h : Fields.Agree tree.fieldNames fields fields') :
    tree.evaluate fields = tree.evaluate fields' := by
  induction tree with
  | number n => rfl
  | field name =>
    obtain ⟨hhas, hget⟩ := h name List.mem_cons_self
    rw [evaluate, evaluate, hhas, hget]
  | unary op operand ih =>
    rw [evaluate, evaluate, ih h]
  | binary op left right ihleft ihright =>
    rw [evaluate, evaluate, ihleft (h.mono (List.subset_append_left _ _)),
      ihright (h.mono (List.subset_append_right _ _))]

/-- The names of the fields among the pieces, in order. -/
def Piece.names (pieces : List Piece) : List String :=
  pieces.filterMap fun
    | .literal _ => none
    | .field name => some name

/-- A field that a template fills in comes from a piece. -/
theorem Template.mem_names {pieces : List Piece} {name : String} (h : .field name ∈ (ofPieces pieces).parts) :
    name ∈ Piece.names pieces := by
  obtain ⟨piece, hpiece, hpart⟩ := List.mem_filterMap.mp h
  refine List.mem_filterMap.mpr ⟨piece, hpiece, ?_⟩
  cases piece with
  | literal text =>
    dsimp only at hpart
    split at hpart <;> cases hpart
  | field name' =>
    cases hpart
    rfl

/-- **A template depends only on the fields that it fills in.** -/
theorem Template.render_congr {pieces : List Piece} (h : Fields.Agree (Piece.names pieces) fields fields') :
    (ofPieces pieces).render fields = (ofPieces pieces).render fields' := by
  unfold render
  congr 1
  apply List.map_congr_left
  intro part hpart
  cases part with
  | literal text => rfl
  | field name =>
    obtain ⟨hhas, hget⟩ := h name (mem_names hpart)
    rw [partText, partText, hhas, hget]

end

/-! ## From pieces through tokens to a tree -/

/-- The field that a token names, if it names one. -/
def Token.fieldName? : Token → Option String
  | .field name => some name
  | _ => none

/-- The fields that tokens name, in order. -/
def Token.fieldNames (tokens : List Token) : List String := tokens.filterMap fieldName?

theorem Token.fieldNames_append (tokens tokens' : List Token) :
    fieldNames (tokens ++ tokens') = fieldNames tokens ++ fieldNames tokens' :=
  List.filterMap_append

/-- **The leaves of a tree are the fields that its tokens name.** -/
theorem Derives.fieldNames {level nesting : Nat} {tokens : List Token} {tree : Tree}
    (h : Derives level tokens tree nesting) : tree.fieldNames = Token.fieldNames tokens := by
  induction h with
  | number => rfl
  | field => rfl
  | @group tokens tree nesting _ ih =>
    show _ = Token.fieldNames (tokens ++ [.closing])
    rw [Token.fieldNames_append, ih]
    exact (List.append_nil _).symm
  | unary _ _ ih => exact ih
  | @binary level op left right a b n k _ _ _ ihleft ihright =>
    rw [Token.fieldNames_append, Tree.fieldNames, ihleft, ihright]
    rfl
  | tighter _ ih => exact ih

theorem map_eq_ok {ε α β : Type} {x : Except ε α} {f : α → β} {b : β} (h : x.map f = .ok b) :
    ∃ a, x = .ok a ∧ f a = b := by
  cases x with
  | ok a =>
    cases h
    exact ⟨a, rfl, rfl⟩
  | error e => cases h

/-- A token that is no field goes in front of tokens that name none. -/
theorem Token.fieldNames_cons {ε : Type} {scanned : Except ε (List Token)} {token : Token} {tokens : List Token}
    (htoken : token.fieldName? = none) (ih : ∀ {rest}, scanned = .ok rest → fieldNames rest = [])
    (h : scanned.map (token :: ·) = .ok tokens) : fieldNames tokens = [] := by
  cases scanned with
  | error e => cases h
  | ok rest =>
    cases h
    rw [fieldNames, List.filterMap_cons_none htoken]
    exact ih rfl

/-- Literal text names no field. -/
theorem Token.fieldNames_scan {cs : List Char} {tokens : List Token} (h : scan cs = .ok tokens) :
    fieldNames tokens = [] := by
  induction cs using scan.induct generalizing tokens with
  | case1 =>
    rw [scan] at h
    cases h
    rfl
  | case2 c rest hblank ih =>
    rw [scan, if_pos hblank] at h
    exact ih h
  | case3 c rest hblank hdigit ih =>
    rw [scan, if_neg hblank, if_pos hdigit] at h
    exact fieldNames_cons rfl ih h
  | case4 rest hblank hdigit ih =>
    rw [scan, if_neg hblank, if_neg hdigit, if_pos rfl] at h
    exact fieldNames_cons rfl ih h
  | case5 rest hblank hdigit hopening ih =>
    rw [scan, if_neg hblank, if_neg hdigit, if_neg hopening, if_pos rfl] at h
    exact fieldNames_cons rfl ih h
  | case6 c rest hblank hdigit hopening hclosing operator hoperator ih =>
    rw [scan, if_neg hblank, if_neg hdigit, if_neg hopening, if_neg hclosing, hoperator] at h
    exact fieldNames_cons rfl ih h
  | case7 c rest hblank hdigit hopening hclosing hoperator =>
    rw [scan, if_neg hblank, if_neg hdigit, if_neg hopening, if_neg hclosing, hoperator] at h
    cases h

/-- **The tokens of an expression name the fields of its pieces.** -/
theorem fieldNames_tokensOf {pieces : List Piece} {tokens : List Token} (h : tokensOf pieces = .ok tokens) :
    Token.fieldNames tokens = Piece.names pieces := by
  induction pieces generalizing tokens with
  | nil =>
    cases h
    rfl
  | cons piece rest ih =>
    cases piece with
    | literal text =>
      obtain ⟨here, hhere, h⟩ := bind_eq_ok h
      obtain ⟨behind, hbehind, h⟩ := bind_eq_ok h
      cases h
      rw [Token.fieldNames_append, Token.fieldNames_scan hhere, ih hbehind]
      rfl
    | field name =>
      obtain ⟨behind, hbehind, h⟩ := bind_eq_ok h
      cases h
      show name :: Token.fieldNames behind = name :: Piece.names rest
      rw [ih hbehind]

/-! ## From the text to its pieces -/

/-- The name of a token in braces, from the text behind its opening brace. -/
def nameBehind (cs : List Char) : String := String.ofList (Text.cleanChars (cs.takeWhile (· ≠ '}')))

/-- **The names that a text has in braces**, cleaned, in order. -/
def tokenNames (cs : List Char) : List String := (Text.splitWhere (· = '{') cs).tail.map nameBehind

theorem splitWhere_cons_of_ne {c : Char} (h : c ≠ '{') (rest : List Char) :
    ∃ first others, Text.splitWhere (· = '{') rest = first :: others ∧
      Text.splitWhere (· = '{') (c :: rest) = (c :: first) :: others := by
  cases hsplit : Text.splitWhere (· = '{') rest with
  | nil => exact absurd hsplit (Text.splitWhere_ne_nil _ _)
  | cons first others =>
    refine ⟨first, others, rfl, ?_⟩
    rw [Text.splitWhere, if_neg (by simpa using h), hsplit]

/-- The pieces of a text have the names that it has in braces: outside of a token, and inside of one of which `raw` has
been read. -/
theorem names_of_scan :
    (∀ text cs pieces, Piece.scanLiteral text cs = .ok pieces → Piece.names pieces = tokenNames cs) ∧
    (∀ raw cs pieces, Piece.scanToken raw cs = .ok pieces →
      ∃ first others, Text.splitWhere (· = '{') cs = first :: others ∧
        Piece.names pieces =
          String.ofList (Text.cleanChars (raw ++ first.takeWhile (· ≠ '}'))) :: others.map nameBehind) := by
  apply Piece.scanLiteral.mutual_induct
  case case1 => -- the end of the text
    intro text pieces h
    rw [Piece.scanLiteral_nil] at h
    cases h
    rfl
  case case2 => -- a brace opens
    intro text rest ih pieces h
    rw [Piece.scanLiteral_opening] at h
    obtain ⟨pieces', hscan, rfl⟩ := map_eq_ok h
    obtain ⟨first, others, hsplit, hnames⟩ := ih _ hscan
    show Piece.names pieces' = _
    rw [hnames, tokenNames, Text.splitWhere, if_pos (by decide), hsplit]
    rfl
  case case3 => -- a brace closes outside of a token
    intro text rest _ pieces h
    rw [Piece.scanLiteral_closing] at h
    cases h
  case case4 => -- literal text
    intro text c rest hopening hclosing ih pieces h
    rw [Piece.scanLiteral_char hopening hclosing] at h
    obtain ⟨first, others, hrest, hcons⟩ := splitWhere_cons_of_ne hopening rest
    rw [ih _ h, tokenNames, tokenNames, hrest, hcons]
    rfl
  case case5 => -- the text ends inside of a token
    intro raw pieces h
    rw [Piece.scanToken_nil] at h
    cases h
  case case6 => -- a brace opens inside of a token
    intro raw rest pieces h
    rw [Piece.scanToken_opening] at h
    cases h
  case case7 => -- a token without a name
    intro raw rest name hname hopening pieces h
    rw [Piece.scanToken_unnamed hname] at h
    cases h
  case case8 => -- a token ends
    intro raw rest name hname hopening ih pieces h
    rw [Piece.scanToken_named hname] at h
    obtain ⟨pieces', hscan, rfl⟩ := map_eq_ok h
    obtain ⟨first, others, hrest, hcons⟩ := splitWhere_cons_of_ne hopening rest
    refine ⟨'}' :: first, others, hcons, ?_⟩
    show String.ofList name :: Piece.names pieces' = _
    rw [ih _ hscan, tokenNames, hrest, List.takeWhile_cons_of_neg (by decide), List.append_nil]
    rfl
  case case9 => -- inside of a token
    intro raw c rest hopening hclosing ih pieces h
    rw [Piece.scanToken_char hopening hclosing] at h
    obtain ⟨first, others, hsplit, hnames⟩ := ih _ h
    obtain ⟨first', others', hrest, hcons⟩ := splitWhere_cons_of_ne hopening rest
    rw [hsplit] at hrest
    cases hrest
    refine ⟨c :: first, others, hcons, ?_⟩
    rw [hnames, List.takeWhile_cons_of_pos (by simpa using hclosing), List.append_assoc, List.singleton_append]

/-- One more field is a trigger if it was none before. -/
theorem triggers_append_field (pieces : List Piece) (name : String) :
    Piece.triggers (pieces ++ [.field name]) =
      if name ∈ Piece.triggers pieces then Piece.triggers pieces else Piece.triggers pieces ++ [name] := by
  rw [Piece.triggers, List.foldl_append]
  rfl

theorem triggers_append_literal (pieces : List Piece) (text : List Char) :
    Piece.triggers (pieces ++ [.literal text]) = Piece.triggers pieces := by
  rw [Piece.triggers, List.foldl_append]
  rfl

/-- **The triggers of pieces are their names**, each where it first appears. -/
theorem triggers_eq_eraseDups (pieces : List Piece) : Piece.triggers pieces = (Piece.names pieces).eraseDups := by
  induction pieces using List.reverseRecOn with
  | nil => rfl
  | append_singleton pieces piece ih =>
    -- triggers are collected from the front, so the last piece is the one that may be left out
    have hnames : Piece.names (pieces ++ [piece]) = Piece.names pieces ++ Piece.names [piece] := List.filterMap_append
    cases piece with
    | literal text =>
      rw [triggers_append_literal, ih, hnames]
      exact congrArg List.eraseDups (List.append_nil _).symm
    | field name =>
      rw [triggers_append_field, hnames]
      show _ = (Piece.names pieces ++ [name]).eraseDups
      rw [eraseDups_concat, ih]
      exact if_congr List.mem_eraseDups rfl rfl

/-! ## From the text to what is compiled -/

theorem mapError_eq_ok {ε ε' α : Type} {x : Except ε α} {f : ε → ε'} {a : α} (h : x.mapError f = .ok a) :
    x = .ok a := by
  cases x with
  | ok a' =>
    cases h
    rfl
  | error e => cases h

/-- A text that compiles has pieces, and they compile. -/
theorem exists_of_compile {input : String} {compiled : Compiled} (h : compile input = .ok compiled) :
    ∃ pieces, Piece.scan input.toList = .ok pieces ∧ compilePieces pieces = .ok compiled := by
  unfold compile at h
  split at h
  · cases h
  · split at h
    · cases h
    · next pieces hscan => exact ⟨pieces, hscan, mapError_eq_ok h⟩

/-- An accessor of pieces is an operator expression of the tree of their tokens, or a template of them. -/
theorem accessorOf_cases {pieces : List Piece} {accessor : Accessor} (h : accessorOf pieces = .ok accessor) :
    (∃ tokens tree, tokensOf pieces = .ok tokens ∧ Tree.ofTokens? tokens = .ok tree ∧ accessor = .expression tree) ∨
      accessor = .template (.ofPieces pieces) := by
  unfold accessorOf at h
  split at h
  · obtain ⟨tokens, htokens, h⟩ := bind_eq_ok h
    obtain ⟨tree, htree, h⟩ := bind_eq_ok h
    cases h
    exact .inl ⟨tokens, tree, mapError_eq_ok htokens, mapError_eq_ok htree, rfl⟩
  · cases h
    exact .inr rfl

/-- The accessor of pieces reads only the fields among them. -/
theorem accessorOf_congr {pieces : List Piece} {accessor : Accessor} {fields fields' : Fields}
    (h : accessorOf pieces = .ok accessor) (hagree : Fields.Agree (Piece.names pieces) fields fields') :
    accessor.evaluate fields = accessor.evaluate fields' := by
  rcases accessorOf_cases h with ⟨tokens, tree, htokens, htree, rfl⟩ | rfl
  · obtain ⟨nesting, hderives, -⟩ := derives_of_ofTokens? htree
    rw [← fieldNames_tokensOf htokens, ← hderives.fieldNames] at hagree
    exact Tree.evaluate_congr hagree
  · show Value.string _ = .string _
    rw [Template.render_congr hagree]

/-- A lone token is one field, perhaps behind `!`. -/
theorem soleField?_eq_some {pieces : List Piece} {name : String} {negate : Bool}
    (h : soleField? pieces = some (name, negate)) :
    ∃ before, (before = [] ∨ before = ['!']) ∧ pieces = [.literal before, .field name, .literal []] := by
  unfold soleField? at h
  split at h
  · next before name' =>
    split at h
    · next hempty =>
      cases h
      exact ⟨before, .inl hempty, rfl⟩
    · split at h
      · next hnot =>
        cases h
        exact ⟨before, .inr hnot, rfl⟩
      · cases h
  · cases h

/-- **What pieces compile to reads only the fields among them**, and these are its triggers. -/
theorem compilePieces_congr {pieces : List Piece} {compiled : Compiled} (h : compilePieces pieces = .ok compiled) :
    compiled.triggers = (Piece.names pieces).eraseDups ∧
      ∀ fields fields', Fields.Agree (Piece.names pieces) fields fields' →
        compiled.accessor.evaluate fields = compiled.accessor.evaluate fields' := by
  unfold compilePieces at h
  split at h
  · next name negate hsole =>
    obtain ⟨before, -, rfl⟩ := soleField?_eq_some hsole
    cases h
    exact ⟨rfl, fun fields fields' hagree => (hagree name List.mem_cons_self).2⟩
  · obtain ⟨accessor, haccessor, h⟩ := bind_eq_ok h
    cases h
    exact ⟨triggers_eq_eraseDups pieces, fun fields fields' => accessorOf_congr haccessor⟩

/-- What an expression compiles to reads only its triggers. -/
theorem evaluate_congr_of_compile {input : String} {compiled : Compiled} (h : compile input = .ok compiled)
    {fields fields' : Fields} (hagree : Fields.Agree compiled.triggers fields fields') :
    compiled.accessor.evaluate fields = compiled.accessor.evaluate fields' := by
  obtain ⟨pieces, -, hpieces⟩ := exists_of_compile h
  obtain ⟨htriggers, hcongr⟩ := compilePieces_congr hpieces
  apply hcongr fields fields'
  apply hagree.mono
  intro name hmem
  rw [htriggers]
  exact List.mem_eraseDups.mpr hmem

end Expression

/-! ## Writes to other fields -/

namespace Fields

variable {fields fields' : Fields} {name other : String} {v : Value}

/-- A write reaches no field but its own. -/
theorem get?_store? (h : fields.store? name v = some fields') (hne : other ≠ name) :
    Dict.get? fields' other = Dict.get? fields other := by
  unfold store? at h
  split at h
  · split at h
    · cases h
      rw [Dict.get?_erase, if_neg hne]
    · cases h
  · split at h
    · cases h
    · cases h
      rw [Dict.get?_insert, if_neg hne]

end Fields

namespace Record

variable {validator : Option Validator} {name : String}

theorem Batch.get?_store (b : Batch) {other : String} (v : Value) (hne : name ≠ other) :
    Dict.get? (b.store other v).fields name = Dict.get? b.fields name := by
  unfold store
  split
  · next fields hstore => exact Fields.get?_store? hstore hne
  · rfl

theorem Batch.get?_write (b : Batch) {entry : String × Value} (hne : name ≠ entry.1) :
    Dict.get? (b.write validator entry).fields name = Dict.get? b.fields name := by
  unfold write
  split
  · exact b.get?_store _ hne
  · dsimp only
    split
    · exact get?_store _ _ hne
    · rfl

/-- **A batch leaves alone what it does not name.** -/
theorem get?_batch (r : Record) {entries : List (String × Value)} (hne : ∀ entry ∈ entries, entry.1 ≠ name) :
    Dict.get? (r.batch entries).fields name = Dict.get? r.fields name := by
  have hfold (b : Batch) : Dict.get? (entries.foldl (Batch.write r.validator) b).fields name = Dict.get? b.fields name := by
    induction entries generalizing b with
    | nil => rfl
    | cons entry rest ih =>
      rw [List.foldl_cons, ih fun e he => hne e (List.mem_cons_of_mem _ he)]
      exact b.get?_write (hne entry List.mem_cons_self).symm
  exact hfold _

end Record

namespace Expression

/-- **An expression depends on its triggers and on nothing else.** Two records that agree on what the triggers hold give
what it compiles to the same value. The triggers are the names that the text has in braces, each where it first appears.
And a batch of writes to other fields changes nothing that a binding of the expression shows. -/
theorem triggers_of_compile {input : String} {compiled : Compiled} (h : compile input = .ok compiled) :
    (∀ r r' : Record, (∀ name ∈ compiled.triggers,
        r.fields.has name = r'.fields.has name ∧ r.fields.get name = r'.fields.get name) →
      compiled.accessor.evaluate r.fields = compiled.accessor.evaluate r'.fields) ∧
    compiled.triggers = (tokenNames input.toList).eraseDups ∧
    (∀ (b : Binding) (r : Record) (entries : List (String × Value)), b.accessor = compiled.accessor →
      (∀ entry ∈ entries, entry.1 ∉ compiled.triggers) →
      b.value (r.commit (r.batch entries)).fields = b.value r.fields) := by
  refine ⟨fun r r' => evaluate_congr_of_compile h, ?_, ?_⟩
  · obtain ⟨pieces, hscan, hpieces⟩ := exists_of_compile h
    rw [(compilePieces_congr hpieces).1, names_of_scan.1 _ _ _ hscan]
  · intro b r entries haccessor hentries
    have hagree : Fields.Agree compiled.triggers (r.commit (r.batch entries)).fields r.fields :=
      .of_get? fun name hname => r.get?_batch fun entry hentry heq => hentries entry hentry (heq ▸ hname)
    unfold Binding.value
    rw [haccessor, evaluate_congr_of_compile h hagree]

/-- A template that names a field twice. Records that differ in `age` and `rank` look the same to it, and a batch that
alters both leaves what it shows as it was. -/
theorem triggers_of_compile_repeated :
    ∃ compiled, compile "{last}, {first} {last}" = .ok compiled ∧ compiled.triggers = ["last", "first"] ∧
      compiled.accessor.evaluate (.ofEntries [("first", .string "Ada"), ("age", .null)]) =
        compiled.accessor.evaluate (.ofEntries [("first", .string "Ada"), ("rank", .bool true)]) ∧
      ∀ b : Binding, b.accessor = compiled.accessor →
        let r := Record.ofFields (.ofEntries [("first", .string "Ada"), ("age", .null)])
        let b' := r.batch [("age", .bool true), ("rank", .bool true)]
        b'.changed.names = ["age", "rank"] ∧ b.value (r.commit b').fields = b.value r.fields := by
  have hcompile : ∃ compiled, compile "{last}, {first} {last}" = .ok compiled ∧
      compiled.triggers = ["last", "first"] := ⟨_, rfl, rfl⟩
  obtain ⟨compiled, hok, htriggers⟩ := hcompile
  obtain ⟨hagree, -, hwrite⟩ := triggers_of_compile hok
  rw [htriggers] at hagree hwrite
  refine ⟨compiled, hok, htriggers, ?_, fun b haccessor => ⟨by decide, hwrite b _ _ haccessor (by decide)⟩⟩
  exact hagree (.ofFields (.ofEntries [("first", .string "Ada"), ("age", .null)]))
    (.ofFields (.ofEntries [("first", .string "Ada"), ("rank", .bool true)])) (by decide)

end Expression

end Databind
