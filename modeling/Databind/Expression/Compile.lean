import Databind.Accessor
import Databind.Expression.Parser

/-!
# `Expression.Compile` — binding expressions

A binding expression compiles to one of three shapes.

* `{f}` or `!{f}` alone reads the field, negated in the second case.
* An expression all of whose literal text is operator text becomes an operator expression.
* Everything else becomes a template.

The triggers are the fields of the tokens. An expression without tokens has none and is a constant.
-/

namespace Databind.Expression

/-- Why a binding expression does not compile. -/
inductive ErrorKind where
  | empty
  | unbalanced
  | emptyToken
  | malformed (fault : Fault)
  | tooDeep
deriving DecidableEq

/-- A binding expression that does not compile, with its text. -/
structure Error where
  input : String
  kind : ErrorKind
deriving DecidableEq

namespace ErrorKind

/-- The wording of a cause. -/
def message : ErrorKind → String
  | empty => "expression is empty"
  | unbalanced => "unbalanced braces"
  | emptyToken => "empty field token"
  | malformed fault => "malformed expression: " ++ fault.message
  | tooDeep => "expression nests deeper than " ++ toString maxNesting ++ " levels"

/-- The cause behind a fault of the braces. -/
def ofBraces : BraceFault → ErrorKind
  | .unbalanced => unbalanced
  | .emptyToken => emptyToken

/-- The cause behind tokens that are no expression. -/
def ofParse : ParseError → ErrorKind
  | .malformed fault => malformed fault
  | .tooDeep => tooDeep

end ErrorKind

/-- The wording of an error. -/
def Error.message (e : Error) : String :=
  "unable to parse binding value '" ++ e.input ++ "': " ++ e.kind.message

/-- A compiled binding expression. -/
structure Compiled where
  accessor : Accessor
  negate : Bool
  triggers : List String

/-- The characters of operator text besides digits and the space. -/
def isOperatorChar (c : Char) : Bool :=
  c ∈ ['=', '>', '<', '!', '&', '|', '+', '-', '*', '/', '%', '(', ')']

/-- Operator text: operator characters, digits and spaces, at least one operator character. -/
def isOperatorText (cs : List Char) : Bool :=
  cs.all (fun c => isOperatorChar c || c.isDigit || c == ' ') && cs.any isOperatorChar

/-- The tokens of pieces whose literals are operator text. -/
def tokensOf : List Piece → Except Fault (List Token)
  | [] => .ok []
  | .literal text :: rest => do
    let here ← Token.scan text
    let behind ← tokensOf rest
    .ok (here ++ behind)
  | .field name :: rest => do
    let behind ← tokensOf rest
    .ok (.field name :: behind)

/-- A lone token, perhaps behind `!`: the field, and whether it is negated. -/
def soleField? : List Piece → Option (String × Bool)
  | [.literal before, .field name, .literal []] =>
    if before = [] then some (name, false)
    else if before = ['!'] then some (name, true)
    else none
  | _ => none

/-- Whether pieces form an operator expression: some literal is not empty, and all those are operator
text. -/
def isLogic (pieces : List Piece) : Bool :=
  !(Piece.literals pieces).isEmpty && (Piece.literals pieces).all isOperatorText

/-- The accessor of pieces that are no lone token. -/
def accessorOf (pieces : List Piece) : Except ErrorKind Accessor :=
  if isLogic pieces then do
    let tokens ← (tokensOf pieces).mapError .malformed
    let tree ← (Tree.ofTokens? tokens).mapError .ofParse
    .ok (.expression tree)
  else .ok (.template (.ofPieces pieces))

/-- The compiled form of pieces. -/
def compilePieces (pieces : List Piece) : Except ErrorKind Compiled :=
  match soleField? pieces with
  | some (name, negate) => .ok ⟨.field name, negate, [name]⟩
  | none => do
    let accessor ← accessorOf pieces
    .ok ⟨accessor, false, Piece.triggers pieces⟩

/-- **Compile a binding expression.** Every error carries the text as given. -/
def compile (input : String) : Except Error Compiled :=
  if Text.isBlankText input then .error ⟨input, .empty⟩
  else
    match Piece.scan input.toList with
    | .error fault => .error ⟨input, .ofBraces fault⟩
    | .ok pieces => (compilePieces pieces).mapError (⟨input, ·⟩)

end Databind.Expression
