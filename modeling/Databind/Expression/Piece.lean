import Databind.Text.Name

/-!
# `Expression.Piece` — literal text and field tokens

A binding expression is literal text with field tokens in braces. `Piece.scan` splits it: the pieces
alternate between literals and fields, begin and end with a literal, and a literal may be empty. Braces
do not nest, and a token has to hold a name.
-/

namespace Databind.Expression

/-- A stretch of literal text, or the field a token names. -/
inductive Piece where
  | literal (text : List Char)
  | field (name : String)
deriving DecidableEq

/-- What is wrong with the braces of an expression. -/
inductive BraceFault where
  /-- A brace opens inside a token, closes outside one, or is never closed. -/
  | unbalanced
  /-- A token without a name. -/
  | emptyToken
deriving DecidableEq

namespace Piece

mutual

/-- The pieces of a text outside of any token; `text` is the literal read so far. -/
def scanLiteral (text : List Char) : List Char → Except BraceFault (List Piece)
  | [] => .ok [literal text]
  | c :: rest =>
    if c = '{' then (scanToken [] rest).map (literal text :: ·)
    else if c = '}' then .error .unbalanced
    else scanLiteral (text ++ [c]) rest

/-- The pieces of a text inside a token; `raw` is the token read so far. -/
def scanToken (raw : List Char) : List Char → Except BraceFault (List Piece)
  | [] => .error .unbalanced
  | c :: rest =>
    if c = '{' then .error .unbalanced
    else if c = '}' then
      let name := Text.cleanChars raw
      if name = [] then .error .emptyToken
      else (scanLiteral [] rest).map (field (String.ofList name) :: ·)
    else scanToken (raw ++ [c]) rest

end

section

variable {c : Char} {text raw rest : List Char}

/-- The text ends outside of a token: the literal read so far is the last piece. -/
theorem scanLiteral_nil : scanLiteral text [] = .ok [literal text] := by rw [scanLiteral]

/-- **A brace opens a token**, and ends the literal in front of it, even if that is empty. -/
theorem scanLiteral_opening :
    scanLiteral text ('{' :: rest) = (scanToken [] rest).map (literal text :: ·) := by
  rw [scanLiteral, if_pos rfl]

/-- A brace that closes nothing. -/
theorem scanLiteral_closing : scanLiteral text ('}' :: rest) = .error .unbalanced := by
  rw [scanLiteral, if_neg (by decide), if_pos rfl]

/-- Any other letter belongs to the literal. -/
theorem scanLiteral_char (hopening : c ≠ '{') (hclosing : c ≠ '}') :
    scanLiteral text (c :: rest) = scanLiteral (text ++ [c]) rest := by
  rw [scanLiteral, if_neg hopening, if_neg hclosing]

/-- The text ends inside a token. -/
theorem scanToken_nil : scanToken raw [] = .error .unbalanced := by rw [scanToken]

/-- A brace that opens inside a token: tokens do not nest. -/
theorem scanToken_opening : scanToken raw ('{' :: rest) = .error .unbalanced := by
  rw [scanToken, if_pos rfl]

/-- A token without a name: nothing is left of it once it is cleaned. -/
theorem scanToken_unnamed (hname : Text.cleanChars raw = []) :
    scanToken raw ('}' :: rest) = .error .emptyToken := by
  rw [scanToken, if_neg (by decide), if_pos rfl]
  exact if_pos hname

/-- **A token that names a field** is a piece, and the next literal begins behind it. -/
theorem scanToken_named (hname : Text.cleanChars raw ≠ []) :
    scanToken raw ('}' :: rest) =
      (scanLiteral [] rest).map (field (String.ofList (Text.cleanChars raw)) :: ·) := by
  rw [scanToken, if_neg (by decide), if_pos rfl]
  exact if_neg hname

/-- Any other letter belongs to the token. -/
theorem scanToken_char (hopening : c ≠ '{') (hclosing : c ≠ '}') :
    scanToken raw (c :: rest) = scanToken (raw ++ [c]) rest := by
  rw [scanToken, if_neg hopening, if_neg hclosing]

end

/-- The pieces of an expression. -/
def scan (cs : List Char) : Except BraceFault (List Piece) := scanLiteral [] cs

/-- The names of the fields among the pieces, without repetition, in order of first appearance. -/
def triggers (pieces : List Piece) : List String :=
  pieces.foldl (fun names piece =>
    match piece with
    | literal _ => names
    | field name => if name ∈ names then names else names ++ [name]) []

/-- The literals that are not empty. -/
def literals (pieces : List Piece) : List (List Char) :=
  pieces.filterMap fun piece =>
    match piece with
    | literal text => if text = [] then none else some text
    | field _ => none

end Piece

end Databind.Expression
