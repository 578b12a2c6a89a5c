/-!
# `Json.Reader` — reading JSON documents

`Json.read?` reads one value at the head of a text. Object members keep their order and repetitions. A
string whose escapes denote no text (an unpaired surrogate) reads as `string none`, so whoever uses the
value decides whether that matters; the value of a number is not kept.

## Main definitions

* `Json.read?` — read a value.
* `Json.Reader`, `Json.reader` — ways to read texts, and the one of this module.
-/

namespace Databind

/-- A JSON value, as far as binding maps and settings need it. -/
inductive Json where
  | null
  | number
  | bool (b : Bool)
  | string (s : Option String)
  | array (items : List Json)
  | object (members : List (Option String × Json))

namespace Json

def isSpace (c : Char) : Bool := c = ' ' || c = '\t' || c = '\n' || c = '\r'

def skipSpace (cs : List Char) : List Char := cs.dropWhile isSpace

/-- The value of a hexadecimal digit. -/
def hexDigit? (c : Char) : Option Nat :=
  if c.isDigit then some (c.toNat - '0'.toNat)
  else if 'a' ≤ c ∧ c ≤ 'f' then some (c.toNat - 'a'.toNat + 10)
  else if 'A' ≤ c ∧ c ≤ 'F' then some (c.toNat - 'A'.toNat + 10)
  else none

/-- The four hexadecimal digits of an escape. -/
def readHex? : List Char → Option (Nat × List Char)
  | a :: b :: c :: d :: rest => do
    let a ← hexDigit? a
    let b ← hexDigit? b
    let c ← hexDigit? c
    let d ← hexDigit? d
    some (((a * 16 + b) * 16 + c) * 16 + d, rest)
  | _ => none

/-- The character of a one-letter escape. -/
def simpleEscape? : Char → Option Char
  | '"' => some '"'
  | '\\' => some '\\'
  | '/' => some '/'
  | 'b' => some '\x08'
  | 'f' => some '\x0c'
  | 'n' => some '\n'
  | 'r' => some '\r'
  | 't' => some '\t'
  | _ => none

/-- One unit of a string: a character, or half of a pair of surrogates. -/
inductive Piece where
  | char (c : Char)
  | high (unit : Nat)
  | low (unit : Nat)

/-- The unit that four hexadecimal digits denote. -/
def Piece.ofCode (n : Nat) : Piece :=
  if 0xd800 ≤ n ∧ n < 0xdc00 then .high n
  else if 0xdc00 ≤ n ∧ n < 0xe000 then .low n
  else .char (Char.ofNat n)

/-- The text of a list of units; none if a surrogate stands alone. -/
def Piece.text? : List Piece → Option (List Char)
  | [] => some []
  | .char c :: rest => (text? rest).map (c :: ·)
  | .high hi :: .low lo :: rest =>
    (text? rest).map (Char.ofNat (0x10000 + (hi - 0xd800) * 0x400 + (lo - 0xdc00)) :: ·)
  | _ => none

/-- The units of a string up to its closing quote, and what follows; at most `fuel` characters. -/
def readPieces? : Nat → List Char → Option (List Piece × List Char)
  | 0, _ => none
  | _ + 1, [] => none
  | fuel + 1, c :: rest =>
    if c = '"' then some ([], rest)
    else if c = '\\' then
      match rest with
      | 'u' :: rest => do
        let (code, rest) ← readHex? rest
        let (pieces, rest) ← readPieces? fuel rest
        some (.ofCode code :: pieces, rest)
      | e :: rest => do
        let c ← simpleEscape? e
        let (pieces, rest) ← readPieces? fuel rest
        some (.char c :: pieces, rest)
      | [] => none
    else if c.toNat < 32 then none
    else do
      let (pieces, rest) ← readPieces? fuel rest
      some (.char c :: pieces, rest)

/-- A string behind its opening quote. -/
def readString? (cs : List Char) : Option (Option String × List Char) := do
  let (pieces, rest) ← readPieces? (cs.length + 1) cs
  some ((Piece.text? pieces).map String.ofList, rest)

/-- What follows a word that the text begins with. -/
def readWord? (word : String) (cs : List Char) : Option (List Char) :=
  if word.toList.isPrefixOf cs then some (cs.drop word.toList.length) else none

/-- What follows one or more digits. -/
def skipDigits? (cs : List Char) : Option (List Char) :=
  match cs with
  | c :: rest => if c.isDigit then some (rest.dropWhile Char.isDigit) else none
  | [] => none

/-- What follows the number at the head of a text. -/
def skipNumber? (cs : List Char) : Option (List Char) := do
  let cs := if cs.head? = some '-' then cs.tail else cs
  let cs ←
    match cs with
    | '0' :: rest => if (rest.head?.map Char.isDigit).getD false then none else some rest
    | _ => skipDigits? cs
  let cs ←
    match cs with
    | '.' :: rest => skipDigits? rest
    | _ => some cs
  match cs with
  | [] => some cs
  | e :: rest =>
    if e = 'e' ∨ e = 'E' then
      match rest with
      | '+' :: rest => skipDigits? rest
      | '-' :: rest => skipDigits? rest
      | _ => skipDigits? rest
    else some cs

mutual

/-- The value at the head of a text; `fuel` bounds the number of values and separators. -/
def readValue? : Nat → List Char → Option (Json × List Char)
  | 0, _ => none
  | fuel + 1, cs =>
    match skipSpace cs with
    | [] => none
    | c :: rest =>
      if c = '"' then do
        let (s, rest) ← readString? rest
        some (.string s, rest)
      else if c = '[' then
        match skipSpace rest with
        | ']' :: rest => some (.array [], rest)
        | _ => do
          let (items, rest) ← readItems? fuel rest
          some (.array items, rest)
      else if c = '\x7b' then
        match skipSpace rest with
        | '\x7d' :: rest => some (.object [], rest)
        | rest => do
          let (members, rest) ← readMembers? fuel rest
          some (.object members, rest)
      else if c = 't' then (readWord? "rue" rest).map (.bool true, ·)
      else if c = 'f' then (readWord? "alse" rest).map (.bool false, ·)
      else if c = 'n' then (readWord? "ull" rest).map (.null, ·)
      else (skipNumber? (c :: rest)).map (.number, ·)

/-- The items of an array up to its closing bracket. -/
def readItems? : Nat → List Char → Option (List Json × List Char)
  | 0, _ => none
  | fuel + 1, cs => do
    let (item, rest) ← readValue? fuel cs
    match skipSpace rest with
    | ',' :: rest => do
      let (items, rest) ← readItems? fuel rest
      some (item :: items, rest)
    | ']' :: rest => some ([item], rest)
    | _ => none

/-- The members of an object up to its closing brace. -/
def readMembers? : Nat → List Char → Option (List (Option String × Json) × List Char)
  | 0, _ => none
  | fuel + 1, cs =>
    match skipSpace cs with
    | '"' :: rest => do
      let (key, rest) ← readString? rest
      match skipSpace rest with
      | ':' :: rest => do
        let (value, rest) ← readValue? fuel rest
        match skipSpace rest with
        | ',' :: rest => do
          let (members, rest) ← readMembers? fuel rest
          some ((key, value) :: members, rest)
        | '\x7d' :: rest => some ([(key, value)], rest)
        | _ => none
      | _ => none
    | _ => none

end

/-- The value at the head of a text, and the text behind it. -/
def read? (s : String) : Option (Json × List Char) := readValue? (s.toList.length + 1) s.toList

/-- Whether nothing but space is left. -/
def atEnd (cs : List Char) : Bool := (skipSpace cs).isEmpty

/-- A way to read JSON texts. Whoever decodes a text takes one, and relies on nothing else about it. -/
structure Reader where
  /-- The value at the head of a text, and the text behind it. -/
  read? : String → Option (Json × List Char)
  /-- Whether nothing that counts is left of a text. -/
  atEnd : List Char → Bool

/-- The way of this module. -/
def reader : Reader := ⟨read?, atEnd⟩

end Json

end Databind
