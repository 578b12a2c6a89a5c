import Databind.Number.Decimal
import Databind.Number.Text
import Databind.Text.Blank

/-!
# `Value` — what a record field holds, and its loose conversions

A field holds one of five kinds of scalar. Bindings read values loosely: any value has a truth value
(`truthy`), a number (`toNumber`), a 32-bit integer (`toInt32`) and a text (`display`), and there are
three comparisons: `strictEqual`, `looseEqual` and `compare`.

Text becomes a number in two ways. `Value.toNumber` reads the whole trimmed text; `floatPrefix` reads
the longest decimal prefix and ignores what follows.
-/

namespace Databind

-- Powers are the powers of natural numbers themselves, whatever algebra is in scope.
attribute [local instance (2000)] instPowNat

/-- A scalar value. `undefined` stands for an absent field. -/
inductive Value where
  | undefined
  | null
  | bool (b : Bool)
  | number (n : Number)
  | string (s : String)
deriving DecidableEq

namespace Value

instance : Inhabited Value := ⟨undefined⟩

/-- The five kinds of value. -/
inductive Kind where
  | undefined
  | null
  | bool
  | number
  | string
deriving DecidableEq

def kind : Value → Kind
  | undefined => .undefined
  | null => .null
  | bool _ => .bool
  | number _ => .number
  | string _ => .string

def isUndefined : Value → Bool
  | undefined => true
  | _ => false

/-! ## Conversions -/

/-- The truth value: zero, not-a-number, the empty text and the two absent values are false. -/
def truthy : Value → Bool
  | undefined => false
  | null => false
  | bool b => b
  | number n => !n.isZero && !n.isNaN
  | string s => s != ""

/-- The number a whole text denotes. Besides literals it may be a signed `Infinity`; the words `nan`
and `inf` by themselves denote nothing. -/
def readNumber? (cs : List Char) : Option Number :=
  if cs = "Infinity".toList ∨ cs = "+Infinity".toList then some (.infinite false)
  else if cs = "-Infinity".toList then some (.infinite true)
  else if Number.lowered cs = "nan".toList ∨ Number.lowered cs = "inf".toList then none
  else Number.ofLiteral? cs

/-- The number a text denotes once trimmed: zero for blank text, not-a-number for what is no number. -/
def numberOfText (s : String) : Number :=
  let cs := Text.trimChars s.toList
  if cs = [] then .zero false else (readNumber? cs).getD .nan

/-- The numeric reading of a value. -/
def toNumber : Value → Number
  | undefined => .nan
  | null => .zero false
  | bool b => if b then .ofNat 1 else .zero false
  | number n => n
  | string s => numberOfText s

/-- The numeric reading truncated toward zero and wrapped into `[-2 ^ 31, 2 ^ 31)`; zero for what is
not finite. -/
def toInt32 (v : Value) : Int :=
  match v.toNumber.truncate? with
  | some i => i.bmod (2 ^ (32 : Nat))
  | none => 0

/-- The text of a value. -/
def display : Value → String
  | undefined => "undefined"
  | null => "null"
  | bool true => "true"
  | bool false => "false"
  | number n => String.ofList n.display
  | string s => s

/-- The text of a value, empty for an absent one. -/
def displayOrEmpty : Value → String
  | undefined => ""
  | v => v.display

/-! ## Comparisons -/

/-- Same kind and same value; not-a-number equals nothing. -/
def strictEqual : Value → Value → Bool
  | undefined, undefined => true
  | null, null => true
  | bool a, bool b => a == b
  | number a, number b => a.equal b
  | string a, string b => a == b
  | _, _ => false

/-- Whether the value is `undefined` or `null`. -/
def isNothing : Value → Bool
  | undefined => true
  | null => true
  | _ => false

/-- The two absent values equal each other and nothing else; values of two kinds compare as numbers. -/
def looseEqual (a b : Value) : Bool :=
  if a.isNothing || b.isNothing then a.isNothing && b.isNothing
  else if a.kind = b.kind then strictEqual a b
  else a.toNumber.equal b.toNumber

/-- Two texts compare by code points, everything else as numbers. -/
def compare : Value → Value → Option Ordering
  | string a, string b => some (Ord.compare a b)
  | a, b => a.toNumber.compare b.toNumber

end Value

/-! ## Numeric prefixes -/

/-- The number at the head of a text behind its leading blanks: a signed `Infinity`, or the longest
decimal literal; not-a-number if there is neither. -/
def floatPrefix (s : String) : Number :=
  let cs := Text.trimStart s.toList
  let (negative, rest) := Decimal.scanSign cs
  if "Infinity".toList.isPrefixOf rest then .infinite negative
  else
    match Decimal.scan cs with
    | some (d, _) => d.toNumber
    | none => .nan

end Databind
