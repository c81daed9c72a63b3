import InstrTable.Base64
import InstrTable.Document
import InstrTable.Document.ReadError
import InstrTable.Text.Radix

/-!
What a scalar stands for. A plain one tells it by its form: a word for nothing or for
a truth value, a number, a timestamp, or text. A tag may say otherwise.
-/

namespace InstrTable.Document

/-- What the value of a node is. -/
inductive Tag where
  | null
  | bool
  | int
  | real
  | time
  | bytes
  | text
  | list
  | map
  | set
  /-- A list of pairs, which is written as a list of maps with one entry. -/
  | pairs
  /-- The key of what a map takes over from other maps. -/
  | merge
  /-- The sign of a default value, which is text where it is a key. -/
  | default
  | other (name : String)
  deriving DecidableEq, Repr

def nullWords : List String := ["", "~", "null", "Null", "NULL"]

def trueWords : List String :=
  ["yes", "Yes", "YES", "true", "True", "TRUE", "on", "On", "ON"]

def falseWords : List String :=
  ["no", "No", "NO", "false", "False", "FALSE", "off", "Off", "OFF"]

def infiniteWords : List String := [".inf", ".Inf", ".INF"]

def nanWords : List String := [".nan", ".NaN", ".NAN"]

/-- Whether digits of a base, with underscores anywhere among them, are all there is. -/
def isDigitRun (base : Nat) (cs : List Char) : Bool :=
  cs.all fun c => c = '_' || (Text.digitIn? base c).isSome

/-- Whether a text is one of the parts behind the first of a number in base sixty. -/
def isSixtieth : List Char → Bool
  | [c] => c.isDigit
  | [c, d] => '0' ≤ c && c ≤ '5' && d.isDigit
  | _ => false

/-- Whether a text without a sign has the form of an integer: binary behind `0b`,
hexadecimal behind `0x`, octal behind `0`, decimal, or with colons in base sixty. -/
def isUnsigned : List Char → Bool
  | '0' :: 'b' :: cs => !cs.isEmpty && isDigitRun 2 cs
  | '0' :: 'x' :: cs => !cs.isEmpty && isDigitRun 16 cs
  | '0' :: cs => isDigitRun 8 cs
  | '_' :: _ => false
  | cs =>
    match Text.pieces ':' cs with
    | first :: sixtieths => !first.isEmpty && isDigitRun 10 first && sixtieths.all isSixtieth
    | [] => false

/-- A text without the sign in front of it, and whether that is a minus. -/
def takeSign : List Char → Bool × List Char
  | '-' :: cs => (true, cs)
  | '+' :: cs => (false, cs)
  | cs => (false, cs)

def isInt (cs : List Char) : Bool := isUnsigned (takeSign cs).2

/-- Whether a text is a digit, and digits and underscores behind it. -/
def isNumeral : List Char → Bool
  | [] => false
  | c :: cs => c.isDigit && isDigitRun 10 cs

/-- Whether a text is an exponent, which has a sign, or is empty. -/
def isExponent : List Char → Bool
  | [] => true
  | e :: sign :: ds =>
    (e = 'e' || e = 'E') && (sign = '-' || sign = '+') && !ds.isEmpty && ds.all Char.isDigit
  | _ => false

/-- Whether a text has the form of a number that is no integer: with a point, in front of which
there may be colons and behind which an exponent, or a name behind a point. -/
def isReal (cs : List Char) : Bool :=
  let isRun (c : Char) : Bool := c.isDigit || c = '_'
  let isUnsigned (cs : List Char) : Bool :=
    match Text.cutFirst? '.' cs with
    | none => false
    | some (whole, back) =>
      let exponent := back.dropWhile isRun
      match Text.pieces ':' whole with
      | [] => false
      | [_] => isNumeral whole && isExponent exponent
      | first :: sixtieths => isNumeral first && sixtieths.all isSixtieth && exponent.isEmpty
  let (_, back) := takeSign cs
  let hasDigits : Bool := match cs with
    | '.' :: fraction =>
      isNumeral (fraction.takeWhile isRun) && isExponent (fraction.dropWhile isRun)
    | _ => isUnsigned back
  hasDigits || infiniteWords.contains (String.ofList back) || nanWords.contains (String.ofList cs)

namespace Tag

/-- What a text without a line feed at its end is by its form. -/
def ofForm (text : String) : Tag :=
  if text ∈ nullWords then .null
  else if text ∈ trueWords ∨ text ∈ falseWords then .bool
  else if text = "<<" then .merge
  else if text = "=" then .default
  else if isInt text.toList then .int
  else if isReal text.toList then .real
  else if Timestamp.isFullForm text.toList then .time
  else .text

/-- What a plain scalar is. A line feed at its end does not count. -/
def ofPlain (text : String) : Tag :=
  if text = "\n" then .text else ofForm (String.ofList (Text.dropFinalNewline text.toList))

/-- What the names of the common tags begin with. -/
def commonFront : String := "tag:yaml.org,2002:"

def ofName (name : String) : Tag :=
  match (Text.after? commonFront.toList name.toList).map String.ofList with
  | some "null" => .null
  | some "bool" => .bool
  | some "int" => .int
  | some "float" => .real
  | some "timestamp" => .time
  | some "binary" => .bytes
  | some "str" => .text
  | some "seq" => .list
  | some "map" => .map
  | some "set" => .set
  | some "omap" => .pairs
  | some "pairs" => .pairs
  | some "merge" => .merge
  | some "value" => .default
  | _ => .other name

end Tag

def intIn (base : Nat) (cs : List Char) : Except ReadError Int :=
  match Text.intIn? base cs with
  | some n => .ok n
  | none => .error (.noNumber base (String.ofList cs))

/-- The integer that a text without a sign spells. The parts of a number in base sixty
may have signs of their own. -/
def unsignedOf (cs : List Char) : Except ReadError Int :=
  match cs with
  | [] => .error .noDigits
  | ['0'] => .ok 0
  | '0' :: 'b' :: ds => intIn 2 ds
  | '0' :: 'x' :: ds => intIn 16 ds
  | '0' :: _ => intIn 8 cs
  | _ => do
    let parts ← (Text.pieces ':' cs).mapM (intIn 10)
    return parts.foldl (fun n part => 60 * n + part) 0

/-- The integer that a text spells. Underscores in it do not count. -/
def intOf (text : String) : Except ReadError Int := do
  let (isNegative, cs) := takeSign (text.toList.filter (· ≠ '_'))
  let n ← unsignedOf cs
  return if isNegative then -n else n

def realIn (cs : List Char) : Except ReadError Binary64 :=
  match Binary64.ofText? cs with
  | some x => .ok x
  | none => .error (.noReal (String.ofList cs))

/-- The number that parts in base sixty give, the last of them first. -/
def ofSixtieths (parts : List Binary64) : Binary64 :=
  (parts.foldl (fun (x, unit) part => (x.add (part.scale unit), unit * 60))
    (Binary64.finite false 0, 1)).1

/-- The number that a text spells, which need be no integer. Underscores in it do not count. -/
def realOf (text : String) : Except ReadError Binary64 := do
  match (text.toList.filter (· ≠ '_')).map Char.toLower with
  | [] => .error .noDigits
  | text =>
    let (isNegative, cs) := takeSign text
    let x ←
      if cs = ".inf".toList then pure (.infinite false)
      else if cs = ".nan".toList then pure .nan
      else if cs.contains ':' then do
        let parts ← (Text.pieces ':' cs).mapM realIn
        pure (ofSixtieths parts.reverse)
      else realIn cs
    return if isNegative then x.negate else x

def boolOf (text : String) : Except ReadError Bool :=
  let isOne (words : List String) : Bool := words.contains (text.map Char.toLower)
  if isOne trueWords then .ok true
  else if isOne falseWords then .ok false
  else .error .malformed

def timestampOf (text : String) : Except ReadError Timestamp :=
  match Timestamp.ofText? (Text.dropFinalNewline text.toList) with
  | some t => t.check.mapError .timestamp
  | none => .error .malformed

def bytesOf (text : String) : Except ReadError (List UInt8) :=
  let cs := text.toList
  if cs.all fun c => c.toNat < 128 then wellFormed (Base64.decode? cs) else .error .malformed

/-- How the values of a tag are read from their texts, if they are scalars. -/
def Tag.scalar? : Tag → Option (String → Except ReadError Scalar)
  | .null => some fun _ => .ok .null
  | .bool => some fun text => .bool <$> boolOf text
  | .int => some fun text => .int <$> intOf text
  | .real => some fun text => .real <$> realOf text
  | .time => some fun text => .time <$> timestampOf text
  | .bytes => some fun text => .bytes <$> bytesOf text
  | .text => some fun text => .ok (.text text)
  | _ => none

end InstrTable.Document
