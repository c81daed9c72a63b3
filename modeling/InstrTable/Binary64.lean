import InstrTable.Text.Radix

/-!
Numbers in binary floating point with 64 bits, and the decimal texts for them.
-/

namespace InstrTable

/-- A number in binary floating point. The magnitude of a finite one counts units of
`2 ^ -1074`. There are two zeros. -/
inductive Binary64 where
  | finite (isNegative : Bool) (magnitude : Nat)
  | infinite (isNegative : Bool)
  | nan
  deriving DecidableEq, Repr

namespace Binary64

/-- The magnitude of one. -/
def one : Nat := 1 <<< 1074

/-- A quotient to the nearest integer, and to the even one of two. -/
def divRound (n d : Nat) : Nat :=
  let q := n / d
  let r := n % d
  if 2 * r < d ∨ (2 * r = d ∧ q % 2 = 0) then q else q + 1

/-- The number that is nearest to a quotient. No more than 53 bits count. -/
def ofRatio (isNegative : Bool) (n d : Nat) : Binary64 :=
  let units := n * one
  let unit := 1 <<< ((units / d).log2 - 52)
  let magnitude := divRound units (d * unit) * unit
  if magnitude < one <<< 1024 then .finite isNegative magnitude else .infinite isNegative

def ofRat (q : Rat) : Binary64 := ofRatio (q < 0) q.num.natAbs q.den

/-- The number that is nearest to `n * 10 ^ e`. -/
def ofDecimal (isNegative : Bool) (n : Nat) (e : Int) : Binary64 :=
  let size : Int := (Text.digits n).length + e
  if n = 0 ∨ size < -330 then .finite isNegative 0
  else if 310 < size then .infinite isNegative
  else ofRatio isNegative (n * Nat.pow 10 e.toNat) (Nat.pow 10 (-e).toNat)

def toRat? : Binary64 → Option Rat
  | .finite true m => some (-mkRat m one)
  | .finite false m => some (mkRat m one)
  | _ => none

def negate : Binary64 → Binary64
  | .finite isNegative m => .finite (!isNegative) m
  | .infinite isNegative => .infinite !isNegative
  | .nan => .nan

def add (x y : Binary64) : Binary64 :=
  match x.toRat?, y.toRat? with
  | some p, some q => ofRat (p + q)
  | some _, none => y
  | none, some _ => x
  | none, none => if x = y then x else .nan

/-- A number times a positive integer. -/
def scale (x : Binary64) (n : Nat) : Binary64 :=
  match x.toRat? with
  | some q => ofRat (q * n)
  | none => x

/-! Decimal texts. -/

/-- Reads a number without a sign. -/
def ofUnsigned? (isNegative : Bool) (cs : List Char) : Option Binary64 :=
  if cs = "inf".toList ∨ cs = "infinity".toList then some (.infinite isNegative)
  else if cs = "nan".toList then some .nan
  else do
    let (front, exponent) ← match Text.cutFirst? 'e' cs with
      | none => some (cs, 0)
      | some (front, '-' :: ds) => (Text.nat? ds).map fun n => (front, -(n : Int))
      | some (front, '+' :: ds) => (Text.nat? ds).map fun n => (front, (n : Int))
      | some (front, ds) => (Text.nat? ds).map fun n => (front, (n : Int))
    let (whole, fraction) := (Text.cutFirst? '.' front).getD (front, [])
    let n ← Text.nat? (whole ++ fraction)
    return ofDecimal isNegative n (exponent - fraction.length)

/-- Reads a number: digits with a point, with an exponent, both or none, or the name of what is
no finite number. A sign may stand in front, and blanks around. -/
def ofText? (cs : List Char) : Option Binary64 :=
  let cs := ((cs.dropWhile Text.isMargin).reverse.dropWhile Text.isMargin).reverse
  match cs.map fun c => (Text.commonDigit c).toLower with
  | '-' :: cs => ofUnsigned? true cs
  | '+' :: cs => ofUnsigned? false cs
  | cs => ofUnsigned? false cs

/-- The number of digits in front of the point of a magnitude, less the zeros behind the point. -/
def pointOf (m : Nat) : Int :=
  if one ≤ m then (Text.digits (m / one)).length
  else 1 - ((List.range 400).find? fun k => one ≤ m * Nat.pow 10 k).getD 0

/-- The shortest decimal that is read as a magnitude, `n * 10 ^ e`. Of two it is the nearer one. -/
def shortest (m : Nat) : Nat × Int :=
  let ofLength (length : Nat) : Option (Nat × Int) :=
    let e := pointOf m - length
    let n := m * Nat.pow 10 (-e).toNat
    let d := one * Nat.pow 10 e.toNat
    let nearest := divRound n d
    let other := if nearest = n / d then nearest + 1 else n / d
    ([nearest, other].find? fun k => ofDecimal false k e = .finite false m).map (·, e)
  ((List.range 18).findSome? ofLength).getD (0, 0)

/-- A decimal as text. Large and small ones have an exponent. -/
def decimalText (n : Nat) (e : Int) : List Char :=
  let ds := ((Text.digits n).reverse.dropWhile (· = '0')).reverse
  let point := (Text.digits n).length + e
  if point ≤ -4 ∨ 16 < point then
    let exponent := (Text.digits (point - 1).natAbs).leftpad 2 '0'
    ds.take 1 ++ (if ds.length = 1 then [] else '.' :: ds.drop 1) ++
      'e' :: (if point < 1 then '-' else '+') :: exponent
  else if point ≤ 0 then '0' :: '.' :: List.replicate (-point).toNat '0' ++ ds
  else if ds.length ≤ point then ds ++ List.replicate (point.toNat - ds.length) '0' ++ ".0".toList
  else ds.take point.toNat ++ '.' :: ds.drop point.toNat

/-- How a number is shown: by the shortest text that is read as it. -/
def shown : Binary64 → String
  | .nan => "nan"
  | .infinite isNegative => if isNegative then "-inf" else "inf"
  | .finite isNegative m =>
    let (n, e) := shortest m
    let text := if m = 0 then "0.0".toList else decimalText n e
    String.ofList (if isNegative then '-' :: text else text)

end Binary64

end InstrTable
