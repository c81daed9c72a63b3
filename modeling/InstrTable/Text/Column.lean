/-!
Text in columns: padding to a width, and fixed-width hexadecimal numbers.
-/

namespace InstrTable

/-- A text filled up with spaces to `width` characters. A longer text is kept whole. -/
def padEnd (width : Nat) (s : String) : String :=
  s ++ "".pushn ' ' (width - s.length)

/-- A number in upper-case hexadecimal, filled up with zeros to eight digits. -/
def hexWord (n : Nat) : String :=
  let digits := (Nat.toDigits 16 n).map Char.toUpper
  String.ofList (List.replicate (8 - digits.length) '0' ++ digits)

end InstrTable
