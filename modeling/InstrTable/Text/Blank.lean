/-!
Blank characters, trimming, and words. A word is a maximal run of characters
that are not blank.
-/

namespace InstrTable.Text

/-- The blank characters: the Unicode property White_Space together with the
four information separators U+001C to U+001F. -/
def isBlank (c : Char) : Bool :=
  let n := c.toNat
  (0x09 ≤ n && n ≤ 0x0D) || (0x1C ≤ n && n ≤ 0x20) || n == 0x85 || n == 0xA0 ||
    n == 0x1680 || (0x2000 ≤ n && n ≤ 0x200A) || n == 0x2028 || n == 0x2029 ||
    n == 0x202F || n == 0x205F || n == 0x3000

def trimStart (cs : List Char) : List Char := cs.dropWhile isBlank

def trimEnd (cs : List Char) : List Char := (trimStart cs.reverse).reverse

def trim (cs : List Char) : List Char := trimEnd (trimStart cs)

@[simp] theorem trimStart_nil : trimStart [] = [] := rfl

@[simp] theorem trimEnd_nil : trimEnd [] = [] := rfl

@[simp] theorem trim_nil : trim [] = [] := rfl

theorem trimStart_cons (c : Char) (cs : List Char) :
    trimStart (c :: cs) = if isBlank c then trimStart cs else c :: cs := by
  simp [trimStart, List.dropWhile_cons]

/-- Words of `word ++ cs`, where `word` holds, reversed, what was read of the
word in progress. -/
def wordsFrom (word : List Char) : List Char → List (List Char)
  | [] => if word.isEmpty then [] else [word.reverse]
  | c :: cs =>
    if isBlank c then
      if word.isEmpty then wordsFrom [] cs else word.reverse :: wordsFrom [] cs
    else wordsFrom (c :: word) cs

def words (cs : List Char) : List (List Char) := wordsFrom [] cs

/-- Drops one line feed at the end, if there is one. -/
def dropFinalNewline (cs : List Char) : List Char :=
  if cs.getLast? = some '\n' then cs.dropLast else cs

end InstrTable.Text

namespace InstrTable

/-- A text without the blanks around it. -/
def trimmed (s : String) : String := String.ofList (Text.trim s.toList)

/-- A text without the blanks at its end. -/
def trimmedEnd (s : String) : String := String.ofList (Text.trimEnd s.toList)

/-- The words of a text, in order. -/
def wordsOf (s : String) : List String := (Text.words s.toList).map String.ofList

end InstrTable
