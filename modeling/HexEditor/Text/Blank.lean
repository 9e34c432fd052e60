/-
The blank characters of text: the ones that separate the words of a command line
and that are dropped from the ends of printed rows and of written numbers. They
are the characters of Unicode with the property White_Space together with the
four information separators.
-/

namespace HexEditor

def isBlank (character : Char) : Bool :=
  let code := character.toNat
  (0x09 ≤ code && code ≤ 0x0D) || (0x1C ≤ code && code ≤ 0x20) || code == 0x85 || code == 0xA0 ||
    code == 0x1680 || (0x2000 ≤ code && code ≤ 0x200A) || code == 0x2028 || code == 0x2029 ||
    code == 0x202F || code == 0x205F || code == 0x3000

def dropBlankEnd (text : List Char) : List Char :=
  (text.reverse.dropWhile isBlank).reverse

/-- The words of a text, which are its longest runs without a blank; `word` holds the characters,
last one first, of the run being read. -/
def splitWords (word : List Char) : List Char → List (List Char)
  | [] => if word.isEmpty then [] else [word.reverse]
  | character :: rest =>
    if isBlank character then
      if word.isEmpty then splitWords [] rest else word.reverse :: splitWords [] rest
    else
      splitWords (character :: word) rest

def wordsOf (line : String) : List String :=
  (splitWords [] line.toList).map String.ofList

/-- Every character that core counts as whitespace is blank. -/
theorem isBlank_of_isWhitespace {character : Char} (whitespace : character.isWhitespace = true) :
    isBlank character = true := by
  simp only [Char.isWhitespace, Bool.or_eq_true, decide_eq_true_eq] at whitespace
  rcases whitespace with ((space | tab) | carriage) | line <;> subst_vars <;> decide

end HexEditor
