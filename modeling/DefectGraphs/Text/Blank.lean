/-!
Blank characters, and the readings of a text that ignore them: the text without its blank ends, and
the words between its blanks.
-/

namespace DefectGraphs.Text

/-- The characters with the Unicode property `White_Space`. -/
def isBlank (c : Char) : Bool :=
  let code := c.toNat
  (0x9 ≤ code && code ≤ 0xD) || code == 0x20 || code == 0x85 || code == 0xA0 ||
    code == 0x1680 || (0x2000 ≤ code && code ≤ 0x200A) || code == 0x2028 ||
    code == 0x2029 || code == 0x202F || code == 0x205F || code == 0x3000

def trimEndChars (chars : List Char) : List Char :=
  (chars.reverse.dropWhile isBlank).reverse

def trimChars (chars : List Char) : List Char :=
  trimEndChars (chars.dropWhile isBlank)

def trim (text : String) : String :=
  String.ofList (trimChars text.toList)

/-- The longest runs of characters that are not blank, in order. -/
def wordChars (chars : List Char) : List (List Char) :=
  (chars.splitOnP isBlank).filter (fun word => !word.isEmpty)

def words (text : String) : List String :=
  (wordChars text.toList).map String.ofList

def lines (text : String) : List String :=
  (text.toList.splitOn '\n').map String.ofList

end DefectGraphs.Text
