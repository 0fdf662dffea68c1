/-!
The parts of the standard library's text handling the server relies on.
Trimming removes the characters with the Unicode White_Space property from both
ends, and control characters are those of the general category Cc.
-/
namespace OpenMeet.Text

def isWhitespace (c : Char) : Bool :=
  let n := c.toNat
  (0x9 ≤ n && n ≤ 0xD) || n == 0x20 || n == 0x85 || n == 0xA0 || n == 0x1680 ||
    (0x2000 ≤ n && n ≤ 0x200A) || n == 0x2028 || n == 0x2029 || n == 0x202F ||
    n == 0x205F || n == 0x3000

def isControl (c : Char) : Bool :=
  let n := c.toNat
  n ≤ 0x1F || (0x7F ≤ n && n ≤ 0x9F)

def trim (text : String) : String :=
  String.ofList
    ((text.toList.dropWhile isWhitespace).reverse.dropWhile isWhitespace).reverse

/-- The number of characters, as opposed to bytes. -/
def charCount (text : String) : Nat := text.toList.length

end OpenMeet.Text
