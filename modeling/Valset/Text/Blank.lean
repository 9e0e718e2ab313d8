/-!
# Blank characters

The white space of the Unicode standard and the trimming of texts by it.
-/

namespace Valset
namespace Text

/-- Whether a character has the Unicode property `White_Space`. -/
def isBlank (c : Char) : Bool :=
  let n := c.toNat
  (0x09 ≤ n && n ≤ 0x0d) || n == 0x20 || n == 0x85 || n == 0xa0 || n == 0x1680 ||
    (0x2000 ≤ n && n ≤ 0x200a) || n == 0x2028 || n == 0x2029 || n == 0x202f || n == 0x205f ||
    n == 0x3000

/-- The characters of a text without the blanks at its front. -/
def dropBlanks (chars : List Char) : List Char :=
  chars.dropWhile isBlank

/-- A text without the blanks at both ends. -/
def trimChars (chars : List Char) : List Char :=
  (dropBlanks (dropBlanks chars).reverse).reverse

/-- A text without the blanks at both ends. -/
def trim (text : String) : String :=
  String.ofList (trimChars text.toList)

/-- The rest of a text behind a given beginning. -/
def dropStart? : (start : List Char) → (chars : List Char) → Option (List Char)
  | [], chars => some chars
  | s :: start, c :: chars => if s = c then dropStart? start chars else none
  | _ :: _, [] => none

/-- Whether a text begins with another one. -/
def startsWith (start chars : List Char) : Bool :=
  (dropStart? start chars).isSome

/-- Whether a text holds another one in one piece. -/
def holds (piece : List Char) : List Char → Bool
  | [] => piece.isEmpty
  | c :: rest => startsWith piece (c :: rest) || holds piece rest

end Text
end Valset
