import HashTunnel.Text.Basic

/-! # Blanks

The blanks of this library are the characters with the Unicode property `White_Space`: what
trimming removes, what separates words, and what may stand before a directive on its line.
-/

namespace HashTunnel.Text

/-- The first and last code points of the ranges of `White_Space`. -/
def blankRanges : List (Nat × Nat) :=
  [(0x0009, 0x000D), (0x0020, 0x0020), (0x0085, 0x0085), (0x00A0, 0x00A0), (0x1680, 0x1680),
   (0x2000, 0x200A), (0x2028, 0x2029), (0x202F, 0x202F), (0x205F, 0x205F), (0x3000, 0x3000)]

-- The property `White_Space` has 25 characters.
example : blankRanges.foldl (fun size range => size + (range.2 + 1 - range.1)) 0 = 25 := rfl

/-- Holds of the characters with the property `White_Space`. -/
def isBlank (c : Char) : Bool :=
  blankRanges.any fun range => range.1 ≤ c.toNat && c.toNat ≤ range.2

/-- Holds of the blanks that stay on their line: all of them but the line feed. -/
def isLineBlank (c : Char) : Bool :=
  isBlank c && c != '\n'

theorem not_isLineBlank_newline : isLineBlank '\n' = false := rfl

/-- A text without its leading blanks. -/
def trimStart (text : Text) : Text :=
  text.dropWhile isBlank

/-- A text without its trailing blanks. -/
def trimEnd (text : Text) : Text :=
  (text.reverse.dropWhile isBlank).reverse

/-- A text without its leading and trailing blanks. -/
def trim (text : Text) : Text :=
  trimEnd (trimStart text)

/-- The words of a text: its longest runs of characters that are not blank. -/
def words (text : Text) : List Text :=
  (splitWhere isBlank text).filter (!·.isEmpty)

end HashTunnel.Text
