/-
Blank characters, and what the readers of the process table do with them: drop
them at both ends of a text, and cut a text into the words that stand between
them. A blank is a character with the Unicode property White_Space, so the
no-break and ideographic spaces count and the zero-width ones do not.

Texts are lists of characters throughout the readers: every rule below is then
a statement about lists, and a text of the interface is such a list in a box.
-/
namespace Vitals.Text

-- ============================================================ blanks

/-- The characters with the Unicode property White_Space. -/
def isBlank (c : Char) : Bool :=
  let code := c.toNat
  (0x9 ≤ code && code ≤ 0xD) || code == 0x20 || code == 0x85 || code == 0xA0
    || code == 0x1680 || (0x2000 ≤ code && code ≤ 0x200A) || code == 0x2028
    || code == 0x2029 || code == 0x202F || code == 0x205F || code == 0x3000

-- ========================================================== trimming

/-- The text without the blanks that open it. -/
def trimLeft (s : List Char) : List Char := s.dropWhile isBlank

/-- The text without the blanks that close it. -/
def trimRight (s : List Char) : List Char := (s.reverse.dropWhile isBlank).reverse

/-- The text without the blanks at either end. -/
def trim (s : List Char) : List Char := trimRight (trimLeft s)

-- ============================================================= words

/-- The words of a text: its longest runs of characters that are no blanks, in
order. A text of blanks has none. -/
def words (s : List Char) : List (List Char) :=
  (s.splitOnP isBlank).filter (!·.isEmpty)

end Vitals.Text
