/-!
# Blank characters

Text that arrives as a filter value may be padded. The padding is the Unicode property
`White_Space`, which is wider than the blanks of ASCII and narrower than "everything invisible": the
zero-width space and the byte order mark are not in it.

## Main definitions

* `Text.isBlank` — membership in `White_Space`
* `Text.trimStart`, `Text.trim` — a text without its leading, or without its outer, blanks
-/

namespace ExchangeCatalog.Text

/-- The characters of the Unicode property `White_Space`. -/
def isBlank (c : Char) : Bool :=
  let n := c.toNat
  (0x09 ≤ n && n ≤ 0x0D) || n == 0x20 || n == 0x85 || n == 0xA0 || n == 0x1680 ||
    (0x2000 ≤ n && n ≤ 0x200A) || n == 0x2028 || n == 0x2029 || n == 0x202F || n == 0x205F ||
      n == 0x3000

/-- A text without its leading blanks. -/
def trimStart (cs : List Char) : List Char := cs.dropWhile isBlank

/-- A text without its leading and trailing blanks; blanks inside stay. -/
def trim (cs : List Char) : List Char := ((trimStart cs).reverse.dropWhile isBlank).reverse

/-- Blanks are the only characters that trimming the front can remove. -/
theorem takeWhile_append_trimStart (cs : List Char) : cs.takeWhile isBlank ++ trimStart cs = cs :=
  List.takeWhile_append_dropWhile

end ExchangeCatalog.Text
