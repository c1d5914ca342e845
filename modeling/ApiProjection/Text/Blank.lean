/-!
# Blank characters and small operations on text

`isBlank` is the class of characters trimmed from words typed by a user; `isSpace` is the
narrower class without the four separators 0x1C to 0x1F.
-/
namespace ApiProjection.Text

/-- A character with the white-space property. -/
def isSpace (c : Char) : Bool :=
  let n := c.toNat
  (0x9 ≤ n && n ≤ 0xd) || n == 0x20 || n == 0x85 || n == 0xa0 || n == 0x1680 ||
  (0x2000 ≤ n && n ≤ 0x200a) || n == 0x2028 || n == 0x2029 || n == 0x202f || n == 0x205f ||
  n == 0x3000

/-- White space, or one of the information separators. -/
def isBlank (c : Char) : Bool :=
  isSpace c || (0x1c ≤ c.toNat && c.toNat ≤ 0x1f)

/-- The characters without those of a class at either end. -/
def trimBy (p : Char → Bool) (cs : List Char) : List Char :=
  ((cs.dropWhile p).reverse.dropWhile p).reverse

/-- The text without blanks at either end. -/
def trimBlank (s : String) : String := String.ofList (trimBy isBlank s.toList)

/-- The text with its ASCII letters in lower case. -/
def lowerAscii (s : String) : String := s.map Char.toLower

/-- The parts of a list between the elements that satisfy `p`, one more than there are of them. -/
def splitWhere {α : Type} (p : α → Bool) : List α → List (List α)
  | [] => [[]]
  | c :: cs =>
    match splitWhere p cs with
    | part :: parts => if p c then [] :: part :: parts else (c :: part) :: parts
    | [] => [[]]

/-- The parts of a text between the occurrences of a character. -/
def splitAt (sep : Char) (s : String) : List String :=
  (splitWhere (· == sep) s.toList).map String.ofList

end ApiProjection.Text
