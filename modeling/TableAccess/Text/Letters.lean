/-!
# Letters and blanks

Names, keywords and flags are compared after folding the letters `A` to `Z`;
every other character stands for itself. Texts are searched and split. Numbers
and flags that a caller writes as text may be padded with blanks, which are the
characters of the Unicode property `White_Space`.
-/

namespace TableAccess.Text

/-- A text with its letters `A` to `Z` made small. -/
def lowercase (text : String) : String :=
  String.ofList (text.toList.map Char.toLower)

/-- A text with its letters `a` to `z` made capital. -/
def uppercase (text : String) : String :=
  String.ofList (text.toList.map Char.toUpper)

def same (first second : String) : Bool := lowercase first == lowercase second

/-- The pieces of a text between separators; there is always one more than there are
separators. -/
def split (separator : Char) (text : List Char) : List (List Char) :=
  text.foldr (fun c pieces =>
    if c = separator then [] :: pieces
    else
      match pieces with
      | [] => [[c]]
      | piece :: rest => (c :: piece) :: rest) [[]]

/-- Whether one list of characters stands somewhere within another. -/
def occursIn (part : List Char) : List Char → Bool
  | [] => part.isEmpty
  | c :: rest => part.isPrefixOf (c :: rest) || occursIn part rest

/-- Whether `part` occurs in `whole`. -/
def contains (whole part : String) : Bool :=
  occursIn part.toList whole.toList

/-- The code points of the Unicode property `White_Space`, as inclusive ranges. -/
def blankRanges : List (Nat × Nat) :=
  [(0x0009, 0x000D), (0x0020, 0x0020), (0x0085, 0x0085), (0x00A0, 0x00A0),
   (0x1680, 0x1680), (0x2000, 0x200A), (0x2028, 0x2029), (0x202F, 0x202F),
   (0x205F, 0x205F), (0x3000, 0x3000)]

def isBlank (c : Char) : Bool :=
  blankRanges.any fun range => range.1 ≤ c.toNat && c.toNat ≤ range.2

/-- The characters of a text between its leading and its trailing blanks. -/
def trimmed (text : String) : List Char :=
  ((text.toList.dropWhile isBlank).reverse.dropWhile isBlank).reverse

end TableAccess.Text
