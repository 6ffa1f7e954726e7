import Mathlib.Data.List.Basic

/-! # Text as the standard string functions cut it

A separator is cut at every occurrence, so an empty piece stands between two of them and at
either end.
-/

namespace Text

/-- The characters with the White_Space property. -/
def isWhiteSpace (c : Char) : Bool :=
  (9 ≤ c.toNat && c.toNat ≤ 13) || c.toNat == 0x20 || c.toNat == 0x85 || c.toNat == 0xA0 ||
    c.toNat == 0x1680 || (0x2000 ≤ c.toNat && c.toNat ≤ 0x200A) || c.toNat == 0x2028 ||
    c.toNat == 0x2029 || c.toNat == 0x202F || c.toNat == 0x205F || c.toNat == 0x3000

/-- The text without the blanks at its ends. -/
def trim (text : List Char) : List Char :=
  ((text.dropWhile isWhiteSpace).reverse.dropWhile isWhiteSpace).reverse

/-- The pieces between the separators. -/
def split (separates : Char → Bool) : List Char → List (List Char)
  | [] => [[]]
  | c :: rest =>
    if separates c then [] :: split separates rest
    else
      match split separates rest with
      | [] => [[c]]
      | piece :: pieces => (c :: piece) :: pieces

/-- The pieces between runs of blanks. -/
def splitWhitespace (text : List Char) : List (List Char) :=
  (split isWhiteSpace text).filter fun piece => !piece.isEmpty

/-- Equal up to the case of ASCII letters. -/
def eqIgnoreAsciiCase (a b : String) : Bool :=
  decide (a.toList.map Char.toLower = b.toList.map Char.toLower)

theorem eqIgnoreAsciiCase_refl (a : String) : eqIgnoreAsciiCase a a = true :=
  decide_eq_true rfl

end Text
