import Partials.Text
import Partials.Text.Alphanumeric
import Partials.Text.Capital
import Partials.Text.LetterCase

/-!
# Titles

A readable name from an identifier or a path: its words, each with a capital, one space apart. A
word is a run of letters and numerals; a run is cut where a capital follows a small letter, between
letters and numerals, and before the last capital of several that a small letter follows.
-/

namespace Partials.Title

/-- Whether a word ends between two neighbours `p` and `c` of a run; `next` follows them. -/
def isBoundary (p c : Char) (next : Option Char) : Bool :=
  (isLowercase p && isUppercase c) || (isAlphabetic p && isNumeric c) ||
    (isNumeric p && isAlphabetic c) ||
    (isUppercase p && isUppercase c && next.any isLowercase)

/-- A word that is not empty. -/
def wordOf (w : Text) : List Text := if w = [] then [] else [w]

/-- The words of a text of which `current` is already read into a word. -/
def wordsFrom (current : Text) : Text → List Text
  | [] => wordOf current
  | c :: cs =>
    if isAlphanumeric c then
      match current.getLast? with
      | some p =>
        if isBoundary p c cs.head? then current :: wordsFrom [c] cs
        else wordsFrom (current ++ [c]) cs
      | none => wordsFrom [c] cs
    else wordOf current ++ wordsFrom [] cs

/-- The words of a text. -/
def words (t : Text) : List Text := wordsFrom [] t

/-- The word with its first character in upper case. -/
def capitalize : Text → Text
  | [] => []
  | c :: cs => capital c ++ cs

/-- The capitalized words, one space apart. -/
def ofText (t : Text) : Text := Text.join [' '] ((words t).map capitalize)

end Partials.Title
