import Restyle.Text.Alphanumeric
import Restyle.Text.LetterCase

/-!
# Words of a name

A name falls into words at everything that is no letter or number, between a
small letter and a capital, and in front of the last capital of a row when a
small letter follows: `fontSize`, `font-size` and `FONTSize` have two words
each.  Characters without case leave the case of the word as it is.
-/

namespace Restyle.Text

/-- The case of the last cased letter of a word. -/
inductive WordCase where
  | none
  | lower
  | upper
  deriving Repr, DecidableEq

/-- The case of a word after one more character. -/
def WordCase.next (mode : WordCase) (c : Char) : WordCase :=
  if isLower c then .lower else if isUpper c then .upper else mode

/-- A word that has been read backwards, if there is any of it. -/
def closeWord (word : List Char) : List (List Char) :=
  if word.isEmpty then [] else [word.reverse]

/-- The words of a text.  `word` is what has been read of the current one, last character first. -/
def wordsFrom (mode : WordCase) (word : List Char) : List Char → List (List Char)
  | [] => closeWord word
  | c :: cs =>
    if !isAlphanumeric c then closeWord word ++ wordsFrom .none [] cs
    else if mode.next c == .lower && cs.head?.any isUpper then
      (c :: word).reverse :: wordsFrom .none [] cs
    else if mode == .upper && isUpper c && cs.head?.any isLower then
      word.reverse :: wordsFrom .none [c] cs
    else wordsFrom (mode.next c) (c :: word) cs

/-- The words of a text. -/
def words (cs : List Char) : List (List Char) :=
  wordsFrom .none [] cs

/-- A word in lower case.  A capital sigma is `ς` where it ends the word. -/
def lowerWord : List Char → List Char
  | [] => []
  | c :: cs => (if c == 'Σ' && cs.isEmpty then ['ς'] else toLower c) ++ lowerWord cs

/-- A word with a capital first letter. -/
def capitalWord : List Char → List Char
  | [] => []
  | c :: cs => toUpper c ++ lowerWord cs

end Restyle.Text
