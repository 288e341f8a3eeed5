import SearchBox.Text.Digits
import SearchBox.Text.Letters

/-!
  SearchBox.Text.Word — the characters words are made of in names such as hashtags: letters,
  numerals and the low line.
-/

namespace SearchBox.Text

def isWordChar (c : Char) : Bool :=
  isLetter c || isNumeral c || c = '_'

end SearchBox.Text
