/-
  Wiretap.Text.Ascii
  ──────────────────
  **LETTER CASE WITHIN ASCII.**

  Header names, coding names and host names compare without regard to the case of the
  ASCII letters; every other character stands for itself.
-/

namespace Wiretap.Text

/-- The text with its ASCII capital letters in lower case. -/
def asciiLower (s : String) : String := s.map Char.toLower

/-- Whether two texts differ at most in the case of ASCII letters. -/
def sameIgnoringAsciiCase (a b : String) : Bool := asciiLower a == asciiLower b

/-- Whether a character is an ASCII letter or digit. -/
def isAsciiAlphanumeric (c : Char) : Bool := c.isAlphanum

end Wiretap.Text
