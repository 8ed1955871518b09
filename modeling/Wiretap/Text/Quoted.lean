/-
  Wiretap.Text.Quoted
  ───────────────────
  **TEXT IN QUOTES, FOR DIAGNOSTICS.**

  A text between double quotes in which every character can be seen: the quote, the
  backslash and the common controls have a short escape, other hidden or combining
  characters are written `\u{hex}`, and the rest stands for itself.
-/
import Wiretap.Text.Hex
import Wiretap.Text.Printable

namespace Wiretap.Text

/-- The written form of one character inside quotes. -/
def quotedChar (c : Char) : List Char :=
  if c = '"' then ['\\', '"']
  else if c = '\\' then ['\\', '\\']
  else if c = '\n' then ['\\', 'n']
  else if c = '\r' then ['\\', 'r']
  else if c = '\t' then ['\\', 't']
  else if c = Char.ofNat 0 then ['\\', '0']
  else if isCombining c || isHidden c then
    ['\\', 'u', Char.ofNat 0x7B] ++ hexDigits c.toNat ++ [Char.ofNat 0x7D]
  else [c]

/-- The text between double quotes. -/
def quoted (s : String) : String :=
  String.ofList ('"' :: s.toList.flatMap quotedChar ++ ['"'])

end Wiretap.Text
