import MessageBus.Text.Combining
import MessageBus.Text.Unprintable

/-!
# Quoted text

A string is written between double quotes so that each of its characters can be told from the
writing. The quote and the backslash get a backslash; tabulator, line feed, carriage return and the
null character have a letter of their own; any other character that would not show as itself is
written by its code point, in hexadecimal. The rest stands as it is, the single quote included.
-/

namespace MessageBus.Text

/-- Whether a character shows as itself: it leaves a mark that is not part of another's. The
letters and signs of ASCII are decided without a table. -/
def showsAsItself (c : Char) : Bool :=
  if c.toNat < 0x7f then 0x20 ≤ c.toNat else !memRanges unprintable c && !memRanges combining c

/-- The digits of a number in base sixteen, without leading zeros. -/
def hexadecimal (n : Nat) : String := String.ofList (Nat.toDigits 16 n)

/-- How one character is written between the quotes. -/
def escape (c : Char) : String :=
  if c = '"' then "\\\""
  else if c = '\\' then "\\\\"
  else if c = '\t' then "\\t"
  else if c = '\n' then "\\n"
  else if c = '\r' then "\\r"
  else if c = '\x00' then "\\0"
  else if showsAsItself c then c.toString
  else "\\u\x7b" ++ hexadecimal c.toNat ++ "\x7d"

/-- A string between double quotes. -/
def quoted (s : String) : String := "\"" ++ String.join (s.toList.map escape) ++ "\""

example : quoted "it's" = "\"it's\"" := by decide +kernel

example : escape '"' = "\\\"" ∧ escape '\n' = "\\n" ∧ escape '\x1b' = "\\u\x7b1b\x7d" := by
  decide +kernel

example : escape 'é' = "é" ∧ escape '日' = "日" := by decide +kernel

end MessageBus.Text
