/-!
# Lines of a text

A text that is printed and then ended by a line feed shows as one line or more: each line feed in
it begins another. A carriage return right before a line feed belongs to the end of the line and
not to the line; elsewhere it is a character like any other. No other character ends a line.
-/

namespace MessageBus.Text

/-- Cuts characters at each line feed. -/
def cutAtFeeds : List Char → List (List Char)
  | [] => [[]]
  | c :: rest =>
    if c = '\n' then [] :: cutAtFeeds rest
    else
      match cutAtFeeds rest with
      | [] => [[c]]
      | line :: later => (c :: line) :: later

/-- A line without the carriage return at its end. -/
def withoutReturn : List Char → List Char
  | [] => []
  | [c] => if c = '\r' then [] else [c]
  | c :: d :: rest => c :: withoutReturn (d :: rest)

/-- The lines that a text shows as when it is printed and ended by a line feed. -/
def printedLines (s : String) : List String :=
  (cutAtFeeds s.toList).map fun line => String.ofList (withoutReturn line)

example : printedLines "a\n\nb" = ["a", "", "b"] := by decide +kernel

example : printedLines "a\r\nb\rc\n" = ["a", "b\rc", ""] := by decide +kernel

end MessageBus.Text
