/-!
# The layout of descriptions

A value is described on one line: a record by its name and its fields in braces, a wrapped value by
the name of the wrapper and the value in parentheses, a list in brackets.
-/

namespace MessageBus.Text

/-- Texts with a comma between them. -/
def commaSeparated (items : List String) : String := String.intercalate ", " items

/-- A record: its name, and each field with its value. -/
def record (name : String) (fields : List (String × String)) : String :=
  name ++ " \x7b " ++ commaSeparated (fields.map fun (field, value) => field ++ ": " ++ value)
    ++ " \x7d"

/-- A record of which nothing can be told but its name. -/
def closedRecord (name : String) : String := name ++ " \x7b .. \x7d"

/-- A wrapped value. -/
def wrapped (name value : String) : String := name ++ "(" ++ value ++ ")"

/-- A list. -/
def list (items : List String) : String := "[" ++ commaSeparated items ++ "]"

/-- A value that may be missing. -/
def optional : Option String → String
  | none => "None"
  | some value => wrapped "Some" value

/-- A truth value. -/
def truth (b : Bool) : String := if b then "true" else "false"

/-- A text that is filled up with spaces on the right to a width, and never cut. -/
def padded (width : Nat) (s : String) : String :=
  s ++ String.ofList (List.replicate (width - s.length) ' ')

example : record "Point" [("x", "1"), ("y", "2")] = "Point \x7b x: 1, y: 2 \x7d" := by
  decide +kernel

example : padded 3 "é" = "é  " ∧ padded 3 "long" = "long" := by decide +kernel

end MessageBus.Text
