import MessageBus.Telemetry
import MessageBus.Text.Layout
import MessageBus.Text.Lines
import MessageBus.Text.Quoted

/-!
# Reports of what was collected

The report lists the events by their number and the counters by their key, in columns. The columns
are filled up with spaces and never cut. Texts are shown as they are, so one that holds a line feed
goes on in the next line of the report.

The time of an event is not told: a word stands in its place, in every line that reads as the line
of an event. No event is tied to a task of a scheduler, and the column for one stays empty.
-/

namespace MessageBus

open Text

/-- The description of an event. A message that is missing is described as empty. -/
def TelemetryEvent.describe (e : TelemetryEvent) : String :=
  record "TelemetryEvent"
    [("seq", toString e.sequence), ("task", quoted "N/A"),
      ("handle", optional (e.handle.map toString)), ("loc", quoted e.location),
      ("evt", quoted e.kind), ("msg", quoted (e.message.getD ""))]

/-- What the report prints of an event. -/
def TelemetryEvent.reportText (e : TelemetryEvent) : String :=
  "  +TIMEs [Seq:" ++ padded 5 (toString e.sequence) ++ "] Task:" ++ padded 6 "---"
    ++ " Handle:" ++ padded 6 ((e.handle.map toString).getD "-") ++ " Loc:" ++ padded 18 e.location
    ++ " Evt:" ++ padded 20 e.kind ++ " " ++ e.message.getD ""

/-- What the report prints of a counter. -/
def CounterKey.reportText (k : CounterKey) (count : Nat) : String :=
  "  Loc:" ++ padded 18 k.location ++ " Counter:" ++ padded 20 k.name ++ " Value: "
    ++ toString count

/-- The part of a line from the end of the time that stands first in it; `none` if no time does. -/
def afterTime? : List Char → Option (List Char)
  | [] => none
  | c :: rest =>
    if "s [Seq:".toList.isPrefixOf (c :: rest) then some (c :: rest) else afterTime? rest

/-- A line in which a word stands for the time, if it reads as the line of an event. -/
def withoutTime (line : String) : String :=
  match line.toList with
  | ' ' :: ' ' :: '+' :: rest =>
    match afterTime? rest with
    | some later => "  +TIME" ++ String.ofList later
    | none => line
  | _ => line

/-- What the report prints, one text after the other. -/
def Telemetry.reportTexts (t : Telemetry) : List String :=
  ["", "--- Corobus Telemetry Report ---"]
    ++ (if t.events.isEmpty then ["[Events] none"]
      else ("[Events] " ++ toString t.events.length) :: t.events.map (·.reportText))
    ++ (if t.counters.isEmpty then ["[Counters] none"]
      else t.counters.map fun (key, count) => key.reportText count)
    ++ ["--- End of Telemetry Report ---"]

/-- The report, line by line. -/
def Telemetry.report (t : Telemetry) : List String :=
  (t.reportTexts.flatMap printedLines).map withoutTime

end MessageBus
