import MessageBus.Telemetry.Report

/-!
# Commands to the telemetry

What can be done with events and counters, as data.
-/

namespace MessageBus.Telemetry

/-- Something that is asked of the telemetry. -/
inductive Command where
  | log (handle : Option Handle) (location kind : String) (message : Option String)
  | increment (key : CounterKey)
  | counter (key : CounterKey)
  | events
  /-- Describes each event. -/
  | describe
  /-- Forgets everything, and starts the sequence anew. -/
  | clear
  | report

/-- What is answered. -/
inductive Answer where
  | nothing
  | number (n : Nat)
  | events (es : List TelemetryEvent)
  | lines (ls : List String)

/-- Carries out a command. -/
def Command.run (t : Telemetry) : Command → Answer × Telemetry
  | .log handle location kind message => (.nothing, t.log handle location kind message)
  | .increment key => (.nothing, t.increment key)
  | .counter key => (.number (t.counter key), t)
  | .events => (.events t.events, t)
  | .describe => (.lines (t.events.map (·.describe)), t)
  | .clear => (.nothing, .empty)
  | .report => (.lines t.report, t)

end MessageBus.Telemetry
