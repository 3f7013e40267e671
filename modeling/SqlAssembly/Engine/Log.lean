namespace SqlAssembly

/-!
# Log events

Events go to whatever the surrounding state makes of them.

* `LogEvent` — a level, a target and named texts;
* `LogSink` — a state that takes events.
-/

/-- The levels, the gravest first. -/
inductive LogLevel where
  | error
  | warn
  | info
  | debug
  | trace
  deriving DecidableEq, Repr

/-- What an event is about: building statements, or running them. -/
inductive LogTarget where
  | build
  | sql
  deriving DecidableEq, Repr

/-- An event of the log. -/
structure LogEvent where
  level : LogLevel
  target : LogTarget
  /-- Names and texts; the text of the event itself has the name `message`. -/
  fields : List (String × String)
  deriving DecidableEq, Repr

/-- The states that take log events. -/
class LogSink (σ : Type) where
  /-- The state after an event. -/
  record : LogEvent → σ → σ

/-- Sends an event to the log. -/
def log {σ : Type} [LogSink σ] (e : LogEvent) : StateM σ Unit := modify (LogSink.record e)

end SqlAssembly
