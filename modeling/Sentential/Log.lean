/-!
# Log lines

What the program does is written to a log. Every entry has a level, and a run shows the
entries from its threshold upwards.
-/

namespace Sentential

/-- The importance of a log entry. -/
inductive Log.Level where
  | debug
  | warning
  | error
  deriving DecidableEq, Repr

/-- The name of the level in log lines. -/
def Log.Level.name : Log.Level → String
  | debug => "DEBUG"
  | warning => "WARNING"
  | error => "ERROR"

/-- The place of the level in the order of importance. -/
def Log.Level.rank : Log.Level → Nat
  | debug => 0
  | warning => 1
  | error => 2

/-- One log entry: which part of the program writes what. -/
structure Log.Entry where
  level : Log.Level
  source : String
  message : String
  deriving DecidableEq, Repr

namespace Log

/-- The line that shows an entry. -/
def Entry.line (e : Entry) : String := e.level.name ++ " " ++ e.source ++ ": " ++ e.message

/-- The entries from the threshold upwards. -/
def shown (threshold : Level) (entries : List Entry) : List Entry :=
  entries.filter fun e => decide (threshold.rank ≤ e.level.rank)

end Log

end Sentential
