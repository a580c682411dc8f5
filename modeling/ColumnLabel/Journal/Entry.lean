/-!
# ColumnLabel.Journal.Entry

Journal entries.  An operation that reports what happened gives its entries back in order, beside its
result; where they end up is decided elsewhere.  An operation that is not told which logger to use has
one of its own.
-/

namespace ColumnLabel

/-! ## Severities -/

/-- How much an entry matters, as its place on the scale of thresholds. -/
structure Severity where
  rank : Nat
  deriving DecidableEq, Repr

namespace Severity

/-- What only helps to find mistakes. -/
def debug : Severity := ⟨10⟩

/-- What happens as it should. -/
def info : Severity := ⟨20⟩

/-- What is not as it should be, but does no harm. -/
def warning : Severity := ⟨30⟩

/-- What could not be done. -/
def error : Severity := ⟨40⟩

/-- What cannot go on. -/
def critical : Severity := ⟨50⟩

/-- The word for a severity; between those that have one, the place on the scale stands for it. -/
def name (s : Severity) : String :=
  match s.rank with
  | 0 => "NOTSET"
  | 10 => "DEBUG"
  | 20 => "INFO"
  | 30 => "WARNING"
  | 40 => "ERROR"
  | 50 => "CRITICAL"
  | n => "Level " ++ Nat.repr n

end Severity

/-! ## Loggers -/

namespace Logger

/-- The logger above all of the program's own. -/
def program : String := "labelarr"

/-- The logger of the service. -/
def service : String := "labelarr.api.app"

/-- The logger of conditions, where no other is given. -/
def conditions : String := "labelarr.templates.conditional"

/-- The logger of placeholders, where no other is given. -/
def placeholders : String := "labelarr.templates.interpolator"

/-- The logger of contexts, where no other is given. -/
def contexts : String := "labelarr.templates.context_builder"

/-- The logger of labels, where no other is given. -/
def labels : String := "labelarr.templates.resolver"

end Logger

/-! ## Entries -/

/-- An entry: how much it matters, the name of the logger it was given to, and what it says. -/
structure Entry where
  severity : Severity
  logger : String
  message : String
  deriving DecidableEq, Repr

end ColumnLabel
