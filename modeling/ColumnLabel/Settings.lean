import ColumnLabel.Number.Reading
import ColumnLabel.Text.Search

/-!
# ColumnLabel.Settings

The settings of the program and where they come from: the environment, over which the entries of a file
take precedence.  Reading the settings writes the entries of the file into the environment, where they
stay.  An entry that the system does not take stops that, and no setting changes.

A port that is no integer stops the reading.  The settings in front of it in order then have their new
values already, and those from it on keep their old ones.
-/

namespace ColumnLabel

/-- Names with their texts; the first entry of a name counts. -/
abbrev Environment := List (String × String)

namespace Environment

/-- The text of a name. -/
def get? (env : Environment) (name : String) : Option String := env.lookup name

/-- Forgets a name. -/
def unset (env : Environment) (name : String) : Environment := env.filter fun e => e.1 ≠ name

/-- Gives a name a text. -/
def set (env : Environment) (name text : String) : Environment := (name, text) :: env.unset name

/-- Gives a name a text, if the system takes both. -/
def assign (env : Environment) (name text : String) : Except Fault Environment :=
  if Text.holdsNul name || Text.holdsNul text then .error .nulInside
  else if name.toList.contains '=' then .error .nameWithEquals
  else if name.isEmpty then .error .emptyName
  else .ok (env.set name text)

/-- Gives the names of a file their texts, one after the other, up to the first pair that the system does
not take; the fault of that pair comes with what was reached.  Blanks around a text of a file do not count. -/
def assignAll (env : Environment) : (file : Environment) → Environment × Option Fault
  | [] => (env, none)
  | (name, text) :: file =>
    match env.assign name (String.ofList (Text.trim text.toList)) with
    | .ok env => env.assignAll file
    | .error fault => (env, some fault)

theorem lookup_unset (env : Environment) (name other : String) :
    (env.unset name).lookup other = if name = other then none else env.lookup other := by
  induction env with
  | nil => simp [unset]
  | cons e env ih =>
    obtain ⟨n, t⟩ := e
    simp only [unset] at ih
    by_cases hn : n = name
    · subst hn
      by_cases ho : n = other
      · subst ho; simpa [unset] using ih
      · simp [unset, List.lookup_cons, beq_false_of_ne (Ne.symm ho), ho] at ih ⊢; exact ih
    · by_cases ho : n = other
      · subst ho; simp [unset, hn, Ne.symm hn]
      · simpa [unset, hn, List.lookup_cons, beq_false_of_ne (Ne.symm ho)] using ih

/-- Forgetting a name forgets no other. -/
@[simp] theorem get?_unset (env : Environment) (name other : String) :
    (env.unset name).get? other = if name = other then none else env.get? other :=
  lookup_unset env name other

/-- Giving a name a text changes no other. -/
@[simp] theorem get?_set (env : Environment) (name text other : String) :
    (env.set name text).get? other = if name = other then some text else env.get? other := by
  by_cases h : name = other
  · subst h; simp [get?, set]
  · simp [get?, set, List.lookup_cons, beq_false_of_ne (Ne.symm h), lookup_unset, h]

/-- What the system takes, the name has from then on; no other name changes. -/
theorem get?_of_assign_eq_ok {env env' : Environment} {name text : String}
    (h : env.assign name text = .ok env') (other : String) :
    env'.get? other = if name = other then some text else env.get? other := by
  simp only [assign] at h
  split at h
  · simp at h
  split at h
  · simp at h
  split at h
  · simp at h
  · rw [← Except.ok.inj h, get?_set]

end Environment

/-- The settings. -/
structure Settings where
  logLevel : String := "INFO"
  logDir : Option String := none
  apiHost : String := "0.0.0.0"
  apiPort : Int := 9196
  includeMetrics : Bool := false
  deriving DecidableEq, Repr

namespace Settings

/-- A text that is not empty. -/
def nonempty? (s : String) : Option String := if s.isEmpty then none else some s

/-- Does the text say yes?  Blanks around it and its case do not matter. -/
def isYes (s : String) : Bool :=
  let word := (Text.trim s.toList).map Char.toLower
  ["1", "true", "yes", "on"].any fun yes => yes.toList = word

/-- The level at which logging starts. -/
def logLevelOf (env : Environment) : String := (env.get? "LOG_LEVEL").getD "INFO"

/-- The directory of the log files; an empty text names none. -/
def logDirOf (env : Environment) : Option String := (env.get? "LOG_DIR").bind nonempty?

/-- The host that the service listens on. -/
def apiHostOf (env : Environment) : String := (env.get? "API_HOST").getD "0.0.0.0"

/-- The port that the service listens on. -/
def apiPortOf (env : Environment) : Except Fault Int := readInt ((env.get? "API_PORT").getD "9196")

/-- Are metrics shown where nothing else is said? -/
def includeMetricsOf (env : Environment) : Bool :=
  ((env.get? "LABEL_INCLUDE_METRICS").map isYes).getD false

/-- Reads the settings from an environment, and the fault that stopped the reading, if there was one. -/
def load (s : Settings) (env : Environment) : Settings × Option Fault :=
  let s := { s with logLevel := logLevelOf env, logDir := logDirOf env, apiHost := apiHostOf env }
  match apiPortOf env with
  | .error fault => (s, some fault)
  | .ok port => ({ s with apiPort := port, includeMetrics := includeMetricsOf env }, none)

end Settings

/-- The program's surroundings: its environment, the file of settings, and the settings last read. -/
structure Surroundings where
  environment : Environment := []
  file : Environment := []
  settings : Settings := {}

namespace Surroundings

/-- Reads the settings anew: the file goes into the environment, then the settings come from there.  Where
the file cannot go in as a whole, the settings stay as they were. -/
def reload (s : Surroundings) : Surroundings × Option Fault :=
  match s.environment.assignAll s.file with
  | (environment, some fault) => ({ s with environment }, some fault)
  | (environment, none) =>
    let (settings, fault) := s.settings.load environment
    ({ s with environment, settings }, fault)

end Surroundings

end ColumnLabel
