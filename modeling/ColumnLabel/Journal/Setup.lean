import ColumnLabel.Fault
import ColumnLabel.Journal.Entry
import ColumnLabel.Text.Character
import ColumnLabel.Text.Search

/-!
# ColumnLabel.Journal.Setup

Where journal entries go.  Until the journal is set up, nothing is listening.  Setting it up names a
threshold, adds the console as a destination and, if there is a directory, two files: one for everything
and one for errors.  It is done once; later calls change nothing.

Setting up may stop half way, at a level that cannot be a threshold or a directory that cannot be made.
What was done until then stays, and the next call starts again from the beginning.

An entry is passed on when it reaches the threshold of its logger, which for all but the access log of the
web server is the threshold of the root, and it is written by every destination whose own threshold it
reaches.  So nothing below the root's threshold is written, not even by the file for everything.
-/

namespace ColumnLabel

open Text

/-! ## Thresholds -/

/-- The words for a threshold. -/
def thresholdWords : List (String × Nat) :=
  [("CRITICAL", 50), ("FATAL", 50), ("ERROR", 40), ("WARNING", 30), ("WARN", 30), ("INFO", 20),
    ("DEBUG", 10), ("NOTSET", 0)]

/-- The layout of a line where none is chosen; its name is not free for a threshold. -/
def plainLayout : String := "%(levelname)s:%(name)s:%(message)s"

/-- The table of the styles of layouts, as written; its name is not free for a threshold either. -/
def layoutStyles : String :=
  "\x7b'%': (<class 'logging.PercentStyle'>, '%(levelname)s:%(name)s:%(message)s'), " ++
    "'\x7b': (<class 'logging.StrFormatStyle'>, '\x7blevelname\x7d:\x7bname\x7d:\x7bmessage\x7d'), " ++
    "'$': (<class 'logging.StringTemplateStyle'>, '$\x7blevelname\x7d:$\x7bname\x7d:$\x7bmessage\x7d')\x7d"

/-- The threshold that a text names, in any case; a text that names nothing stands for `INFO`. -/
def threshold (level : String) : Except Fault Nat :=
  let word := upper level.toList
  match thresholdWords.find? fun (w, _) => w.toList = word with
  | some (_, rank) => .ok rank
  | none =>
    if word = "BASIC_FORMAT".toList then .error (.unknownLevel plainLayout)
    else if word = "_STYLES".toList then .error (.levelOfWrongKind layoutStyles)
    else .ok 20

/-! ## Destinations -/

/-- A file that is begun anew when it has grown to `maxBytes`, with a number of older files kept. -/
structure LogFile where
  path : String
  maxBytes : Nat
  backups : Nat
  deriving DecidableEq, Repr

/-- A place where entries are written, with the threshold it has. -/
structure Destination where
  file? : Option LogFile
  threshold : Nat
  deriving DecidableEq, Repr

/-- A journal: its thresholds, its destinations, and what was written so far. -/
structure Journal where
  rootThreshold : Nat := 30
  accessThreshold : Nat := 0
  destinations : List Destination := []
  isSetUp : Bool := false
  console : List String := []
  files : List (String × List String) := []
  deriving DecidableEq, Repr

namespace Journal

/-- The parts of a path, without those that lead nowhere. -/
def pathParts (path : List Char) : List (List Char) :=
  (pieces '/' path).foldl (fun kept part =>
    if part = [] ∨ part = ['.'] then kept
    else if part = ['.', '.'] ∧ kept ≠ [] ∧ kept.getLast? ≠ some ['.', '.'] then kept.dropLast
    else kept ++ [part]) []

/-- The path of a file in a directory. -/
def pathIn (dir file : String) : String :=
  let absolute := "/".toList.isPrefixOf dir.toList
  let path := ['/'].intercalate (pathParts dir.toList ++ [file.toList])
  String.ofList (if absolute then '/' :: path else path)

/-- The console as a destination. -/
def consoleAt (threshold : Nat) : Destination := ⟨none, threshold⟩

/-- The size at which a log file is begun anew: ten mebibytes. -/
def maxFileBytes : Nat := 10 * 1024 * 1024

/-- The files of a directory: one for everything, with five older ones kept, and one for errors, with
three. -/
def filesIn (dir : String) : List Destination :=
  [⟨some ⟨pathIn dir "labelarr.log", maxFileBytes, 5⟩, Severity.debug.rank⟩,
    ⟨some ⟨pathIn dir "labelarr_errors.log", maxFileBytes, 3⟩, Severity.error.rank⟩]

/-- Adds destinations; a file that is added is there, even if nothing is ever written. -/
def listen (j : Journal) (ds : List Destination) : Journal :=
  { j with
    destinations := j.destinations ++ ds
    files := j.files ++ ds.filterMap fun d => d.file?.map fun f => (f.path, []) }

/-- Sets the journal up with a level and a directory, unless that was done before.  A level that is empty
or not given, and likewise a directory, is taken from the settings.  With the journal comes the fault that
setting up stopped at, if it did. -/
def setUp (j : Journal) (level dir : Option String) (settingsLevel : String)
    (settingsDir : Option String) : Journal × Option Fault :=
  if j.isSetUp then (j, none)
  else
    let given (s : Option String) : Option String := s.filter (!·.isEmpty)
    let level := (given level).getD settingsLevel
    let dir := (given dir).or (given settingsDir)
    match ColumnLabel.threshold level with
    | .error fault => (j, some fault)
    | .ok rank =>
      let j := { j with rootThreshold := rank }.listen [consoleAt rank]
      if dir.any Text.holdsNul then (j, some .nulInside)
      else
        ({ j.listen ((dir.map filesIn).getD []) with
            accessThreshold := Severity.warning.rank
            isSetUp := true }, none)

/-! ## Writing -/

/-- Is `logger` the logger `top` or one below it? -/
def isUnder (top logger : String) : Bool :=
  logger = top || (top ++ ".").toList.isPrefixOf logger.toList

/-- The threshold of a logger: the access log may have its own, all others have the root's. -/
def thresholdOf (j : Journal) (logger : String) : Nat :=
  if isUnder "uvicorn.access" logger ∧ j.accessThreshold ≠ 0 then j.accessThreshold else j.rootThreshold

/-- A severity in a column of eight characters. -/
def severityColumn (s : Severity) : String :=
  s.name ++ String.ofList (List.replicate (8 - s.name.length) ' ')

/-- An entry as it is written, with the time and the line of the program it comes from. -/
def format (time : String) (line : Nat) (e : Entry) : String :=
  "[" ++ time ++ "] " ++ severityColumn e.severity ++ " [" ++ e.logger ++ ":" ++ Nat.repr line ++ "] " ++
    e.message

/-- Adds a text to one of the files. -/
def addToFile (path text : String) (files : List (String × List String)) :
    List (String × List String) :=
  files.map fun (p, texts) => if p = path then (p, texts ++ [text]) else (p, texts)

/-- Writes a text to a destination. -/
def writeTo (j : Journal) (text : String) (d : Destination) : Journal :=
  match d.file? with
  | none => { j with console := j.console ++ [text] }
  | some f => { j with files := addToFile f.path text j.files }

/-- Passes an entry on; what stands at the very bottom of the scale is not passed on at all.  Without
destinations, what is at least a warning is shown on the console as it is, unless it comes from the
program's own loggers. -/
def record (j : Journal) (time : String) (line : Nat) (e : Entry) : Journal :=
  if e.severity.rank = 0 ∨ e.severity.rank < j.thresholdOf e.logger then j
  else if j.destinations = [] then
    if isUnder Logger.program e.logger ∨ e.severity.rank < Severity.warning.rank then j
    else { j with console := j.console ++ [e.message] }
  else
    (j.destinations.filter fun d => d.threshold ≤ e.severity.rank).foldl
      (fun j d => j.writeTo (format time line e) d) j

end Journal

end ColumnLabel
