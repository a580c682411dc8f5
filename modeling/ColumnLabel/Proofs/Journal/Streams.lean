import ColumnLabel.Proofs.Journal.Written
import ColumnLabel.Proofs.Steps
import Mathlib.Data.List.Basic

/-!
# ColumnLabel.Proofs.Journal.Streams

The console and the two files of a journal, over whole runs.

All three show what the loggers let through, from a threshold of their own on, in order and once each: so each of
them can be told from the others (`run_after_setUp`).  The file for everything is no exception.  Its own threshold
lets in whatever helps to find mistakes, but by then the loggers of the program have held back what does not reach
the level of the journal (`lookup_log_eq_iff`).
-/

namespace ColumnLabel.Journal

/-! ## Loggers -/

theorem prefix_of_isUnder {top logger : String} (h : isUnder top logger = true) :
    top.toList <+: logger.toList := by
  rw [isUnder, Bool.or_eq_true, decide_eq_true_eq, List.isPrefixOf_iff_prefix, String.toList_append] at h
  obtain rfl | h := h
  · exact List.prefix_rfl
  · exact (List.prefix_append _ _).trans h

/-- The program's own loggers have the threshold of the root. -/
theorem thresholdOf_program (j : Journal) {logger : String} (h : isUnder Logger.program logger = true) :
    j.thresholdOf logger = j.rootThreshold := by
  rw [thresholdOf, if_neg]
  intro hboth
  obtain ⟨rest, hrest⟩ := prefix_of_isUnder h
  obtain ⟨other, hother⟩ := prefix_of_isUnder hboth.1
  have hheads := congrArg List.head? (hrest.trans hother.symm)
  simp [Logger.program] at hheads

/-! ## Files -/

theorem intercalate_concat {α : Type} (mark : List α) (parts : List (List α)) (last : List α) :
    mark.intercalate (parts ++ [last]) = parts.flatMap (· ++ mark) ++ last := by
  induction parts with
  | nil => simp [List.intercalate]
  | cons part parts ih =>
      have hne : parts ++ [last] ≠ [] := by simp
      obtain ⟨next, rest, hrest⟩ := List.exists_cons_of_ne_nil hne
      rw [List.flatMap_cons, List.append_assoc, ← ih, List.cons_append]
      simp [List.intercalate, hrest]

/-- The path of a file ends with its name. -/
theorem exists_pathIn_eq_append (dir : String) :
    ∃ front : List Char, ∀ file, (pathIn dir file).toList = front ++ file.toList := by
  by_cases h : "/".toList.isPrefixOf dir.toList = true
  · refine ⟨'/' :: (pathParts dir.toList).flatMap (· ++ ['/']), fun file => ?_⟩
    rw [pathIn, String.toList_ofList, if_pos h, intercalate_concat, List.cons_append]
  · refine ⟨(pathParts dir.toList).flatMap (· ++ ['/']), fun file => ?_⟩
    rw [pathIn, String.toList_ofList, if_neg h, intercalate_concat]

/-- Different files of a directory have different paths. -/
@[simp] theorem pathIn_inj {dir file other : String} : pathIn dir file = pathIn dir other ↔ file = other := by
  obtain ⟨front, hfront⟩ := exists_pathIn_eq_append dir
  rw [← String.toList_inj, hfront, hfront, List.append_cancel_left_eq, String.toList_inj]

/-! ## Copies -/

variable {j : Journal} {dir : String} {consoles : List Destination}

/-- Consoles write no file. -/
theorem writtenAt_consoles (h : ∀ d ∈ consoles, d.path? = none) (path text : String) :
    writtenAt (some path) text consoles = [] := by
  rw [writtenAt, List.flatMap_eq_nil_iff]
  intro d hd
  simp [h d hd]

theorem copies_append {ds es : List Destination} (h : j.destinations = ds ++ es) (place : Option String) (n : Note) :
    j.copies place n = if j.passes n then
        writtenAt place n.text (ds.filter (n.reaches ·.threshold)) ++
          writtenAt place n.text (es.filter (n.reaches ·.threshold))
      else [] := by
  rw [copies, h, List.filter_append, writtenAt, List.flatMap_append]
  rfl

/-- What comes behind consoles decides about files. -/
theorem copies_some {es : List Destination} (h : j.destinations = consoles ++ es)
    (hconsoles : ∀ d ∈ consoles, d.path? = none) (path : String) (n : Note) :
    j.copies (some path) n =
      if j.passes n then writtenAt (some path) n.text (es.filter (n.reaches ·.threshold)) else [] := by
  rw [copies_append h, writtenAt_consoles (fun d hd => hconsoles d (List.mem_filter.mp hd).1), List.nil_append]

/-- The files of a directory take one copy each of what reaches their thresholds, and none for the console. -/
theorem writtenAt_filesIn (dir : String) (n : Note) :
    let files := (filesIn dir).filter (n.reaches ·.threshold)
    writtenAt (some (pathIn dir "labelarr.log")) n.text files =
        (if n.reaches Severity.debug.rank then [n.text] else []) ∧
      writtenAt (some (pathIn dir "labelarr_errors.log")) n.text files =
        (if n.reaches Severity.error.rank then [n.text] else []) ∧
      writtenAt none n.text files = [] := by
  cases hdebug : n.reaches Severity.debug.rank <;> cases herror : n.reaches Severity.error.rank
  all_goals simp [filesIn, writtenAt, Destination.path?, hdebug, herror]

/-- Copies that are made of some entries and of none of the others. -/
theorem flatMap_copies {place : Option String} {p : Note → Bool}
    (h : ∀ n, j.copies place n = if p n then [n.text] else []) (ns : List Note) :
    ns.flatMap (j.copies place) = (ns.filter p).map Note.text := by
  induction ns with
  | nil => rfl
  | cons n ns ih =>
      rw [List.flatMap_cons, ih, h]
      cases hp : p n <;> simp [hp]

/-! ## Runs -/

/-- A journal is set up with the files of a directory behind its consoles, and nothing is written in them so far. -/
structure WritesIn (j : Journal) (consoles : List Destination) (dir : String) : Prop where
  isSetUp : j.isSetUp = true
  destinations : j.destinations = consoles ++ filesIn dir
  consoles : ∀ d ∈ consoles, d.path? = none
  files : j.files = [(pathIn dir "labelarr.log", []), (pathIn dir "labelarr_errors.log", [])]

theorem WritesIn.destinations_ne_nil (h : j.WritesIn consoles dir) : j.destinations ≠ [] := by
  simp [h.destinations, filesIn]

/-- The files after a run. -/
theorem WritesIn.files_run (h : j.WritesIn consoles dir) (events : List Event) :
    (j.run events).files =
      [(pathIn dir "labelarr.log",
          (((notes events).filter j.passes).filter (·.reaches Severity.debug.rank)).map Note.text),
        (pathIn dir "labelarr_errors.log",
          (((notes events).filter j.passes).filter (·.reaches Severity.error.rank)).map Note.text)] := by
  have hlog : ∀ n, j.copies (some (pathIn dir "labelarr.log")) n =
      if j.passes n && n.reaches Severity.debug.rank then [n.text] else [] := by
    intro n
    rw [copies_some h.destinations h.consoles, (writtenAt_filesIn dir n).1]
    cases j.passes n <;> rfl
  have herrors : ∀ n, j.copies (some (pathIn dir "labelarr_errors.log")) n =
      if j.passes n && n.reaches Severity.error.rank then [n.text] else [] := by
    intro n
    rw [copies_some h.destinations h.consoles, (writtenAt_filesIn dir n).2.1]
    cases j.passes n <;> rfl
  rw [run_of_isSetUp h.isSetUp h.destinations_ne_nil, h.files]
  simp [flatMap_copies hlog, flatMap_copies herrors, List.filter_filter, Bool.and_comm]

/-- The console after a run, if there is only one. -/
theorem WritesIn.console_run {rank : Nat} (h : j.WritesIn [consoleAt rank] dir) (events : List Event) :
    (j.run events).console =
      j.console ++ (((notes events).filter j.passes).filter (·.reaches rank)).map Note.text := by
  have hcopies : ∀ n, j.copies none n = if j.passes n && n.reaches rank then [n.text] else [] := by
    intro n
    rw [copies_append h.destinations, (writtenAt_filesIn dir n).2.2]
    cases j.passes n <;> cases hrank : n.reaches rank <;>
      simp [consoleAt, writtenAt, Destination.path?, hrank]
  rw [run_of_isSetUp h.isSetUp h.destinations_ne_nil, flatMap_copies hcopies, List.filter_filter]
  simp only [Bool.and_comm]

@[simp] theorem notes_map_entry (ns : List Note) : notes (ns.map .entry) = ns := by
  simp [notes, Event.note?, List.filterMap_map, Function.comp_def]

/-- Of entries of the program alone, those that help to find mistakes and reach the threshold of the root get into the
file for everything. -/
theorem WritesIn.lookup_log (h : j.WritesIn consoles dir) {ns : List Note}
    (hns : ∀ n ∈ ns, isUnder Logger.program n.entry.logger = true) :
    (j.run (ns.map .entry)).files.lookup (pathIn dir "labelarr.log") =
      some (((ns.filter (·.reaches Severity.debug.rank)).filter (·.reaches j.rootThreshold)).map Note.text) := by
  have hpassed : (ns.filter j.passes).filter (·.reaches Severity.debug.rank) =
      (ns.filter (·.reaches Severity.debug.rank)).filter (·.reaches j.rootThreshold) := by
    rw [List.filter_filter, List.filter_filter]
    refine List.filter_congr fun n hn => ?_
    rw [Bool.eq_iff_iff, Bool.and_eq_true, Bool.and_eq_true, passes_iff, j.thresholdOf_program (hns n hn)]
    have hdebug : 0 < Severity.debug.rank := by decide
    simp only [Note.reaches_iff]
    omega
  rw [h.files_run, notes_map_entry, hpassed, List.lookup_cons_self]

theorem map_text_filter_eq_iff {p : Note → Bool} {ns : List Note} :
    (ns.filter p).map Note.text = ns.map Note.text ↔ ∀ n ∈ ns, p n = true := by
  constructor
  · intro heq
    have hlength := congrArg List.length heq
    rw [List.length_map, List.length_map] at hlength
    exact List.length_filter_eq_length_iff.mp hlength
  · intro hall
    rw [List.filter_eq_self.mpr hall]

section

variable {before : List Event} {level dir? : Option String} {settings : Settings}

/-- The journal that an attempt leaves when it gets through with a directory. -/
theorem IsIdle.exists_writesIn (h : j.IsIdle) (hset : (j.setUp level dir? settings.logLevel settings.logDir).2 = none)
    (hdir : dirFrom dir? settings = some dir) :
    ∃ first, (j.setUp level dir? settings.logLevel settings.logDir).1 = first ∧
      threshold (levelFrom level settings) = .ok first.rootThreshold ∧
      first.WritesIn (j.destinations ++ [consoleAt first.rootThreshold]) dir := by
  obtain ⟨rank, hrank, hfirst⟩ := h.exists_setUp_eq hset
  rw [hdir] at hfirst
  refine ⟨_, hfirst, hrank, rfl, List.append_cons _ _ _, fun d hd => ?_, rfl⟩
  obtain hd | hd := List.mem_append.mp hd
  · exact h.consoles d hd
  · rw [List.mem_singleton.mp hd]
    rfl

/-- **The file for everything.**  Whatever came before, once a journal is set up with a directory, the file holds
those entries of the program that help at least to find mistakes and reach the level of the journal as well.  So all
that help to find mistakes are in it exactly when none of them stays below that level. -/
theorem lookup_log_eq_iff (hbefore : none ∉ ({} : Journal).outcomes before)
    (hset : ((({} : Journal).run before).setUp level dir? settings.logLevel settings.logDir).2 = none)
    (hdir : dirFrom dir? settings = some dir) {ns : List Note}
    (hns : ∀ n ∈ ns, isUnder Logger.program n.entry.logger = true) :
    let first := ((({} : Journal).run before).setUp level dir? settings.logLevel settings.logDir).1
    let log := (first.run (ns.map .entry)).files.lookup (pathIn dir "labelarr.log")
    let wanted := ns.filter (·.reaches Severity.debug.rank)
    ∃ rank, threshold (levelFrom level settings) = .ok rank ∧
      log = some ((wanted.filter (·.reaches rank)).map Note.text) ∧
      (log = some (wanted.map Note.text) ↔ ∀ n ∈ wanted, n.reaches rank = true) := by
  have hidle : (({} : Journal).run before).IsIdle := (isIdle_empty.run (isSetUp_run_eq_false rfl hbefore)).1
  obtain ⟨first, hfirst, hrank, hwrites⟩ := hidle.exists_writesIn hset hdir
  rw [hfirst]
  intro _ log wanted
  have hlog : log = some ((wanted.filter (·.reaches first.rootThreshold)).map Note.text) := hwrites.lookup_log hns
  refine ⟨first.rootThreshold, hrank, hlog, ?_⟩
  rw [hlog, Option.some.injEq, map_text_filter_eq_iff]

/-- At the level of warnings, warnings and a severity beyond them get into the file.  An attempt has stopped at its
directory before, and one of the entries matters too little to be wanted. -/
theorem lookup_log_eq_iff_warnings :
    let before : List Event := [.setUp (some "debug") (some "a\x00") {}]
    let started := (({} : Journal).run before).setUp (some "Warning") (some "logs") "INFO" none
    let note := fun severity => (⟨"", 7, ⟨severity, "labelarr.api", "late"⟩⟩ : Note)
    let ns := [note .warning, note ⟨5⟩, note ⟨35⟩]
    none ∉ ({} : Journal).outcomes before ∧ started.2 = none ∧
      dirFrom (some "logs") {} = some "logs" ∧ (∀ n ∈ ns, isUnder Logger.program n.entry.logger = true) ∧
      (started.1.run (ns.map .entry)).files.lookup (pathIn "logs" "labelarr.log") =
        some [(note .warning).text, (note ⟨35⟩).text] := by
  intro before started note ns
  have hbefore : none ∉ ({} : Journal).outcomes before := by decide +kernel
  have hset : started.2 = none := by decide +kernel
  have hdir : dirFrom (some "logs") {} = some "logs" := by decide
  have hns : ∀ n ∈ ns, isUnder Logger.program n.entry.logger = true := by decide +kernel
  obtain ⟨rank, hrank, _, hiff⟩ := lookup_log_eq_iff hbefore hset hdir hns
  obtain rfl : rank = 30 := by
    have h30 : threshold (levelFrom (some "Warning") {}) = .ok 30 := toOption_eq_some_iff.mp (by decide +kernel)
    exact Except.ok.inj (hrank.symm.trans h30)
  exact ⟨hbefore, hset, hdir, hns, hiff.mpr (by decide +kernel)⟩

/-- At the usual level an entry that helps to find mistakes is not in the file, although the file takes it. -/
theorem lookup_log_ne :
    let started := ({} : Journal).setUp (some "INFO") (some "logs") "INFO" none
    let n : Note := ⟨"", 7, ⟨.debug, "labelarr.templates.resolver", "Rendered"⟩⟩
    started.2 = none ∧ isUnder Logger.program n.entry.logger = true ∧ n.reaches Severity.debug.rank = true ∧
      ⟨some ⟨"logs/labelarr.log", maxFileBytes, 5⟩, Severity.debug.rank⟩ ∈ started.1.destinations ∧
      (started.1.run [.entry n]).files.lookup "logs/labelarr.log" = some [] := by
  decide +kernel

/-- **The streams of a journal.**  Until an attempt to set the journal up gets through, with directories that can be
made, nothing stays behind.  From then on no attempt changes the thresholds or the destinations, and with a directory
the console and the two files show what the loggers let through, each from its own threshold on: the file for errors
shows the errors of the file for everything, and the console, of what helps at least to find mistakes, that which
reaches the level of the journal. -/
theorem run_after_setUp (hbefore : none ∉ ({} : Journal).outcomes before)
    (hmade : ∀ e ∈ before, e.dirCanBeMade = true)
    (hset : ((({} : Journal).run before).setUp level dir? settings.logLevel settings.logDir).2 = none)
    (after : List Event) :
    let first := ((({} : Journal).run before).setUp level dir? settings.logLevel settings.logDir).1
    let last := first.run after
    last.rootThreshold = first.rootThreshold ∧ last.destinations = first.destinations ∧
      last.accessThreshold = first.accessThreshold ∧
      ∀ dir, dirFrom dir? settings = some dir →
        let passed := (notes after).filter first.passes
        let written := passed.filter (·.reaches Severity.debug.rank)
        let shown := passed.filter (·.reaches first.rootThreshold)
        last.files = [(pathIn dir "labelarr.log", written.map Note.text),
            (pathIn dir "labelarr_errors.log", (written.filter (·.reaches Severity.error.rank)).map Note.text)] ∧
          last.console = first.console ++ shown.map Note.text ∧
          shown.filter (·.reaches Severity.debug.rank) = written.filter (·.reaches first.rootThreshold) := by
  obtain ⟨hidle, hnothing⟩ := isIdle_empty.run (isSetUp_run_eq_false rfl hbefore)
  intro first last
  have hisSetUp : first.isSetUp = true := (isSetUp_setUp_iff _ level dir? settings).mpr hset
  obtain ⟨hroot, hds, haccess⟩ := run_keeps hisSetUp (hidle.destinations_ne_nil hset) after
  refine ⟨hroot, hds, haccess, fun dir hdir => ?_⟩
  obtain ⟨_, hfirst, _, hwrites⟩ := hidle.exists_writesIn hset hdir
  rw [hnothing hmade, ← hfirst] at hwrites
  refine ⟨?_, hwrites.console_run after, List.filter_comm _ _ _⟩
  rw [Note.filter_reaches_of_le (by decide)]
  exact hwrites.files_run after

/-- At the level of errors the access log of the web server still gets its warnings into the file for everything.
Another attempt to set the journal up comes in between, and one has stopped at its level before. -/
theorem run_after_setUp_access_log :
    let access : Note := ⟨"", 7, ⟨.warning, "uvicorn.access", "GET"⟩⟩
    let failed : Note := ⟨"", 7, ⟨.error, "labelarr.templates.resolver", "Failed"⟩⟩
    let quiet : Note := ⟨"", 7, ⟨.warning, "labelarr.templates.resolver", "Could not"⟩⟩
    let before : List Event := [.entry quiet, .setUp (some "_styles") (some "logs") {}]
    let after : List Event :=
      [.entry access, .setUp none none { logLevel := "DEBUG", logDir := some "other" }, .entry failed, .entry quiet]
    let settings : Settings := { logLevel := "error" }
    let started := (({} : Journal).run before).setUp none (some "logs") settings.logLevel settings.logDir
    let last := started.1.run after
    none ∉ ({} : Journal).outcomes before ∧ (∀ e ∈ before, e.dirCanBeMade = true) ∧ started.2 = none ∧
      last.rootThreshold = 40 ∧
      last.files = [(pathIn "logs" "labelarr.log", [access.text, failed.text]),
        (pathIn "logs" "labelarr_errors.log", [failed.text])] ∧
      last.console = started.1.console ++ [failed.text] := by
  intro access failed quiet before after settings started last
  have hbefore : none ∉ ({} : Journal).outcomes before := by decide +kernel
  have hmade : ∀ e ∈ before, e.dirCanBeMade = true := by decide +kernel
  have hset : started.2 = none := by decide +kernel
  obtain ⟨hroot, _, _, hstreams⟩ := run_after_setUp hbefore hmade hset after
  obtain ⟨hfiles, hconsole, _⟩ := hstreams "logs" (by decide)
  exact ⟨hbefore, hmade, hset, hroot.trans (by decide +kernel), hfiles.trans (by decide +kernel),
    hconsole.trans (by decide +kernel)⟩

end

end ColumnLabel.Journal
