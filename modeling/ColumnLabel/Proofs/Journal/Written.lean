import ColumnLabel.Journal.Setup
import ColumnLabel.Settings
import Mathlib.Data.List.Induction

/-!
# ColumnLabel.Proofs.Journal.Written

What the events in the life of a journal do to it.

An entry that its logger lets through is written by every destination that it reaches, once by each, and changes
nothing else (`record_eq`).  Setting up has four outcomes (`setUp_cases`), and once it has got through it changes
nothing any more.  So what a journal that is set up has written at the end of a run is what it had written at the
start, and then of each entry in turn the copies that its destinations make (`run_of_isSetUp`).
-/

namespace ColumnLabel

/-- An entry with the time and the line of the program that it comes from. -/
structure Note where
  time : String
  line : Nat
  entry : Entry
  deriving DecidableEq, Repr

namespace Note

/-- How much an entry matters. -/
def rank (n : Note) : Nat := n.entry.severity.rank

/-- An entry as it is written. -/
def text (n : Note) : String := Journal.format n.time n.line n.entry

/-- Does an entry reach a threshold? -/
def reaches (n : Note) (threshold : Nat) : Bool := threshold ≤ n.rank

@[simp] theorem reaches_iff {n : Note} {threshold : Nat} : n.reaches threshold = true ↔ threshold ≤ n.rank :=
  decide_eq_true_iff

/-- What reaches a threshold reaches every lower one. -/
theorem filter_reaches_of_le {low high : Nat} (h : low ≤ high) (ns : List Note) :
    (ns.filter (·.reaches low)).filter (·.reaches high) = ns.filter (·.reaches high) := by
  rw [List.filter_filter]
  refine List.filter_congr fun n _ => ?_
  rw [Bool.eq_iff_iff, Bool.and_eq_true, reaches_iff, reaches_iff]
  omega

end Note

/-- The path of the file that a destination writes; the console has none. -/
def Destination.path? (d : Destination) : Option String := d.file?.map (·.path)

namespace Journal

/-! ## Entries -/

/-- Does the logger of an entry let it through? -/
def passes (j : Journal) (n : Note) : Bool := n.rank ≠ 0 ∧ j.thresholdOf n.entry.logger ≤ n.rank

/-- What destinations write at one place, a file or the console, when each of them writes a text once. -/
def writtenAt (place : Option String) (text : String) (ds : List Destination) : List String :=
  ds.flatMap fun d => if d.path? = place then [text] else []

/-- The copies of an entry that a journal makes at one place. -/
def copies (j : Journal) (place : Option String) (n : Note) : List String :=
  if j.passes n then writtenAt place n.text (j.destinations.filter (n.reaches ·.threshold)) else []

variable {j : Journal} {n : Note}

theorem passes_iff : j.passes n = true ↔ n.rank ≠ 0 ∧ j.thresholdOf n.entry.logger ≤ n.rank := by
  simp [passes]

/-- A destination writes at its own place only. -/
theorem writeTo_eq (j : Journal) (text : String) (d : Destination) :
    j.writeTo text d =
      { j with
        console := j.console ++ writtenAt none text [d]
        files := j.files.map fun f => (f.1, f.2 ++ writtenAt (some f.1) text [d]) } := by
  obtain ⟨_ | f, threshold⟩ := d
  · simp [writeTo, writtenAt, Destination.path?]
  · have hfiles : addToFile f.path text j.files =
        j.files.map fun g => (g.1, g.2 ++ if f.path = g.1 then [text] else []) := by
      refine List.map_congr_left fun g _ => ?_
      by_cases hpath : g.1 = f.path
      · simp [hpath]
      · simp [hpath, Ne.symm hpath]
    simp [writeTo, writtenAt, Destination.path?, hfiles]

theorem foldl_writeTo (j : Journal) (text : String) (ds : List Destination) :
    ds.foldl (fun j d => j.writeTo text d) j =
      { j with
        console := j.console ++ writtenAt none text ds
        files := j.files.map fun f => (f.1, f.2 ++ writtenAt (some f.1) text ds) } := by
  induction ds generalizing j with
  | nil => simp [writtenAt]
  | cons d ds ih =>
      have hcons : ∀ place, writtenAt place text (d :: ds) = writtenAt place text [d] ++ writtenAt place text ds := by
        intro place
        rw [writtenAt, List.flatMap_cons, writtenAt, List.flatMap_singleton, writtenAt]
      rw [List.foldl_cons, ih, writeTo_eq]
      simp [hcons, List.append_assoc]

/-- What an entry does to a journal with destinations. -/
theorem record_eq (h : j.destinations ≠ []) (n : Note) :
    j.record n.time n.line n.entry =
      { j with
        console := j.console ++ j.copies none n
        files := j.files.map fun f => (f.1, f.2 ++ j.copies (some f.1) n) } := by
  rw [record]
  by_cases hpass : j.passes n = true
  · have hlevel := passes_iff.mp hpass
    rw [if_neg (by simp only [Note.rank] at hlevel; omega), if_neg h]
    simp only [copies, hpass, if_true]
    exact foldl_writeTo j n.text _
  · have hlevel := mt passes_iff.mpr hpass
    rw [if_pos (by simp only [Note.rank] at hlevel; omega)]
    simp [copies, hpass]

/-- Without destinations an entry can only get to the console. -/
theorem exists_record_eq (h : j.destinations = []) (n : Note) :
    ∃ console, j.record n.time n.line n.entry = { j with console } := by
  rw [record, if_pos h]
  split
  · exact ⟨j.console, rfl⟩
  · split
    · exact ⟨j.console, rfl⟩
    · exact ⟨_, rfl⟩

/-! ## Setting up -/

/-- The level that setting up takes; an empty one is not given. -/
def levelFrom (level : Option String) (settings : Settings) : String :=
  (level.filter (!·.isEmpty)).getD settings.logLevel

/-- The directory that setting up takes; an empty one is not given, and none of the settings either. -/
def dirFrom (dir : Option String) (settings : Settings) : Option String :=
  (dir.filter (!·.isEmpty)).or (settings.logDir.filter (!·.isEmpty))

section

variable {level dir : Option String} {settings : Settings}

theorem setUp_of_isSetUp (h : j.isSetUp = true) :
    j.setUp level dir settings.logLevel settings.logDir = (j, none) := by
  rw [setUp, if_pos h]

/-- Setting up stops at the level, or at the directory with the console added already, or it gets through. -/
theorem setUp_cases (level dir : Option String) (settings : Settings) (h : j.isSetUp = false) :
    (∃ fault, threshold (levelFrom level settings) = .error fault ∧
      j.setUp level dir settings.logLevel settings.logDir = (j, some fault)) ∨
    (∃ rank, threshold (levelFrom level settings) = .ok rank ∧
      (dirFrom dir settings).any Text.holdsNul = true ∧
      j.setUp level dir settings.logLevel settings.logDir =
        ({ j with rootThreshold := rank }.listen [consoleAt rank], some .nulInside)) ∨
    (∃ rank, threshold (levelFrom level settings) = .ok rank ∧
      (dirFrom dir settings).any Text.holdsNul = false ∧
      j.setUp level dir settings.logLevel settings.logDir =
        ({ ({ j with rootThreshold := rank }.listen [consoleAt rank]).listen
            (((dirFrom dir settings).map filesIn).getD []) with
          accessThreshold := Severity.warning.rank, isSetUp := true }, none)) := by
  cases hlevel : threshold (levelFrom level settings) with
  | error fault =>
      refine .inl ⟨fault, rfl, ?_⟩
      rw [levelFrom] at hlevel
      simp only [setUp, h, hlevel, Bool.false_eq_true, if_false]
  | ok rank =>
      rw [levelFrom] at hlevel
      cases hdir : (dirFrom dir settings).any Text.holdsNul with
      | true =>
          refine .inr (.inl ⟨rank, rfl, rfl, ?_⟩)
          rw [dirFrom] at hdir
          simp only [setUp, h, hlevel, hdir, Bool.false_eq_true, if_false, if_true]
      | false =>
          refine .inr (.inr ⟨rank, rfl, rfl, ?_⟩)
          rw [dirFrom] at hdir ⊢
          simp only [setUp, h, hlevel, hdir, Bool.false_eq_true, if_false]

end

end Journal

/-! ## Runs -/

/-- What happens to a journal: somebody sets it up, with the settings of that moment, or an entry comes.  The service
does both when it starts; it gives no level and no directory. -/
inductive Event where
  | setUp (level dir : Option String) (settings : Settings)
  | entry (n : Note)

namespace Event

/-- The entry that comes, if one does. -/
def note? : Event → Option Note
  | .setUp _ _ _ => none
  | .entry n => some n

/-- If this sets a journal up, can the directory be made? -/
def dirCanBeMade : Event → Bool
  | .setUp _ dir settings => !(Journal.dirFrom dir settings).any Text.holdsNul
  | .entry _ => true

end Event

/-- The entries that come. -/
def notes (events : List Event) : List Note := events.filterMap Event.note?

namespace Journal

/-- One event. -/
def apply (j : Journal) : Event → Journal
  | .setUp level dir settings => (j.setUp level dir settings.logLevel settings.logDir).1
  | .entry n => j.record n.time n.line n.entry

/-- Events one after the other. -/
def run (j : Journal) (events : List Event) : Journal := events.foldl apply j

@[simp] theorem run_nil (j : Journal) : j.run [] = j := rfl

@[simp] theorem run_cons (j : Journal) (e : Event) (events : List Event) :
    j.run (e :: events) = (j.apply e).run events := rfl

@[simp] theorem run_concat (j : Journal) (events : List Event) (e : Event) :
    j.run (events ++ [e]) = (j.run events).apply e := by
  simp [run, List.foldl_append]

/-- How the attempts to set a journal up end in a run: each with the fault that it stops at, or without one. -/
def outcomes (j : Journal) : List Event → List (Option Fault)
  | [] => []
  | .setUp level dir settings :: events =>
    (j.setUp level dir settings.logLevel settings.logDir).2 ::
      outcomes (j.apply (.setUp level dir settings)) events
  | .entry n :: events => outcomes (j.apply (.entry n)) events

variable {j : Journal}

/-- Entries change nothing but what is written. -/
theorem exists_apply_entry_eq (j : Journal) (n : Note) :
    ∃ console files, j.apply (.entry n) = { j with console, files } ∧ (j.files = [] → files = []) := by
  by_cases h : j.destinations = []
  · obtain ⟨console, heq⟩ := exists_record_eq h n
    exact ⟨console, j.files, heq, id⟩
  · exact ⟨_, _, record_eq h n, fun hfiles => by rw [hfiles, List.map_nil]⟩

/-- An attempt gets through when the journal is set up behind it. -/
theorem isSetUp_setUp_iff (j : Journal) (level dir : Option String) (settings : Settings) :
    (j.setUp level dir settings.logLevel settings.logDir).1.isSetUp = true ↔
      (j.setUp level dir settings.logLevel settings.logDir).2 = none := by
  by_cases h : j.isSetUp = true
  · simp [setUp_of_isSetUp h, h]
  · rw [Bool.not_eq_true] at h
    obtain ⟨fault, _, heq⟩ | ⟨rank, _, _, heq⟩ | ⟨rank, _, _, heq⟩ := setUp_cases level dir settings h
    all_goals simp [heq, h, listen]

/-- Once a journal is set up, it stays so. -/
theorem isSetUp_apply (h : j.isSetUp = true) (e : Event) : (j.apply e).isSetUp = true := by
  cases e with
  | setUp level dir settings => rw [apply, setUp_of_isSetUp h, h]
  | entry n =>
      obtain ⟨console, files, heq, _⟩ := exists_apply_entry_eq j n
      rw [heq, h]

/-- A journal is not set up as long as no attempt has got through. -/
theorem isSetUp_run_eq_false (h : j.isSetUp = false) {events : List Event} (hnone : none ∉ j.outcomes events) :
    (j.run events).isSetUp = false := by
  induction events generalizing j with
  | nil => exact h
  | cons e events ih =>
      cases e with
      | setUp level dir settings =>
          obtain ⟨hfirst, hrest⟩ := List.ne_and_not_mem_of_not_mem_cons hnone
          refine ih ?_ hrest
          rw [← Bool.not_eq_true, apply, isSetUp_setUp_iff]
          exact hfirst.symm
      | entry n =>
          obtain ⟨console, files, heq, _⟩ := exists_apply_entry_eq j n
          refine ih ?_ hnone
          rw [heq, h]

/-- **A run of a journal that is set up** adds, entry by entry, the copies that its destinations make, and changes
nothing else. -/
theorem run_of_isSetUp (hset : j.isSetUp = true) (hds : j.destinations ≠ []) (events : List Event) :
    j.run events =
      { j with
        console := j.console ++ (notes events).flatMap (j.copies none)
        files := j.files.map fun f => (f.1, f.2 ++ (notes events).flatMap (j.copies (some f.1))) } := by
  induction events generalizing j with
  | nil => simp [notes]
  | cons e events ih =>
      cases e with
      | setUp level dir settings =>
          rw [run_cons, apply, setUp_of_isSetUp hset]
          exact ih hset hds
      | entry n =>
          rw [run_cons, apply, record_eq hds, ih (by exact hset) (by exact hds)]
          have hcopies : ∀ console files place,
              ({ j with console, files } : Journal).copies place = j.copies place := fun _ _ _ => rfl
          simp [notes, Event.note?, hcopies, List.append_assoc, Function.comp_def]

theorem run_keeps (hset : j.isSetUp = true) (hds : j.destinations ≠ []) (events : List Event) :
    (j.run events).rootThreshold = j.rootThreshold ∧ (j.run events).destinations = j.destinations ∧
      (j.run events).accessThreshold = j.accessThreshold := by
  rw [run_of_isSetUp hset hds]
  exact ⟨rfl, rfl, rfl⟩

/-! ## Before a journal is set up -/

/-- A journal that is not set up writes no files. -/
structure IsIdle (j : Journal) : Prop where
  isSetUp : j.isSetUp = false
  files : j.files = []
  consoles : ∀ d ∈ j.destinations, d.path? = none

theorem isIdle_empty : ({} : Journal).IsIdle := ⟨rfl, rfl, by simp⟩

/-- An attempt to set the journal up that does not get through may leave a console behind, but no file; it leaves
nothing behind if it does not stop at the directory. -/
theorem IsIdle.apply (h : j.IsIdle) {e : Event} (hnot : (j.apply e).isSetUp = false) :
    (j.apply e).IsIdle ∧ (e.dirCanBeMade = true → (j.apply e).destinations = j.destinations) := by
  cases e with
  | entry n =>
      obtain ⟨console, files, heq, hfiles⟩ := exists_apply_entry_eq j n
      rw [heq]
      exact ⟨⟨h.isSetUp, hfiles h.files, h.consoles⟩, fun _ => rfl⟩
  | setUp level dir settings =>
      rw [Journal.apply] at hnot ⊢
      obtain ⟨fault, _, heq⟩ | ⟨rank, _, hdir, heq⟩ | ⟨rank, _, _, heq⟩ := setUp_cases level dir settings h.isSetUp
      · rw [heq]
        exact ⟨h, fun _ => rfl⟩
      · rw [heq]
        refine ⟨⟨h.isSetUp, by simp [listen, consoleAt, h.files], fun d hd => ?_⟩, fun hmade => ?_⟩
        · obtain hd | hd := List.mem_append.mp hd
          · exact h.consoles d hd
          · rw [List.mem_singleton.mp hd]
            rfl
        · simp [Event.dirCanBeMade, hdir] at hmade
      · rw [heq] at hnot
        contradiction

theorem IsIdle.run (h : j.IsIdle) {events : List Event} (hnot : (j.run events).isSetUp = false) :
    (j.run events).IsIdle ∧
      ((∀ e ∈ events, e.dirCanBeMade = true) → (j.run events).destinations = j.destinations) := by
  induction events using List.reverseRecOn with
  | nil => exact ⟨h, fun _ => rfl⟩
  | append_singleton events e ih =>
      rw [run_concat] at hnot ⊢
      have hbefore : (j.run events).isSetUp = false := by
        by_contra hset
        rw [isSetUp_apply (Bool.not_eq_false _ ▸ hset) e] at hnot
        contradiction
      obtain ⟨hidle, hds⟩ := ih hbefore
      obtain ⟨hlast, hlastds⟩ := hidle.apply hnot
      refine ⟨hlast, fun hmade => ?_⟩
      obtain ⟨hevents, he⟩ := List.forall_mem_append.mp hmade
      rw [hlastds (he e (List.mem_singleton_self e)), hds hevents]

/-- The journal that the first attempt to get through leaves. -/
theorem IsIdle.exists_setUp_eq (h : j.IsIdle) {level dir : Option String} {settings : Settings}
    (hset : (j.setUp level dir settings.logLevel settings.logDir).2 = none) :
    ∃ rank, threshold (levelFrom level settings) = .ok rank ∧
      (j.setUp level dir settings.logLevel settings.logDir).1 =
        { rootThreshold := rank
          accessThreshold := Severity.warning.rank
          destinations := j.destinations ++ consoleAt rank :: ((dirFrom dir settings).map filesIn).getD []
          isSetUp := true
          console := j.console
          files := (((dirFrom dir settings).map filesIn).getD []).filterMap fun d =>
            d.path?.map fun path => (path, []) } := by
  obtain ⟨fault, _, heq⟩ | ⟨rank, _, _, heq⟩ | ⟨rank, hrank, _, heq⟩ := setUp_cases level dir settings h.isSetUp
  · rw [heq] at hset
    contradiction
  · rw [heq] at hset
    contradiction
  · refine ⟨rank, hrank, ?_⟩
    rw [heq]
    simp [listen, consoleAt, h.files, Destination.path?, Function.comp_def]

theorem IsIdle.destinations_ne_nil (h : j.IsIdle) {level dir : Option String} {settings : Settings}
    (hset : (j.setUp level dir settings.logLevel settings.logDir).2 = none) :
    (j.setUp level dir settings.logLevel settings.logDir).1.destinations ≠ [] := by
  obtain ⟨rank, _, hfirst⟩ := h.exists_setUp_eq hset
  simp [hfirst]

end Journal

end ColumnLabel
