import ColumnLabel.Settings
import Mathlib.Data.List.Induction

/-!
# ColumnLabel.Proofs.Settings.Reload

Reading the settings anew, and what that does in the life of a program whose environment and file of settings
change from time to time.

A reading that gets to its end leaves the settings of one environment (`Settings.IsOf`).  One that the port stops
has replaced the settings in front of the port by then and none of the others, so the settings stay as they were
only if those in front had their new values already (`settings_reload_eq_iff`).
-/

namespace ColumnLabel

/-! ## Settings and environments -/

namespace Settings

/-- The settings are those of an environment. -/
structure IsOf (s : Settings) (env : Environment) : Prop where
  logLevel : s.logLevel = logLevelOf env
  logDir : s.logDir = logDirOf env
  apiHost : s.apiHost = apiHostOf env
  apiPort : apiPortOf env = .ok s.apiPort
  includeMetrics : s.includeMetrics = includeMetricsOf env

/-- The settings in front of the port are those of an environment. -/
structure FrontIsOf (s : Settings) (env : Environment) : Prop where
  logLevel : s.logLevel = logLevelOf env
  logDir : s.logDir = logDirOf env
  apiHost : s.apiHost = apiHostOf env

variable {s : Settings} {env : Environment}

theorem load_of_port_eq_ok {port : Int} (hport : apiPortOf env = .ok port) :
    s.load env = ({
      logLevel := logLevelOf env
      logDir := logDirOf env
      apiHost := apiHostOf env
      apiPort := port
      includeMetrics := includeMetricsOf env }, none) := by
  rw [load, hport]

/-- A port that is no integer stops the reading behind the settings in front of it. -/
theorem load_of_port_eq_error {fault : Fault} (hport : apiPortOf env = .error fault) :
    s.load env = ({ s with logLevel := logLevelOf env, logDir := logDirOf env, apiHost := apiHostOf env },
      some fault) := by
  rw [load, hport]

/-- Nothing but the port stops the reading. -/
theorem load_snd_eq_some_iff {fault : Fault} : (s.load env).2 = some fault ↔ apiPortOf env = .error fault := by
  cases hport : apiPortOf env with
  | ok port => simp [load_of_port_eq_ok hport]
  | error other => simp [load_of_port_eq_error hport]

/-- A reading that gets to its end gives the settings of the environment, whatever they were before. -/
theorem isOf_load (h : (s.load env).2 = none) : (s.load env).1.IsOf env := by
  cases hport : apiPortOf env with
  | ok port =>
      rw [load_of_port_eq_ok hport]
      exact ⟨rfl, rfl, rfl, hport, rfl⟩
  | error fault =>
      rw [load_snd_eq_some_iff.mpr hport] at h
      contradiction

theorem load_fst_eq_self_iff {fault : Fault} (hport : apiPortOf env = .error fault) :
    (s.load env).1 = s ↔ s.FrontIsOf env := by
  rw [load_of_port_eq_error hport]
  constructor
  · intro heq
    exact ⟨(congrArg logLevel heq).symm, (congrArg logDir heq).symm, (congrArg apiHost heq).symm⟩
  · intro hfront
    rw [← hfront.logLevel, ← hfront.logDir, ← hfront.apiHost]

end Settings

/-! ## One reading -/

namespace Surroundings

/-- What stops the entries of the file on their way into the environment. -/
def fileFault? (s : Surroundings) : Option Fault := (s.environment.assignAll s.file).2

variable {s : Surroundings}

theorem reload_of_fileFault {fault : Fault} (h : s.fileFault? = some fault) :
    s.reload = ({ s with environment := (s.environment.assignAll s.file).1 }, some fault) := by
  rw [fileFault?] at h
  rw [reload]
  split
  · next heq =>
      rw [heq] at h ⊢
      rw [← Option.some.inj h]
  · next heq =>
      rw [heq] at h
      contradiction

theorem reload_of_no_fileFault (h : s.fileFault? = none) :
    s.reload = ({ s with
        environment := (s.environment.assignAll s.file).1
        settings := (s.settings.load (s.environment.assignAll s.file).1).1 },
      (s.settings.load (s.environment.assignAll s.file).1).2) := by
  rw [fileFault?] at h
  rw [reload]
  split
  · next heq =>
      rw [heq] at h
      contradiction
  · next heq => rw [heq]

/-- Whether or not the reading gets to its end, the entries of the file have gone into the environment. -/
theorem environment_reload (s : Surroundings) :
    s.reload.1.environment = (s.environment.assignAll s.file).1 := by
  cases h : s.fileFault? with
  | none => rw [reload_of_no_fileFault h]
  | some fault => rw [reload_of_fileFault h]

@[simp] theorem file_reload (s : Surroundings) : s.reload.1.file = s.file := by
  cases h : s.fileFault? with
  | none => rw [reload_of_no_fileFault h]
  | some fault => rw [reload_of_fileFault h]

/-- A reading that gets to its end gives the settings of the environment that it leaves. -/
theorem isOf_reload (h : s.reload.2 = none) : s.reload.1.settings.IsOf s.reload.1.environment := by
  cases hfile : s.fileFault? with
  | none =>
      rw [reload_of_no_fileFault hfile] at h ⊢
      exact Settings.isOf_load h
  | some fault =>
      rw [reload_of_fileFault hfile] at h
      contradiction

/-- A reading that the port stops gives the settings in front of the port, and keeps the others. -/
theorem reload_of_port_stops (hfile : s.fileFault? = none) (h : s.reload.2 ≠ none) :
    s.reload.1.settings.FrontIsOf s.reload.1.environment ∧
      s.reload.1.settings.apiPort = s.settings.apiPort ∧
      s.reload.1.settings.includeMetrics = s.settings.includeMetrics := by
  rw [reload_of_no_fileFault hfile] at h ⊢
  cases hport : Settings.apiPortOf (s.environment.assignAll s.file).1 with
  | ok port => simp [Settings.load_of_port_eq_ok hport] at h
  | error fault =>
      rw [Settings.load_of_port_eq_error hport]
      exact ⟨⟨rfl, rfl, rfl⟩, rfl, rfl⟩

/-- Where the port of the new environment is no integer, the settings in front of it are new already. -/
def ReloadsWhole (s : Surroundings) : Prop :=
  s.fileFault? = none → ∀ fault, Settings.apiPortOf s.reload.1.environment = .error fault →
    s.settings.FrontIsOf s.reload.1.environment

/-- A reading that is stopped changes no setting exactly if it stops in time. -/
theorem reload_keeps_settings_iff :
    (s.reload.2 ≠ none → s.reload.1.settings = s.settings) ↔ s.ReloadsWhole := by
  rw [ReloadsWhole, environment_reload]
  cases hfile : s.fileFault? with
  | some fault => simp [reload_of_fileFault hfile]
  | none =>
      rw [reload_of_no_fileFault hfile]
      cases hport : Settings.apiPortOf (s.environment.assignAll s.file).1 with
      | ok port => simp [Settings.load_of_port_eq_ok hport]
      | error fault => simp [Settings.load_snd_eq_some_iff.mpr hport, Settings.load_fst_eq_self_iff hport]

/-! ## Runs -/

/-- What happens to the surroundings of the program. -/
inductive Step where
  | unset (name : String)
  | set (name text : String)
  | replaceFile (file : Environment)
  | reload
  deriving DecidableEq, Repr

/-- One step.  A pair that the system does not take changes nothing. -/
def apply (s : Surroundings) : Step → Surroundings
  | .unset name => { s with environment := s.environment.unset name }
  | .set name text =>
    match s.environment.assign name text with
    | .ok environment => { s with environment }
    | .error _ => s
  | .replaceFile file => { s with file }
  | .reload => s.reload.1

/-- Steps one after the other. -/
def run (s : Surroundings) (steps : List Step) : Surroundings := steps.foldl apply s

@[simp] theorem run_nil (s : Surroundings) : s.run [] = s := rfl

@[simp] theorem run_concat (s : Surroundings) (steps : List Step) (step : Step) :
    s.run (steps ++ [step]) = (s.run steps).apply step := by
  simp [run, List.foldl_append]

/-- Only a reading changes settings. -/
theorem settings_apply {step : Step} (h : step ≠ .reload) : (s.apply step).settings = s.settings := by
  cases step with
  | unset name => rfl
  | set name text =>
      rw [apply]
      split <;> rfl
  | replaceFile file => rfl
  | reload => contradiction

/-- As long as every reading on the way either gets to its end or stops in time, the settings are those of one
environment that the run has come through. -/
theorem exists_isOf_run {steps : List Step} (hstart : s.settings.IsOf s.environment)
    (hwhole : ∀ n, steps[n]? = some .reload → (s.run (steps.take n)).ReloadsWhole) :
    ∃ n ≤ steps.length, (s.run steps).settings.IsOf (s.run (steps.take n)).environment := by
  induction steps using List.reverseRecOn with
  | nil => exact ⟨0, Nat.le_refl 0, hstart⟩
  | append_singleton steps step ih =>
      have htake : ∀ n ≤ steps.length, (steps ++ [step]).take n = steps.take n := fun n hn =>
        List.take_append_of_le_length hn
      have hunchanged : ((s.run steps).apply step).settings = (s.run steps).settings →
          ∃ n ≤ (steps ++ [step]).length,
            (s.run (steps ++ [step])).settings.IsOf (s.run ((steps ++ [step]).take n)).environment := by
        intro heq
        obtain ⟨n, hn, hof⟩ := ih fun n hstep => by
          have hn : n < steps.length := (List.getElem?_eq_some_iff.mp hstep).1
          rw [← htake n (Nat.le_of_lt hn)]
          exact hwhole n (by rw [List.getElem?_append_left hn, hstep])
        rw [run_concat, heq]
        exact ⟨n, by simp; omega, by rwa [htake n hn]⟩
      by_cases hstep : step = .reload
      · subst hstep
        have hlast : (s.run steps).ReloadsWhole := by
          have hwhole := hwhole steps.length (by simp)
          rwa [htake _ (Nat.le_refl _), List.take_length] at hwhole
        by_cases hend : (s.run steps).reload.2 = none
        · refine ⟨(steps ++ [Step.reload]).length, Nat.le_refl _, ?_⟩
          rw [List.take_length, run_concat]
          exact isOf_reload hend
        · exact hunchanged (reload_keeps_settings_iff.mpr hlast hend)
      · exact hunchanged (settings_apply hstep)

/-- **Reading the settings anew.**  A reading that gets to its end gives the settings of the environment that it
leaves.  One that the port stops gives those in front of the port and keeps the others.  So a reading that is
stopped leaves all settings as they were exactly if the file stops it, or those in front of the port have their new
values already; and as long as that is so, a run leads from the settings of one environment to those of one
environment that it has come through. -/
theorem settings_reload_eq_iff (s : Surroundings) :
    (s.reload.2 = none → s.reload.1.settings.IsOf s.reload.1.environment) ∧
      (s.fileFault? = none → s.reload.2 ≠ none →
        s.reload.1.settings.FrontIsOf s.reload.1.environment ∧
          s.reload.1.settings.apiPort = s.settings.apiPort ∧
          s.reload.1.settings.includeMetrics = s.settings.includeMetrics) ∧
      ((s.reload.2 ≠ none → s.reload.1.settings = s.settings) ↔ s.ReloadsWhole) ∧
      ∀ steps : List Step, s.settings.IsOf s.environment →
        (∀ n, steps[n]? = some .reload → (s.run (steps.take n)).ReloadsWhole) →
        ∃ n ≤ steps.length, (s.run steps).settings.IsOf (s.run (steps.take n)).environment :=
  ⟨isOf_reload, reload_of_port_stops, reload_keeps_settings_iff, fun _ => exists_isOf_run⟩

/-- The metrics are switched on while the port is no integer, and nothing else has changed. -/
theorem settings_reload_eq_iff_metrics_only :
    let s : Surroundings := {}
    let steps : List Step := [.set "API_PORT" "x", .set "LABEL_INCLUDE_METRICS" "yes", .reload]
    s.settings.IsOf s.environment ∧ (s.run (steps.take 2)).reload.2 = some (.notAnInteger "x") ∧
      (s.run (steps.take 2)).reload.1.settings = (s.run (steps.take 2)).settings ∧
      ∃ n ≤ steps.length, (s.run steps).settings.IsOf (s.run (steps.take n)).environment := by
  intro s steps
  have hstart : s.settings.IsOf s.environment := ⟨rfl, rfl, rfl, by decide +kernel, rfl⟩
  have hstops : (s.run (steps.take 2)).reload.2 = some (.notAnInteger "x") := by decide +kernel
  obtain ⟨_, _, hkeeps, _⟩ := settings_reload_eq_iff (s.run (steps.take 2))
  have hwhole : (s.run (steps.take 2)).ReloadsWhole := fun _ _ _ =>
    ⟨by decide +kernel, by decide +kernel, by decide +kernel⟩
  refine ⟨hstart, hstops, hkeeps.mpr hwhole (by simp [hstops]), ?_⟩
  refine (settings_reload_eq_iff s).2.2.2 steps hstart fun n hn => ?_
  obtain rfl : n = 2 := by
    rcases n with _ | _ | _ | n <;> simp_all [steps]
  exact hwhole

/-- The level of the journal has changed as well when the port stops the reading: the settings that are left are of
none of the environments that the run has come through. -/
theorem settings_reload_ne :
    let steps : List Step := [.set "API_PORT" "x", .set "LOG_LEVEL" "DEBUG", .reload]
    let s : Nat → Surroundings := fun n => ({} : Surroundings).run (steps.take n)
    (s 2).reload.2 = some (.notAnInteger "x") ∧ (s 2).settings = {} ∧
      (s 3).settings = { logLevel := "DEBUG" } ∧
      ∀ n, ¬ (s 3).settings.IsOf (s n).environment := by
  intro steps s
  refine ⟨by decide +kernel, by decide +kernel, by decide +kernel, fun n hof => ?_⟩
  -- up to the second step the level does not fit, and from then on the port does not
  rcases n with _ | _ | n
  · exact absurd hof.logLevel (by decide +kernel)
  · exact absurd hof.logLevel (by decide +kernel)
  · have hport : (s (n + 2)).environment.get? "API_PORT" = some "x" := by
      rcases n with _ | n
      · decide +kernel
      · have hall : steps.take (n + 1 + 2) = steps := List.take_of_length_le (by simp [steps])
        simp only [s, hall]
        decide +kernel
    have hno : Settings.apiPortOf (s (n + 2)).environment = .error (.notAnInteger "x") := by
      rw [Settings.apiPortOf, hport]
      decide +kernel
    exact absurd (hno.symm.trans hof.apiPort) (by simp)

end Surroundings

end ColumnLabel
