import ColumnLabel.Proofs.Settings.Reload

/-!
# ColumnLabel.Proofs.Settings.History

Where a setting comes from, over a whole run.

The environment is hidden in the surroundings and even a reading that is stopped writes the file into it.  What it
holds can be told from the steps alone, looking back from the latest one (`textAfter?`), and with it every setting
after a reading that gets to its end (`settings_of_history`).
-/

namespace ColumnLabel

/-! ## Files that the system takes -/

namespace Environment

/-- Does the system take a name and a text? -/
def takes (name text : String) : Bool :=
  !(Text.holdsNul name || Text.holdsNul text) && !name.toList.contains '=' && !name.isEmpty

/-- The text that a file has for a name.  The last entry of the name counts, without the blanks around its text. -/
def textIn? (file : Environment) (name : String) : Option String := (file.reverse.lookup name).map Text.trimmed

variable {env file : Environment} {name text : String}

theorem assign_of_takes (h : takes name text = true) : env.assign name text = .ok (env.set name text) := by
  simp only [takes, Bool.and_eq_true, Bool.not_eq_true'] at h
  obtain ⟨⟨hnul, hequals⟩, hempty⟩ := h
  simp only [assign, hnul, hequals, hempty, Bool.false_eq_true, if_false]

theorem exists_assign_eq_error (env : Environment) (h : takes name text = false) :
    ∃ fault, env.assign name text = .error fault := by
  rw [assign]
  split
  · exact ⟨_, rfl⟩
  split
  · exact ⟨_, rfl⟩
  split
  · exact ⟨_, rfl⟩
  simp_all [takes]

theorem textIn?_cons (file : Environment) (n t name : String) :
    textIn? ((n, t) :: file) name =
      (textIn? file name).or (if n = name then some (Text.trimmed t) else none) := by
  rw [textIn?, textIn?, List.reverse_cons, List.lookup_append, Option.map_or]
  by_cases h : n = name
  · simp [h]
  · simp [h, List.lookup_cons, beq_false_of_ne (Ne.symm h)]

/-- A file whose pairs the system takes goes into the environment as a whole, and from then on its names have the
texts that the file has for them. -/
theorem exists_assignAll_eq (env : Environment) (h : ∀ e ∈ file, takes e.1 (Text.trimmed e.2) = true) :
    ∃ env', env.assignAll file = (env', none) ∧ ∀ name, env'.get? name = (file.textIn? name).or (env.get? name) := by
  induction file generalizing env with
  | nil => exact ⟨env, rfl, fun _ => rfl⟩
  | cons e file ih =>
      obtain ⟨n, t⟩ := e
      obtain ⟨hfirst, hrest⟩ := List.forall_mem_cons.mp h
      obtain ⟨env', hall, hget⟩ := ih (env.set n (Text.trimmed t)) hrest
      refine ⟨env', ?_, fun name => ?_⟩
      · rw [assignAll, ← Text.trimmed, assign_of_takes hfirst]
        exact hall
      · rw [hget, get?_set, textIn?_cons, Option.or_assoc]
        by_cases hname : n = name <;> simp [hname]

end Environment

/-! ## Looking back -/

namespace Surroundings

/-- A step that brings no file, or one of which the system takes all entries. -/
def Step.isPlain : Step → Bool
  | .replaceFile file => file.all fun e => Environment.takes e.1 (Text.trimmed e.2)
  | _ => true

/-- The file after some steps, the latest one first. -/
def fileAfter : (past : List Step) → Environment
  | [] => []
  | .replaceFile file :: _ => file
  | .unset _ :: past | .set _ _ :: past | .reload :: past => fileAfter past

/-- The text that some steps, the latest one first, leave under a name.  The latest one that sets it, forgets it or
reads it from the file decides; a text that the system does not take is not set. -/
def textAfter? (name : String) : (past : List Step) → Option String
  | [] => none
  | .unset n :: past => if n = name then none else textAfter? name past
  | .set n text :: past => if n = name ∧ Environment.takes n text then some text else textAfter? name past
  | .replaceFile _ :: past => textAfter? name past
  | .reload :: past => ((fileAfter past).textIn? name).or (textAfter? name past)

variable {s : Surroundings} {steps : List Step}

theorem file_apply (s : Surroundings) (step : Step) :
    (s.apply step).file = match step with
      | .replaceFile file => file
      | _ => s.file := by
  cases step with
  | set name text =>
      simp only [apply]
      split <;> rfl
  | reload => exact file_reload s
  | _ => rfl

theorem file_run (hstart : s.file = []) (steps : List Step) : (s.run steps).file = fileAfter steps.reverse := by
  induction steps using List.reverseRecOn with
  | nil => exact hstart
  | append_singleton steps step ih =>
      rw [run_concat, file_apply, List.reverse_concat, ih]
      cases step <;> rfl

theorem isPlain_file_run (hstart : s.file = []) (hplain : ∀ step ∈ steps, step.isPlain = true) :
    ∀ e ∈ (s.run steps).file, Environment.takes e.1 (Text.trimmed e.2) = true := by
  induction steps using List.reverseRecOn with
  | nil => simp [hstart]
  | append_singleton steps step ih =>
      obtain ⟨hsteps, hlast⟩ := List.forall_mem_append.mp hplain
      rw [run_concat, file_apply]
      cases step with
      | replaceFile file => exact List.all_eq_true.mp (hlast _ (List.mem_singleton_self _))
      | _ => exact ih hsteps

/-- The environment holds under each name what the steps have left there. -/
theorem get?_environment_run (henv : s.environment = []) (hfile : s.file = [])
    (hplain : ∀ step ∈ steps, step.isPlain = true) (name : String) :
    (s.run steps).environment.get? name = textAfter? name steps.reverse := by
  induction steps using List.reverseRecOn with
  | nil => rw [run_nil, henv]; rfl
  | append_singleton steps step ih =>
      obtain ⟨hsteps, hlast⟩ := List.forall_mem_append.mp hplain
      rw [run_concat, List.reverse_concat]
      cases step with
      | unset n => simp [apply, textAfter?, ih hsteps]
      | set n text =>
          cases htakes : Environment.takes n text with
          | true => simp [apply, textAfter?, htakes, Environment.assign_of_takes htakes, ih hsteps]
          | false =>
              obtain ⟨fault, hassign⟩ := Environment.exists_assign_eq_error (s.run steps).environment htakes
              simp [apply, textAfter?, htakes, hassign, ih hsteps]
      | replaceFile file => exact ih hsteps
      | reload =>
          obtain ⟨env, hall, hget⟩ := Environment.exists_assignAll_eq (s.run steps).environment
            (isPlain_file_run hfile hsteps)
          rw [apply, environment_reload, hall, hget, ih hsteps, file_run hfile]
          rfl

/-! ## A name that nothing touches -/

/-- Does a step set or forget a name, or bring a file with an entry for it? -/
def Step.touches (name : String) : Step → Bool
  | .unset n | .set n _ => n = name
  | .replaceFile file => (file.textIn? name).isSome
  | .reload => false

/-- The text that a reading finds in the file for a name stays until another step touches the name, even if the
file is replaced by one without it. -/
theorem textAfter?_of_untouched {name text : String} {older : List Step}
    (hentry : (fileAfter older).textIn? name = some text) (newer : List Step)
    (h : ∀ step ∈ newer, step.touches name = false) :
    textAfter? name (newer ++ .reload :: older) = some text ∧
      ∀ t, (fileAfter (newer ++ .reload :: older)).textIn? name = some t → t = text := by
  induction newer with
  | nil =>
      refine ⟨by simp [textAfter?, hentry], fun t ht => ?_⟩
      rw [List.nil_append, fileAfter, hentry] at ht
      exact (Option.some.inj ht).symm
  | cons step newer ih =>
      obtain ⟨hstep, hnewer⟩ := List.forall_mem_cons.mp h
      obtain ⟨htext, hfile⟩ := ih hnewer
      cases step with
      | unset n => exact ⟨by simp_all [textAfter?, Step.touches], hfile⟩
      | set n t => exact ⟨by simp_all [textAfter?, Step.touches], hfile⟩
      | replaceFile file => exact ⟨htext, fun t ht => by simp_all [fileAfter, Step.touches]⟩
      | reload =>
          refine ⟨?_, hfile⟩
          rw [List.cons_append, textAfter?, htext]
          cases hnow : (fileAfter (newer ++ .reload :: older)).textIn? name with
          | none => rfl
          | some t => rw [hfile t hnow]; rfl

/-! ## The settings -/

/-- **Where a setting comes from.**  Whatever the settings were at the start, after a reading that gets to its end
each of them is read, by its own rule, from the text that the file has for its name; else from the one that the steps
have left under it; else it is the default.  A name that is dropped from the file keeps the text of the last reading
that found it there until a step touches it. -/
theorem settings_of_history (settings : Settings) {steps : List Step}
    (hplain : ∀ step ∈ steps, step.isPlain = true) (hend : (({ settings } : Surroundings).run steps).reload.2 = none) :
    let past := steps.reverse
    let text? := fun name => ((fileAfter past).textIn? name).or (textAfter? name past)
    let now := (({ settings } : Surroundings).run steps).reload.1.settings
    now.logLevel = (text? "LOG_LEVEL").getD "INFO" ∧
      now.logDir = (text? "LOG_DIR").bind Settings.nonempty? ∧
      now.apiHost = (text? "API_HOST").getD "0.0.0.0" ∧
      readInt ((text? "API_PORT").getD "9196") = .ok now.apiPort ∧
      now.includeMetrics = ((text? "LABEL_INCLUDE_METRICS").map Settings.isYes).getD false ∧
      ∀ name text newer older, past = newer ++ .reload :: older → (fileAfter older).textIn? name = some text →
        (∀ step ∈ newer, step.touches name = false) → text? name = some text := by
  intro past text? now
  have hof : now.IsOf (({ settings } : Surroundings).run (steps ++ [.reload])).environment := by
    rw [run_concat]
    exact isOf_reload hend
  have hget : ∀ name, (({ settings } : Surroundings).run (steps ++ [.reload])).environment.get? name = text? name := by
    intro name
    rw [get?_environment_run rfl rfl (List.forall_mem_append.mpr ⟨hplain, by simp [Step.isPlain]⟩),
      List.reverse_concat]
    rfl
  refine ⟨?_, ?_, ?_, ?_, ?_, fun name text newer older hpast hentry huntouched => ?_⟩
  · rw [hof.logLevel, Settings.logLevelOf, hget]
  · rw [hof.logDir, Settings.logDirOf, hget]
  · rw [hof.apiHost, Settings.apiHostOf, hget]
  · rw [← hget]
    exact hof.apiPort
  · rw [hof.includeMetrics, Settings.includeMetricsOf, hget]
  · have hlater := textAfter?_of_untouched hentry (.reload :: newer) (List.forall_mem_cons.mpr ⟨rfl, huntouched⟩)
    rw [List.cons_append, ← hpast] at hlater
    exact hlater.1

/-- The level comes from a file that was replaced since, by way of a reading that the port stopped. -/
theorem settings_of_history_replaced_file :
    let before : Settings := { apiHost := "localhost", includeMetrics := true }
    let steps : List Step := [.replaceFile [("LOG_LEVEL", " debug "), ("API_PORT", "x")], .reload,
      .replaceFile [("API_PORT", "80")], .set "LOG_DIR" "logs", .set "API_PORT" "y", .unset "LOG_DIR"]
    let now := (({ settings := before } : Surroundings).run steps).reload.1.settings
    (∀ step ∈ steps, step.isPlain = true) ∧
      (({ settings := before } : Surroundings).run steps).reload.2 = none ∧
      now.logLevel = "debug" ∧ now.logDir = none ∧ now.apiHost = "0.0.0.0" ∧ .ok now.apiPort = readInt "80" ∧
      now.includeMetrics = false ∧
      ((fileAfter steps.reverse).textIn? "LOG_LEVEL").or (textAfter? "LOG_LEVEL" steps.reverse) = some "debug" := by
  intro before steps now
  have hplain : ∀ step ∈ steps, step.isPlain = true := by decide +kernel
  have hend : (({ settings := before } : Surroundings).run steps).reload.2 = none := by decide +kernel
  obtain ⟨hlevel, hdir, hhost, hport, hmetrics, hkept⟩ := settings_of_history before hplain hend
  refine ⟨hplain, hend, hlevel.trans ?_, hdir.trans ?_, hhost.trans ?_, hport.symm.trans ?_, hmetrics.trans ?_,
    hkept "LOG_LEVEL" "debug" (steps.reverse.take 4) (steps.reverse.drop 5) rfl ?_ ?_⟩
  all_goals decide +kernel

end Surroundings

end ColumnLabel
