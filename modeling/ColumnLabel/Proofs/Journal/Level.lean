import ColumnLabel.Proofs.Journal.Written

/-!
# ColumnLabel.Proofs.Journal.Level

The level with which a journal is set up.

The capitals of a level name one of the standard severities, or stand for `info` (`Severity.IsMeantBy`).  Two words do
neither: they are taken, and setting up with them stops before anything is done (`setUp_level`).
-/

namespace ColumnLabel

namespace Severity

/-- The names of the standard severities; two of them have a second one. -/
inductive HasName : Severity → String → Prop where
  | notset : HasName ⟨0⟩ "NOTSET"
  | debug : HasName debug "DEBUG"
  | info : HasName info "INFO"
  | warning : HasName warning "WARNING"
  | warn : HasName warning "WARN"
  | error : HasName error "ERROR"
  | critical : HasName critical "CRITICAL"
  | fatal : HasName critical "FATAL"

/-- The severity that a word means: the one that has it for a name, and `info` if there is none. -/
inductive IsMeantBy : Severity → String → Prop where
  | named {s : Severity} {word : String} (h : s.HasName word) : IsMeantBy s word
  | unnamed {word : String} (h : ∀ s : Severity, ¬ s.HasName word) : IsMeantBy info word

theorem exists_isMeantBy (word : String) : ∃ s : Severity, s.IsMeantBy word := by
  by_cases h : ∃ s : Severity, s.HasName word
  · obtain ⟨s, hs⟩ := h
    exact ⟨s, .named hs⟩
  · exact ⟨info, .unnamed (not_exists.mp h)⟩

/-- Looking up a name finds its severity. -/
theorem HasName.find?_eq_some {s : Severity} {word : String} (h : s.HasName word) :
    thresholdWords.find? (fun (w, _) => w.toList = word.toList) = some (word, s.rank) := by
  cases h <;> decide

theorem HasName.mem_words {s : Severity} {word : String} (h : s.HasName word) : word ∈ thresholdWords.map (·.1) :=
  List.mem_map_of_mem (List.mem_of_find?_eq_some h.find?_eq_some)

/-- Looking up a word finds nothing else than names. -/
theorem find?_eq_none {word : String} (h : ∀ s : Severity, ¬ s.HasName word) :
    thresholdWords.find? (fun (w, _) => w.toList = word.toList) = none := by
  rw [List.find?_eq_none]
  intro e he heq
  obtain rfl : e.1 = word := String.toList_injective (of_decide_eq_true heq)
  refine h ⟨e.2⟩ ?_
  simp only [thresholdWords, List.mem_cons, List.not_mem_nil, or_false] at he
  obtain rfl | rfl | rfl | rfl | rfl | rfl | rfl | rfl := he
  all_goals constructor

theorem HasName.unique {s t : Severity} {word : String} (hs : s.HasName word) (ht : t.HasName word) : s = t := by
  have hrank := hs.find?_eq_some.symm.trans ht.find?_eq_some
  rw [Option.some.injEq, Prod.mk.injEq] at hrank
  cases s
  cases t
  exact congrArg Severity.mk hrank.2

/-- A word means one severity only. -/
theorem IsMeantBy.unique {s t : Severity} {word : String} (hs : s.IsMeantBy word) (ht : t.IsMeantBy word) : s = t := by
  cases hs with
  | named hs =>
      cases ht with
      | named ht => exact hs.unique ht
      | unnamed hnone => exact absurd hs (hnone _)
  | unnamed hnone =>
      cases ht with
      | named ht => exact absurd ht (hnone _)
      | unnamed => rfl

end Severity

/-- The word that the capitals of a level make. -/
def levelWord (level : String) : String := String.ofList (Text.upper level.toList)

section

variable {level : String}

theorem toList_levelWord (level : String) : (levelWord level).toList = Text.upper level.toList := String.toList_ofList

theorem upper_eq_toList_iff {word : String} : Text.upper level.toList = word.toList ↔ levelWord level = word := by
  rw [← toList_levelWord, String.toList_inj]

/-- A word that names a severity gives it as the threshold. -/
theorem threshold_of_hasName {s : Severity} (h : s.HasName (levelWord level)) : threshold level = .ok s.rank := by
  have hfind := h.find?_eq_some
  rw [toList_levelWord] at hfind
  simp only [threshold, hfind]

/-- A word that names none gives a threshold too, but for two words. -/
theorem threshold_of_not_hasName (h : ∀ s : Severity, ¬ s.HasName (levelWord level)) :
    threshold level =
      if levelWord level = "BASIC_FORMAT" then .error (.unknownLevel plainLayout)
      else if levelWord level = "_STYLES" then .error (.levelOfWrongKind layoutStyles)
      else .ok Severity.info.rank := by
  have hfind := Severity.find?_eq_none h
  rw [toList_levelWord] at hfind
  simp only [threshold, hfind, upper_eq_toList_iff]
  rfl

theorem threshold_of_eq_basicFormat (h : levelWord level = "BASIC_FORMAT") :
    threshold level = .error (.unknownLevel plainLayout) := by
  have hnone : ∀ s : Severity, ¬ s.HasName "BASIC_FORMAT" := fun s hs => absurd hs.mem_words (by decide)
  rw [threshold_of_not_hasName (h ▸ hnone), if_pos h]

theorem threshold_of_eq_styles (h : levelWord level = "_STYLES") :
    threshold level = .error (.levelOfWrongKind layoutStyles) := by
  have hnone : ∀ s : Severity, ¬ s.HasName "_STYLES" := fun s hs => absurd hs.mem_words (by decide)
  rw [threshold_of_not_hasName (h ▸ hnone), if_neg (by rw [h]; decide), if_pos h]

/-- The threshold of a level is the severity that its word means, unless the word is taken. -/
theorem threshold_of_isMeantBy {s : Severity} (h : s.IsMeantBy (levelWord level))
    (hformat : levelWord level ≠ "BASIC_FORMAT") (hstyles : levelWord level ≠ "_STYLES") :
    threshold level = .ok s.rank := by
  cases h with
  | named h => exact threshold_of_hasName h
  | unnamed h => rw [threshold_of_not_hasName h, if_neg hformat, if_neg hstyles]

end

namespace Journal

variable {j : Journal} {level dir : Option String} {settings : Settings}

theorem setUp_of_threshold_eq_error (h : j.isSetUp = false) (dir : Option String) {fault : Fault}
    (hfault : threshold (levelFrom level settings) = .error fault) :
    j.setUp level dir settings.logLevel settings.logDir = (j, some fault) := by
  obtain ⟨stop, hstop, heq⟩ | ⟨rank, hrank, -⟩ | ⟨rank, hrank, -⟩ := setUp_cases level dir settings h
  · rw [heq, Except.error.inj (hstop.symm.trans hfault)]
  · rw [hfault] at hrank
    contradiction
  · rw [hfault] at hrank
    contradiction

theorem setUp_of_threshold_eq_ok (h : j.isSetUp = false) (hdir : dirFrom dir settings = none) {rank : Nat}
    (hrank : threshold (levelFrom level settings) = .ok rank) :
    j.setUp level dir settings.logLevel settings.logDir =
      ({ j with
          rootThreshold := rank
          destinations := j.destinations ++ [consoleAt rank]
          accessThreshold := Severity.warning.rank
          isSetUp := true }, none) := by
  obtain ⟨stop, hstop, -⟩ | ⟨other, -, hnul, -⟩ | ⟨other, hother, -, heq⟩ := setUp_cases level dir settings h
  · rw [hrank] at hstop
    contradiction
  · rw [hdir] at hnul
    contradiction
  · rw [heq, hdir, ← Except.ok.inj (hrank.symm.trans hother)]
    simp [listen, consoleAt]

/-- **The level of a journal.**  Setting a journal up without a directory gives it, and its console, the severity that
the capitals of the level mean, for every level but two words in any spelling: with these it stops, and the journal
stays as it was. -/
theorem setUp_level (h : j.isSetUp = false) (hdir : dirFrom dir settings = none) :
    let word := levelWord (levelFrom level settings)
    let after := (j.setUp level dir settings.logLevel settings.logDir).1
    let fault := (j.setUp level dir settings.logLevel settings.logDir).2
    (word ≠ "BASIC_FORMAT" → word ≠ "_STYLES" → fault = none ∧
      ∃ s : Severity, s.IsMeantBy word ∧
        after = { j with
          rootThreshold := s.rank
          destinations := j.destinations ++ [consoleAt s.rank]
          accessThreshold := Severity.warning.rank
          isSetUp := true }) ∧
    (word = "BASIC_FORMAT" → fault = some (.unknownLevel plainLayout) ∧ after = j) ∧
    (word = "_STYLES" → fault = some (.levelOfWrongKind layoutStyles) ∧ after = j) := by
  intro word after fault
  refine ⟨fun hformat hstyles => ?_, fun hword => ?_, fun hword => ?_⟩
  · obtain ⟨s, hs⟩ := Severity.exists_isMeantBy word
    have heq := setUp_of_threshold_eq_ok h hdir (threshold_of_isMeantBy hs hformat hstyles)
    exact ⟨congrArg Prod.snd heq, s, hs, congrArg Prod.fst heq⟩
  · have heq := setUp_of_threshold_eq_error h dir (threshold_of_eq_basicFormat hword)
    exact ⟨congrArg Prod.snd heq, congrArg Prod.fst heq⟩
  · have heq := setUp_of_threshold_eq_error h dir (threshold_of_eq_styles hword)
    exact ⟨congrArg Prod.snd heq, congrArg Prod.fst heq⟩

/-- A level of the settings that is the name of a severity by its capitals only. -/
theorem setUp_level_dotless :
    let settings : Settings := { logLevel := "warnıng" }
    let result := ({} : Journal).setUp none none settings.logLevel settings.logDir
    result.2 = none ∧ result.1.rootThreshold = 30 ∧ result.1.destinations = [consoleAt 30] := by
  intro settings result
  have hword : levelWord (levelFrom none settings) = "WARNING" := by decide
  obtain ⟨hok, -⟩ := @setUp_level {} none none settings rfl (by decide)
  rw [hword] at hok
  obtain ⟨hfault, s, hs, hafter⟩ := hok (by decide) (by decide)
  obtain rfl := hs.unique (.named .warning)
  refine ⟨hfault, ?_⟩
  rw [hafter]
  exact ⟨rfl, rfl⟩

/-- Two levels that name no severity and yet do not stand for `info`: setting up stops at them.  One is a word in
capitals, the other has one for its capitals. -/
theorem setUp_taken_word :
    (({} : Journal).setUp (some "BASIC_FORMAT") none "INFO" none).2 = some (.unknownLevel plainLayout) ∧
      (({} : Journal).setUp none none "_ﬆyles" none).2 = some (.levelOfWrongKind layoutStyles) :=
  ⟨rfl, rfl⟩

end Journal

end ColumnLabel
