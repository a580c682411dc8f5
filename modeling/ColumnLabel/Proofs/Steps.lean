/-!
# ColumnLabel.Proofs.Steps

Steps that may give up.  What it means that steps taken one after the other gave a result: each of them gave
one.  And for which reasons they can give up: for those of each of them.
-/

namespace ColumnLabel

variable {ε α β : Type}

@[simp] theorem ok_bind {a : α} {f : α → Except ε β} : Except.ok a >>= f = f a := rfl

@[simp] theorem error_bind {e : ε} {f : α → Except ε β} : Except.error e >>= f = .error e := rfl

/-- Two steps give a result when the first one gives one from which the second one goes on. -/
theorem bind_eq_ok_iff {x : Except ε α} {f : α → Except ε β} {b : β} :
    x >>= f = .ok b ↔ ∃ a, x = .ok a ∧ f a = .ok b := by
  cases x <;> simp

theorem pure_eq_ok_iff {a b : α} : (pure a : Except ε α) = .ok b ↔ a = b := by
  simp [pure, Except.pure]

/-- A step behind which nothing can fail gives a result when it is taken. -/
theorem exists_bind_pure_eq_ok_iff {x : Except ε α} {f : α → β} :
    (∃ b, (x >>= fun a => pure (f a)) = .ok b) ↔ ∃ a, x = .ok a := by
  cases x <;> simp [pure, Except.pure]

theorem map_eq_ok_iff {x : Except ε α} {f : α → β} {b : β} :
    x.map f = .ok b ↔ ∃ a, x = .ok a ∧ f a = b := by
  cases x <;> simp [Except.map]

theorem toOption_eq_some_iff {x : Except ε α} {a : α} : x.toOption = some a ↔ x = .ok a := by
  cases x <;> simp [Except.toOption]

/-- A result of which something is decided is there. -/
theorem exists_eq_ok_of_any {x : Except ε α} {P : α → Prop} [DecidablePred P]
    (h : x.toOption.any (fun a => decide (P a)) = true) : ∃ a, x = .ok a ∧ P a := by
  obtain ⟨a, ha, hP⟩ := (Option.any_eq_true _ x.toOption).mp h
  exact ⟨a, toOption_eq_some_iff.mp ha, of_decide_eq_true hP⟩

/-- A step gives up for reasons of one kind only. -/
def FailsOnly (P : ε → Prop) (x : Except ε α) : Prop := ∀ e, x = .error e → P e

section

variable {P : ε → Prop} {x : Except ε α}

theorem failsOnly_ok (a : α) : FailsOnly P (.ok a : Except ε α) := by
  intro e he
  contradiction

theorem failsOnly_error {e : ε} (he : P e) : FailsOnly P (.error e : Except ε α) := by
  intro e' he'
  rwa [← Except.error.inj he']

/-- Two steps give up for the reasons of either. -/
theorem FailsOnly.bind (hx : FailsOnly P x) {f : α → Except ε β} (hf : ∀ a, FailsOnly P (f a)) :
    FailsOnly P (x >>= f) := by
  intro e he
  cases x with
  | ok a => exact hf a e he
  | error e' =>
      rw [error_bind] at he
      exact hx e (congrArg Except.error (Except.error.inj he))

theorem FailsOnly.mono (hx : FailsOnly P x) {Q : ε → Prop} (hPQ : ∀ e, P e → Q e) : FailsOnly Q x :=
  fun e he => hPQ e (hx e he)

theorem failsOnly_mapM {f : α → Except ε β} {as : List α} (hf : ∀ a ∈ as, FailsOnly P (f a)) :
    FailsOnly P (as.mapM f) := by
  induction as with
  | nil => exact failsOnly_ok []
  | cons a as ih =>
      obtain ⟨ha, has⟩ := List.forall_mem_cons.mp hf
      rw [List.mapM_cons]
      exact ha.bind fun b => (ih has).bind fun bs => failsOnly_ok (b :: bs)

end

/-- Steps that all give a result give all their results. -/
theorem mapM_eq_ok_map {f : α → Except ε β} {g : α → β} {as : List α} (h : ∀ a ∈ as, f a = .ok (g a)) :
    as.mapM f = .ok (as.map g) := by
  induction as with
  | nil => rfl
  | cons a as ih =>
      obtain ⟨ha, has⟩ := List.forall_mem_cons.mp h
      rw [List.mapM_cons, ha, ih has]
      rfl

/-- Steps of which one gives up give up, at the first one that does. -/
theorem exists_mapM_eq_error {f : α → Except ε β} {as : List α} (h : ∃ a ∈ as, ∃ e, f a = .error e) :
    ∃ a ∈ as, ∃ e, f a = .error e ∧ as.mapM f = .error e := by
  induction as with
  | nil => simp at h
  | cons a as ih =>
      rw [List.mapM_cons]
      cases ha : f a with
      | error e => exact ⟨a, List.mem_cons_self, e, ha, rfl⟩
      | ok b =>
          obtain ⟨a', ha', e, he⟩ := h
          obtain rfl | hmem := List.mem_cons.mp ha'
          · rw [ha] at he
            contradiction
          · obtain ⟨a', ha', e, he, hrest⟩ := ih ⟨a', hmem, e, he⟩
            exact ⟨a', List.mem_cons_of_mem a ha', e, he, by rw [ok_bind, hrest]; rfl⟩

/-- A step at each item of a list gives results when it gives one at every item. -/
theorem exists_mapM_eq_ok_iff {f : α → Except ε β} {as : List α} :
    (∃ bs, as.mapM f = .ok bs) ↔ ∀ a ∈ as, ∃ b, f a = .ok b := by
  induction as with
  | nil => simp [List.mapM_nil, pure_eq_ok_iff]
  | cons a as ih =>
      rw [List.forall_mem_cons, ← ih]
      simp only [List.mapM_cons, bind_eq_ok_iff, pure_eq_ok_iff]
      constructor
      · intro hresults
        obtain ⟨_, b, hb, bs, hbs, _⟩ := hresults
        exact ⟨⟨b, hb⟩, bs, hbs⟩
      · intro hsteps
        obtain ⟨⟨b, hb⟩, bs, hbs⟩ := hsteps
        exact ⟨b :: bs, b, hb, bs, hbs, rfl⟩

end ColumnLabel
