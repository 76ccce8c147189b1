import Mathlib.Data.List.Basic
import Mathlib.Data.Option.Basic

/-!
# Runs of a machine

A machine is a partial step function: from a state, an action is either not
enabled or leads to one state. A run performs a list of actions.

* `run_inv`: what every step keeps, every run keeps.
* `always_of_along`: a property that steps keep **under a condition** holds in
  every state of a run whose steps all meet the condition.
* `always_amortized`: work that each step pays for, from a charge or from a potential,
  stays within what has been charged.
* `run_of_permits`: where no step that is permitted fails, no run fails whose steps all are.
* `run_simulates`: the same run of a machine that never fails.
* `always_iff_along`: when a step that does not meet the condition loses the property, a
  run keeps the property **exactly** when its steps all meet it.
-/

namespace Machine

variable {S A : Type*} (step : S → A → Option S)

/-- The state after performing the actions in order; `none` if one of them is not enabled. -/
def run : S → List A → Option S
  | s, [] => some s
  | s, a :: as => (step s a).bind fun s' => run s' as

/-- `P` holds in every state the run passes through. -/
def Always (P : S → Prop) : S → List A → Prop
  | s, [] => P s
  | s, a :: as => P s ∧ ∀ s', step s a = some s' → Always P s' as

/-- Every step the run takes meets `C` (a condition on the state before it and the action). -/
def Along (C : S → A → Prop) : S → List A → Prop
  | _, [] => True
  | s, a :: as => ∀ s', step s a = some s' → C s a ∧ Along C s' as

/-- Each action of the list is permitted where it is performed. -/
def Permits (allow : S → A → Prop) : S → List A → Prop
  | _, [] => True
  | s, a :: as => allow s a ∧ ∀ s' ∈ step s a, Permits allow s' as

variable {step}

instance decidablePermits {allow : S → A → Prop} [∀ s a, Decidable (allow s a)] :
    ∀ s as, Decidable (Permits step allow s as)
  | _, [] => isTrue trivial
  | s, a :: as =>
    have : DecidablePred fun s' => Permits step allow s' as := fun s' => decidablePermits s' as
    inferInstanceAs (Decidable (allow s a ∧ ∀ s' ∈ step s a, Permits step allow s' as))

@[simp] theorem run_nil (s : S) : run step s [] = some s := rfl

theorem run_cons (s : S) (a : A) (as : List A) :
    run step s (a :: as) = (step s a).bind fun s' => run step s' as := rfl

theorem run_cons_of {s s' : S} {a : A} (h : step s a = some s') (as : List A) :
    run step s (a :: as) = run step s' as := by simp [run_cons, h]

theorem run_append (s : S) (as bs : List A) :
    run step s (as ++ bs) = (run step s as).bind fun s' => run step s' bs := by
  induction as generalizing s with
  | nil => rfl
  | cons a as ih =>
    rw [List.cons_append, run_cons, run_cons]
    cases step s a with
    | none => rfl
    | some s' => exact ih s'

theorem run_append_of {s s' : S} {as : List A} (h : run step s as = some s') (bs : List A) :
    run step s (as ++ bs) = run step s' bs := by simp [run_append, h]

/-- **What every step keeps, every run keeps.** -/
theorem run_inv {I : S → Prop} (hI : ∀ s a s', I s → step s a = some s' → I s') :
    ∀ (as : List A) {s s' : S}, I s → run step s as = some s' → I s' := by
  intro as
  induction as with
  | nil => intro s s' hs h; cases h; exact hs
  | cons a as ih =>
    intro s s' hs h
    rw [run_cons] at h
    cases hstep : step s a with
    | none => rw [hstep] at h; cases h
    | some t => rw [hstep] at h; exact ih (hI s a t hs hstep) h

/-- **Where no step that is permitted fails, no run fails whose steps all are.** -/
theorem run_of_permits {I : S → Prop} {allow : S → A → Prop}
    (hI : ∀ s a, I s → allow s a → ∃ s', step s a = some s' ∧ I s') :
    ∀ (as : List A) {s : S}, I s → Permits step allow s as → ∃ s', run step s as = some s' ∧ I s' := by
  intro as
  induction as with
  | nil => intro s hs _; exact ⟨s, rfl, hs⟩
  | cons a as ih =>
    intro s hs h
    obtain ⟨t, hstep, ht⟩ := hI s a hs h.1
    obtain ⟨s', hrun, hs'⟩ := ih ht (h.2 t hstep)
    exact ⟨s', (run_cons_of hstep as).trans hrun, hs'⟩

/-- **Each permitted step is one of another machine**, which never fails; then so is each run. -/
theorem run_simulates {T : Type*} {R : S → T → Prop} {allow : S → A → Prop} {step' : T → A → T}
    (hR : ∀ s t a, R s t → allow s a → ∃ s', step s a = some s' ∧ R s' (step' t a)) :
    ∀ (as : List A) {s : S} {t : T}, R s t → Permits step allow s as →
      ∃ s', run step s as = some s' ∧ R s' (as.foldl step' t) := by
  intro as
  induction as with
  | nil => intro s t ht _; exact ⟨s, rfl, ht⟩
  | cons a as ih =>
    intro s t ht h
    obtain ⟨s', hstep, ht'⟩ := hR s t a ht h.1
    obtain ⟨s'', hrun, ht''⟩ := ih ht' (h.2 s' hstep)
    exact ⟨s'', (run_cons_of hstep as).trans hrun, ht''⟩

theorem Always.head {P : S → Prop} {s : S} {as : List A} (h : Always step P s as) : P s := by
  cases as with
  | nil => exact h
  | cons a as => exact h.1

/-- The last state of a run is one of the states it passes through. -/
theorem Always.last {P : S → Prop} : ∀ {as : List A} {s s' : S},
    Always step P s as → run step s as = some s' → P s' := by
  intro as
  induction as with
  | nil => intro s s' h hr; cases hr; exact h
  | cons a as ih =>
    intro s s' h hr
    rw [run_cons] at hr
    cases hstep : step s a with
    | none => rw [hstep] at hr; cases hr
    | some t => rw [hstep] at hr; exact ih (h.2 t hstep) hr

theorem along_cons {C : S → A → Prop} {s s' : S} {a : A} (h : step s a = some s') (as : List A) :
    Along step C s (a :: as) ↔ C s a ∧ Along step C s' as := by simp [Along, h]

/-- What an invariant of all steps implies holds throughout every run. -/
theorem always_of_inv {I P : S → Prop} (hP : ∀ s, I s → P s)
    (hI : ∀ s a s', I s → step s a = some s' → I s') :
    ∀ (as : List A) {s : S}, I s → Always step P s as := by
  intro as
  induction as with
  | nil => intro s hs; exact hP s hs
  | cons a as ih => intro s hs; exact ⟨hP s hs, fun s' hstep => ih (hI s a s' hs hstep)⟩

/-- **A property kept under a condition** holds throughout a run whose steps all meet it. -/
theorem always_of_along {I P : S → Prop} {C : S → A → Prop} (hP : ∀ s, I s → P s)
    (hI : ∀ s a s', I s → C s a → step s a = some s' → I s') :
    ∀ (as : List A) {s : S}, I s → Along step C s as → Always step P s as := by
  intro as
  induction as with
  | nil => intro s hs _; exact hP s hs
  | cons a as ih =>
    intro s hs h
    refine ⟨hP s hs, fun s' hstep => ?_⟩
    obtain ⟨hc, htail⟩ := h s' hstep
    exact ih (hI s a s' hs hc hstep) htail

/-- What an invariant kept under a condition implies of each step, holds of each step of a run
whose steps all meet the condition. -/
theorem along_of_along {I : S → Prop} {C D : S → A → Prop} (hD : ∀ s a, I s → C s a → D s a)
    (hI : ∀ s a s', I s → C s a → step s a = some s' → I s') :
    ∀ (as : List A) {s : S}, I s → Along step C s as → Along step D s as := by
  intro as
  induction as with
  | nil => intro s _ _; trivial
  | cons a as ih =>
    intro s hs h s' hstep
    obtain ⟨hc, htail⟩ := h s' hstep
    exact ⟨hD s a hs hc, ih (hI s a s' hs hc hstep) htail⟩

/-- **Amortized work.** Each step pays for its work, at `rate` for each unit it charges, or
from the potential. Then the work stays within what has been charged. -/
theorem always_amortized {work charge pot : S → ℕ} {rate b : ℕ} {C : S → A → Prop}
    (hstep : ∀ s a s', C s a → step s a = some s' →
      work s' + pot s' + rate * charge s ≤ work s + pot s + rate * charge s')
    (as : List A) {s : S} (h0 : work s + pot s ≤ b + rate * charge s) (h : Along step C s as) :
    Always step (fun s => work s ≤ b + rate * charge s) s as := by
  refine always_of_along (I := fun s => work s + pot s ≤ b + rate * charge s)
    (fun s hs => Nat.le_trans (Nat.le_add_right _ _) hs) (fun s a s' hs hc ha => ?_) as h0 h
  have := hstep s a s' hc ha
  omega

/-- **An exact condition.** Let steps that meet `C` keep an invariant `I` that implies `Q`, and do
what `D` says. If a step out of an `I`-state that does not meet `C` loses `Q` or does not do what `D`
says, then a run stays in `Q` and all its steps do what `D` says exactly when all its steps meet `C`. -/
theorem always_and_along_iff {I Q : S → Prop} {C D : S → A → Prop} (hQ : ∀ s, I s → Q s)
    (hI : ∀ s a s', I s → C s a → step s a = some s' → I s') (hD : ∀ s a, I s → C s a → D s a)
    (hC : ∀ s a s', I s → step s a = some s' → Q s' → D s a → C s a) :
    ∀ (as : List A) {s : S}, I s → (Always step Q s as ∧ Along step D s as ↔ Along step C s as) := by
  intro as
  induction as with
  | nil => intro s hs; exact ⟨fun _ => trivial, fun _ => ⟨hQ s hs, trivial⟩⟩
  | cons a as ih =>
    intro s hs
    constructor
    · rintro ⟨⟨-, halways⟩, halong⟩ s' hstep
      obtain ⟨hd, htail⟩ := halong s' hstep
      have hc : C s a := hC s a s' hs hstep (halways s' hstep).head hd
      exact ⟨hc, (ih (hI s a s' hs hc hstep)).1 ⟨halways s' hstep, htail⟩⟩
    · exact fun h => ⟨always_of_along hQ hI (a :: as) hs h, along_of_along hD hI (a :: as) hs h⟩

/-- **The same without `D`.** -/
theorem always_iff_along {I Q : S → Prop} {C : S → A → Prop} (hQ : ∀ s, I s → Q s)
    (hI : ∀ s a s', I s → C s a → step s a = some s' → I s')
    (hC : ∀ s a s', I s → step s a = some s' → Q s' → C s a) (as : List A) {s : S} (hs : I s) :
    Always step Q s as ↔ Along step C s as := by
  have htrue : ∀ (as : List A) {s : S}, Along step (fun _ _ => True) s as := by
    intro as
    induction as with
    | nil => exact fun {s} => trivial
    | cons a as ih => exact fun {s} s' _ => ⟨trivial, ih⟩
  rw [← always_and_along_iff hQ hI (D := fun _ _ => True) (fun _ _ _ _ => trivial)
    (fun s a s' hs hstep hq _ => hC s a s' hs hstep hq) as hs]
  exact ⟨fun h => ⟨h, htrue as⟩, And.left⟩

end Machine
