import Mathlib.Logic.Basic

/-!
# Weakest preconditions of a program with faults

A program reads an environment, changes a state, and returns a value or stops with a
fault. `wp m r Q E s` says that `m`, run from `s`, returns with `Q` or stops with `E`.
The rules are equations, so that simplifying with them runs a program symbolically.

* `wp_bind`, `wp_ite`, `wp_pure`, `wp_throw`: the rules of the language.
* `wp_mono`, `wp_and`: the rules of consequence and of conjunction.
* `wp_of_stops`: a program that stops with a fault meets what allows the fault.
* `exists_of_wp`: a program that does not stop returns.
* `wp_iff_of`: what a program that is known to return meets.
-/

namespace Machine

/-- Programs that read a `ρ`, change a `σ`, and may stop with an `ε`. -/
abbrev Prog (ρ σ ε : Type) : Type → Type := ReaderT ρ (StateT σ (Except ε))

variable {ρ σ ε α β : Type} {Q Q' : α → σ → Prop} {E E' : ε → Prop} {r : ρ} {s : σ}

/-- The program returns with `Q`, or stops with `E`. -/
def wp (m : Prog ρ σ ε α) (r : ρ) (Q : α → σ → Prop) (E : ε → Prop) (s : σ) : Prop :=
  match m r s with
  | .ok (x, s') => Q x s'
  | .error e => E e

instance (m : Prog ρ σ ε α) [∀ x s', Decidable (Q x s')] [DecidablePred E] :
    Decidable (wp m r Q E s) := by
  unfold wp
  split <;> infer_instance

@[simp] theorem wp_pure (x : α) : wp (pure x : Prog ρ σ ε α) r Q E s ↔ Q x s := Iff.rfl

@[simp] theorem wp_bind (m : Prog ρ σ ε α) (f : α → Prog ρ σ ε β) {Q : β → σ → Prop} :
    wp (m >>= f) r Q E s ↔ wp m r (fun x s => wp (f x) r Q E s) E s := by
  have hbind : (m >>= f) r s = (m r s).bind fun p => f p.1 r p.2 := rfl
  unfold wp
  rw [hbind]
  cases m r s <;> rfl

@[simp] theorem wp_map (m : Prog ρ σ ε α) (f : α → β) {Q : β → σ → Prop} :
    wp (f <$> m) r Q E s ↔ wp m r (fun x s => Q (f x) s) E s := by
  rw [map_eq_pure_bind, wp_bind]
  rfl

@[simp] theorem wp_ite (c : Prop) [Decidable c] (m m' : Prog ρ σ ε α) :
    wp (if c then m else m') r Q E s ↔ if c then wp m r Q E s else wp m' r Q E s := by
  split <;> rfl

@[simp] theorem wp_throw (e : ε) : wp (throw e : Prog ρ σ ε α) r Q E s ↔ E e := Iff.rfl

@[simp] theorem wp_read {Q : ρ → σ → Prop} :
    wp (read : Prog ρ σ ε ρ) r Q E s ↔ Q r s := Iff.rfl

@[simp] theorem wp_get {Q : σ → σ → Prop} :
    wp (get : Prog ρ σ ε σ) r Q E s ↔ Q s s := Iff.rfl

@[simp] theorem wp_modify (f : σ → σ) {Q : PUnit → σ → Prop} :
    wp (modify f : Prog ρ σ ε PUnit) r Q E s ↔ Q ⟨⟩ (f s) := Iff.rfl

@[simp] theorem wp_modifyGet (f : σ → α × σ) :
    wp (modifyGet f : Prog ρ σ ε α) r Q E s ↔ Q (f s).1 (f s).2 := Iff.rfl

/-- **The rule of consequence.** -/
theorem wp_mono {m : Prog ρ σ ε α} (hQ : ∀ x s, Q x s → Q' x s) (hE : ∀ e, E e → E' e)
    (h : wp m r Q E s) : wp m r Q' E' s := by
  unfold wp at h ⊢
  split <;> rename_i heq <;> rw [heq] at h
  · exact hQ _ _ h
  · exact hE _ h

/-- **The rule of conjunction.** -/
theorem wp_and {m : Prog ρ σ ε α} (h : wp m r Q E s) (h' : wp m r Q' E s) :
    wp m r (fun x s => Q x s ∧ Q' x s) E s := by
  unfold wp at h h' ⊢
  split <;> rename_i heq <;> rw [heq] at h h'
  · exact ⟨h, h'⟩
  · exact h

/-- A program that stops with the fault `f` does nothing else. -/
theorem wp_of_stops {m : Prog ρ σ ε α} {f : ε} (h : wp m r (fun _ _ => False) (· = f) s) :
    wp m r Q E s ↔ E f := by
  unfold wp at h ⊢
  split <;> rename_i heq <;> rw [heq] at h
  · cases h
  · cases h
    rfl

/-- A program that does not stop returns. -/
theorem exists_of_wp {m : Prog ρ σ ε α} (h : wp m r Q (fun _ => False) s) : ∃ x s', Q x s' := by
  unfold wp at h
  split at h
  · exact ⟨_, _, h⟩
  · cases h

/-- A program that is known to return with `P` meets `Q` when `Q` follows from `P`. -/
theorem wp_iff_of {m : Prog ρ σ ε α} {P : α → σ → Prop} {C : Prop}
    (h : wp m r P (fun _ => False) s) (hC : ∀ x s', P x s' → (Q x s' ↔ C)) :
    wp m r Q E s ↔ C := by
  unfold wp at h ⊢
  split <;> rename_i heq <;> rw [heq] at h
  · exact hC _ _ h
  · cases h

end Machine
