import JSChip.Codec.Mirror

/-!
# When a writer succeeds

`Succeeds w p` says that no state decides whether `w` succeeds: it does in every state if `p` holds, and in
none if it does not.

* `Succeeds.bind`: one after the other, and both have to.
* `Succeeds.forEach`: a writer that goes through a list has to succeed on each entry.
-/

namespace Codec

variable {σ ε α β γ : Type} {p q : Prop}

def Succeeds (w : Writer ε σ α) (p : Prop) : Prop := ∀ s, (∃ r, w s = .ok r) ↔ p

namespace Succeeds

theorem congr {w : Writer ε σ α} (hw : Succeeds w p) (hpq : p ↔ q) : Succeeds w q :=
  fun s => (hw s).trans hpq

theorem pure (x : α) : Succeeds (pure x : Writer ε σ α) True :=
  fun _ => iff_of_true ⟨_, rfl⟩ trivial

theorem modifyGet (f : σ → α × σ) : Succeeds (modifyGet f : Writer ε σ α) True :=
  fun _ => iff_of_true ⟨_, rfl⟩ trivial

theorem throw (e : ε) : Succeeds (throw e : Writer ε σ α) False := by
  intro s
  refine iff_of_false ?_ id
  rintro ⟨r, hr⟩
  cases hr

/-- **One after the other.** -/
theorem bind {w : Writer ε σ α} {f : α → Writer ε σ β} (hw : Succeeds w p)
    (hf : ∀ x, Succeeds (f x) q) : Succeeds (w >>= f) (p ∧ q) := by
  intro s
  constructor
  · rintro ⟨⟨y, s'⟩, hr⟩
    obtain ⟨x, t, ht, ht'⟩ := bind_eq_ok hr
    exact ⟨(hw s).mp ⟨_, ht⟩, (hf x t).mp ⟨_, ht'⟩⟩
  · rintro ⟨hp, hq⟩
    obtain ⟨⟨x, t⟩, ht⟩ := (hw s).mpr hp
    obtain ⟨r, hr⟩ := (hf x t).mpr hq
    refine ⟨r, ?_⟩
    show (w s).bind _ = _
    rw [ht]
    exact hr

/-- The first of the two always succeeds. -/
theorem seq {w : Writer ε σ α} {f : α → Writer ε σ β} (hw : Succeeds w True)
    (hf : ∀ x, Succeeds (f x) q) : Succeeds (w >>= f) q :=
  (hw.bind hf).congr (iff_of_eq (true_and q))

/-- The second of the two always succeeds. -/
theorem andThen {w : Writer ε σ α} {f : α → Writer ε σ β} (hw : Succeeds w p)
    (hf : ∀ x, Succeeds (f x) True) : Succeeds (w >>= f) p :=
  (hw.bind hf).congr (iff_of_eq (and_true p))

theorem ite {c : Prop} [Decidable c] {w w' : Writer ε σ α} (h : c → Succeeds w p)
    (h' : ¬ c → Succeeds w' p) : Succeeds (if c then w else w') p := by
  split
  · next hc => exact h hc
  · next hc => exact h' hc

/-- **A writer that goes through a list.** -/
theorem forEach {w : γ → Writer ε σ Unit} {P : γ → Prop} {l : List γ}
    (h : ∀ a ∈ l, Succeeds (w a) (P a)) : Succeeds (l.forM w) (∀ a ∈ l, P a) := by
  induction l with
  | nil => exact (pure ()).congr (iff_of_true trivial fun a ha => absurd ha List.not_mem_nil)
  | cons a l ih =>
    have ha := h a List.mem_cons_self
    have hl := ih fun b hb => h b (List.mem_cons_of_mem a hb)
    exact (ha.bind fun _ => hl).congr List.forall_mem_cons.symm

/-- A writer that always succeeds does so on a list. -/
theorem forEach_true {w : γ → Writer ε σ Unit} (h : ∀ a, Succeeds (w a) True) (l : List γ) :
    Succeeds (l.forM w) True :=
  (forEach fun a _ => h a).congr (iff_of_true (fun _ _ => trivial) trivial)

end Succeeds

end Codec
