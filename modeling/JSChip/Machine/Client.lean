import JSChip.Machine.Wp

/-!
# Clients of an interface

A part of a program may be known only by the operations through which it touches the state.

* `Client`: what such a part does: it returns, or it performs an operation and goes on from the
  answer.
* `Keeps`: a program keeps an invariant, unless it stops with a fault.
* `keeps_interpret`: **what every operation keeps, every client keeps.**
-/

namespace Machine

variable {ρ σ ε ω α β Op : Type} {Answer : Op → Type} {I : σ → Prop} {r : ρ} {s : σ}

/-- A program over operations, each with its type of answers. -/
inductive Client (Op : Type) (Answer : Op → Type) (α : Type)
  | done (x : α)
  | perform (op : Op) (k : Answer op → Client Op Answer α)

/-- Running a client. The operations may work on local variables `w`. -/
def Client.interpret (handle : (op : Op) → ω → Prog ρ σ ε (Answer op × ω)) :
    Client Op Answer α → ω → Prog ρ σ ε (α × ω)
  | done x, w => pure (x, w)
  | perform op k, w => do
    let (y, w) ← handle op w
    interpret handle (k y) w

/-! ## Keeping an invariant -/

/-- The program keeps `I`, unless it stops. -/
def Keeps (I : σ → Prop) (m : Prog ρ σ ε α) : Prop :=
  ∀ r s, I s → wp m r (fun _ t => I t) (fun _ => True) s

theorem keeps_pure (x : α) : Keeps I (pure x : Prog ρ σ ε α) := fun _ _ h => h

theorem keeps_get : Keeps I (get : Prog ρ σ ε σ) := fun _ _ h => h

theorem keeps_modify {f : σ → σ} (h : ∀ s, I s → I (f s)) :
    Keeps I (modify f : Prog ρ σ ε PUnit) := fun _ s hs => h s hs

theorem keeps_bind {m : Prog ρ σ ε α} {f : α → Prog ρ σ ε β} (hm : Keeps I m)
    (hf : ∀ x, Keeps I (f x)) : Keeps I (m >>= f) := by
  intro r s hs
  rw [wp_bind]
  exact wp_mono (fun x t ht => hf x r t ht) (fun _ h => h) (hm r s hs)

/-- **What every operation keeps, every client keeps**, by induction on the client. -/
theorem keeps_interpret {handle : (op : Op) → ω → Prog ρ σ ε (Answer op × ω)}
    (h : ∀ op w, Keeps I (handle op w)) :
    ∀ (c : Client Op Answer α) (w : ω), Keeps I (c.interpret handle w) := by
  intro c
  induction c with
  | done x => exact fun w => keeps_pure (x, w)
  | perform op k ih => exact fun w => keeps_bind (h op w) fun y => ih y.1 y.2

/-- A program is deterministic: what it returns with is what it was to return with. -/
theorem wp_decides (m : Prog ρ σ ε α) (Q : α → σ → Prop) :
    wp m r (fun x t => Q x t ↔ wp m r Q (fun _ => False) s) (fun _ => True) s := by
  cases h : m r s with
  | ok p => simp [wp, h]
  | error e => simp [wp, h]

end Machine
