import Mathlib.Data.Nat.Init
import JSChip.Machine.Wp

/-!
# Loops

A loop of a program, with a bound on its rounds. When they are used up the program stops with a
fault, so that a loop that returns has come to its own end.

* `loop`: the body answers whether the loop goes on.
* `wp_loop`: the rule of total correctness, by an invariant and a variant.
-/

namespace Machine

variable {ρ σ ε α : Type} {r : ρ} {E : ε → Prop}

/-- At most `n` rounds of the body, which works on the local variables `x`. -/
def loop (timeout : ε) (body : α → Prog ρ σ ε (ForInStep α)) : ℕ → α → Prog ρ σ ε α
  | 0, _ => throw timeout
  | n + 1, x => do
    match ← body x with
    | .done y => pure y
    | .yield y => loop timeout body n y

/-- What a round has to show: the postcondition where the loop is left, the invariant and a smaller
variant where it goes on. -/
def RoundEnds (I Q : α → σ → Prop) (v : α → σ → ℕ) (k : ℕ) (next : ForInStep α) (s : σ) : Prop :=
  match next with
  | .done y => Q y s
  | .yield y => I y s ∧ v y s < k

/-- What a round shows where the loop is left may be weakened. -/
theorem RoundEnds.mono {I Q Q' : α → σ → Prop} {v : α → σ → ℕ} {k : ℕ} {next : ForInStep α} {s : σ}
    (hQ : ∀ y s, Q y s → Q' y s) (h : RoundEnds I Q v k next s) : RoundEnds I Q' v k next s := by
  cases next with
  | done y => exact hQ y s h
  | yield y => exact h

/-- **The rule for loops.** -/
theorem wp_loop {timeout : ε} {body : α → Prog ρ σ ε (ForInStep α)} {I Q : α → σ → Prop}
    (v : α → σ → ℕ)
    (hbody : ∀ x s, I x s → wp (body x) r (RoundEnds I Q v (v x s)) E s) :
    ∀ {n x s}, I x s → v x s < n → wp (loop timeout body n x) r Q E s := by
  intro n
  induction n with
  | zero =>
    intro x s _ hlt
    omega
  | succ n ih =>
    intro x s hI hlt
    rw [loop, wp_bind]
    refine wp_mono ?_ (fun _ h => h) (hbody x s hI)
    intro next t hnext
    cases next with
    | done y => exact hnext
    | yield y => exact ih hnext.1 (by have := hnext.2; omega)

end Machine
