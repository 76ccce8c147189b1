import Mathlib.Data.Fintype.EquivFin
import Mathlib.Data.List.Flatten
import Mathlib.Data.List.Nodup
import Mathlib.Data.List.Perm.Subperm
import Mathlib.Order.WellFounded

/-!
# Counted references

Blocks that refer to blocks: `refs p` has each reference of `p`, as often as `p` has it.

* `inCount refs hold p`: how many references to `p` the blocks of `hold` have.
* `Reach refs ext p`: `p` can be reached from a block that is referred to from outside.
* `reach_mem`: where the counts are exact, whatever can be reached is held.
* `exists_cycle`: blocks that only refer to each other have a cycle behind them.
-/

namespace RefCount

variable {P : Type} [DecidableEq P] (refs : P → List P)

/-- How many references the holders have to `p`. -/
def inCount (hold : List P) (p : P) : ℕ := (hold.flatMap refs).count p

/-- What can be reached from the blocks that are referred to from outside. -/
inductive Reach (ext : P → ℕ) : P → Prop
  | root {p : P} (h : 0 < ext p) : Reach ext p
  | step {p q : P} (hp : Reach ext p) (hq : q ∈ refs p) : Reach ext q

variable {refs} {hold hold' : List P} {p q : P} {ext : P → ℕ}

@[simp] theorem inCount_nil (p : P) : inCount refs [] p = 0 := rfl

theorem inCount_cons (q : P) (hold : List P) (p : P) :
    inCount refs (q :: hold) p = (refs q).count p + inCount refs hold p := by
  unfold inCount
  rw [List.flatMap_cons, List.count_append]

theorem inCount_append (hold hold' : List P) (p : P) :
    inCount refs (hold ++ hold') p = inCount refs hold p + inCount refs hold' p := by
  unfold inCount
  rw [List.flatMap_append, List.count_append]

theorem inCount_perm (h : hold.Perm hold') (p : P) : inCount refs hold p = inCount refs hold' p :=
  (h.flatMap_right refs).count_eq p

theorem inCount_congr {refs' : P → List P} (h : ∀ q ∈ hold, refs q = refs' q) (p : P) :
    inCount refs hold p = inCount refs' hold p := by
  unfold inCount
  rw [List.flatMap_congr h]

/-- One holder less. -/
theorem inCount_erase (h : q ∈ hold) (p : P) :
    inCount refs hold p = inCount refs (hold.erase q) p + (refs q).count p := by
  rw [inCount_perm (List.perm_cons_erase h), inCount_cons, Nat.add_comm]

theorem inCount_pos (hq : q ∈ hold) (hp : p ∈ refs q) : 0 < inCount refs hold p := by
  unfold inCount
  exact List.count_pos_iff.mpr (List.mem_flatMap.mpr ⟨q, hq, hp⟩)

theorem exists_of_inCount_pos (h : 0 < inCount refs hold p) : ∃ q ∈ hold, p ∈ refs q :=
  List.mem_flatMap.mp (List.count_pos_iff.mp h)

theorem inCount_le_of_subset (hnodup : hold.Nodup) (hsub : hold ⊆ hold') (p : P) :
    inCount refs hold p ≤ inCount refs hold' p := by
  obtain ⟨l, hperm, hsubl⟩ := hnodup.subperm hsub
  rw [← inCount_perm hperm]
  unfold inCount
  exact (hsubl.flatMap refs).count_le p

/-- **Where every count is exact, what can be reached is there.** -/
theorem reach_mem {count : P → ℕ} {S : P → Prop} (hcount : ∀ p, ext p + inCount refs hold p ≤ count p)
    (hS : ∀ p, 0 < count p → S p) (hhold : ∀ p, S p → refs p ≠ [] → p ∈ hold) (h : Reach refs ext p) :
    S p := by
  induction h with
  | root hext =>
    apply hS
    exact Nat.lt_of_lt_of_le (Nat.add_pos_left hext _) (hcount _)
  | @step p q hp hq ih =>
    apply hS
    have hpos := inCount_pos (hhold p ih (List.ne_nil_of_mem hq)) hq
    have := hcount q
    omega

/-- **Where each block of a finite set is referred to from the set**, there is a cycle behind each of
them. -/
theorem exists_cycle (refs : P → List P) {S : P → Prop} {l : List P} (hfin : ∀ p, S p → p ∈ l)
    (hpred : ∀ p, S p → ∃ q, S q ∧ p ∈ refs q) (hp : S p) :
    ∃ q, S q ∧ Relation.TransGen (fun a b => b ∈ refs a) q q ∧
      Relation.ReflTransGen (fun a b => b ∈ refs a) q p := by
  by_contra hnone
  -- Those from which `p` can be reached, and what comes before which.
  let T := { q : P // S q ∧ Relation.ReflTransGen (fun a b => b ∈ refs a) q p }
  have : Finite T := Finite.of_injective (fun q : T => (⟨q.1, hfin q.1 q.2.1⟩ : { q // q ∈ l }))
    fun a b hab => Subtype.ext (congrArg (fun q => q.1) hab)
  let before : T → T → Prop := fun a b => Relation.TransGen (fun a b => b ∈ refs a) a.1 b.1
  have : IsTrans T before := ⟨fun a b c => Relation.TransGen.trans⟩
  have : Std.Irrefl before := ⟨fun a ha => hnone ⟨a.1, a.2.1, ha, a.2.2⟩⟩
  obtain ⟨a, -, hmin⟩ := (Finite.wellFounded_of_trans_of_irrefl before).has_min Set.univ
    ⟨⟨p, hp, .refl⟩, trivial⟩
  obtain ⟨q, hq, hqa⟩ := hpred a.1 a.2.1
  exact hmin ⟨q, hq, .head hqa a.2.2⟩ trivial (.single hqa)

end RefCount
