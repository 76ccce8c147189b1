import Mathlib.Data.List.Nodup
import Mathlib.Logic.Function.Basic

/-!
# Chains through an array

A hash table with its chains in the array of its entries: `head b` and `next i` are an index and one, or 0
where the chain ends.

* `Chain next h l`: the chain that starts at `h` is `l`.
* `Linked head next key n`: the chain of a key has the entries below `n` with this key, the last first.
* `Linked.push`, `Linked.skip`, `Linked.unlink_head`, `Linked.unlink`: one entry more, and one less.
-/

namespace HashChain

/-- What the chain from a link has, in order. -/
def Chain (next : ℕ → ℕ) : ℕ → List ℕ → Prop
  | h, [] => h = 0
  | h, i :: l => h = i + 1 ∧ Chain next (next i) l

/-- The entries below a number that have the key, the last first. -/
def members (key : ℕ → Option ℕ) (b : ℕ) : ℕ → List ℕ
  | 0 => []
  | n + 1 => if key n = some b then n :: members key b n else members key b n

/-- Each key has its chain. -/
def Linked (head next : ℕ → ℕ) (key : ℕ → Option ℕ) (n : ℕ) : Prop :=
  ∀ b, Chain next (head b) (members key b n)

section Members

variable {key key' : ℕ → Option ℕ} {b n i : ℕ} {l₁ l₂ : List ℕ}

theorem mem_members : i ∈ members key b n ↔ i < n ∧ key i = some b := by
  induction n with
  | zero => simp [members]
  | succ n ih =>
    unfold members
    split
    next hkey =>
      rw [List.mem_cons, ih]
      constructor
      · rintro (rfl | hi)
        · exact ⟨Nat.lt_succ_self _, hkey⟩
        · exact ⟨by omega, hi.2⟩
      · intro hi
        by_cases heq : i = n
        · exact .inl heq
        · exact .inr ⟨by omega, hi.2⟩
    next hkey =>
      rw [ih]
      refine ⟨fun hi => ⟨by omega, hi.2⟩, fun hi => ⟨?_, hi.2⟩⟩
      have hne : i ≠ n := by
        rintro rfl
        exact hkey hi.2
      omega

theorem nodup_members : (members key b n).Nodup := by
  induction n with
  | zero => exact List.nodup_nil
  | succ n ih =>
    unfold members
    split
    · exact List.nodup_cons.mpr ⟨fun hn => Nat.lt_irrefl n (mem_members.mp hn).1, ih⟩
    · exact ih

theorem length_members_le : (members key b n).length ≤ n := by
  induction n with
  | zero => exact Nat.le_refl 0
  | succ n ih =>
    unfold members
    split
    · exact Nat.succ_le_succ ih
    · omega

theorem members_congr (h : ∀ i < n, key' i = key i) : members key' b n = members key b n := by
  induction n with
  | zero => rfl
  | succ n ih =>
    unfold members
    rw [h n (Nat.lt_succ_self n), ih fun i hi => h i (Nat.lt_succ_of_lt hi)]

theorem members_remove (h : members key b n = l₁ ++ i :: l₂) :
    members (Function.update key i none) b n = l₁ ++ l₂ := by
  have hfilter : members (Function.update key i none) b n = (members key b n).filter (· ≠ i) := by
    clear h
    induction n with
    | zero => rfl
    | succ n ih =>
      unfold members
      rw [ih]
      by_cases hn : n = i
      · subst hn
        rw [Function.update_self, if_neg (by simp)]
        split
        · simp
        · rfl
      · rw [Function.update_of_ne hn]
        split
        · simp [hn]
        · rfl
  have hnodup : (members key b n).Nodup := nodup_members
  rw [h] at hnodup
  have hnot : i ∉ l₁ ++ l₂ := (List.nodup_middle.mp hnodup).notMem
  rw [hfilter, h, List.filter_append, List.filter_cons_of_neg (by simp), ← List.filter_append]
  apply List.filter_eq_self.mpr
  intro j hj
  have hne : j ≠ i := fun heq => hnot (heq ▸ hj)
  simpa using hne

theorem members_update_of_ne (h : key i ≠ some b) :
    members (Function.update key i none) b n = members key b n := by
  induction n with
  | zero => rfl
  | succ n ih =>
    unfold members
    rw [ih]
    by_cases hn : n = i
    · subst hn
      rw [Function.update_self, if_neg (by simp), if_neg h]
    · rw [Function.update_of_ne hn]

end Members

section Links

variable {head head' next next' : ℕ → ℕ} {key key' : ℕ → Option ℕ} {b n h i j : ℕ} {l l₁ l₂ : List ℕ}

theorem Chain.congr (hchain : Chain next h l) (hnext : ∀ i ∈ l, next' i = next i) : Chain next' h l := by
  induction l generalizing h with
  | nil => exact hchain
  | cons i l ih =>
    refine ⟨hchain.1, ?_⟩
    rw [hnext i List.mem_cons_self]
    exact ih hchain.2 fun j hj => hnext j (List.mem_cons_of_mem i hj)

/-- The link before an entry takes the entry's place. -/
theorem Chain.unlink (hchain : Chain next h (l₁ ++ j :: i :: l₂)) (hnodup : (l₁ ++ j :: i :: l₂).Nodup) :
    Chain (Function.update next j (next i)) h (l₁ ++ j :: l₂) := by
  induction l₁ generalizing h with
  | nil =>
    obtain ⟨hh, -, hrest⟩ := hchain
    refine ⟨hh, ?_⟩
    rw [Function.update_self]
    apply hrest.congr
    intro k hk
    apply Function.update_of_ne
    rintro rfl
    exact (List.nodup_cons.mp hnodup).1 (List.mem_cons_of_mem i hk)
  | cons k l₁ ih =>
    obtain ⟨hk, hnodup⟩ := List.nodup_cons.mp hnodup
    refine ⟨hchain.1, ?_⟩
    have hne : k ≠ j := by
      rintro rfl
      exact hk (List.mem_append_right l₁ List.mem_cons_self)
    rw [Function.update_of_ne hne]
    exact ih hchain.2 hnodup

theorem Linked.zero (hhead : ∀ b, head b = 0) : Linked head next key 0 := hhead

theorem Linked.head_le (hlinked : Linked head next key n) (b : ℕ) : head b ≤ n := by
  have hchain := hlinked b
  cases hl : members key b n with
  | nil =>
    rw [hl] at hchain
    exact Nat.le_trans (Nat.le_of_eq hchain) (Nat.zero_le n)
  | cons i l =>
    rw [hl] at hchain
    have hi := (mem_members.mp (hl ▸ List.mem_cons_self)).1
    have := hchain.1
    omega

/-- An entry comes first in its chain. -/
theorem Linked.push (hlinked : Linked head next key n) (hkey : key' n = some b)
    (hkeys : ∀ i < n, key' i = key i) (hnext : next' n = head b) (hnexts : ∀ i < n, next' i = next i)
    (hhead : head' b = n + 1) (hheads : ∀ c, c ≠ b → head' c = head c) : Linked head' next' key' (n + 1) := by
  intro c
  unfold members
  rw [members_congr hkeys, hkey]
  have hchain : Chain next' (head c) (members key c n) :=
    (hlinked c).congr fun i hi => hnexts i (mem_members.mp hi).1
  by_cases hc : c = b
  · subst hc
    rw [if_pos rfl]
    exact ⟨hhead, hnext ▸ hchain⟩
  · rw [if_neg fun heq => hc (Option.some.inj heq).symm, hheads c hc]
    exact hchain

/-- An entry is in no chain. -/
theorem Linked.skip (hlinked : Linked head next key n) (hkey : key' n = none)
    (hkeys : ∀ i < n, key' i = key i) (hnexts : ∀ i < n, next' i = next i) :
    Linked head next' key' (n + 1) := by
  intro c
  unfold members
  rw [members_congr hkeys, hkey, if_neg (by simp)]
  exact (hlinked c).congr fun i hi => hnexts i (mem_members.mp hi).1

/-- The first entry of a chain goes. -/
theorem Linked.unlink_head (hlinked : Linked head next key n) (hl : members key b n = i :: l₂) :
    Linked (Function.update head b (next i)) next (Function.update key i none) n := by
  intro c
  by_cases hc : c = b
  · subst hc
    have hmembers : members (Function.update key i none) c n = [] ++ l₂ := members_remove hl
    rw [Function.update_self, hmembers]
    have hchain := hlinked c
    rw [hl] at hchain
    exact hchain.2
  · have hkey : key i = some b := (mem_members.mp (hl ▸ List.mem_cons_self)).2
    rw [Function.update_of_ne hc, members_update_of_ne]
    · exact hlinked c
    · rw [hkey]
      exact fun heq => hc (Option.some.inj heq).symm

/-- Another entry of a chain goes. -/
theorem Linked.unlink (hlinked : Linked head next key n) (hl : members key b n = l₁ ++ j :: i :: l₂) :
    Linked head (Function.update next j (next i)) (Function.update key i none) n := by
  have hl' : members key b n = (l₁ ++ [j]) ++ i :: l₂ := by rw [hl, List.append_assoc]; rfl
  have hj : j ∈ members key b n := by rw [hl]; exact List.mem_append_right l₁ List.mem_cons_self
  have hi : i ∈ members key b n := by rw [hl']; exact List.mem_append_right _ List.mem_cons_self
  intro c
  by_cases hc : c = b
  · subst hc
    rw [members_remove hl', List.append_assoc]
    have hchain := hlinked c
    rw [hl] at hchain
    exact hchain.unlink (hl ▸ nodup_members)
  · rw [members_update_of_ne]
    · apply (hlinked c).congr
      intro k hk
      apply Function.update_of_ne
      rintro rfl
      have := (mem_members.mp hk).2
      rw [(mem_members.mp hj).2] at this
      exact hc (Option.some.inj this).symm
    · rw [(mem_members.mp hi).2]
      exact fun heq => hc (Option.some.inj heq).symm

end Links

end HashChain
