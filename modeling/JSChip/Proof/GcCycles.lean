import JSChip.Proof.GcFree

/-!
# Freeing what cannot be reached

* `Cycling`: the lists while `gc_free_cycles` goes on. What can be reached stays on `gc_obj_list`.
* `gcFreeCycles_ok`: every block that cannot be reached is freed once, and no assertion fails.
* `jsRunGC_ok`: the same of the whole collection.
-/

namespace JSChip.Gc

open RefCount

variable {ext : GCPtr → ℕ} {s s' : Freeing} {rt rt' : JSRuntime} {hold hold' live : List GCPtr}
  {p q : GCPtr} {mem : Memory}

/-! ## What can be reached -/

/-- The blocks that can be reached: each is referred to from outside or from one of them, and what they
refer to is one of them or on the stack. -/
structure Live (ext : GCPtr → ℕ) (mem : Memory) (live : List GCPtr) : Prop where
  nodup : live.Nodup
  listed : ∀ p ∈ live, mem.isOpen p = false
  grounded : ∀ p ∈ live, 0 < ext p + inCount mem.refs live p
  closed : ∀ p ∈ live, ∀ q ∈ mem.refs p, q ∈ live ∨ mem.isOpen q = true
  roots : ∀ p, 0 < ext p → p ∈ live ∨ mem.isOpen p = true

/-- The lists while the blocks that cannot be reached are freed. -/
structure Cycling (live : List GCPtr) (rt : JSRuntime) : Prop where
  phase : rt.gcPhase = .removeCycles
  gc : rt.gcObjList = live
  nodup : (rt.tmpObjList ++ rt.gcZeroRefCountList).Nodup
  tmp : ∀ q ∈ rt.tmpObjList, rt.has q = true ∧ q ∉ live ∧ rt.mem.isOpen q = false
  zero : ∀ q ∈ rt.gcZeroRefCountList, rt.has q = true ∧ q ∉ live ∧ rt.mem.isOpen q = false

/-- A block that can be reached has a reference left, besides the ones to be dropped. -/
theorem Exact.lt_of_live (h : Exact ext s) (hlive : Live ext s.rt.mem live) (hsub : live ⊆ s.hold)
    (hp : p ∈ live) : s.pend.count p < s.rt.refCount p := by
  have hle : inCount s.rt.mem.refs live p ≤ inCount s.rt.mem.refs s.hold p :=
    inCount_le_of_subset hlive.nodup hsub p
  have hpos := hlive.grounded p hp
  rw [h.counts p]
  omega

/-- What the steps keep, of a collection of which `live` can be reached. -/
structure Kept (ext : GCPtr → ℕ) (live : List GCPtr) (mem : Memory) (s : Freeing) : Prop where
  mem : s.rt.mem = mem
  lists : Cycling live s.rt
  sub : live ⊆ s.hold

/-- The block is taken off the lists and freed. -/
theorem Cycling.without (h : Cycling live rt) (hp : p ∉ live) : Cycling live (rt.without p) := by
  have hnodup := List.nodup_append.mp h.nodup
  have hsub : (rt.tmpObjList.erase p ++ rt.gcZeroRefCountList.erase p).Sublist
      (rt.tmpObjList ++ rt.gcZeroRefCountList) := List.erase_sublist.append List.erase_sublist
  have hmem : ∀ l : List GCPtr, l.Nodup →
      (∀ q ∈ l, rt.has q = true ∧ q ∉ live ∧ rt.mem.isOpen q = false) →
      ∀ q ∈ l.erase p, (rt.without p).has q = true ∧ q ∉ live ∧ rt.mem.isOpen q = false := by
    intro l hl hall q hq
    obtain ⟨hne, hq⟩ := hl.mem_erase_iff.mp hq
    rw [JSRuntime.has_without, if_neg hne]
    exact hall q hq
  refine ⟨h.phase, ?_, hsub.nodup h.nodup, hmem _ hnodup.1 h.tmp, hmem _ hnodup.2.1 h.zero⟩
  show rt.gcObjList.erase p = live
  rw [h.gc, List.erase_of_not_mem hp]

theorem Step.kept (hlive : Live ext mem live) (hex : Exact ext s)
    (h : Kept ext live mem s) (hstep : Step s s') : Kept ext live mem s' := by
  cases hstep with
  | keep hcount hkeep =>
    refine ⟨h.mem, ⟨h.lists.phase, h.lists.gc, h.lists.nodup, ?_, ?_⟩, h.sub⟩
    · intro q hq
      rw [JSRuntime.has_withCount]
      exact h.lists.tmp q hq
    · intro q hq
      rw [JSRuntime.has_withCount]
      exact h.lists.zero q hq
  | queue _ hphase _ => exact absurd h.lists.phase hphase
  | @release rt pend hold p hcount hvalue =>
    -- What can be reached has a reference besides the one that is dropped.
    have hp : p ∉ live := by
      intro hp
      have hlt := hex.lt_of_live (h.mem.symm ▸ hlive) h.sub hp
      change (p :: pend).count p < rt.refCount p at hlt
      rw [List.count_cons_self] at hlt
      omega
    refine ⟨h.mem, ⟨h.lists.phase, h.lists.gc, h.lists.nodup, ?_, ?_⟩, ?_⟩
    · intro q hq
      rw [JSRuntime.has_withCount]
      exact h.lists.tmp q hq
    · intro q hq
      rw [JSRuntime.has_withCount]
      exact h.lists.zero q hq
    · intro q hq
      refine (List.mem_erase_of_ne ?_).mpr (h.sub hq)
      rintro rfl
      exact hp hq
  | @remove rt pend hold p hhas hcount hvalue =>
    have hp : p ∉ live := by
      intro hp
      have hlt := hex.lt_of_live (h.mem.symm ▸ hlive) h.sub hp
      change pend.count p < rt.refCount p at hlt
      omega
    exact ⟨h.mem, h.lists.without hp, h.sub⟩

/-- The lists of the dead have lost no value. -/
structure SameValues (rt₀ rt : JSRuntime) : Prop where
  tmp : rt.tmpObjList.Sublist rt₀.tmpObjList
  zero : rt.gcZeroRefCountList.Sublist rt₀.gcZeroRefCountList
  tmpValue : ∀ q, q.isValue = true → q ∈ rt₀.tmpObjList → q ∈ rt.tmpObjList
  zeroValue : ∀ q, q.isValue = true → q ∈ rt₀.gcZeroRefCountList → q ∈ rt.gcZeroRefCountList

theorem Step.sameValues (hphase : s.rt.gcPhase = .removeCycles) (hstep : Step s s') :
    SameValues s.rt s'.rt := by
  cases hstep with
  | keep | release => exact ⟨.refl _, .refl _, fun _ _ h => h, fun _ _ h => h⟩
  | queue _ hnot _ => exact absurd hphase hnot
  | @remove rt pend hold p hhas hcount hvalue =>
    have hkeep : ∀ l : List GCPtr, ∀ q, q.isValue = true → q ∈ l → q ∈ l.erase p := by
      intro l q hq hmem
      refine (List.mem_erase_of_ne ?_).mpr hmem
      rintro rfl
      rw [hvalue] at hq
      cases hq
    exact ⟨List.erase_sublist, List.erase_sublist, hkeep _, hkeep _⟩

theorem Steps.sameValues (hphase : s.rt.gcPhase = .removeCycles) (hsteps : Steps s s') :
    SameValues s.rt s'.rt := by
  induction hsteps with
  | refl => exact ⟨.refl _, .refl _, fun _ _ h => h, fun _ _ h => h⟩
  | tail hsteps hstep ih =>
    have h := hstep.sameValues ((Steps.within hsteps).phase.trans hphase)
    exact ⟨h.tmp.trans ih.tmp, h.zero.trans ih.zero, fun q hq hm => h.tmpValue q hq (ih.tmpValue q hq hm),
      fun q hq hm => h.zeroValue q hq (ih.zeroValue q hq hm)⟩

/-! ## The loop -/

/-- Between the rounds of the loop. -/
structure Collecting (ext : GCPtr → ℕ) (live : List GCPtr) (mem : Memory) (rt : JSRuntime)
    (hold : List GCPtr) : Prop where
  exact : Exact ext ⟨rt, [], hold⟩
  kept : Kept ext live mem ⟨rt, [], hold⟩
  values : ∀ q, q.isValue = true → rt.has q = true →
    q ∈ live ∨ q ∈ rt.tmpObjList ∨ q ∈ rt.gcZeroRefCountList
  heldTmp : ∀ q, q.isValue = true → q ∈ rt.tmpObjList → q ∈ hold
  heldValue : ∀ q ∈ hold, q.isValue = true → q ∈ live ∨ q ∈ rt.tmpObjList
  positive : ∀ q, q.isValue = false → rt.has q = true → 0 < rt.refCount q
  unmarked : ∀ q, q ∈ live ∨ mem.isOpen q = true → rt.marked q = false

/-- A block goes from `tmp_obj_list` to the end of `gc_zero_ref_count_list`. -/
def JSRuntime.toZero (rt : JSRuntime) (p : GCPtr) : JSRuntime :=
  { rt.listDel p with gcZeroRefCountList := (rt.listDel p).gcZeroRefCountList ++ [p] }

theorem Cycling.toZero (h : Cycling live rt) (hp : p ∈ rt.tmpObjList) : Cycling live (rt.toZero p) ∧
    (∀ q, q ∈ (rt.toZero p).tmpObjList ↔ q ≠ p ∧ q ∈ rt.tmpObjList) ∧
    ∀ q, q ∈ (rt.toZero p).gcZeroRefCountList ↔ q = p ∨ q ∈ rt.gcZeroRefCountList := by
  have hnodup := List.nodup_append.mp h.nodup
  have hnot : p ∉ rt.gcZeroRefCountList := fun hz => hnodup.2.2 p hp p hz rfl
  have herase : rt.gcZeroRefCountList.erase p = rt.gcZeroRefCountList := List.erase_of_not_mem hnot
  obtain ⟨hhas, hdead, hopen⟩ := h.tmp p hp
  have htmp : ∀ q, q ∈ (rt.toZero p).tmpObjList ↔ q ≠ p ∧ q ∈ rt.tmpObjList :=
    fun q => hnodup.1.mem_erase_iff
  have hzero : ∀ q, q ∈ (rt.toZero p).gcZeroRefCountList ↔ q = p ∨ q ∈ rt.gcZeroRefCountList := by
    intro q
    show q ∈ rt.gcZeroRefCountList.erase p ++ [p] ↔ _
    rw [herase, List.mem_append, List.mem_singleton, or_comm]
  refine ⟨⟨h.phase, ?_, ?_, ?_, ?_⟩, htmp, hzero⟩
  · show rt.gcObjList.erase p = live
    rw [h.gc, List.erase_of_not_mem hdead]
  · show (rt.tmpObjList.erase p ++ (rt.gcZeroRefCountList.erase p ++ [p])).Nodup
    rw [herase]
    refine List.nodup_append.mpr ⟨hnodup.1.erase p, nodup_concat hnodup.2.1 hnot, ?_⟩
    intro a ha b hb
    obtain ⟨hne, ha⟩ := hnodup.1.mem_erase_iff.mp ha
    rcases List.mem_append.mp hb with hb | hb
    · exact hnodup.2.2 a ha b hb
    · rw [List.mem_singleton.mp hb]
      exact hne
  · intro q hq
    exact h.tmp q ((htmp q).mp hq).2
  · intro q hq
    rcases (hzero q).mp hq with rfl | hq
    · exact ⟨hhas, hdead, hopen⟩
    · exact h.zero q hq

/-- A block of another type than those of values is left until its last reference is dropped. -/
theorem collect_block (h : Collecting ext live mem rt hold) (hp : p ∈ rt.tmpObjList)
    (hvalue : p.isValue = false) : Collecting ext live mem (rt.toZero p) hold := by
  obtain ⟨hlists, htmp, hzero⟩ := h.kept.lists.toZero hp
  have hne : ∀ q, q.isValue = true → q ≠ p := by
    rintro q hq rfl
    rw [hvalue] at hq
    cases hq
  refine ⟨⟨h.exact.nodup, h.exact.counts, h.exact.has, h.exact.held⟩, ⟨h.kept.mem, hlists, h.kept.sub⟩,
    ?_, ?_, ?_, h.positive, h.unmarked⟩
  · intro q hq hhas
    rw [htmp, hzero]
    rcases h.values q hq hhas with hl | ht | hz
    · exact .inl hl
    · exact .inr (.inl ⟨hne q hq, ht⟩)
    · exact .inr (.inr (.inr hz))
  · intro q hq hmem
    exact h.heldTmp q hq ((htmp q).mp hmem).2
  · intro q hmem hq
    rw [htmp]
    exact (h.heldValue q hmem hq).imp_right fun ht => ⟨hne q hq, ht⟩

/-- The references of a value have been dropped, and it is to be removed. -/
structure Emptied (ext : GCPtr → ℕ) (live : List GCPtr) (mem : Memory) (p : GCPtr) (rt : JSRuntime)
    (hold : List GCPtr) : Prop where
  exact : Exact ext ⟨rt, [], hold⟩
  kept : Kept ext live mem ⟨rt, [], hold⟩
  here : p ∈ rt.tmpObjList
  value : p.isValue = true
  notHeld : p ∉ hold
  values : ∀ q, q.isValue = true → rt.has q = true →
    q ∈ live ∨ q ∈ rt.tmpObjList ∨ q ∈ rt.gcZeroRefCountList
  heldTmp : ∀ q, q.isValue = true → q ≠ p → q ∈ rt.tmpObjList → q ∈ hold
  heldValue : ∀ q ∈ hold, q.isValue = true → q ∈ live ∨ q ∈ rt.tmpObjList
  positive : ∀ q, q.isValue = false → rt.has q = true → 0 < rt.refCount q
  unmarked : ∀ q, q ∈ live ∨ mem.isOpen q = true → rt.marked q = false

theorem Emptied.zombie (h : Emptied ext live mem p rt hold) :
    Collecting ext live mem (rt.toZero p) hold := by
  obtain ⟨hlists, htmp, hzero⟩ := h.kept.lists.toZero h.here
  refine ⟨⟨h.exact.nodup, h.exact.counts, h.exact.has, h.exact.held⟩, ⟨h.kept.mem, hlists, h.kept.sub⟩,
    ?_, ?_, ?_, h.positive, h.unmarked⟩
  · intro q hq hhas
    rw [htmp, hzero]
    rcases h.values q hq hhas with hl | ht | hz
    · exact .inl hl
    · by_cases hqp : q = p
      · exact .inr (.inr (.inl hqp))
      · exact .inr (.inl ⟨hqp, ht⟩)
    · exact .inr (.inr (.inr hz))
  · intro q hq hmem
    obtain ⟨hne, hmem⟩ := (htmp q).mp hmem
    exact h.heldTmp q hq hne hmem
  · intro q hmem hq
    rw [htmp]
    refine (h.heldValue q hmem hq).imp_right fun ht => ⟨?_, ht⟩
    rintro rfl
    exact h.notHeld hmem

theorem Emptied.freed (h : Emptied ext live mem p rt hold) (hcount : rt.refCount p = 0) :
    Collecting ext live mem (rt.without p) hold := by
  have hnodup := List.nodup_append.mp h.kept.lists.nodup
  have hdead := (h.kept.lists.tmp p h.here).2.1
  have hopen : mem.isOpen p = false := Memory.isOpen_of_isValue h.value
  have hback : ∀ q, (rt.without p).has q = true → q ≠ p ∧ rt.has q = true := fun q =>
    JSRuntime.of_has_without
  have htmp : ∀ q, q ∈ (rt.without p).tmpObjList ↔ q ≠ p ∧ q ∈ rt.tmpObjList :=
    fun q => hnodup.1.mem_erase_iff
  have hzero : ∀ q, q ∈ (rt.without p).gcZeroRefCountList ↔ q ≠ p ∧ q ∈ rt.gcZeroRefCountList :=
    fun q => hnodup.2.1.mem_erase_iff
  refine ⟨⟨h.exact.nodup, ?_, ?_, ?_⟩, ⟨h.kept.mem, h.kept.lists.without hdead, h.kept.sub⟩, ?_, ?_, ?_,
    ?_, ?_⟩
  · intro q
    rw [JSRuntime.refCount_without hcount]
    exact h.exact.counts q
  · intro q hq
    rw [JSRuntime.has_without, if_neg]
    · exact h.exact.has q hq
    · rintro rfl
      exact h.notHeld hq
  · intro q hq
    rw [JSRuntime.refCount_without hcount]
    exact h.exact.held q hq
  · intro q hq hhas
    obtain ⟨hne, hhas⟩ := hback q hhas
    rw [htmp, hzero]
    exact (h.values q hq hhas).imp_right (Or.imp (⟨hne, ·⟩) (⟨hne, ·⟩))
  · intro q hq hmem
    obtain ⟨hne, hmem⟩ := (htmp q).mp hmem
    exact h.heldTmp q hq hne hmem
  · intro q hmem hq
    rw [htmp]
    refine (h.heldValue q hmem hq).imp_right fun ht => ⟨?_, ht⟩
    rintro rfl
    exact h.notHeld hmem
  · intro q hq hhas
    rw [JSRuntime.refCount_without hcount]
    exact h.positive q hq (hback q hhas).2
  · exact fun q hq => marked_without (h.unmarked q hq)

/-- The references of the first value on the list are dropped. -/
theorem collect_empty (hlive : Live ext mem live) (h : Collecting ext live mem rt hold)
    (hp : p ∈ rt.tmpObjList) (hvalue : p.isValue = true) :
    ∃ rt' hold', forEach (freeRef zeroRefCount) (rt.mem.refs p) rt = some rt' ∧
      Emptied ext live mem p rt' hold' ∧ rt'.tmpObjList.Sublist rt.tmpObjList ∧
        ∀ q, rt'.has q = true → rt.has q = true := by
  have hdead := (h.kept.lists.tmp p hp).2.1
  have hmem := h.heldTmp p hvalue hp
  have hex := h.exact.transfer hmem hvalue
  have hkept : Kept ext live mem ⟨rt, rt.mem.refs p ++ [], hold.erase p⟩ := by
    refine ⟨h.kept.mem, h.kept.lists, fun q hq => (List.mem_erase_of_ne ?_).mpr (h.kept.sub hq)⟩
    rintro rfl
    exact hdead hq
  obtain ⟨rt₁, hold₁, hrt₁, h₁⟩ := forEach_freeRef hex
  obtain ⟨hex₁, hkept₁⟩ := Steps.induct (fun s s' hs hI hstep => hstep.kept hlive hs hI) hex hkept h₁.steps
  have hwithin := h₁.steps.within
  have hsame := Steps.sameValues hkept.lists.phase h₁.steps
  have hnot : p ∉ hold₁ := fun hin => (h.exact.nodup.mem_erase_iff.mp (hwithin.hold.subset hin)).1 rfl
  refine ⟨rt₁, hold₁, hrt₁, ⟨hex₁, hkept₁, hsame.tmpValue p hvalue hp, hvalue, hnot, ?_, ?_, ?_, ?_, ?_⟩,
    hsame.tmp, hwithin.has⟩
  · intro q hq hhas
    exact (h.values q hq (hwithin.has q hhas)).imp_right
      (Or.imp (hsame.tmpValue q hq) (hsame.zeroValue q hq))
  · intro q hq hne hq'
    exact hwithin.heldValue q hq ((List.mem_erase_of_ne hne).mpr (h.heldTmp q hq (hsame.tmp.subset hq')))
  · intro q hq' hq
    have hin := List.mem_of_mem_erase (hwithin.hold.subset hq')
    exact (h.heldValue q hin hq).imp_right (hsame.tmpValue q hq)
  · intro q hq hhas
    refine Nat.pos_of_ne_zero fun h0 => ?_
    have hpos := h.positive q hq (hwithin.has q hhas)
    have h0' := h₁.spares.counted q hq hhas h0
    omega
  · exact fun q hq => hwithin.unmarked q (h.unmarked q hq)

/-- A round of `gc_free_cycles`. -/
theorem gcFreeHead_ok (hlive : Live ext mem live) (h : Collecting ext live mem rt hold)
    (hp : p ∈ rt.tmpObjList) :
    ∃ rt' hold', gcFreeHead p rt = some rt' ∧ Collecting ext live mem rt' hold' ∧
      rt'.tmpObjList.length < rt.tmpObjList.length ∧ ∀ q, rt'.has q = true → rt.has q = true := by
  cases hvalue : p.isValue with
  | false =>
    have hhead : gcFreeHead p rt = some (rt.toZero p) := by
      cases p with
      | object | functionBytecode => cases hvalue
      | _ => rfl
    refine ⟨rt.toZero p, hold, hhead, collect_block h hp hvalue, ?_, fun q hq => hq⟩
    show (rt.tmpObjList.erase p).length < _
    rw [List.length_erase_of_mem hp]
    exact Nat.sub_lt (List.length_pos_of_mem hp) Nat.one_pos
  | true =>
    have hhead : gcFreeHead p rt =
        (forEach (freeRef zeroRefCount) (rt.mem.refs p) rt).bind (removeObject p) := by
      rw [← freeGcObject_eq hvalue]
      cases p with
      | object | functionBytecode => rfl
      | _ => cases hvalue
    obtain ⟨rt₁, hold₁, hrt₁, h₁, htmp₁, hhas₁⟩ := collect_empty hlive h hp hvalue
    have hhas := (h₁.kept.lists.tmp p h₁.here).1
    obtain ⟨hd, hhd⟩ := JSRuntime.exists_header hhas
    have hlength : (rt₁.tmpObjList.erase p).length < rt.tmpObjList.length := by
      rw [List.length_erase_of_mem h₁.here]
      have hle := htmp₁.length_le
      have hpos := List.length_pos_of_mem h₁.here
      omega
    have hphase : rt₁.gcPhase = .removeCycles := h₁.kept.lists.phase
    rw [hhead, hrt₁]
    rw [Option.bind_some]
    unfold removeObject
    rw [hhd]
    show ∃ rt' hold', (if rt₁.gcPhase = .removeCycles ∧ hd.refCount ≠ 0 then some (rt₁.toZero p)
      else removeBlock p rt₁) = some rt' ∧ _
    rw [← JSRuntime.refCount_eq hhd]
    split
    next hcount => exact ⟨_, hold₁, rfl, h₁.zombie, hlength, hhas₁⟩
    next hcount =>
      have hzero : rt₁.refCount p = 0 := by
        by_contra hne
        exact hcount ⟨hphase, hne⟩
      refine ⟨_, hold₁, JSRuntime.removeBlock_eq hhas, h₁.freed hzero, hlength, fun q hq => hhas₁ q ?_⟩
      exact (JSRuntime.of_has_without hq).2

theorem gcFreeLoop_ok (hlive : Live ext mem live) {fuel : ℕ} (hfuel : rt.tmpObjList.length < fuel)
    (h : Collecting ext live mem rt hold) :
    ∃ rt' hold', gcFreeLoop fuel rt = some rt' ∧ Collecting ext live mem rt' hold' ∧
      rt'.tmpObjList = [] ∧ ∀ q, rt'.has q = true → rt.has q = true := by
  induction fuel generalizing rt hold with
  | zero => exact absurd hfuel (Nat.not_lt_zero _)
  | succ fuel ih =>
    cases hlist : rt.tmpObjList with
    | nil =>
      refine ⟨rt, hold, ?_, h, hlist, fun _ hq => hq⟩
      unfold gcFreeLoop
      rw [hlist]
    | cons p rest =>
      have hp : p ∈ rt.tmpObjList := by
        rw [hlist]
        exact List.mem_cons_self
      obtain ⟨rt₁, hold₁, hrt₁, h₁, hlength, hhas₁⟩ := gcFreeHead_ok hlive h hp
      obtain ⟨rt₂, hold₂, hrt₂, h₂, hnil, hhas₂⟩ := ih (by omega) h₁
      refine ⟨rt₂, hold₂, ?_, h₂, hnil, fun q hq => hhas₁ q (hhas₂ q hq)⟩
      unfold gcFreeLoop
      rw [hlist]
      show (gcFreeHead p rt).bind _ = _
      rw [hrt₁]
      exact hrt₂

/-! ## When `tmp_obj_list` is empty -/

/-- A block of another type than those of values has a reference from a block of a higher rank, or from
one that can be reached. So it can be reached. -/
theorem Collecting.hold_live (hlive : Live ext mem live) (h : Collecting ext live mem rt hold)
    (hnil : rt.tmpObjList = []) (hp : p ∈ hold) : p ∈ live := by
  induction hn : 3 - p.rank using Nat.strongRecOn generalizing p with
  | ind n ih =>
    cases hvalue : p.isValue with
    | true =>
      refine (h.heldValue p hp hvalue).resolve_right fun ht => ?_
      rw [hnil] at ht
      cases ht
    | false =>
      obtain ⟨hpos, hopen⟩ := (h.exact.held p hvalue).mp hp
      have hmem : rt.mem = mem := h.kept.mem
      change rt.mem.isOpen p = false at hopen
      rw [hmem] at hopen
      have hnotOpen : ¬ mem.isOpen p = true := by
        rw [hopen]
        exact Bool.false_ne_true
      have hcount := h.exact.counts p
      change rt.refCount p = ext p + 0 + inCount rt.mem.refs hold p at hcount
      change 0 < rt.refCount p at hpos
      rcases Nat.eq_zero_or_pos (ext p) with hext | hext
      · rw [hmem] at hcount
        have hin : 0 < inCount mem.refs hold p := by omega
        obtain ⟨q, hq, href⟩ := exists_of_inCount_pos hin
        have hqlive : q ∈ live := by
          cases hqvalue : q.isValue with
          | true =>
            refine (h.heldValue q hq hqvalue).resolve_right fun ht => ?_
            rw [hnil] at ht
            cases ht
          | false =>
            have hrank := rank_lt_of_mem_refs hqvalue href
            have hle := q.rank_le
            exact ih (3 - q.rank) (by omega) hq rfl
        exact (hlive.closed q hqlive p href).resolve_right hnotOpen
      · exact (hlive.roots p hext).resolve_right hnotOpen

theorem Collecting.perm (hlive : Live ext mem live) (h : Collecting ext live mem rt hold)
    (hnil : rt.tmpObjList = []) : hold.Perm live := by
  rw [List.perm_ext_iff_of_nodup h.exact.nodup hlive.nodup]
  exact fun q => ⟨fun hq => h.hold_live hlive hnil hq, fun hq => h.kept.sub hq⟩

/-- What is left on `gc_zero_ref_count_list` are values without a reference. -/
theorem Collecting.zombies (hlive : Live ext mem live) (h : Collecting ext live mem rt hold)
    (hnil : rt.tmpObjList = []) (hp : p ∈ rt.gcZeroRefCountList) :
    p.isValue = true ∧ rt.has p = true ∧ rt.refCount p = 0 := by
  obtain ⟨hhas, hdead, hopen⟩ := h.kept.lists.zero p hp
  have hmem : rt.mem = mem := h.kept.mem
  change rt.mem.isOpen p = false at hopen
  have hvalue : p.isValue = true := by
    cases hvalue : p.isValue with
    | true => rfl
    | false =>
      have hin : p ∈ hold := (h.exact.held p hvalue).mpr ⟨h.positive p hvalue hhas, hopen⟩
      exact absurd (h.hold_live hlive hnil hin) hdead
  refine ⟨hvalue, hhas, ?_⟩
  have hcount := h.exact.counts p
  change rt.refCount p = ext p + 0 + inCount rt.mem.refs hold p at hcount
  rw [hmem] at hcount hopen
  have hnotOpen : ¬ mem.isOpen p = true := by
    rw [hopen]
    exact Bool.false_ne_true
  have hext : ext p = 0 := by
    refine Nat.eq_zero_of_not_pos fun hext => ?_
    exact ((hlive.roots p hext).resolve_right hnotOpen |> hdead)
  have hin : inCount mem.refs hold p = 0 := by
    refine Nat.eq_zero_of_not_pos fun hpos => ?_
    obtain ⟨q, hq, href⟩ := exists_of_inCount_pos hpos
    have hqlive := h.hold_live hlive hnil hq
    exact hdead ((hlive.closed q hqlive p href).resolve_right hnotOpen)
  omega

/-- In the last loop: the values of `pend` have still to be freed. -/
structure Ending (ext : GCPtr → ℕ) (live : List GCPtr) (mem : Memory) (pend : List GCPtr)
    (rt : JSRuntime) : Prop where
  memory : rt.mem = mem
  phase : rt.gcPhase = .none
  gc : rt.gcObjList = live
  tmp : rt.tmpObjList = []
  nodup : pend.Nodup
  zombies : ∀ q ∈ pend, q.isValue = true ∧ rt.has q = true ∧ rt.refCount q = 0 ∧ q ∉ live
  has : ∀ q, rt.has q = true → (0 < rt.refCount q ∧ (q ∈ live ∨ mem.isOpen q = true)) ∨ q ∈ pend
  liveHas : ∀ q ∈ live, rt.has q = true ∧ mem.isOpen q = false
  counts : ∀ q, rt.refCount q = ext q + inCount mem.refs live q
  unmarked : ∀ q, q ∈ live ∨ mem.isOpen q = true → rt.marked q = false

theorem gcFreeZombie_ok {pend : List GCPtr} (h : Ending ext live mem (p :: pend) rt) :
    ∃ rt', gcFreeZombie p rt = some rt' ∧ Ending ext live mem pend rt' := by
  obtain ⟨hvalue, hhas, hcount, hdead⟩ := h.zombies p List.mem_cons_self
  obtain ⟨hnot, hnodup⟩ := List.nodup_cons.mp h.nodup
  obtain ⟨hd, hhd⟩ := JSRuntime.exists_header hhas
  have hfree : gcFreeZombie p rt = some (rt.setHeader p none) := by
    have hjs : rt.jsFreeRt p = some (rt.setHeader p none) := by
      unfold JSRuntime.jsFreeRt
      rw [hhd]
    cases p with
    | object | functionBytecode => exact hjs
    | _ => cases hvalue
  have hhas' : ∀ q, (rt.setHeader p none).has q = if q = p then false else rt.has q := by
    intro q
    unfold JSRuntime.has
    rw [JSRuntime.header_setHeader]
    split <;> rfl
  have hcount' : ∀ q, (rt.setHeader p none).refCount q = rt.refCount q :=
    fun q => JSRuntime.refCount_without hcount
  refine ⟨_, hfree, h.memory, h.phase, h.gc, h.tmp, hnodup, ?_, ?_, ?_, ?_, ?_⟩
  · intro q hq
    obtain ⟨hval, hq', hzero, hqdead⟩ := h.zombies q (List.mem_cons_of_mem p hq)
    refine ⟨hval, ?_, ?_, hqdead⟩
    · rw [hhas', if_neg]
      · exact hq'
      · rintro rfl
        exact hnot hq
    · rw [hcount', hzero]
  · intro q hq
    rw [hhas'] at hq
    split at hq
    · cases hq
    next hne =>
      rw [hcount']
      refine (h.has q hq).imp_right fun hmem => ?_
      exact (List.mem_cons.mp hmem).resolve_left hne
  · intro q hq
    obtain ⟨hq', hopen⟩ := h.liveHas q hq
    refine ⟨?_, hopen⟩
    rw [hhas', if_neg]
    · exact hq'
    · rintro rfl
      exact hdead hq
  · intro q
    rw [hcount']
    exact h.counts q
  · intro q hq
    exact marked_without (h.unmarked q hq)

/-- What is left is on `gc_obj_list`, and every count is exact. -/
theorem Ending.accounted (hlive : Live ext mem live) (h : Ending ext live mem [] rt)
    (hexports : ∀ n, rt.has (.context n) = true → mem.ExportsDetached n) :
    Accounted ext { rt with gcZeroRefCountList := [] } := by
  have hhas : ∀ q, rt.has q = true → 0 < rt.refCount q ∧ (q ∈ live ∨ mem.isOpen q = true) :=
    fun q hq => (h.has q hq).resolve_right List.not_mem_nil
  refine ⟨h.phase, rfl, h.tmp, ?_, ?_, ?_, fun q hq => (hhas q hq).1, ?_, ?_⟩
  · show rt.gcObjList.Nodup
    rw [h.gc]
    exact hlive.nodup
  · intro q
    show q ∈ rt.gcObjList ↔ rt.has q = true ∧ rt.mem.isOpen q = false
    rw [h.gc, h.memory]
    refine ⟨fun hq => h.liveHas q hq, fun hq => (hhas q hq.1).2.resolve_right fun hopen => ?_⟩
    rw [hq.2] at hopen
    cases hopen
  · intro q
    show rt.refCount q = ext q + inCount rt.mem.refs rt.gcObjList q
    rw [h.gc, h.memory]
    exact h.counts q
  · intro q
    show rt.marked q = false
    cases hq : rt.header q with
    | none =>
      unfold JSRuntime.marked
      rw [hq]
      rfl
    | some hd =>
      refine h.unmarked q (hhas q ?_).2
      unfold JSRuntime.has
      rw [hq]
      rfl
  · intro n hn
    show rt.mem.ExportsDetached n
    rw [h.memory]
    exact hexports n hn

/-- **`gc_free_cycles` comes to an end**, and leaves what can be reached with exact counts. -/
theorem gcFreeCycles_ok (hlive : Live ext mem live)
    (h : Collecting ext live mem { rt with gcPhase := .removeCycles } hold)
    (hexports : ∀ n, rt.has (.context n) = true → mem.ExportsDetached n) :
    ∃ rt', gcFreeCycles rt = some rt' ∧ Accounted ext rt' ∧ rt'.mem = mem ∧
      rt'.gcObjList = live := by
  have hfuel : { rt with gcPhase := .removeCycles }.tmpObjList.length < rt.fuel := by
    show rt.tmpObjList.length < _
    unfold JSRuntime.fuel
    omega
  -- The first loop empties every dead block, and frees those that nothing dead refers to.
  obtain ⟨rt₁, hold₁, hrt₁, h₁, hnil, hhas₁⟩ := gcFreeLoop_ok hlive hfuel h
  have hmem₁ : rt₁.mem = mem := h₁.kept.mem
  have hperm := h₁.perm hlive hnil
  have hpos : ∀ q ∈ live, 0 < rt₁.refCount q := by
    intro q hq
    exact h₁.exact.lt_of_live (hmem₁.symm ▸ hlive) h₁.kept.sub hq
  -- Between the two loops only what is live has references.
  have hbegin : Ending ext live mem rt₁.gcZeroRefCountList { rt₁ with gcPhase := .none } := by
    refine ⟨hmem₁, rfl, h₁.kept.lists.gc, hnil, (List.nodup_append.mp h₁.kept.lists.nodup).2.1, ?_, ?_, ?_,
      ?_, h₁.unmarked⟩
    · intro q hq
      obtain ⟨hvalue, hhas, hzero⟩ := h₁.zombies hlive hnil hq
      exact ⟨hvalue, hhas, hzero, (h₁.kept.lists.zero q hq).2.1⟩
    · intro q hhas
      change rt₁.has q = true at hhas
      show (0 < rt₁.refCount q ∧ _) ∨ _
      cases hvalue : q.isValue with
      | true =>
        rcases h₁.values q hvalue hhas with hl | ht | hz
        · exact .inl ⟨hpos q hl, .inl hl⟩
        · rw [hnil] at ht
          cases ht
        · exact .inr hz
      | false =>
        have hcount := h₁.positive q hvalue hhas
        refine .inl ⟨hcount, ?_⟩
        cases hopen : mem.isOpen q with
        | true => exact .inr rfl
        | false =>
          refine .inl (h₁.hold_live hlive hnil ((h₁.exact.held q hvalue).mpr ⟨hcount, ?_⟩))
          show rt₁.mem.isOpen q = false
          rw [hmem₁, hopen]
    · exact fun q hq => ⟨h₁.exact.has q (h₁.kept.sub hq), hlive.listed q hq⟩
    · intro q
      have hcount := h₁.exact.counts q
      change rt₁.refCount q = ext q + 0 + inCount rt₁.mem.refs hold₁ q at hcount
      rw [hmem₁, inCount_perm hperm, Nat.add_zero] at hcount
      exact hcount
  -- The second loop gives the memory of the others back.
  obtain ⟨rt₂, hrt₂, h₂⟩ := forEach_pending (P := fun _ => True) (I := Ending ext live mem)
    (fun _ _ _ _ h => gcFreeZombie_ok h) (fun _ _ => trivial) hbegin
  have hback : ∀ q, rt₂.has q = true → rt.has q = true := by
    intro q hq
    have hcount := ((h₂.has q hq).resolve_right List.not_mem_nil).1
    rw [h₂.counts, ← hbegin.counts] at hcount
    have hhas : rt₁.has q = true := JSRuntime.has_of_refCount hcount
    exact hhas₁ q hhas
  refine ⟨{ rt₂ with gcZeroRefCountList := [] }, ?_,
    h₂.accounted hlive fun n hn => hexports n (hback _ hn), h₂.memory, h₂.gc⟩
  show (gcFreeLoop rt.fuel { rt with gcPhase := .removeCycles }).bind _ = _
  rw [hrt₁]
  show (forEach gcFreeZombie rt₁.gcZeroRefCountList { rt₁ with gcPhase := .none }).bind _ = _
  rw [hrt₂]
  rfl

/-! ## A collection -/

/-- What can be reached is there. -/
theorem Accounted.has_of_reach (h : Accounted ext rt) (hp : Reach rt.mem.refs ext p) :
    rt.has p = true := by
  have hcount : ∀ q, ext q + inCount rt.mem.refs rt.gcObjList q ≤ rt.refCount q :=
    fun q => Nat.le_of_eq (h.counts q).symm
  refine reach_mem (S := fun p => rt.has p = true) hcount (fun q => JSRuntime.has_of_refCount) ?_ hp
  intro q hq hne
  refine (h.listed q).mpr ⟨hq, ?_⟩
  rw [← Bool.not_eq_true]
  exact fun hopen => hne (Memory.refs_of_isOpen hopen)

theorem Accounted.listed_of_reach (h : Accounted ext rt) (hp : Reach rt.mem.refs ext p) :
    p ∈ rt.gcObjList ∨ rt.mem.isOpen p = true := by
  cases hopen : rt.mem.isOpen p with
  | false => exact .inl ((h.listed p).mpr ⟨h.has_of_reach hp, hopen⟩)
  | true => exact .inr rfl

/-- What the collector leaves on `gc_obj_list` is what can be reached. -/
theorem Divided.toLive {rt₀ : JSRuntime} (h₀ : Accounted ext rt₀) (h : Divided ext rt₀ rt) :
    Live ext rt₀.mem rt.gcObjList := by
  have hin : ∀ q, Reach rt₀.mem.refs ext q → q ∈ rt.gcObjList ∨ rt₀.mem.isOpen q = true := by
    intro q hq
    exact (h₀.listed_of_reach hq).imp_left fun hmem => (h.live q).mpr ⟨hmem, hq⟩
  refine ⟨h.nodup, ?_, ?_, ?_, fun p hp => hin p (.root hp)⟩
  · exact fun p hp => ((h₀.listed p).mp ((h.live p).mp hp).1).2
  · intro p hp
    cases ((h.live p).mp hp).2 with
    | root hext => exact Nat.add_pos_left hext _
    | @step q _ hq href =>
      have hqin : q ∈ rt.gcObjList := by
        refine (hin q hq).resolve_right fun hopen => ?_
        rw [Memory.refs_of_isOpen hopen] at href
        cases href
      exact Nat.add_pos_right _ (inCount_pos hqin href)
  · intro p hp q href
    exact hin q (.step ((h.live p).mp hp).2 href)

theorem Divided.collecting {rt₀ : JSRuntime} (h₀ : Accounted ext rt₀) (h : Divided ext rt₀ rt) :
    Collecting ext rt.gcObjList rt₀.mem { rt with gcPhase := .removeCycles }
      (rt.gcObjList ++ rt.tmpObjList) := by
  have hlisted : ∀ q, q ∈ rt₀.gcObjList ↔ q ∈ rt.gcObjList ∨ q ∈ rt.tmpObjList := by
    intro q
    rw [h.live, h.dead, ← and_or_left]
    exact ⟨fun hq => ⟨hq, em _⟩, fun hq => hq.1⟩
  have hnodup : (rt.gcObjList ++ rt.tmpObjList).Nodup := by
    refine List.nodup_append.mpr ⟨h.nodup, h.nodupTmp, ?_⟩
    rintro p hp q hq rfl
    exact ((h.dead p).mp hq).2 ((h.live p).mp hp).2
  have hperm : (rt.gcObjList ++ rt.tmpObjList).Perm rt₀.gcObjList := by
    rw [List.perm_ext_iff_of_nodup hnodup h₀.nodup]
    intro q
    rw [List.mem_append, hlisted]
  have hpositive : ∀ q, rt.has q = true → 0 < rt.refCount q := by
    intro q hq
    rw [h.counts]
    exact h₀.positive q (h.has q ▸ hq)
  refine ⟨⟨hnodup, ?_, ?_, ?_⟩, ⟨h.mem, ⟨rfl, rfl, ?_, ?_, ?_⟩, ?_⟩, ?_, ?_, ?_, ?_, ?_⟩
  · intro q
    show rt.refCount q = ext q + 0 + inCount rt.mem.refs (rt.gcObjList ++ rt.tmpObjList) q
    rw [h.counts, h₀.counts, h.mem, inCount_perm hperm, Nat.add_zero]
  · intro q hq
    show rt.has q = true
    rw [h.has]
    exact ((h₀.listed q).mp (hperm.mem_iff.mp hq)).1
  · intro q _
    show q ∈ rt.gcObjList ++ rt.tmpObjList ↔ 0 < rt.refCount q ∧ rt.mem.isOpen q = false
    rw [hperm.mem_iff, h₀.listed, h.mem, ← h.has]
    exact ⟨fun hq => ⟨hpositive q hq.1, hq.2⟩, fun hq => ⟨JSRuntime.has_of_refCount hq.1, hq.2⟩⟩
  · show (rt.tmpObjList ++ rt.gcZeroRefCountList).Nodup
    rw [h.zero, List.append_nil]
    exact h.nodupTmp
  · intro q hq
    obtain ⟨hhas, hopen⟩ := (h₀.listed q).mp ((h.dead q).mp hq).1
    refine ⟨(h.has q).trans hhas, fun hlive => ?_, ?_⟩
    · exact ((h.dead q).mp hq).2 ((h.live q).mp hlive).2
    · show rt.mem.isOpen q = false
      rw [h.mem, hopen]
  · intro q hq
    change q ∈ rt.gcZeroRefCountList at hq
    rw [h.zero] at hq
    cases hq
  · exact List.subset_append_left _ _
  · intro q hvalue hhas
    change rt.has q = true at hhas
    rw [h.has] at hhas
    exact ((hlisted q).mp ((h₀.listed q).mpr ⟨hhas, Memory.isOpen_of_isValue hvalue⟩)).imp_right .inl
  · exact fun q _ hq => List.mem_append_right _ hq
  · exact fun q hq _ => List.mem_append.mp hq
  · exact fun q _ hhas => hpositive q hhas
  · intro q hq
    show rt.marked q = false
    rcases hq with hq | hq
    · exact h.unmarked q hq
    · rw [JSRuntime.marked, h.opened q hq]
      exact h₀.unmarked q

/-- **A collection frees the blocks that cannot be reached, and no other.** No assertion fails, no block is
freed twice or touched after, and every count is exact again. -/
theorem jsRunGC_ok (h : Accounted ext rt) :
    ∃ rt', jsRunGC rt = some rt' ∧ Accounted ext rt' ∧ rt'.mem = rt.mem ∧
      ∀ p, rt'.has p = true ↔ Reach rt.mem.refs ext p := by
  obtain ⟨rt₁, hrt₁, h₁⟩ := gcDecref_ok h
  obtain ⟨rt₂, hrt₂, h₂⟩ := gcScan_ok h h₁
  have hlive := h₂.toLive h
  have hexports : ∀ n, rt₂.has (.context n) = true → rt.mem.ExportsDetached n := by
    intro n hn
    rw [h₂.has] at hn
    exact h.exports n hn
  obtain ⟨rt₃, hrt₃, h₃, hmem, hgc⟩ := gcFreeCycles_ok hlive (h₂.collecting h) hexports
  refine ⟨rt₃, ?_, h₃, hmem, fun p => ⟨fun hp => ?_, fun hp => ?_⟩⟩
  · unfold jsRunGC
    rw [hrt₁]
    show (gcScan rt₁).bind _ = _
    rw [hrt₂]
    exact hrt₃
  · have hreach : ∀ q ∈ rt₃.gcObjList, Reach rt.mem.refs ext q := by
      intro q hq
      rw [hgc] at hq
      exact ((h₂.live q).mp hq).2
    cases hopen : rt.mem.isOpen p with
    | false => exact hreach p ((h₃.listed p).mpr ⟨hp, by rw [hmem, hopen]⟩)
    | true =>
      have hcount := h₃.positive p hp
      rw [h₃.counts, hmem] at hcount
      rcases Nat.eq_zero_or_pos (ext p) with hext | hext
      · have hin : 0 < inCount rt.mem.refs rt₃.gcObjList p := by omega
        obtain ⟨q, hq, href⟩ := exists_of_inCount_pos hin
        exact .step (hreach q hq) href
      · exact .root hext
  · exact h₃.has_of_reach (hmem.symm ▸ hp)

end JSChip.Gc
