import Mathlib.Logic.Relation
import JSChip.Proof.GcMark

/-!
# What is dropped when a block is freed

* `Step`: what the freeing functions do to the counts and the lists, one reference or one block at a time.
* `Exact`: every count is that of the references from outside, of those that are still to be dropped, and
  of those in the blocks that still have theirs. `Step.exact` says that it is kept.
* `Within`: what any number of steps leave alone.
* `forEach_freeRef`: the freeing functions drop each reference by such steps, and never fail.
-/

namespace JSChip.Gc

open RefCount

/-! ## Steps -/

namespace JSRuntime

/-- The block is put on `gc_zero_ref_count_list`. -/
def queued (rt : JSRuntime) (p : GCPtr) : JSRuntime :=
  { rt.listDel p with gcZeroRefCountList := p :: (rt.listDel p).gcZeroRefCountList }

/-- The block is not there any more. -/
def without (rt : JSRuntime) (p : GCPtr) : JSRuntime := (rt.listDel p).setHeader p none

variable {rt : JSRuntime} {p q : GCPtr}

theorem has_without : (rt.without p).has q = if q = p then false else rt.has q := by
  unfold has without
  rw [header_setHeader]
  split
  · rfl
  · rfl

theorem of_has_without (h : (rt.without p).has q = true) : q ≠ p ∧ rt.has q = true := by
  rw [has_without] at h
  split at h
  · cases h
  next hne => exact ⟨hne, h⟩

theorem header_without (h : q ≠ p) : (rt.without p).header q = rt.header q := by
  unfold without
  rw [header_setHeader, if_neg h]
  rfl

theorem refCount_without (h : rt.refCount p = 0) : (rt.without p).refCount q = rt.refCount q := by
  by_cases hq : q = p
  · subst hq
    rw [h]
    unfold refCount without
    rw [header_setHeader, if_pos rfl]
    rfl
  · unfold refCount
    rw [header_without hq]

theorem removeBlock_eq (h : rt.has p = true) : removeBlock p rt = some (rt.without p) := by
  obtain ⟨hd, hh⟩ := exists_header h
  unfold removeBlock jsFreeRt
  have hh' : (rt.listDel p).header p = some hd := hh
  rw [hh']
  rfl

end JSRuntime

/-- A state of the freeing functions: the references that have still to be dropped, and the blocks that
still have theirs. -/
structure Freeing where
  rt : JSRuntime
  pend : List GCPtr
  hold : List GCPtr

/-- What the freeing functions do. -/
inductive Step : Freeing → Freeing → Prop
  /-- The reference was not the last, or the block is left until the end of the collection. -/
  | keep {rt : JSRuntime} {pend hold : List GCPtr} {p : GCPtr} {k : ℕ} (hcount : rt.refCount p = k + 1)
      (hkeep : 0 < k ∨ rt.gcPhase = .removeCycles ∧ p.isValue = true) :
      Step ⟨rt, p :: pend, hold⟩ ⟨rt.withCount p k, pend, hold⟩
  | queue {rt : JSRuntime} {pend hold : List GCPtr} {p : GCPtr} (hcount : rt.refCount p = 1)
      (hphase : rt.gcPhase ≠ .removeCycles) (hvalue : p.isValue = true) :
      Step ⟨rt, p :: pend, hold⟩ ⟨(rt.withCount p 0).queued p, pend, hold⟩
  /-- The references of the block are to be dropped next. -/
  | release {rt : JSRuntime} {pend hold : List GCPtr} {p : GCPtr} (hcount : rt.refCount p = 1)
      (hvalue : p.isValue = false) :
      Step ⟨rt, p :: pend, hold⟩ ⟨rt.withCount p 0, rt.mem.refs p ++ pend, hold.erase p⟩
  | remove {rt : JSRuntime} {pend hold : List GCPtr} {p : GCPtr} (hhas : rt.has p = true)
      (hcount : rt.refCount p = 0) (hvalue : p.isValue = false) :
      Step ⟨rt, pend, hold⟩ ⟨rt.without p, pend, hold⟩

abbrev Steps : Freeing → Freeing → Prop := Relation.ReflTransGen Step

/-- Every count is exact, and the blocks of other types than those of values have their references as
long as they have a count. -/
structure Exact (ext : GCPtr → ℕ) (s : Freeing) : Prop where
  nodup : s.hold.Nodup
  counts : ∀ p, s.rt.refCount p = ext p + s.pend.count p + inCount s.rt.mem.refs s.hold p
  has : ∀ p ∈ s.hold, s.rt.has p = true
  held : ∀ p, p.isValue = false →
    (p ∈ s.hold ↔ 0 < s.rt.refCount p ∧ s.rt.mem.isOpen p = false)

variable {ext : GCPtr → ℕ} {s s' : Freeing}

/-- The references of a block are its own, or to be dropped. -/
theorem inCount_release {mem : Memory} {hold : List GCPtr} {p : GCPtr}
    (h : p ∈ hold ∨ mem.isOpen p = true) (q : GCPtr) :
    inCount mem.refs hold q = inCount mem.refs (hold.erase p) q + (mem.refs p).count q := by
  by_cases hp : p ∈ hold
  · exact inCount_erase hp q
  · rw [Memory.refs_of_isOpen (h.resolve_left hp), List.count_nil, List.erase_of_not_mem hp, Nat.add_zero]

/-- A block that holds nothing and has no count is gone. -/
theorem Exact.without {rt : JSRuntime} {pend hold : List GCPtr} {p : GCPtr} (h : Exact ext ⟨rt, pend, hold⟩)
    (hcount : rt.refCount p = 0) (hp : p ∉ hold) : Exact ext ⟨rt.without p, pend, hold⟩ where
  nodup := h.nodup
  counts := by
    intro q
    rw [JSRuntime.refCount_without hcount]
    exact h.counts q
  has := by
    intro q hq
    rw [JSRuntime.has_without, if_neg]
    · exact h.has q hq
    · rintro rfl
      exact hp hq
  held := by
    intro q hvalue
    rw [JSRuntime.refCount_without hcount]
    exact h.held q hvalue

theorem Step.exact (h : Exact ext s) (hstep : Step s s') : Exact ext s' := by
  cases hstep with
  | @keep rt pend hold p k hcount hkeep =>
    -- The count goes down, and what the block refers to stays held.
    have hhas : rt.has p = true := JSRuntime.has_of_refCount (by omega)
    refine ⟨h.nodup, ?_, ?_, ?_⟩
    · intro q
      have hq := h.counts q
      rw [JSRuntime.refCount_withCount hhas]
      rw [List.count_cons] at hq
      split
      next heq =>
        subst heq
        rw [if_pos (beq_self_eq_true q)] at hq
        show k = ext q + pend.count q + inCount rt.mem.refs hold q
        change rt.refCount q = ext q + (pend.count q + 1) + inCount rt.mem.refs hold q at hq
        omega
      next hne =>
        rw [if_neg (by simpa using Ne.symm hne)] at hq
        exact hq
    · intro q hq
      rw [JSRuntime.has_withCount]
      exact h.has q hq
    · intro q hvalue
      rw [JSRuntime.refCount_withCount hhas]
      refine (h.held q hvalue).trans ?_
      split
      next heq =>
        subst heq
        rcases hkeep with hk | ⟨-, hval⟩
        · have hpos : 0 < rt.refCount q := by omega
          exact and_congr_left fun _ => ⟨fun _ => hk, fun _ => hpos⟩
        · rw [hval] at hvalue
          cases hvalue
      · rfl
  | @queue rt pend hold p hcount hphase hval =>
    have hhas : rt.has p = true := JSRuntime.has_of_refCount (by omega)
    refine ⟨h.nodup, ?_, ?_, ?_⟩
    · intro q
      have hq := h.counts q
      show (rt.withCount p 0).refCount q = _
      rw [JSRuntime.refCount_withCount hhas]
      rw [List.count_cons] at hq
      split
      next heq =>
        subst heq
        rw [if_pos (beq_self_eq_true q)] at hq
        show 0 = ext q + pend.count q + inCount rt.mem.refs hold q
        change rt.refCount q = ext q + (pend.count q + 1) + inCount rt.mem.refs hold q at hq
        omega
      next hne =>
        rw [if_neg (by simpa using Ne.symm hne)] at hq
        exact hq
    · intro q hq
      show (rt.withCount p 0).has q = true
      rw [JSRuntime.has_withCount]
      exact h.has q hq
    · intro q hvalue
      show q ∈ hold ↔ 0 < (rt.withCount p 0).refCount q ∧ _
      rw [JSRuntime.refCount_withCount hhas, if_neg]
      · exact h.held q hvalue
      · rintro rfl
        rw [hval] at hvalue
        cases hvalue
  | @release rt pend hold p hcount hval =>
    have hhas : rt.has p = true := JSRuntime.has_of_refCount (by omega)
    -- What the block refers to is pending from here on.
    have hhold : p ∈ hold ∨ rt.mem.isOpen p = true := by
      cases hopen : rt.mem.isOpen p with
      | false => exact .inl ((h.held p hval).mpr ⟨by show 0 < rt.refCount p; omega, hopen⟩)
      | true => exact .inr rfl
    refine ⟨h.nodup.erase p, ?_, ?_, ?_⟩
    · intro q
      have hq := h.counts q
      have hrel := inCount_release hhold q
      rw [JSRuntime.refCount_withCount hhas]
      rw [List.count_cons] at hq
      show _ = ext q + (rt.mem.refs p ++ pend).count q + inCount rt.mem.refs (hold.erase p) q
      rw [List.count_append]
      change rt.refCount q = ext q + (pend.count q + _) + inCount rt.mem.refs hold q at hq
      split
      next heq =>
        subst heq
        rw [if_pos (beq_self_eq_true q)] at hq
        omega
      next hne =>
        rw [if_neg (by simpa using Ne.symm hne)] at hq
        omega
    · intro q hq
      rw [JSRuntime.has_withCount]
      exact h.has q (List.mem_of_mem_erase hq)
    · intro q hvalue
      show q ∈ hold.erase p ↔ _
      rw [JSRuntime.refCount_withCount hhas, h.nodup.mem_erase_iff]
      split
      next heq =>
        subst heq
        exact ⟨fun hq => absurd rfl hq.1, fun hq => absurd hq.1 (Nat.lt_irrefl 0)⟩
      next hne =>
        rw [h.held q hvalue]
        exact ⟨fun hq => hq.2, fun hq => ⟨hne, hq⟩⟩
  | @remove rt pend hold p hhas hcount hval =>
    refine h.without hcount fun hp => ?_
    have hpos := ((h.held p hval).mp hp).1
    change 0 < rt.refCount p at hpos
    omega

/-- **What every step keeps, given that the counts are exact, any number of steps keep.** -/
theorem Steps.induct {I : Freeing → Prop} (hI : ∀ s s', Exact ext s → I s → Step s s' → I s')
    (hs : Exact ext s) (h : I s) (hsteps : Steps s s') : Exact ext s' ∧ I s' := by
  induction hsteps with
  | refl => exact ⟨hs, h⟩
  | tail _ hstep ih => exact ⟨hstep.exact ih.1, hI _ _ ih.1 ih.2 hstep⟩

/-- The references of a value that has none to it any more are to be dropped. -/
theorem Exact.transfer {rt : JSRuntime} {pend hold : List GCPtr} {p : GCPtr} (h : Exact ext ⟨rt, pend, hold⟩)
    (hp : p ∈ hold) (hvalue : p.isValue = true) :
    Exact ext ⟨rt, rt.mem.refs p ++ pend, hold.erase p⟩ where
  nodup := h.nodup.erase p
  counts := by
    intro q
    have hq := h.counts q
    change rt.refCount q = ext q + pend.count q + inCount rt.mem.refs hold q at hq
    show rt.refCount q = ext q + (rt.mem.refs p ++ pend).count q + inCount rt.mem.refs (hold.erase p) q
    rw [List.count_append, hq, inCount_erase hp]
    omega
  has q hq := h.has q (List.mem_of_mem_erase hq)
  held := by
    intro q hq
    rw [← h.held q hq]
    refine List.mem_erase_of_ne ?_
    rintro rfl
    rw [hvalue] at hq
    cases hq

/-! ## The functions take such steps -/

/-- A block that is not a value is not touched while it has no count, and none comes to be without one. -/
structure Spares (rt rt' : JSRuntime) : Prop where
  untouched : ∀ q, q.isValue = false → rt.refCount q = 0 → rt'.header q = rt.header q
  counted : ∀ q, q.isValue = false → rt'.has q = true → rt'.refCount q = 0 → rt.refCount q = 0

theorem Spares.refl (rt : JSRuntime) : Spares rt rt := ⟨fun _ _ _ => rfl, fun _ _ _ h => h⟩

theorem Spares.refCount_eq {rt rt' : JSRuntime} {q : GCPtr} (h : Spares rt rt') (hq : q.isValue = false)
    (hzero : rt.refCount q = 0) : rt'.has q = rt.has q ∧ rt'.refCount q = 0 := by
  have hheader := h.untouched q hq hzero
  constructor
  · rw [JSRuntime.has, hheader, ← JSRuntime.has]
  · rw [JSRuntime.refCount, hheader]
    exact hzero

theorem Spares.trans {rt rt₁ rt₂ : JSRuntime} (h : Spares rt rt₁) (h' : Spares rt₁ rt₂) : Spares rt rt₂ where
  untouched q hq hzero := by rw [h'.untouched q hq (h.refCount_eq hq hzero).2, h.untouched q hq hzero]
  counted := by
    intro q hq hhas hzero
    have hzero₁ := h'.counted q hq hhas hzero
    refine h.counted q hq ?_ hzero₁
    rwa [← (h'.refCount_eq hq hzero₁).1]

/-- The functions that drop the references come to `rt'`. -/
structure Dropped (rt : JSRuntime) (rs pend hold : List GCPtr) (rt' : JSRuntime) (hold' : List GCPtr) :
    Prop where
  steps : Steps ⟨rt, rs ++ pend, hold⟩ ⟨rt', pend, hold'⟩
  spares : Spares rt rt'

theorem Dropped.nil (rt : JSRuntime) (pend hold : List GCPtr) : Dropped rt [] pend hold rt hold :=
  ⟨.refl, .refl rt⟩

/-- **One after the other.** -/
theorem Dropped.append {rt rt₁ rt₂ : JSRuntime} {rs rs' pend hold hold₁ hold₂ : List GCPtr}
    (h : Dropped rt rs (rs' ++ pend) hold rt₁ hold₁) (h' : Dropped rt₁ rs' pend hold₁ rt₂ hold₂) :
    Dropped rt (rs ++ rs') pend hold rt₂ hold₂ where
  steps := by
    rw [List.append_assoc]
    exact h.steps.trans h'.steps
  spares := h.spares.trans h'.spares

/-- What is claimed of the function that drops one reference. -/
def Drops (ext : GCPtr → ℕ) (r : GCPtr) : Prop :=
  ∀ rt pend hold, Exact ext ⟨rt, r :: pend, hold⟩ →
    ∃ rt' hold', freeRef zeroRefCount r rt = some rt' ∧ Dropped rt [r] pend hold rt' hold'

theorem forEach_drops {rs : List GCPtr} (hrs : ∀ r ∈ rs, Drops ext r) {rt : JSRuntime}
    {pend hold : List GCPtr} (h : Exact ext ⟨rt, rs ++ pend, hold⟩) :
    ∃ rt' hold', forEach (freeRef zeroRefCount) rs rt = some rt' ∧ Dropped rt rs pend hold rt' hold' := by
  induction rs generalizing rt hold with
  | nil => exact ⟨rt, hold, rfl, .nil rt pend hold⟩
  | cons r rs ih =>
    obtain ⟨rt₁, hold₁, hrt₁, h₁⟩ := hrs r List.mem_cons_self rt (rs ++ pend) hold h
    have hex := (Steps.induct (I := fun _ => True) (fun _ _ _ _ _ => trivial) h trivial h₁.steps).1
    obtain ⟨rt₂, hold₂, hrt₂, h₂⟩ := ih (fun q hq => hrs q (List.mem_cons_of_mem r hq)) hex
    refine ⟨rt₂, hold₂, ?_, h₁.append h₂⟩
    rw [forEach_cons, hrt₁]
    exact hrt₂

variable {rt : JSRuntime} {pend hold : List GCPtr} {r : GCPtr} {k : ℕ}

theorem drop_eq (h : rt.refCount r = k + 1) (onZero : JSRuntime → Option JSRuntime) :
    rt.drop r onZero = if k = 0 then onZero (rt.withCount r k) else some (rt.withCount r k) := by
  unfold JSRuntime.drop
  rw [JSRuntime.decRef_eq h]
  rfl

/-- The reference to be dropped is counted. -/
theorem Exact.refCount_pos (h : Exact ext ⟨rt, r :: pend, hold⟩) : ∃ k, rt.refCount r = k + 1 := by
  have hr := h.counts r
  change rt.refCount r = ext r + (r :: pend).count r + inCount rt.mem.refs hold r at hr
  rw [List.count_cons_self] at hr
  exact ⟨rt.refCount r - 1, by omega⟩

/-- The header of another block is not touched, and its count is not. -/
theorem Spares.withCount (hr : rt.refCount r = k + 1) (hk : r.isValue = true ∨ 0 < k) {rt' : JSRuntime}
    (hheader : rt'.header = (rt.withCount r k).header) : Spares rt rt' where
  untouched := by
    intro q hq hzero
    rw [hheader, JSRuntime.header_withCount]
    rintro rfl
    omega
  counted := by
    intro q hq _ hzero
    have hhas : rt.has r = true := JSRuntime.has_of_refCount (by omega)
    rw [JSRuntime.refCount, hheader, ← JSRuntime.refCount, JSRuntime.refCount_withCount hhas] at hzero
    split at hzero
    next heq =>
      subst heq
      rcases hk with hval | hk
      · rw [hval] at hq
        cases hq
      · omega
    · exact hzero

/-- A block that had its last reference is gone, after what it referred to. -/
theorem Spares.without (hr : rt.refCount r = 1) {rt' : JSRuntime} (h : Spares (rt.withCount r 0) rt')
    (hcount : rt'.refCount r = 0) : Spares rt (rt'.without r) where
  untouched := by
    intro q hq hzero
    have hne : q ≠ r := by
      rintro rfl
      omega
    have hhas : rt.has r = true := JSRuntime.has_of_refCount (by omega)
    rw [JSRuntime.header_without hne, h.untouched q hq, JSRuntime.header_withCount hne]
    rw [JSRuntime.refCount_withCount hhas, if_neg hne, hzero]
  counted := by
    intro q hq hhas' hzero
    have hhas : rt.has r = true := JSRuntime.has_of_refCount (by omega)
    obtain ⟨hne, hhas'⟩ := JSRuntime.of_has_without hhas'
    rw [JSRuntime.refCount_without hcount] at hzero
    have hzero' := h.counted q hq hhas' hzero
    rwa [JSRuntime.refCount_withCount hhas, if_neg hne] at hzero'

/-- A value is gone. -/
theorem Spares.without_value (hvalue : r.isValue = true) (hcount : rt.refCount r = 0) :
    Spares rt (rt.without r) where
  untouched := by
    intro q hq _
    apply JSRuntime.header_without
    rintro rfl
    rw [hvalue] at hq
    cases hq
  counted := by
    intro q _ _ hzero
    rwa [JSRuntime.refCount_without hcount] at hzero

theorem Dropped.of_withCount (hr : rt.refCount r = k + 1) (hk : r.isValue = true ∨ 0 < k)
    {rt' : JSRuntime} (hheader : rt'.header = (rt.withCount r k).header)
    (hstep : Step ⟨rt, r :: pend, hold⟩ ⟨rt', pend, hold⟩) : Dropped rt [r] pend hold rt' hold :=
  ⟨.single hstep, .withCount hr hk hheader⟩

theorem drops_value (hvalue : r.isValue = true) : Drops ext r := by
  intro rt pend hold h
  obtain ⟨k, hk⟩ := h.refCount_pos
  rw [freeRef_value hvalue, drop_eq hk]
  split
  next hzero =>
    subst hzero
    unfold zeroRefCount
    split
    next hphase =>
      exact ⟨_, hold, rfl, .of_withCount hk (.inl hvalue) rfl (.keep hk (.inr ⟨hphase, hvalue⟩))⟩
    next hphase =>
      exact ⟨_, hold, rfl, .of_withCount hk (.inl hvalue) rfl (.queue hk hphase hvalue)⟩
  next hpos =>
    exact ⟨_, hold, rfl, .of_withCount hk (.inl hvalue) rfl (.keep hk (.inl (Nat.pos_of_ne_zero hpos)))⟩

/-- A block that is not of a value: its own references are to blocks of a lower rank. -/
theorem drops_block (hvalue : r.isValue = false) (hrefs : ∀ q, q.rank < r.rank → Drops ext q) :
    Drops ext r := by
  intro rt pend hold h
  obtain ⟨k, hk⟩ := h.refCount_pos
  rw [freeRef_eq hvalue, drop_eq hk]
  split
  next hzero =>
    subst hzero
    have hhas : rt.has r = true := JSRuntime.has_of_refCount (by omega)
    have hstep : Step ⟨rt, r :: pend, hold⟩ ⟨rt.withCount r 0, rt.mem.refs r ++ pend, hold.erase r⟩ :=
      .release hk hvalue
    obtain ⟨rt₁, hold₁, hrt₁, h₁⟩ := forEach_drops
      (fun q hq => hrefs q (rank_lt_of_mem_refs hvalue hq)) (hstep.exact h)
    -- The block itself has not been touched meanwhile.
    have hcount : (rt.withCount r 0).refCount r = 0 := by rw [JSRuntime.refCount_withCount hhas, if_pos rfl]
    obtain ⟨hhas₁, hcount₁⟩ := h₁.spares.refCount_eq hvalue hcount
    rw [JSRuntime.has_withCount, hhas] at hhas₁
    refine ⟨rt₁.without r, hold₁, ?_, ?_, h₁.spares.without hk hcount₁⟩
    · show (forEach (freeRef zeroRefCount) (rt.mem.refs r) (rt.withCount r 0)).bind _ = _
      rw [hrt₁]
      exact JSRuntime.removeBlock_eq hhas₁
    · exact (Relation.ReflTransGen.head hstep h₁.steps).tail (.remove hhas₁ hcount₁ hvalue)
  next hpos =>
    exact ⟨_, hold, rfl, .of_withCount hk (.inr (Nat.pos_of_ne_zero hpos)) rfl
      (.keep hk (.inl (Nat.pos_of_ne_zero hpos)))⟩

/-- **The function that drops a reference never fails**, whatever it is to. -/
theorem drops (ext : GCPtr → ℕ) (r : GCPtr) : Drops ext r := by
  induction hn : r.rank using Nat.strongRecOn generalizing r with
  | ind n ih =>
    cases hvalue : r.isValue with
    | true => exact drops_value hvalue
    | false => exact drops_block hvalue fun q hq => ih q.rank (hn ▸ hq) q rfl

/-- **To free a block is to drop its references by steps.** -/
theorem forEach_freeRef {rs : List GCPtr} (h : Exact ext ⟨rt, rs ++ pend, hold⟩) :
    ∃ rt' hold', forEach (freeRef zeroRefCount) rs rt = some rt' ∧ Dropped rt rs pend hold rt' hold' :=
  forEach_drops (fun r _ => drops ext r) h

/-! ## What the steps leave alone -/

/-- What any number of steps make of a state has less than it. -/
structure Within (s₀ s : Freeing) : Prop where
  mem : s.rt.mem = s₀.rt.mem
  phase : s.rt.gcPhase = s₀.rt.gcPhase
  hold : s.hold.Sublist s₀.hold
  gc : s.rt.gcObjList.Sublist s₀.rt.gcObjList
  tmp : s.rt.tmpObjList.Sublist s₀.rt.tmpObjList
  has : ∀ q, s.rt.has q = true → s₀.rt.has q = true
  value : ∀ q, q.isValue = true → s.rt.has q = s₀.rt.has q
  heldValue : ∀ q, q.isValue = true → q ∈ s₀.hold → q ∈ s.hold
  le : ∀ q, s.rt.refCount q ≤ s₀.rt.refCount q
  unmarked : ∀ q, s₀.rt.marked q = false → s.rt.marked q = false

theorem Within.refl (s : Freeing) : Within s s :=
  ⟨rfl, rfl, .refl _, .refl _, .refl _, fun _ h => h, fun _ _ => rfl, fun _ _ h => h,
    fun _ => Nat.le_refl _, fun _ h => h⟩

theorem Within.trans {s₀ s₁ s₂ : Freeing} (h : Within s₀ s₁) (h' : Within s₁ s₂) : Within s₀ s₂ where
  mem := h'.mem.trans h.mem
  phase := h'.phase.trans h.phase
  hold := h'.hold.trans h.hold
  gc := h'.gc.trans h.gc
  tmp := h'.tmp.trans h.tmp
  has q hq := h.has q (h'.has q hq)
  value q hq := (h'.value q hq).trans (h.value q hq)
  heldValue q hq hmem := h'.heldValue q hq (h.heldValue q hq hmem)
  le q := Nat.le_trans (h'.le q) (h.le q)
  unmarked q hq := h'.unmarked q (h.unmarked q hq)

/-- A count that goes down. -/
theorem refCount_withCount_le {q : GCPtr} (hr : rt.refCount r = k + 1) :
    (rt.withCount r k).refCount q ≤ rt.refCount q := by
  rw [JSRuntime.refCount_withCount (JSRuntime.has_of_refCount (by omega))]
  split
  next heq =>
    subst heq
    omega
  · exact Nat.le_refl _

theorem marked_without {q : GCPtr} (h : rt.marked q = false) : (rt.without r).marked q = false := by
  by_cases hq : q = r
  · unfold JSRuntime.marked JSRuntime.without
    rw [JSRuntime.header_setHeader, if_pos hq]
    rfl
  · rw [JSRuntime.marked, JSRuntime.header_without hq]
    exact h

theorem Step.within (hstep : Step s s') : Within s s' := by
  cases hstep with
  | keep hcount hkeep =>
    exact ⟨rfl, rfl, .refl _, .refl _, .refl _,
      fun q hq => by rwa [JSRuntime.has_withCount] at hq, fun q _ => JSRuntime.has_withCount,
      fun _ _ h => h, fun _ => refCount_withCount_le hcount,
      fun q hq => by rwa [JSRuntime.marked_withCount]⟩
  | queue hcount hphase hvalue =>
    exact ⟨rfl, rfl, .refl _, List.erase_sublist, List.erase_sublist,
      fun q hq => JSRuntime.has_withCount.symm.trans hq, fun q _ => JSRuntime.has_withCount,
      fun _ _ h => h, fun _ => refCount_withCount_le hcount,
      fun q hq => JSRuntime.marked_withCount.trans hq⟩
  | @release rt pend hold p hcount hvalue =>
    refine ⟨rfl, rfl, List.erase_sublist, .refl _, .refl _,
      fun q hq => by rwa [JSRuntime.has_withCount] at hq, fun q _ => JSRuntime.has_withCount,
      fun q hq hmem => ?_, fun _ => refCount_withCount_le hcount,
      fun q hq => by rwa [JSRuntime.marked_withCount]⟩
    refine (List.mem_erase_of_ne ?_).mpr hmem
    rintro rfl
    rw [hvalue] at hq
    cases hq
  | @remove rt pend hold p hhas hcount hvalue =>
    refine ⟨rfl, rfl, .refl _, List.erase_sublist, List.erase_sublist,
      fun q hq => (JSRuntime.of_has_without hq).2, fun q hq => ?_, fun _ _ h => h, fun q => ?_,
      fun q hq => marked_without hq⟩
    · rw [JSRuntime.has_without, if_neg]
      rintro rfl
      rw [hvalue] at hq
      cases hq
    · exact Nat.le_of_eq (JSRuntime.refCount_without hcount)

theorem Steps.within (hsteps : Steps s s') : Within s s' := by
  induction hsteps with
  | refl => exact .refl s
  | tail _ hstep ih => exact ih.trans hstep.within

end JSChip.Gc
