import JSChip.Proof.GcFree
import JSChip.Spec.Runtime

/-!
# Freeing what has no references left

* `Zeroing`: the lists while `free_zero_refcount` goes on: on `gc_zero_ref_count_list` are the values
  whose count has come to zero, and on `gc_obj_list` the other blocks.
* `freeZeroRefcount_ok`: it comes to an end, and every count is exact then.
* `Settled`: the lists between two such loops, while a shape, a variable or a context is being freed.
* `jsFreeRef_ok`: to drop a reference from outside never fails.
-/

namespace JSChip.Gc

open RefCount

variable {ext : GCPtr → ℕ} {s s' : Freeing} {rt rt' : JSRuntime} {pend pend' hold hold' : List GCPtr}
  {p q r : GCPtr} {k : ℕ}

/-! ## The lists -/

structure Zeroing (rt : JSRuntime) : Prop where
  phase : rt.gcPhase = .decref
  tmp : rt.tmpObjList = []
  nodup : rt.gcObjList.Nodup
  nodupZero : rt.gcZeroRefCountList.Nodup
  gc : ∀ q, q ∈ rt.gcObjList ↔
    rt.has q = true ∧ rt.mem.isOpen q = false ∧ (q.isValue = true → 0 < rt.refCount q)
  zero : ∀ q, q ∈ rt.gcZeroRefCountList ↔ rt.has q = true ∧ q.isValue = true ∧ rt.refCount q = 0

/-- A list that has what it had, but for a block that is gone. -/
theorem mem_erase_without {l : List GCPtr} (hnodup : l.Nodup) {C : GCPtr → Prop}
    (h : ∀ q, q ∈ l ↔ rt.has q = true ∧ C q) :
    q ∈ l.erase p ↔ (rt.without p).has q = true ∧ C q := by
  rw [hnodup.mem_erase_iff, h, JSRuntime.has_without]
  split
  next heq => exact ⟨fun hq => absurd heq hq.1, fun hq => absurd hq.1 Bool.false_ne_true⟩
  next hne => exact ⟨fun hq => hq.2, fun hq => ⟨hne, hq⟩⟩

/-- The block is taken off the lists and freed. -/
theorem Zeroing.without (h : Zeroing rt) (hcount : rt.refCount p = 0) : Zeroing (rt.without p) where
  phase := h.phase
  tmp := by
    show rt.tmpObjList.erase p = []
    rw [h.tmp]
    rfl
  nodup := h.nodup.erase p
  nodupZero := h.nodupZero.erase p
  gc := by
    intro q
    rw [JSRuntime.refCount_without hcount]
    exact mem_erase_without h.nodup h.gc
  zero := by
    intro q
    rw [JSRuntime.refCount_without hcount]
    exact mem_erase_without h.nodupZero h.zero

/-- A value whose count has come to zero goes to the other list. -/
theorem Zeroing.queued (h : Zeroing rt) (hcount : rt.refCount p = 1) (hvalue : p.isValue = true) :
    Zeroing ((rt.withCount p 0).queued p) := by
  have hhas : rt.has p = true := JSRuntime.has_of_refCount (by omega)
  have hnot : p ∉ rt.gcZeroRefCountList := by
    rw [h.zero]
    rintro ⟨-, -, hzero⟩
    omega
  have herase : rt.gcZeroRefCountList.erase p = rt.gcZeroRefCountList := List.erase_of_not_mem hnot
  have hcount' : ∀ q, ((rt.withCount p 0).queued p).refCount q = if q = p then 0 else rt.refCount q :=
    fun q => JSRuntime.refCount_withCount hhas
  have hhas' : ∀ q, ((rt.withCount p 0).queued p).has q = rt.has q := fun q => JSRuntime.has_withCount
  refine ⟨h.phase, ?_, h.nodup.erase p, ?_, ?_, ?_⟩
  · show rt.tmpObjList.erase p = []
    rw [h.tmp]
    rfl
  · show (p :: rt.gcZeroRefCountList.erase p).Nodup
    rw [herase]
    exact List.nodup_cons.mpr ⟨hnot, h.nodupZero⟩
  · intro q
    show q ∈ rt.gcObjList.erase p ↔ _
    rw [h.nodup.mem_erase_iff, h.gc, hhas', hcount']
    split
    next heq =>
      subst heq
      exact ⟨fun hq => absurd rfl hq.1, fun hq => absurd (hq.2.2 hvalue) (Nat.lt_irrefl 0)⟩
    next hne => exact ⟨fun hq => hq.2, fun hq => ⟨hne, hq⟩⟩
  · intro q
    show q ∈ p :: rt.gcZeroRefCountList.erase p ↔ _
    rw [herase, List.mem_cons, h.zero, hhas', hcount']
    split
    next heq =>
      subst heq
      exact ⟨fun _ => ⟨hhas, hvalue, rfl⟩, fun _ => .inl rfl⟩
    next hne => exact ⟨fun hq => hq.resolve_left hne, .inr⟩

/-- A count that does not come to zero, or not that of a value. -/
theorem Zeroing.withCount (h : Zeroing rt) {k : ℕ} (hcount : rt.refCount p = k + 1)
    (hk : 0 < k ∨ p.isValue = false) : Zeroing (rt.withCount p k) := by
  have hhas : rt.has p = true := JSRuntime.has_of_refCount (by omega)
  refine ⟨h.phase, h.tmp, h.nodup, h.nodupZero, ?_, ?_⟩
  · intro q
    show q ∈ rt.gcObjList ↔ _
    rw [h.gc, JSRuntime.has_withCount, JSRuntime.refCount_withCount hhas]
    refine and_congr_right fun _ => and_congr_right fun _ => ?_
    split
    next heq =>
      subst heq
      rcases hk with hk | hval
      · exact ⟨fun _ _ => hk, fun _ _ => by omega⟩
      · rw [hval]
        exact ⟨fun _ h => absurd h Bool.false_ne_true, fun _ h => absurd h Bool.false_ne_true⟩
    · rfl
  · intro q
    show q ∈ rt.gcZeroRefCountList ↔ _
    rw [h.zero, JSRuntime.has_withCount, JSRuntime.refCount_withCount hhas]
    refine and_congr_right fun _ => and_congr_right fun hval' => ?_
    split
    next heq =>
      subst heq
      rcases hk with hk | hval
      · exact ⟨fun h => by omega, fun h => by omega⟩
      · rw [hval] at hval'
        cases hval'
    · rfl

theorem Step.zeroing (h : Zeroing s.rt) (hstep : Step s s') : Zeroing s'.rt := by
  cases hstep with
  | keep hcount hkeep =>
    refine h.withCount hcount (.inl (hkeep.resolve_right ?_))
    rintro ⟨hphase, -⟩
    have hdecref : GCPhase.decref = .removeCycles := h.phase.symm.trans hphase
    cases hdecref
  | queue hcount _ hvalue => exact h.queued hcount hvalue
  | release hcount hvalue => exact h.withCount hcount (.inr hvalue)
  | remove _ hcount _ => exact h.without hcount

/-! ## The loop -/

/-- What is left after blocks have been freed. -/
structure Left (rt rt' : JSRuntime) : Prop where
  mem : rt'.mem = rt.mem
  has : ∀ q, rt'.has q = true → rt.has q = true
  spares : Spares rt rt'

theorem Left.trans {rt₁ : JSRuntime} (h : Left rt rt₁) (h' : Left rt₁ rt') : Left rt rt' :=
  ⟨h'.mem.trans h.mem, fun q hq => h.has q (h'.has q hq), h.spares.trans h'.spares⟩

/-- Between the rounds of the loop. The references of `pend` have still to be dropped when it is done. -/
structure Zeroed (ext : GCPtr → ℕ) (rt : JSRuntime) (pend hold : List GCPtr) : Prop where
  exact : Exact ext ⟨rt, pend, hold⟩
  lists : Zeroing rt
  values : ∀ q, q.isValue = true → rt.has q = true → q ∈ hold
  unmarked : ∀ q, rt.marked q = false
  exports : ∀ n, rt.has (.context n) = true → rt.mem.ExportsDetached n

/-- The blocks that have references are on one of the lists. -/
theorem Zeroed.length_lt_fuel (h : Zeroed ext rt pend hold) : hold.length < rt.fuel := by
  have hsub : hold ⊆ rt.gcObjList ++ rt.gcZeroRefCountList := by
    intro q hq
    have hhas := h.exact.has q hq
    rw [List.mem_append, h.lists.gc, h.lists.zero]
    cases hvalue : q.isValue with
    | false => exact .inl ⟨hhas, ((h.exact.held q hvalue).mp hq).2, fun h => absurd h Bool.false_ne_true⟩
    | true =>
      rcases Nat.eq_zero_or_pos (rt.refCount q) with hzero | hpos
      · exact .inr ⟨hhas, rfl, hzero⟩
      · exact .inl ⟨hhas, Memory.isOpen_of_isValue hvalue, fun _ => hpos⟩
  have hle : hold.length ≤ _ := h.exact.nodup.length_le_of_subset hsub
  rw [List.length_append] at hle
  unfold JSRuntime.fuel
  omega

/-- A round of the loop: the first block on the list is freed. -/
theorem freeZero_round (h : Zeroed ext rt pend hold) (hp : p ∈ rt.gcZeroRefCountList) :
    ∃ rt' hold', freeGcObject p rt = some rt' ∧ Zeroed ext rt' pend hold' ∧ hold'.length < hold.length ∧
      Left rt rt' := by
  obtain ⟨hhas, hvalue, hzero⟩ := (h.lists.zero p).mp hp
  have hmem := h.values p hvalue hhas
  have hex := h.exact.transfer hmem hvalue
  obtain ⟨rt₁, hold₁, hrt₁, h₁⟩ := forEach_freeRef hex
  obtain ⟨hex₁, hlists₁⟩ := Steps.induct (I := fun s => Zeroing s.rt) (fun s s' _ hI hstep => hstep.zeroing hI)
    hex h.lists h₁.steps
  have hwithin := h₁.steps.within
  have hhas₁ : rt₁.has p = true := (hwithin.value p hvalue).trans hhas
  have hzero₁ : rt₁.refCount p = 0 := Nat.le_zero.mp (hzero ▸ hwithin.le p)
  have hnot : p ∉ hold₁ := fun hin => (h.exact.nodup.mem_erase_iff.mp (hwithin.hold.subset hin)).1 rfl
  -- The block is held no longer: this is what the loop ends by.
  have hlength : hold₁.length < hold.length := by
    have hle := hwithin.hold.length_le
    have hpos := List.length_pos_of_mem hmem
    change hold₁.length ≤ (hold.erase p).length at hle
    rw [List.length_erase_of_mem hmem] at hle
    omega
  have hback : ∀ q, (rt₁.without p).has q = true → q ≠ p ∧ rt₁.has q = true := fun q =>
    JSRuntime.of_has_without
  refine ⟨rt₁.without p, hold₁, ?_, ⟨?_, hlists₁.without hzero₁, ?_, ?_, ?_⟩, hlength, hwithin.mem, ?_, ?_⟩
  · rw [freeGcObject_eq hvalue, hrt₁]
    obtain ⟨hd, hhd⟩ := JSRuntime.exists_header hhas₁
    show removeObject p rt₁ = _
    have hphase : ¬ (rt₁.gcPhase = .removeCycles ∧ hd.refCount ≠ 0) := by
      rw [hlists₁.phase]
      rintro ⟨hphase, -⟩
      cases hphase
    unfold removeObject
    rw [hhd]
    exact (if_neg hphase).trans (JSRuntime.removeBlock_eq hhas₁)
  · exact hex₁.without hzero₁ hnot
  · intro q hq hhasq
    obtain ⟨hne, hhasq⟩ := hback q hhasq
    exact hwithin.heldValue q hq
      ((List.mem_erase_of_ne hne).mpr (h.values q hq (hwithin.has q hhasq)))
  · exact fun q => marked_without (hwithin.unmarked q (h.unmarked q))
  · intro n hn
    show rt₁.mem.ExportsDetached n
    rw [hwithin.mem]
    exact h.exports n (hwithin.has _ (hback _ hn).2)
  · exact fun q hq => hwithin.has q (hback q hq).2
  · exact h₁.spares.trans (.without_value hvalue hzero₁)

theorem freeZeroLoop_ok {fuel : ℕ} (hfuel : hold.length < fuel) (h : Zeroed ext rt pend hold) :
    ∃ rt' hold', freeZeroLoop fuel rt = some rt' ∧ Zeroed ext rt' pend hold' ∧ rt'.gcZeroRefCountList = [] ∧
      Left rt rt' := by
  induction fuel generalizing rt hold with
  | zero => exact absurd hfuel (Nat.not_lt_zero _)
  | succ fuel ih =>
    cases hlist : rt.gcZeroRefCountList with
    | nil =>
      refine ⟨rt, hold, ?_, h, hlist, rfl, fun _ hq => hq, .refl rt⟩
      unfold freeZeroLoop
      rw [hlist]
    | cons p rest =>
      have hp : p ∈ rt.gcZeroRefCountList := by
        rw [hlist]
        exact List.mem_cons_self
      obtain ⟨hhas, -, hzero⟩ := (h.lists.zero p).mp hp
      obtain ⟨hd, hhd⟩ := JSRuntime.exists_header hhas
      obtain ⟨rt₁, hold₁, hrt₁, h₁, hlength, hleft₁⟩ := freeZero_round h hp
      obtain ⟨rt₂, hold₂, hrt₂, h₂, hnil, hleft₂⟩ := ih (by omega) h₁
      refine ⟨rt₂, hold₂, ?_, h₂, hnil, hleft₁.trans hleft₂⟩
      unfold freeZeroLoop
      simp only [hlist, hhd]
      show (if hd.refCount ≠ 0 then none else (freeGcObject p rt).bind _) = _
      rw [← JSRuntime.refCount_eq hhd, if_neg (not_not.mpr hzero), hrt₁]
      exact hrt₂

/-! ## Between two loops -/

/-- No phase is on, and the references of `pend` have still to be dropped. A block that is in the middle of
being freed has no count, and is on `gc_obj_list` still. -/
structure Settled (ext : GCPtr → ℕ) (rt : JSRuntime) (pend hold : List GCPtr) : Prop where
  exact : Exact ext ⟨rt, pend, hold⟩
  phase : rt.gcPhase = .none
  zero : rt.gcZeroRefCountList = []
  tmp : rt.tmpObjList = []
  nodup : rt.gcObjList.Nodup
  listed : ∀ q, q ∈ rt.gcObjList ↔ rt.has q = true ∧ rt.mem.isOpen q = false
  values : ∀ q, q.isValue = true → rt.has q = true → q ∈ hold
  positive : ∀ q, q.isValue = true → rt.has q = true → 0 < rt.refCount q
  unmarked : ∀ q, rt.marked q = false
  exports : ∀ n, rt.has (.context n) = true → rt.mem.ExportsDetached n

/-- When nothing is left to free, the values that are there have a count. -/
theorem Zeroed.settled (h : Zeroed ext rt pend hold) (hnil : rt.gcZeroRefCountList = []) :
    Settled ext { rt with gcPhase := .none } pend hold := by
  have hpositive : ∀ q, q.isValue = true → rt.has q = true → 0 < rt.refCount q := by
    intro q hvalue hhas
    refine Nat.pos_of_ne_zero fun h0 => ?_
    have hin := (h.lists.zero q).mpr ⟨hhas, hvalue, h0⟩
    rw [hnil] at hin
    cases hin
  refine ⟨⟨h.exact.nodup, h.exact.counts, h.exact.has, h.exact.held⟩, rfl, hnil, h.lists.tmp, h.lists.nodup,
    fun q => ?_, h.values, hpositive, h.unmarked, h.exports⟩
  show q ∈ rt.gcObjList ↔ rt.has q = true ∧ rt.mem.isOpen q = false
  rw [h.lists.gc]
  exact ⟨fun hq => ⟨hq.1, hq.2.1⟩, fun hq => ⟨hq.1, hq.2, fun hvalue => hpositive q hvalue hq.1⟩⟩

/-- **`free_zero_refcount` comes to an end**, and every count is exact then. -/
theorem freeZeroRefcount_ok (h : Zeroed ext { rt with gcPhase := .decref } pend hold) :
    ∃ rt' hold', freeZeroRefcount rt = some rt' ∧ Settled ext rt' pend hold' ∧ Left rt rt' := by
  obtain ⟨rt₁, hold₁, hrt₁, h₁, hnil, hleft⟩ := freeZeroLoop_ok h.length_lt_fuel h
  have hleft' : Left rt { rt₁ with gcPhase := .none } :=
    ⟨hleft.mem, hleft.has, hleft.spares.untouched, hleft.spares.counted⟩
  refine ⟨{ rt₁ with gcPhase := .none }, hold₁, ?_, h₁.settled hnil, hleft'⟩
  show (freeZeroLoop rt.fuel _).bind _ = _
  have hfuel : rt.fuel = JSRuntime.fuel { rt with gcPhase := .decref } := rfl
  rw [hfuel, hrt₁]
  rfl

/-- A count goes down, and that of no value to zero. -/
theorem Settled.withCount (h : Settled ext rt pend hold) (hr : rt.has r = true) (hk : 0 < k ∨ r.isValue = false)
    (hstep : Step ⟨rt, pend, hold⟩ ⟨rt.withCount r k, pend', hold'⟩) :
    Settled ext (rt.withCount r k) pend' hold' where
  exact := hstep.exact h.exact
  phase := h.phase
  zero := h.zero
  tmp := h.tmp
  nodup := h.nodup
  listed q := by
    rw [JSRuntime.has_withCount]
    exact h.listed q
  values q hvalue hq := by
    rw [JSRuntime.has_withCount] at hq
    exact hstep.within.heldValue q hvalue (h.values q hvalue hq)
  positive q hvalue hq := by
    rw [JSRuntime.has_withCount] at hq
    rw [JSRuntime.refCount_withCount hr]
    split
    next heq =>
      subst heq
      refine hk.resolve_right fun hnot => ?_
      rw [hvalue] at hnot
      cases hnot
    · exact h.positive q hvalue hq
  unmarked q := by rw [JSRuntime.marked_withCount, h.unmarked]
  exports n hn := by
    rw [JSRuntime.has_withCount] at hn
    exact h.exports n hn

/-- A block is gone whose references have all been dropped. -/
theorem Settled.without (h : Settled ext rt pend hold) (hvalue : r.isValue = false) (hhas : rt.has r = true)
    (hcount : rt.refCount r = 0) : Settled ext (rt.without r) pend hold where
  exact := (Step.remove hhas hcount hvalue).exact h.exact
  phase := h.phase
  zero := by
    show rt.gcZeroRefCountList.erase r = []
    rw [h.zero]
    rfl
  tmp := by
    show rt.tmpObjList.erase r = []
    rw [h.tmp]
    rfl
  nodup := h.nodup.erase r
  listed q := mem_erase_without h.nodup h.listed
  values q hq hhasq := h.values q hq (JSRuntime.of_has_without hhasq).2
  positive q hq hhasq := by
    rw [JSRuntime.refCount_without hcount]
    exact h.positive q hq (JSRuntime.of_has_without hhasq).2
  unmarked q := marked_without (h.unmarked q)
  exports n hn := h.exports n (JSRuntime.of_has_without hn).2

/-! ## A reference is dropped -/

/-- What is claimed of the function that drops one reference, when no phase is on. -/
def Frees (ext : GCPtr → ℕ) (r : GCPtr) : Prop :=
  ∀ rt pend hold, Settled ext rt (r :: pend) hold →
    ∃ rt' hold', freeRef freeZeroValue r rt = some rt' ∧ Settled ext rt' pend hold' ∧ Left rt rt'

theorem forEach_frees {rs : List GCPtr} (hrs : ∀ r ∈ rs, Frees ext r) (h : Settled ext rt (rs ++ pend) hold) :
    ∃ rt' hold', forEach (freeRef freeZeroValue) rs rt = some rt' ∧ Settled ext rt' pend hold' ∧
      Left rt rt' := by
  induction rs generalizing rt hold with
  | nil => exact ⟨rt, hold, rfl, h, rfl, fun _ hq => hq, .refl rt⟩
  | cons r rs ih =>
    obtain ⟨rt₁, hold₁, hrt₁, h₁, hleft₁⟩ := hrs r List.mem_cons_self rt (rs ++ pend) hold h
    obtain ⟨rt₂, hold₂, hrt₂, h₂, hleft₂⟩ := ih (fun q hq => hrs q (List.mem_cons_of_mem r hq)) h₁
    refine ⟨rt₂, hold₂, ?_, h₂, hleft₁.trans hleft₂⟩
    rw [forEach_cons, hrt₁]
    exact hrt₂

/-- A reference that was not the last. -/
theorem Settled.keep (h : Settled ext rt (r :: pend) hold) (hcount : rt.refCount r = k + 1) (hk : 0 < k) :
    Settled ext (rt.withCount r k) pend hold ∧ Left rt (rt.withCount r k) := by
  have hhas : rt.has r = true := JSRuntime.has_of_refCount (by omega)
  have hstep : Step ⟨rt, r :: pend, hold⟩ ⟨rt.withCount r k, pend, hold⟩ := .keep hcount (.inl hk)
  exact ⟨h.withCount hhas (.inl hk) hstep, rfl, hstep.within.has, .withCount hcount (.inr hk) rfl⟩

/-- An object or a function without references is freed at once, with all that had its last reference from
there. -/
theorem Settled.queued (h : Settled ext rt (r :: pend) hold) (hvalue : r.isValue = true)
    (hcount : rt.refCount r = 1) :
    Zeroed ext { (rt.withCount r 0).queued r with gcPhase := .decref } pend hold ∧
      Left rt ((rt.withCount r 0).queued r) := by
  have hphase : rt.gcPhase ≠ .removeCycles := by
    rw [h.phase]
    exact fun hphase => by cases hphase
  have hstep : Step ⟨rt, r :: pend, hold⟩ ⟨(rt.withCount r 0).queued r, pend, hold⟩ :=
    .queue hcount hphase hvalue
  have hex := hstep.exact h.exact
  have hwithin := hstep.within
  -- Before the count came to zero, the lists were as the loop has them.
  have hlists : Zeroing { rt with gcPhase := .decref } := by
    refine ⟨rfl, h.tmp, h.nodup, ?_, ?_, ?_⟩
    · show rt.gcZeroRefCountList.Nodup
      rw [h.zero]
      exact List.nodup_nil
    · intro q
      show q ∈ rt.gcObjList ↔ rt.has q = true ∧ rt.mem.isOpen q = false ∧ (_ → 0 < rt.refCount q)
      rw [h.listed]
      exact ⟨fun hq => ⟨hq.1, hq.2, fun hvalue => h.positive q hvalue hq.1⟩, fun hq => ⟨hq.1, hq.2.1⟩⟩
    · intro q
      show q ∈ rt.gcZeroRefCountList ↔ rt.has q = true ∧ _ ∧ rt.refCount q = 0
      rw [h.zero]
      refine ⟨fun hq => absurd hq List.not_mem_nil, fun hq => ?_⟩
      have hpos := h.positive q hq.2.1 hq.1
      omega
  refine ⟨⟨⟨hex.nodup, hex.counts, hex.has, hex.held⟩, hlists.queued hcount hvalue, ?_, ?_, ?_⟩, rfl,
    hwithin.has, .withCount hcount (.inl hvalue) rfl⟩
  · exact fun q hq hhasq => h.values q hq (hwithin.has q hhasq)
  · exact fun q => hwithin.unmarked q (h.unmarked q)
  · exact fun n hn => h.exports n (hwithin.has _ hn)

theorem frees_value (hvalue : r.isValue = true) : Frees ext r := by
  intro rt pend hold h
  obtain ⟨k, hk⟩ := h.exact.refCount_pos
  rw [freeRef_value hvalue, drop_eq hk]
  split
  next hzero =>
    subst hzero
    obtain ⟨hzeroed, hleft⟩ := h.queued hvalue hk
    obtain ⟨rt', hold', hrt', h', hleft'⟩ := freeZeroRefcount_ok hzeroed
    refine ⟨rt', hold', ?_, h', hleft.trans hleft'⟩
    have hqueue : zeroRefCount r (rt.withCount r 0) = some ((rt.withCount r 0).queued r) := by
      refine if_neg ?_
      show ¬ rt.gcPhase = .removeCycles
      rw [h.phase]
      exact fun hphase => by cases hphase
    show (zeroRefCount r (rt.withCount r 0)).bind _ = _
    rw [hqueue]
    show (if rt.gcPhase = .none then _ else _) = _
    rw [if_pos h.phase]
    exact hrt'
  next hpos =>
    obtain ⟨h', hleft⟩ := h.keep hk (Nat.pos_of_ne_zero hpos)
    exact ⟨rt.withCount r k, hold, rfl, h', hleft⟩

/-- A block that is not of a value: what it refers to may be freed while it is on the list without a count. -/
theorem frees_block (hvalue : r.isValue = false) (hrefs : ∀ q, q.rank < r.rank → Frees ext q) :
    Frees ext r := by
  intro rt pend hold h
  obtain ⟨k, hk⟩ := h.exact.refCount_pos
  rw [freeRef_eq hvalue, drop_eq hk]
  split
  next hzero =>
    subst hzero
    have hhas : rt.has r = true := JSRuntime.has_of_refCount (by omega)
    have hstep : Step ⟨rt, r :: pend, hold⟩ ⟨rt.withCount r 0, rt.mem.refs r ++ pend, hold.erase r⟩ :=
      .release hk hvalue
    obtain ⟨rt₁, hold₁, hrt₁, h₁, hleft₁⟩ := forEach_frees
      (fun q hq => hrefs q (rank_lt_of_mem_refs hvalue hq)) (h.withCount hhas (.inr hvalue) hstep)
    -- Without a count it is not touched while the rest is freed, so it is there to be removed.
    have hcount : (rt.withCount r 0).refCount r = 0 := by rw [JSRuntime.refCount_withCount hhas, if_pos rfl]
    obtain ⟨hhas₁, hcount₁⟩ := hleft₁.spares.refCount_eq hvalue hcount
    rw [JSRuntime.has_withCount, hhas] at hhas₁
    refine ⟨rt₁.without r, hold₁, ?_, h₁.without hvalue hhas₁ hcount₁, hleft₁.mem, ?_,
      hleft₁.spares.without hk hcount₁⟩
    · show (forEach (freeRef freeZeroValue) (rt.mem.refs r) (rt.withCount r 0)).bind _ = _
      rw [hrt₁]
      exact JSRuntime.removeBlock_eq hhas₁
    · intro q hq
      have hq₁ := hleft₁.has q (JSRuntime.of_has_without hq).2
      exact hstep.within.has q hq₁
  next hpos =>
    obtain ⟨h', hleft⟩ := h.keep hk (Nat.pos_of_ne_zero hpos)
    exact ⟨rt.withCount r k, hold, rfl, h', hleft⟩

theorem frees (ext : GCPtr → ℕ) (r : GCPtr) : Frees ext r := by
  -- A block that is not a value refers only to blocks of a lower rank.
  induction hn : r.rank using Nat.strongRecOn generalizing r with
  | ind n ih =>
    cases hvalue : r.isValue with
    | true => exact frees_value hvalue
    | false => exact frees_block hvalue fun q hq => ih q.rank (hn ▸ hq) q rfl

/-! ## A reference from outside -/

/-- The references from outside, without one. -/
def minus (ext : GCPtr → ℕ) (p : GCPtr) : GCPtr → ℕ := Function.update ext p (ext p - 1)

theorem minus_add (hp : 0 < ext p) (q : GCPtr) : ext q = minus ext p q + [p].count q := by
  unfold minus
  rw [Function.update_apply, List.count_singleton]
  by_cases hq : q = p
  · subst hq
    rw [if_pos rfl, if_pos (beq_self_eq_true q)]
    omega
  · rw [if_neg hq, if_neg (by simpa using Ne.symm hq), Nat.add_zero]

/-- Between calls, with a reference that is to be dropped. -/
theorem Accounted.settled (h : Accounted ext rt) (hp : 0 < ext p) :
    Settled (minus ext p) rt [p] rt.gcObjList where
  exact.nodup := h.nodup
  exact.counts := by
    intro q
    show rt.refCount q = minus ext p q + [p].count q + inCount rt.mem.refs rt.gcObjList q
    rw [h.counts q, minus_add hp]
  exact.has q hq := ((h.listed q).mp hq).1
  exact.held := by
    intro q hvalue
    show q ∈ rt.gcObjList ↔ _
    rw [h.listed]
    exact ⟨fun hq => ⟨h.positive q hq.1, hq.2⟩, fun hq => ⟨JSRuntime.has_of_refCount hq.1, hq.2⟩⟩
  phase := h.phase
  zero := h.zero
  tmp := h.tmp
  nodup := h.nodup
  listed := h.listed
  values q hvalue hq := (h.listed q).mpr ⟨hq, Memory.isOpen_of_isValue hvalue⟩
  positive q _ hq := h.positive q hq
  unmarked := h.unmarked
  exports := h.exports

/-- Between calls again, if no block is left without a count. -/
theorem Settled.accounted (h : Settled ext rt [] hold) (hpositive : ∀ q, rt.has q = true → 0 < rt.refCount q) :
    Accounted ext rt where
  phase := h.phase
  zero := h.zero
  tmp := h.tmp
  nodup := h.nodup
  listed := h.listed
  counts := by
    have hperm : hold.Perm rt.gcObjList := by
      rw [List.perm_ext_iff_of_nodup h.exact.nodup h.nodup]
      intro q
      rw [h.listed]
      cases hvalue : q.isValue with
      | false =>
        rw [h.exact.held q hvalue]
        exact ⟨fun hq => ⟨JSRuntime.has_of_refCount hq.1, hq.2⟩, fun hq => ⟨hpositive q hq.1, hq.2⟩⟩
      | true =>
        exact ⟨fun hq => ⟨h.exact.has q hq, Memory.isOpen_of_isValue hvalue⟩, fun hq => h.values q hvalue hq.1⟩
    intro q
    have hq := h.exact.counts q
    change rt.refCount q = ext q + 0 + inCount rt.mem.refs hold q at hq
    rw [hq, inCount_perm hperm, Nat.add_zero]
  positive := hpositive
  unmarked := h.unmarked
  exports := h.exports

/-- **To drop a reference from outside never fails**, whatever it is to and also if it was the last, and every
count is exact after it. -/
theorem jsFreeRef_ok (h : Accounted ext rt) (hp : 0 < ext p) :
    ∃ rt', jsFreeRef p rt = some rt' ∧ Accounted (minus ext p) rt' ∧ rt'.mem = rt.mem := by
  obtain ⟨rt', hold', hrt', h', hleft⟩ := frees _ p rt [] _ (h.settled hp)
  -- A block that had a count before cannot be there without one.
  refine ⟨rt', hrt', h'.accounted fun q hq => ?_, hleft.mem⟩
  cases hvalue : q.isValue with
  | true => exact h'.positive q hvalue hq
  | false =>
    refine Nat.pos_of_ne_zero fun hzero => ?_
    have hpos := h.positive q (hleft.has q hq)
    have hzero' := hleft.spares.counted q hvalue hq hzero
    omega

end JSChip.Gc
