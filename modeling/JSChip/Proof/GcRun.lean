import JSChip.Machine.Run
import JSChip.Proof.GcCycles
import JSChip.Proof.GcZero
import JSChip.Spec.Runtime

/-!
# Blocks over a whole run

The rest of the engine has references to blocks, from the stack and from C; it may drop one that it has,
keep one in a block that it writes, and take one out of there.

* `Mutator.Allows`: it does so with references that are there, and with no others.
* `perform_ok`: then no action fails, and the counts stay exact.
* `run_ok`, `run_collect`: over a whole run no block is lost that is still to be reached, and a collection
  leaves exactly those.
* `jsFreeRuntime_iff`: the end of the runtime, and what its assertion is about.
-/

namespace JSChip.Gc

open RefCount Machine

/-! ## The rest of the engine -/

/-- The blocks, and how many references to each the rest of the engine has. -/
structure Mutator where
  ext : GCPtr → ℕ
  rt : JSRuntime

inductive Action
  | dup (p : GCPtr)
  | free (p : GCPtr)
  | create (b : Block)
  | store (b : Block)
  | closeVarRef (n : ℕ) (value : JSValue)
  | runGC
deriving DecidableEq, Repr

/-- The exports of a context are detached. -/
def Block.exportsDetached (mem : Memory) : Block → Bool
  | .context _ ctx => ctx.loadedModules.all fun m => m.exportVarRefs.all fun v =>
      v.all fun n => (mem.varRef n).isDetached
  | .object _ _ | .functionBytecode _ _ | .shape _ _ | .varRef _ _ => true

namespace Mutator

variable (m : Mutator)

/-- What a block refers to once it is written. -/
def refs (b : Block) : List GCPtr := (m.rt.mem.write b).refs b.ptr

/-- Each reference in the list is there, in `have`. -/
def Covers (have' : GCPtr → ℕ) (l : List GCPtr) : Prop := ∀ p ∈ l, l.count p ≤ have' p

/-- The references that the rest of the engine has are moved or dropped, and no others; a new block is
not one that is there; the exports of modules are detached, and a variable that left the stack stays so. -/
def Allows : Action → Prop
  | .dup p => m.rt.has p = true
  | .free p => 0 < m.ext p
  | .create b =>
    m.rt.has b.ptr = false ∧ Covers m.ext (m.refs b) ∧ b.exportsDetached m.rt.mem = true
  | .store b =>
    m.rt.has b.ptr = true ∧ m.rt.mem.isOpen b.ptr = false ∧
      (m.rt.mem.write b).isOpen b.ptr = false ∧
      Covers (fun p => m.ext p + (m.rt.mem.refs b.ptr).count p) (m.refs b) ∧
      b.exportsDetached m.rt.mem = true
  | .closeVarRef n value =>
    m.rt.has (.varRef n) = true ∧ m.rt.mem.isOpen (.varRef n) = true ∧
      ∀ p ∈ jsMarkValue value, m.rt.has p = true
  | .runGC => True

/-- The references after an action. -/
def moved : Action → GCPtr → ℕ
  | .dup p, q => m.ext q + [p].count q
  | .free p, q => m.ext q - [p].count q
  | .create b, q => m.ext q - (m.refs b).count q + [b.ptr].count q
  | .store b, q => m.ext q + (m.rt.mem.refs b.ptr).count q - (m.refs b).count q
  | .closeVarRef _ _, q => m.ext q
  | .runGC, q => m.ext q

/-- The blocks after an action. -/
def act (rt : JSRuntime) : Action → Option JSRuntime
  | .dup p => rt.dup p
  | .free p => jsFreeRef p rt
  | .create b => newBlock b rt
  | .store b => some (rt.write b)
  | .closeVarRef n value => Gc.closeVarRef n value rt
  | .runGC => jsRunGC rt

def perform (a : Action) : Option Mutator := do
  let rt ← act m.rt a
  some { ext := m.moved a, rt }

instance (have' : GCPtr → ℕ) (l : List GCPtr) : Decidable (Covers have' l) :=
  inferInstanceAs (Decidable (∀ p ∈ l, l.count p ≤ have' p))

instance : (a : Action) → Decidable (m.Allows a)
  | .dup _ => inferInstanceAs (Decidable (_ = true))
  | .free _ => inferInstanceAs (Decidable (0 < _))
  | .create _ => inferInstanceAs (Decidable (_ ∧ Covers _ _ ∧ _))
  | .store _ => inferInstanceAs (Decidable (_ ∧ _ ∧ _ ∧ Covers _ _ ∧ _))
  | .closeVarRef _ value => inferInstanceAs (Decidable (_ ∧ _ ∧ ∀ p ∈ jsMarkValue value, _ = true))
  | .runGC => inferInstanceAs (Decidable True)

end Mutator

/-! ## Blocks that are written -/

section Writing

variable {mem : Memory} {b : Block} {p q : GCPtr} {n : ℕ}

theorem Memory.refs_write (h : q ≠ b.ptr) : (mem.write b).refs q = mem.refs q := by
  cases b <;> cases q <;>
    first
    | rfl
    | (have hne := fun heq => h (congrArg _ heq)
       simp only [Memory.refs, Memory.write, Function.update_of_ne hne])

theorem Memory.isOpen_write (h : q ≠ b.ptr) : (mem.write b).isOpen q = mem.isOpen q := by
  cases b <;> cases q <;>
    first
    | rfl
    | (have hne := fun heq => h (congrArg _ heq)
       simp only [Memory.isOpen, Memory.write, Function.update_of_ne hne])

theorem inCount_write {hold : List GCPtr} (h : b.ptr ∉ hold) (p : GCPtr) :
    inCount (mem.write b).refs hold p = inCount mem.refs hold p := by
  apply inCount_congr
  intro q hq
  apply Memory.refs_write
  rintro rfl
  exact h hq

/-- A block that is exported stays detached, whatever is written. -/
theorem Memory.ExportsDetached.write (h : mem.ExportsDetached n) (hne : .context n ≠ b.ptr)
    (hb : b.ptr ∈ mem.refs (.context n) → (mem.write b).isOpen b.ptr = false) :
    (mem.write b).ExportsDetached n := by
  intro d hd v hv
  have hd' : d ∈ (mem.context n).loadedModules := by
    cases b with
    | context k ctx =>
      have hk : n ≠ k := fun heq => hne (congrArg _ heq)
      change d ∈ (Function.update mem.context k ctx n).loadedModules at hd
      rwa [Function.update_of_ne hk] at hd
    | _ => exact hd
  have hdet := h d hd' v hv
  cases b with
  | varRef k varRef =>
    by_cases hk : v = k
    · subst hk
      have hmem : GCPtr.varRef v ∈ mem.refs (.context n) := by
        unfold Memory.refs jsMarkContext jsMarkModuleDef
        simp only [List.mem_append, List.mem_flatMap]
        refine .inl (.inl ⟨d, hd', .inl ⟨some v, hv, List.mem_singleton_self _⟩⟩)
      have hopen := hb hmem
      rwa [Block.ptr, Memory.isOpen, Bool.not_eq_false'] at hopen
    · show (Function.update mem.varRef k varRef v).isDetached = true
      rwa [Function.update_of_ne hk]
  | _ => exact hdet

theorem Block.exportsDetached_write {ctx : JSContext} (h : (Block.context n ctx).exportsDetached mem = true) :
    (mem.write (.context n ctx)).ExportsDetached n := by
  intro d hd v hv
  change d ∈ (Function.update mem.context n ctx n).loadedModules at hd
  rw [Function.update_self] at hd
  simp only [Block.exportsDetached, List.all_eq_true] at h
  exact h d hd (some v) hv

end Writing

/-! ## What each action does -/

section Acting

variable {ext : GCPtr → ℕ} {rt : JSRuntime} {p q : GCPtr} {b : Block}

theorem Mutator.Covers.count_le {have' : GCPtr → ℕ} {l : List GCPtr} (h : Covers have' l) (p : GCPtr) :
    l.count p ≤ have' p := by
  by_cases hp : p ∈ l
  · exact h p hp
  · rw [List.count_eq_zero_of_not_mem hp]
    exact Nat.zero_le _

theorem accounted_jsNewRuntime (mem : Memory) : Accounted (fun _ => 0) (jsNewRuntime mem) where
  phase := rfl
  zero := rfl
  tmp := rfl
  nodup := List.nodup_nil
  listed _ := ⟨fun h => absurd h List.not_mem_nil, fun h => absurd h.1 Bool.false_ne_true⟩
  counts _ := rfl
  positive _ h := absurd h Bool.false_ne_true
  unmarked _ := rfl
  exports _ h := absurd h Bool.false_ne_true

/-- The count of a block becomes another, and so do the references from outside. -/
theorem Accounted.recount {ext' : GCPtr → ℕ} {k : ℕ} (h : Accounted ext rt) (hp : rt.has p = true)
    (hk : 0 < k) (hext : ∀ q, ext' q + (if q = p then rt.refCount p else 0) = ext q + if q = p then k else 0) :
    Accounted ext' (rt.withCount p k) where
  phase := h.phase
  zero := h.zero
  tmp := h.tmp
  nodup := h.nodup
  listed q := by
    rw [JSRuntime.has_withCount]
    exact h.listed q
  counts q := by
    have hq := hext q
    have hcount := h.counts q
    show (rt.withCount p k).refCount q = ext' q + inCount rt.mem.refs rt.gcObjList q
    rw [JSRuntime.refCount_withCount hp]
    split at hq
    next heq =>
      subst heq
      rw [if_pos rfl]
      omega
    next hne =>
      rw [if_neg hne]
      omega
  positive q hq := by
    rw [JSRuntime.has_withCount] at hq
    rw [JSRuntime.refCount_withCount hp]
    split
    · exact hk
    · exact h.positive q hq
  unmarked q := by rw [JSRuntime.marked_withCount, h.unmarked]
  exports n hn := by
    rw [JSRuntime.has_withCount] at hn
    exact h.exports n hn

theorem count_singleton_eq (p q : GCPtr) : [p].count q = if q = p then 1 else 0 := by
  rw [List.count_singleton]
  by_cases hq : q = p
  · simp [hq]
  · simp [hq, Ne.symm hq]

theorem JSRuntime.dup_ok (h : Accounted ext rt) (hp : rt.has p = true) :
    ∃ rt', rt.dup p = some rt' ∧ Accounted (fun q => ext q + [p].count q) rt' ∧ rt'.mem = rt.mem ∧
      ∀ q, rt'.has q = rt.has q := by
  refine ⟨rt.withCount p (rt.refCount p + 1), ?_, h.recount hp (Nat.succ_pos _) (fun q => ?_), rfl,
    fun q => JSRuntime.has_withCount⟩
  · unfold JSRuntime.dup
    rw [JSRuntime.incRef_eq hp]
    rfl
  · rw [count_singleton_eq]
    split
    next heq =>
      subst heq
      omega
    · omega

theorem jsDupValue_ok (h : Accounted ext rt) {v : JSValue} (hv : ∀ p ∈ jsMarkValue v, rt.has p = true) :
    ∃ rt', jsDupValue v rt = some rt' ∧ Accounted (fun q => ext q + (jsMarkValue v).count q) rt' ∧
      rt'.mem = rt.mem ∧ ∀ q, rt'.has q = rt.has q := by
  cases v with
  | object n | functionBytecode n => exact JSRuntime.dup_ok h (hv _ (List.mem_singleton_self _))
  | other => exact ⟨rt, rfl, h, rfl, fun q => rfl⟩

/-- A block that is there, but is on no list yet. -/
structure Unlisted (ext : GCPtr → ℕ) (p : GCPtr) (rt : JSRuntime) : Prop where
  there : rt.has p = true
  phase : rt.gcPhase = .none
  zero : rt.gcZeroRefCountList = []
  tmp : rt.tmpObjList = []
  nodup : rt.gcObjList.Nodup
  listed : ∀ q, q ∈ rt.gcObjList ↔ rt.has q = true ∧ rt.mem.isOpen q = false ∧ q ≠ p
  counts : ∀ q, rt.refCount q = ext q + (inCount rt.mem.refs rt.gcObjList q + (rt.mem.refs p).count q)
  positive : ∀ q, rt.has q = true → 0 < rt.refCount q
  unmarked : ∀ q, rt.marked q = false
  exports : ∀ n, rt.has (.context n) = true → rt.mem.ExportsDetached n

/-- A variable on the stack is on none. -/
theorem Unlisted.opened (h : Unlisted ext p rt) (hopen : rt.mem.isOpen p = true) : Accounted ext rt where
  phase := h.phase
  zero := h.zero
  tmp := h.tmp
  nodup := h.nodup
  listed q := by
    rw [h.listed]
    refine ⟨fun hq => ⟨hq.1, hq.2.1⟩, fun hq => ⟨hq.1, hq.2, ?_⟩⟩
    rintro rfl
    rw [hopen] at hq
    cases hq.2
  counts q := by rw [h.counts, Memory.refs_of_isOpen hopen, List.count_nil, Nat.add_zero]
  positive := h.positive
  unmarked := h.unmarked
  exports := h.exports

/-- After `add_gc_object`. -/
theorem Unlisted.addGcObject (h : Unlisted ext p rt) (hopen : rt.mem.isOpen p = false) :
    ∃ rt', addGcObject p rt = some rt' ∧ Accounted ext rt' ∧ rt'.mem = rt.mem ∧
      ∀ q, rt'.has q = rt.has q := by
  have hnot : p ∉ rt.gcObjList := fun hp => ((h.listed p).mp hp).2.2 rfl
  refine ⟨{ rt.withMark p false with gcObjList := rt.gcObjList ++ [p] }, ?_,
    ⟨h.phase, h.zero, h.tmp, ?_, ?_, ?_, ?_, ?_, ?_⟩, rfl, fun q => JSRuntime.has_withMark⟩
  · unfold Gc.addGcObject
    rw [JSRuntime.setMark_eq h.there]
    rfl
  · exact List.nodup_append.mpr ⟨h.nodup, List.nodup_singleton p, fun q hq r hr heq =>
      hnot (List.mem_singleton.mp hr ▸ heq ▸ hq)⟩
  · intro q
    show q ∈ rt.gcObjList ++ [p] ↔ (rt.withMark p false).has q = true ∧ _
    rw [JSRuntime.has_withMark, List.mem_append, List.mem_singleton, h.listed]
    constructor
    · rintro (hq | rfl)
      · exact ⟨hq.1, hq.2.1⟩
      · exact ⟨h.there, hopen⟩
    · intro hq
      by_cases hqp : q = p
      · exact .inr hqp
      · exact .inl ⟨hq.1, hq.2, hqp⟩
  · intro q
    show (rt.withMark p false).refCount q = ext q + inCount rt.mem.refs (rt.gcObjList ++ [p]) q
    rw [JSRuntime.refCount_withMark, h.counts, inCount_append, inCount_cons, inCount_nil, Nat.add_zero]
  · intro q hq
    change (rt.withMark p false).has q = true at hq
    show 0 < (rt.withMark p false).refCount q
    rw [JSRuntime.has_withMark] at hq
    rw [JSRuntime.refCount_withMark]
    exact h.positive q hq
  · intro q
    show (rt.withMark p false).marked q = false
    rw [JSRuntime.marked_withMark h.there, h.unmarked, ite_self]
  · intro n hn
    change (rt.withMark p false).has _ = true at hn
    rw [JSRuntime.has_withMark] at hn
    exact h.exports n hn

/-- Nothing refers to a block that is not there. -/
theorem Accounted.absent (h : Accounted ext rt) (hp : rt.has p = false) :
    ext p = 0 ∧ inCount rt.mem.refs rt.gcObjList p = 0 := by
  have hcount := h.counts p
  have hzero : rt.refCount p = 0 := by
    apply Nat.eq_zero_of_not_pos
    intro hpos
    rw [JSRuntime.has_of_refCount hpos] at hp
    cases hp
  omega

theorem Accounted.not_mem_refs (h : Accounted ext rt) (hp : rt.has p = false)
    (hq : rt.has q = true) : p ∉ rt.mem.refs q := by
  intro hmem
  have hopen : rt.mem.isOpen q = false := by
    apply Bool.eq_false_iff.mpr
    intro hopen
    rw [Memory.refs_of_isOpen hopen] at hmem
    cases hmem
  have hpos := inCount_pos ((h.listed q).mpr ⟨hq, hopen⟩) hmem
  have := (h.absent hp).2
  omega

/-- `js_malloc` of a block, and its fields. -/
theorem Accounted.unlisted_new (h : Accounted ext rt) (hnew : rt.has b.ptr = false)
    (hown : Mutator.Covers ext ((rt.mem.write b).refs b.ptr))
    (hexports : b.exportsDetached rt.mem = true) :
    Unlisted (fun q => ext q - ((rt.mem.write b).refs b.ptr).count q + [b.ptr].count q) b.ptr
      ((rt.write b).setHeader b.ptr (some { refCount := 1, mark := false })) := by
  have hhas : ∀ q, JSRuntime.has ((rt.write b).setHeader b.ptr (some { refCount := 1, mark := false })) q =
      if q = b.ptr then true else rt.has q := by
    intro q
    unfold JSRuntime.has
    rw [JSRuntime.header_setHeader]
    split <;> rfl
  have hcount : ∀ q, JSRuntime.refCount
      ((rt.write b).setHeader b.ptr (some { refCount := 1, mark := false })) q =
      if q = b.ptr then 1 else rt.refCount q := by
    intro q
    unfold JSRuntime.refCount
    rw [JSRuntime.header_setHeader]
    split <;> rfl
  have hnot : b.ptr ∉ rt.gcObjList := by
    intro hmem
    rw [((h.listed _).mp hmem).1] at hnew
    cases hnew
  refine ⟨?_, h.phase, h.zero, h.tmp, h.nodup, ?_, ?_, ?_, ?_, ?_⟩
  · rw [hhas, if_pos rfl]
  · intro q
    show q ∈ rt.gcObjList ↔ _ ∧ (rt.mem.write b).isOpen q = false ∧ _
    rw [hhas, h.listed]
    split
    next heq =>
      subst heq
      rw [hnew]
      exact ⟨fun hq => absurd hq.1 Bool.false_ne_true, fun hq => absurd rfl hq.2.2⟩
    next hne =>
      rw [Memory.isOpen_write hne]
      exact ⟨fun hq => ⟨hq.1, hq.2, hne⟩, fun hq => ⟨hq.1, hq.2.1⟩⟩
  · intro q
    show _ = _ + (inCount (rt.mem.write b).refs rt.gcObjList q + ((rt.mem.write b).refs b.ptr).count q)
    have hle := hown.count_le q
    rw [hcount, inCount_write hnot, count_singleton_eq]
    split
    next heq =>
      subst heq
      have := h.absent hnew
      omega
    · have := h.counts q
      omega
  · intro q hq
    rw [hcount]
    split
    · exact Nat.zero_lt_one
    next hne =>
      rw [hhas, if_neg hne] at hq
      exact h.positive q hq
  · intro q
    unfold JSRuntime.marked
    rw [JSRuntime.header_setHeader]
    split
    · rfl
    · exact h.unmarked q
  · intro n hn
    show (rt.mem.write b).ExportsDetached n
    rw [hhas] at hn
    split at hn
    next heq =>
      cases b with
      | context k ctx =>
        obtain rfl : n = k := by injection heq
        exact Block.exportsDetached_write hexports
      | _ => cases heq
    next hne => exact (h.exports n hn).write hne fun hmem => absurd hmem (h.not_mem_refs hnew hn)

theorem newBlock_eq (b : Block) (rt : JSRuntime) :
    newBlock b rt =
      if (rt.mem.write b).isOpen b.ptr then
        some ((rt.write b).setHeader b.ptr (some { refCount := 1, mark := false }))
      else addGcObject b.ptr ((rt.write b).setHeader b.ptr (some { refCount := 1, mark := false })) := by
  cases b with
  | varRef n varRef =>
    obtain ⟨isDetached, value⟩ := varRef
    have hopen : (rt.mem.write (.varRef n ⟨isDetached, value⟩)).isOpen (.varRef n) = !isDetached := by
      show (!(Function.update rt.mem.varRef n ⟨isDetached, value⟩ n).isDetached) = _
      rw [Function.update_self]
    rw [Block.ptr, hopen]
    cases isDetached <;> rfl
  | _ => rfl

theorem newBlock_ok (h : Accounted ext rt) (hnew : rt.has b.ptr = false)
    (hown : Mutator.Covers ext ((rt.mem.write b).refs b.ptr))
    (hexports : b.exportsDetached rt.mem = true) :
    ∃ rt', newBlock b rt = some rt' ∧ rt'.mem = rt.mem.write b ∧
      Accounted (fun q => ext q - ((rt.mem.write b).refs b.ptr).count q + [b.ptr].count q) rt' := by
  have hunlisted := h.unlisted_new hnew hown hexports
  rw [newBlock_eq]
  split
  next hopen => exact ⟨_, rfl, rfl, hunlisted.opened hopen⟩
  next hopen =>
    obtain ⟨rt', hrt', hacc, hmem, -⟩ := hunlisted.addGcObject (Bool.eq_false_iff.mpr hopen)
    exact ⟨rt', hrt', hmem, hacc⟩

/-- The fields of a block are written: what it had is the rest of the engine's. -/
theorem Accounted.write (h : Accounted ext rt) (hp : rt.has b.ptr = true)
    (hopen : rt.mem.isOpen b.ptr = false) (hopen' : (rt.mem.write b).isOpen b.ptr = false)
    (hown : Mutator.Covers (fun p => ext p + (rt.mem.refs b.ptr).count p) ((rt.mem.write b).refs b.ptr))
    (hexports : b.exportsDetached rt.mem = true) :
    Accounted (fun q => ext q + (rt.mem.refs b.ptr).count q - ((rt.mem.write b).refs b.ptr).count q)
      (rt.write b) where
  phase := h.phase
  zero := h.zero
  tmp := h.tmp
  nodup := h.nodup
  listed q := by
    show q ∈ rt.gcObjList ↔ rt.has q = true ∧ (rt.mem.write b).isOpen q = false
    rw [h.listed]
    by_cases hq : q = b.ptr
    · subst hq
      rw [hopen, hopen']
    · rw [Memory.isOpen_write hq]
  counts q := by
    show rt.refCount q = _ + inCount (rt.mem.write b).refs rt.gcObjList q
    have hmem := (h.listed b.ptr).mpr ⟨hp, hopen⟩
    have hle := hown.count_le q
    have hcount := h.counts q
    rw [inCount_erase hmem] at hcount
    rw [inCount_erase hmem, inCount_write h.nodup.not_mem_erase]
    omega
  positive := h.positive
  unmarked := h.unmarked
  exports n hn := by
    show (rt.mem.write b).ExportsDetached n
    by_cases hne : GCPtr.context n = b.ptr
    · cases b with
      | context k ctx =>
        obtain rfl : n = k := by injection hne
        exact Block.exportsDetached_write hexports
      | _ => cases hne
    · exact (h.exports n hn).write hne fun _ => hopen'

/-- A variable on the stack gets a value of its own. -/
theorem Accounted.unlisted_write {ext' : GCPtr → ℕ} (h : Accounted ext' rt) (hp : rt.has b.ptr = true)
    (hopen : rt.mem.isOpen b.ptr = true) (hopen' : (rt.mem.write b).isOpen b.ptr = false)
    (hext : ∀ q, ext' q = ext q + ((rt.mem.write b).refs b.ptr).count q) :
    Unlisted ext b.ptr (rt.write b) := by
  have hnot : b.ptr ∉ rt.gcObjList := by
    intro hmem
    have hclosed := ((h.listed _).mp hmem).2
    rw [hopen] at hclosed
    cases hclosed
  refine ⟨hp, h.phase, h.zero, h.tmp, h.nodup, ?_, ?_, h.positive, h.unmarked, ?_⟩
  · intro q
    show q ∈ rt.gcObjList ↔ rt.has q = true ∧ (rt.mem.write b).isOpen q = false ∧ q ≠ b.ptr
    rw [h.listed]
    by_cases hq : q = b.ptr
    · subst hq
      rw [hopen]
      exact ⟨fun hq => Bool.noConfusion hq.2, fun hq => absurd rfl hq.2.2⟩
    · rw [Memory.isOpen_write hq]
      exact ⟨fun h => ⟨h.1, h.2, hq⟩, fun h => ⟨h.1, h.2.1⟩⟩
  · intro q
    show rt.refCount q =
      ext q + (inCount (rt.mem.write b).refs rt.gcObjList q + ((rt.mem.write b).refs b.ptr).count q)
    have hcount := h.counts q
    rw [hext] at hcount
    rw [inCount_write hnot]
    omega
  · intro n hn
    have hne : GCPtr.context n ≠ b.ptr := by
      intro heq
      rw [← heq] at hopen
      cases hopen
    exact (h.exports n hn).write hne fun _ => hopen'

/-- A variable leaves the stack. -/
theorem closeVarRef_ok {n : ℕ} {value : JSValue} (h : Accounted ext rt)
    (hp : rt.has (.varRef n) = true) (hopen : rt.mem.isOpen (.varRef n) = true)
    (hvalue : ∀ p ∈ jsMarkValue value, rt.has p = true) :
    ∃ rt', closeVarRef n value rt = some rt' ∧
      rt'.mem = rt.mem.write (.varRef n { isDetached := true, value }) ∧ Accounted ext rt' := by
  obtain ⟨rt₁, hrt₁, h₁, hmem₁, hhas₁⟩ := jsDupValue_ok h hvalue
  have hself : (rt₁.mem.write (.varRef n { isDetached := true, value })).varRef n = ⟨true, value⟩ :=
    Function.update_self _ _ _
  have hopen' : (rt₁.mem.write (.varRef n { isDetached := true, value })).isOpen (.varRef n) = false := by
    rw [Memory.isOpen, hself]
    rfl
  have hrefs : (rt₁.mem.write (.varRef n { isDetached := true, value })).refs (.varRef n) =
      jsMarkValue value := by
    rw [Memory.refs, hself]
    rfl
  have hunlisted : Unlisted ext (.varRef n) (rt₁.write (.varRef n { isDetached := true, value })) := by
    have hp₁ : rt₁.has (Block.ptr (.varRef n { isDetached := true, value })) = true := (hhas₁ _).trans hp
    apply h₁.unlisted_write hp₁ (hmem₁ ▸ hopen) hopen'
    intro q
    rw [Block.ptr, hrefs]
  obtain ⟨rt', hrt', hacc, hmem', -⟩ := hunlisted.addGcObject hopen'
  refine ⟨rt', ?_, ?_, hacc⟩
  · unfold closeVarRef
    rw [hrt₁]
    exact hrt'
  · rw [hmem', ← hmem₁]
    rfl

theorem jsFreeRef_moved (h : Accounted ext rt) (hp : 0 < ext p) :
    ∃ rt', jsFreeRef p rt = some rt' ∧ Accounted (fun q => ext q - [p].count q) rt' ∧ rt'.mem = rt.mem := by
  obtain ⟨rt', hrt', hacc, hmem⟩ := jsFreeRef_ok h hp
  refine ⟨rt', hrt', ?_, hmem⟩
  convert hacc using 2 with q
  rw [minus_add hp q, Nat.add_sub_cancel]

/-- `JS_FreeValue` of a value that the rest of the engine has. -/
theorem jsFreeValue_covers (h : Accounted ext rt) {v : JSValue}
    (hv : Mutator.Covers ext (jsMarkValue v)) :
    ∃ rt', jsFreeValue v rt = some rt' ∧ Accounted (fun q => ext q - (jsMarkValue v).count q) rt' ∧
      rt'.mem = rt.mem := by
  have hpos : ∀ p, jsMarkValue v = [p] → 0 < ext p := by
    intro p hmark
    have hle := hv.count_le p
    rw [hmark, List.count_singleton_self] at hle
    exact hle
  cases v with
  | object n | functionBytecode n => exact jsFreeRef_moved h (hpos _ rfl)
  | other => exact ⟨rt, rfl, h, rfl⟩

/-- Values that the rest of the engine has, one after the other. -/
theorem forEach_jsFreeValue {vs : List JSValue} (h : Accounted ext rt)
    (hvs : Mutator.Covers ext (vs.flatMap jsMarkValue)) :
    ∃ rt', forEach jsFreeValue vs rt = some rt' ∧
      Accounted (fun q => ext q - (vs.flatMap jsMarkValue).count q) rt' ∧ rt'.mem = rt.mem := by
  have hstep : ∀ v l rt₁, True → (Accounted (fun q => ext q - (vs.flatMap jsMarkValue).count q +
      (List.flatMap jsMarkValue (v :: l)).count q) rt₁ ∧ rt₁.mem = rt.mem) →
      ∃ rt₂, jsFreeValue v rt₁ = some rt₂ ∧ Accounted (fun q => ext q - (vs.flatMap jsMarkValue).count q +
        (List.flatMap jsMarkValue l).count q) rt₂ ∧ rt₂.mem = rt.mem := by
    rintro v l rt₁ - ⟨hacc, hmem⟩
    have hown : Mutator.Covers (fun q => ext q - (vs.flatMap jsMarkValue).count q +
        (List.flatMap jsMarkValue (v :: l)).count q) (jsMarkValue v) := by
      intro q _
      show _ ≤ _ + List.count q (List.flatMap jsMarkValue (v :: l))
      rw [List.flatMap_cons, List.count_append]
      omega
    obtain ⟨rt₂, hrt₂, hacc₂, hmem₂⟩ := jsFreeValue_covers hacc hown
    refine ⟨rt₂, hrt₂, ?_, hmem₂.trans hmem⟩
    convert hacc₂ using 2 with q
    rw [List.flatMap_cons, List.count_append]
    omega
  have hstart : Accounted (fun q => ext q - (vs.flatMap jsMarkValue).count q +
      (vs.flatMap jsMarkValue).count q) rt := by
    convert h using 2 with q
    exact Nat.sub_add_cancel (hvs.count_le q)
  obtain ⟨rt', hrt', hacc, hmem⟩ := forEach_pending (I := fun l rt₁ =>
    Accounted (fun q => ext q - (vs.flatMap jsMarkValue).count q + (l.flatMap jsMarkValue).count q) rt₁ ∧
      rt₁.mem = rt.mem) hstep (fun _ _ => trivial) ⟨hstart, rfl⟩
  exact ⟨rt', hrt', hacc, hmem⟩

end Acting

/-! ## Runs -/

namespace Mutator

variable {m : Mutator}

/-- **No allowed action fails**: no count goes below zero, no block is touched after it is freed, no
assertion fails. The counts stay exact. -/
theorem perform_ok (m : Mutator) (a : Action) (h : Accounted m.ext m.rt) (ha : m.Allows a) :
    ∃ m', m.perform a = some m' ∧ Accounted m'.ext m'.rt := by
  have hact : ∃ rt', act m.rt a = some rt' ∧ Accounted (m.moved a) rt' := by
    cases a with
    | dup p =>
      obtain ⟨rt', hrt', hacc, -⟩ := JSRuntime.dup_ok h ha
      exact ⟨rt', hrt', hacc⟩
    | free p =>
      obtain ⟨rt', hrt', hacc, -⟩ := jsFreeRef_moved h ha
      exact ⟨rt', hrt', hacc⟩
    | create b =>
      obtain ⟨rt', hrt', -, hacc⟩ := newBlock_ok h ha.1 ha.2.1 ha.2.2
      exact ⟨rt', hrt', hacc⟩
    | store b => exact ⟨m.rt.write b, rfl, h.write ha.1 ha.2.1 ha.2.2.1 ha.2.2.2.1 ha.2.2.2.2⟩
    | closeVarRef n value =>
      obtain ⟨rt', hrt', -, hacc⟩ := closeVarRef_ok h ha.1 ha.2.1 ha.2.2
      exact ⟨rt', hrt', hacc⟩
    | runGC =>
      obtain ⟨rt', hrt', hacc, -⟩ := jsRunGC_ok h
      exact ⟨rt', hrt', hacc⟩
  obtain ⟨rt', hrt', hacc⟩ := hact
  refine ⟨⟨m.moved a, rt'⟩, ?_, hacc⟩
  unfold perform
  rw [hrt']
  rfl

/-- The rest of the engine, with a runtime that is new. -/
def init (mem : Memory) : Mutator := ⟨fun _ => 0, jsNewRuntime mem⟩

/-- Memory that is not used yet. -/
def blank : Memory where
  object _ := { shape := 0, prop := [], u := .none }
  functionBytecode _ := { cpool := [], realm := none }
  shape _ := { proto := none }
  varRef _ := { isDetached := false, value := .other }
  context _ := { loadedModules := [], values := [], arrayShape := none }

/-- An object with a variable, which leaves the stack with the object as its value; another object, which
is kept; and a context, which is given up with an object that only it has. -/
def cycleRun : List Action := [
  .create (.shape 0 { proto := none }),
  .dup (.shape 0),
  .dup (.shape 0),
  .create (.object 0 { shape := 0, prop := [], u := .none }),
  .dup (.object 0),
  .create (.varRef 0 { isDetached := false, value := .other }),
  .create (.object 1 { shape := 0, prop := [.normal (.object 0), .varref 0], u := .none }),
  .closeVarRef 0 (.object 1),
  .free (.object 1),
  .create (.object 2 { shape := 0, prop := [], u := .none }),
  .create (.context 0 { loadedModules := [], values := [.object 2], arrayShape := none }),
  .free (.context 0)]

/-- **A run in which references are only moved and dropped never fails**, and never loses a block that is still
to be reached: each count is that of the references to the block. -/
theorem run_ok (mem : Memory) (as : List Action) (h : Permits perform Allows (init mem) as) :
    ∃ m, run perform (init mem) as = some m ∧ Accounted m.ext m.rt ∧
      ∀ p, Reach m.rt.mem.refs m.ext p → m.rt.has p = true := by
  obtain ⟨m, hrun, hm⟩ := run_of_permits perform_ok as (accounted_jsNewRuntime mem) h
  exact ⟨m, hrun, hm, fun p => hm.has_of_reach⟩

theorem run_ok_cycleRun : ∃ m, run perform (init blank) cycleRun = some m ∧ Accounted m.ext m.rt ∧
    ∀ p, Reach m.rt.mem.refs m.ext p → m.rt.has p = true :=
  run_ok blank cycleRun (by decide)

/-- **After a collection, what is left is what can be reached**, at any point of a run. -/
theorem run_collect (mem : Memory) (as : List Action) (h : Permits perform Allows (init mem) as) :
    ∃ m, run perform (init mem) (as ++ [.runGC]) = some m ∧
      ∀ p, m.rt.has p = true ↔ Reach m.rt.mem.refs m.ext p := by
  obtain ⟨m, hrun, hm⟩ := run_of_permits perform_ok as (accounted_jsNewRuntime mem) h
  obtain ⟨rt', hrt', -, hmem, hhas⟩ := jsRunGC_ok hm
  refine ⟨⟨m.ext, rt'⟩, ?_, ?_⟩
  · rw [run_append_of hrun]
    show ((jsRunGC m.rt).bind _).bind _ = _
    rw [hrt']
    rfl
  · rw [hmem]
    exact hhas

theorem run_collect_cycleRun : ∃ m, run perform (init blank) (cycleRun ++ [.runGC]) = some m ∧
    ∀ p, m.rt.has p = true ↔ Reach m.rt.mem.refs m.ext p :=
  run_collect blank cycleRun (by decide)

/-- The collection takes the cycle, and nothing else. -/
example : (run perform (init blank) (cycleRun ++ [.runGC])).map (fun m => m.rt.gcObjList) =
    some [.object 0, .shape 0] := by
  decide

/-- A block refers to another. -/
def RefersTo (rt : JSRuntime) (p q : GCPtr) : Prop := q ∈ rt.mem.refs p

/-- Between calls, there is a cycle behind each block that cannot be reached. -/
theorem cycle_of_garbage {ext : GCPtr → ℕ} {rt : JSRuntime} {p : GCPtr} (h : Accounted ext rt)
    (hp : rt.has p = true) (hreach : ¬ Reach rt.mem.refs ext p) :
    ∃ q, rt.has q = true ∧ ¬ Reach rt.mem.refs ext q ∧ Relation.TransGen (RefersTo rt) q q ∧
      Relation.ReflTransGen (RefersTo rt) q p := by
  have hpred : ∀ q, (q ∈ p :: rt.gcObjList ∧ rt.has q = true ∧ ¬ Reach rt.mem.refs ext q) →
      ∃ r, (r ∈ p :: rt.gcObjList ∧ rt.has r = true ∧ ¬ Reach rt.mem.refs ext r) ∧ q ∈ rt.mem.refs r := by
    rintro q ⟨-, hq, hreach⟩
    -- Its count comes from a block that cannot be reached either.
    have hroot : ext q = 0 := Nat.eq_zero_of_not_pos fun hpos => hreach (.root hpos)
    have hcount := h.positive q hq
    rw [h.counts, hroot, Nat.zero_add] at hcount
    obtain ⟨r, hr, href⟩ := exists_of_inCount_pos hcount
    exact ⟨r, ⟨List.mem_cons_of_mem p hr, ((h.listed r).mp hr).1, fun hr => hreach (hr.step href)⟩, href⟩
  obtain ⟨q, hq, hcycle, hpath⟩ := exists_cycle rt.mem.refs (fun q hq => hq.1) hpred
    ⟨List.mem_cons_self, hp, hreach⟩
  exact ⟨q, hq.2.1, hq.2.2, hcycle, hpath⟩

/-- **Without a cycle nothing is left for the collector**: whatever a run leaves that cannot be reached,
there is a cycle behind it that cannot be reached either. -/
theorem run_garbage (mem : Memory) (as : List Action) (h : Permits perform Allows (init mem) as) :
    ∃ m, run perform (init mem) as = some m ∧
      ∀ p, m.rt.has p = true → Reach m.rt.mem.refs m.ext p ∨
        ∃ q, m.rt.has q = true ∧ ¬ Reach m.rt.mem.refs m.ext q ∧
          Relation.TransGen (RefersTo m.rt) q q ∧ Relation.ReflTransGen (RefersTo m.rt) q p := by
  obtain ⟨m, hrun, hm⟩ := run_of_permits perform_ok as (accounted_jsNewRuntime mem) h
  refine ⟨m, hrun, fun p hp => ?_⟩
  by_cases hreach : Reach m.rt.mem.refs m.ext p
  · exact .inl hreach
  · exact .inr (cycle_of_garbage hm hp hreach)

theorem run_garbage_cycleRun : ∃ m, run perform (init blank) cycleRun = some m ∧
    ∀ p, m.rt.has p = true → Reach m.rt.mem.refs m.ext p ∨
      ∃ q, m.rt.has q = true ∧ ¬ Reach m.rt.mem.refs m.ext q ∧
        Relation.TransGen (RefersTo m.rt) q q ∧ Relation.ReflTransGen (RefersTo m.rt) q p :=
  run_garbage blank cycleRun (by decide)

end Mutator

/-! ## The end of the runtime -/

section Ending

variable {ext : GCPtr → ℕ} {rt : JSRuntime}

/-- What the exception and the jobs refer to. -/
def leftRefs (currentException : JSValue) (jobList : List (List JSValue)) : List GCPtr :=
  (currentException :: jobList.flatMap id).flatMap jsMarkValue

/-- **The assertion of `JS_FreeRuntime` is about references from outside**: it holds if the rest of the
engine has no other references, variables on the stack apart, than those of the exception and the jobs. -/
theorem jsFreeRuntime_iff (h : Accounted ext rt) (currentException : JSValue)
    (jobList : List (List JSValue)) (hown : Mutator.Covers ext (leftRefs currentException jobList)) :
    (jsFreeRuntime currentException jobList rt).isSome = true ↔
      ∀ p, rt.mem.isOpen p = false → ext p = (leftRefs currentException jobList).count p := by
  obtain ⟨rt₁, hrt₁, h₁, hmem₁⟩ := forEach_jsFreeValue h hown
  obtain ⟨rt₂, hrt₂, h₂, hmem₂, hhas₂⟩ := jsRunGC_ok h₁
  have hfree : jsFreeRuntime currentException jobList rt =
      if rt₂.gcObjList = [] then some rt₂ else none := by
    have hjobs : forEach (forEach jsFreeValue) jobList = forEach jsFreeValue (jobList.flatMap id) :=
      (forEach_flatMap (fun _ => rfl) jobList).symm
    have heq : (jsFreeValue currentException rt).bind (forEach jsFreeValue (jobList.flatMap id)) =
        some rt₁ := by
      rw [← forEach_cons, hrt₁]
    show (jsFreeValue currentException rt).bind (fun rt => (forEach (forEach jsFreeValue) jobList rt).bind _) = _
    rw [hjobs, ← Option.bind_assoc, heq]
    show (jsRunGC rt₁).bind _ = _
    rw [hrt₂]
    rfl
  have hlisted : ∀ p, p ∈ rt₂.gcObjList ↔
      Reach rt.mem.refs (fun q => ext q - (leftRefs currentException jobList).count q) p ∧
        rt.mem.isOpen p = false := by
    intro p
    rw [h₂.listed, hhas₂, hmem₂, hmem₁]
    rfl
  rw [hfree]
  constructor
  · intro hsome p hopen
    split at hsome
    next hnil =>
      have hle := hown.count_le p
      have hroot : ¬ 0 < ext p - (leftRefs currentException jobList).count p := by
        intro hpos
        have hmem := (hlisted p).mpr ⟨.root hpos, hopen⟩
        rw [hnil] at hmem
        cases hmem
      omega
    · cases hsome
  · intro hall
    -- The roots that are left are variables on the stack, and these refer to nothing.
    have hreach : ∀ p, Reach rt.mem.refs
        (fun q => ext q - (leftRefs currentException jobList).count q) p → rt.mem.isOpen p = true := by
      intro p hp
      induction hp with
      | @root p hpos =>
        cases hopen : rt.mem.isOpen p with
        | true => rfl
        | false =>
          rw [hall p hopen] at hpos
          omega
      | @step p q _ hq ih =>
        rw [Memory.refs_of_isOpen ih] at hq
        cases hq
    have hnil : rt₂.gcObjList = [] := by
      apply List.eq_nil_iff_forall_not_mem.mpr
      intro p hp
      obtain ⟨hp, hopen⟩ := (hlisted p).mp hp
      rw [hreach p hp] at hopen
      cases hopen
    rw [if_pos hnil]
    rfl

end Ending

namespace Mutator

/-- **`JS_FreeRuntime` at the end of a run**: its assertion holds exactly if the rest of the engine has
given back what it had. -/
theorem run_jsFreeRuntime (mem : Memory) (as : List Action) (h : Permits perform Allows (init mem) as) :
    ∃ m, run perform (init mem) as = some m ∧
      ∀ currentException jobList, Covers m.ext (leftRefs currentException jobList) →
        ((jsFreeRuntime currentException jobList m.rt).isSome = true ↔
          ∀ p, m.rt.mem.isOpen p = false → m.ext p = (leftRefs currentException jobList).count p) := by
  obtain ⟨m, hrun, hm⟩ := run_of_permits perform_ok as (accounted_jsNewRuntime mem) h
  exact ⟨m, hrun, fun currentException jobList => jsFreeRuntime_iff hm currentException jobList⟩

theorem run_jsFreeRuntime_cycleRun : ∃ m, run perform (init blank) cycleRun = some m ∧
    ∀ currentException jobList, Covers m.ext (leftRefs currentException jobList) →
      ((jsFreeRuntime currentException jobList m.rt).isSome = true ↔
        ∀ p, m.rt.mem.isOpen p = false → m.ext p = (leftRefs currentException jobList).count p) :=
  run_jsFreeRuntime blank cycleRun (by decide)

/-- The object that is kept has to be the exception, or the assertion fails. -/
example : (run perform (init blank) cycleRun).map (fun m => ((jsFreeRuntime (.object 0) [] m.rt).isSome,
    (jsFreeRuntime .other [] m.rt).isSome)) = some (true, false) := by
  decide

end Mutator

end JSChip.Gc
