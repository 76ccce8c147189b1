import JSChip.Proof.GcRefs

/-!
# Which blocks the collector takes for garbage

* `Accounted ext rt`: what holds between calls. Every count is that of the references from outside, which
  `ext` says, and of those in the blocks on `gc_obj_list`.
* `gcDecref_ok`: `gc_decref` takes the references in the blocks off every count.
* `gcScan_ok`: `gc_scan` gives them back, and leaves on `gc_obj_list` what can be reached from outside and
  on `tmp_obj_list` what cannot.
-/

namespace JSChip.Gc

open RefCount

/-! ## Headers and lists -/

namespace JSRuntime

variable (rt : JSRuntime) (p q : GCPtr) (k : ℕ) (b : Bool)

/-- The block is there. -/
def has : Bool := (rt.header p).isSome

def refCount : ℕ := (rt.header p).elim 0 (·.refCount)

def marked : Bool := (rt.header p).elim false (·.mark)

def withCount : JSRuntime := rt.setHeader p ((rt.header p).map fun h => { h with refCount := k })

def withMark : JSRuntime := rt.setHeader p ((rt.header p).map fun h => { h with mark := b })

variable {rt p q k b}

theorem refCount_eq {h : JSGCObjectHeader} (hh : rt.header p = some h) : rt.refCount p = h.refCount := by
  rw [refCount, hh, Option.elim_some]

theorem marked_eq {h : JSGCObjectHeader} (hh : rt.header p = some h) : rt.marked p = h.mark := by
  rw [marked, hh, Option.elim_some]

theorem exists_header (h : rt.has p = true) : ∃ h, rt.header p = some h := Option.isSome_iff_exists.mp h

theorem has_of_refCount (h : 0 < rt.refCount p) : rt.has p = true := by
  unfold refCount at h
  unfold has
  cases hh : rt.header p with
  | none =>
    rw [hh] at h
    exact absurd h (Nat.lt_irrefl 0)
  | some _ => rfl

theorem header_setHeader (h : Option JSGCObjectHeader) :
    (rt.setHeader p h).header q = if q = p then h else rt.header q := Function.update_apply _ _ _ _

@[simp] theorem has_withCount : (rt.withCount p k).has q = rt.has q := by
  unfold has withCount
  rw [header_setHeader]
  split
  next h => rw [h, Option.isSome_map]
  · rfl

@[simp] theorem has_withMark : (rt.withMark p b).has q = rt.has q := by
  unfold has withMark
  rw [header_setHeader]
  split
  next h => rw [h, Option.isSome_map]
  · rfl

theorem refCount_withCount (h : rt.has p = true) :
    (rt.withCount p k).refCount q = if q = p then k else rt.refCount q := by
  obtain ⟨hd, hh⟩ := exists_header h
  unfold refCount withCount
  rw [header_setHeader, hh]
  split
  · rfl
  · rfl

@[simp] theorem refCount_withMark : (rt.withMark p b).refCount q = rt.refCount q := by
  unfold refCount withMark
  rw [header_setHeader]
  split
  next h =>
    rw [h]
    cases rt.header p <;> rfl
  · rfl

@[simp] theorem marked_withCount : (rt.withCount p k).marked q = rt.marked q := by
  unfold marked withCount
  rw [header_setHeader]
  split
  next h =>
    rw [h]
    cases rt.header p <;> rfl
  · rfl

theorem marked_withMark (h : rt.has p = true) :
    (rt.withMark p b).marked q = if q = p then b else rt.marked q := by
  obtain ⟨hd, hh⟩ := exists_header h
  unfold marked withMark
  rw [header_setHeader, hh]
  split
  · rfl
  · rfl

theorem header_withCount (h : q ≠ p) : (rt.withCount p k).header q = rt.header q := by
  unfold withCount
  rw [header_setHeader, if_neg h]

theorem header_withMark (h : q ≠ p) : (rt.withMark p b).header q = rt.header q := by
  unfold withMark
  rw [header_setHeader, if_neg h]

/-- A count that is not zero goes down. -/
theorem decRef_eq (h : rt.refCount p = k + 1) : rt.decRef p = some (k, rt.withCount p k) := by
  have hpos : 0 < rt.refCount p := by omega
  obtain ⟨hd, hh⟩ := exists_header (has_of_refCount hpos)
  rw [refCount_eq hh] at h
  unfold decRef withCount
  rw [hh]
  show (if hd.refCount = 0 then _ else _) = _
  rw [if_neg (by omega), h]
  rfl

theorem incRef_eq (h : rt.has p = true) :
    rt.incRef p = some (rt.refCount p + 1, rt.withCount p (rt.refCount p + 1)) := by
  obtain ⟨hd, hh⟩ := exists_header h
  unfold incRef withCount
  rw [refCount_eq hh, hh]
  rfl

theorem setMark_eq (h : rt.has p = true) : rt.setMark p b = some (rt.withMark p b) := by
  obtain ⟨hd, hh⟩ := exists_header h
  unfold setMark withMark
  rw [hh]
  rfl

end JSRuntime

/-- **A loop that has still to do some**, and keeps what is said of those. -/
theorem forEach_pending {α : Type} {f : α → JSRuntime → Option JSRuntime} {P : α → Prop}
    {I : List α → JSRuntime → Prop}
    (hf : ∀ a l rt, P a → I (a :: l) rt → ∃ rt', f a rt = some rt' ∧ I l rt') {l : List α}
    {rt : JSRuntime} (hP : ∀ a ∈ l, P a) (hI : I l rt) : ∃ rt', forEach f l rt = some rt' ∧ I [] rt' := by
  induction l generalizing rt with
  | nil => exact ⟨rt, rfl, hI⟩
  | cons a l ih =>
    obtain ⟨rt', hrt', hI'⟩ := hf a l rt (hP a List.mem_cons_self) hI
    obtain ⟨rt'', hrt'', hI''⟩ := ih (fun b hb => hP b (List.mem_cons_of_mem a hb)) hI'
    refine ⟨rt'', ?_, hI''⟩
    rw [forEach_cons, hrt']
    exact hrt''

/-! ## Between calls -/

/-- Between calls, every count is exact: that of the references from outside, and of those in the
blocks. -/
structure Accounted (ext : GCPtr → ℕ) (rt : JSRuntime) : Prop where
  phase : rt.gcPhase = .none
  zero : rt.gcZeroRefCountList = []
  tmp : rt.tmpObjList = []
  nodup : rt.gcObjList.Nodup
  listed : ∀ p, p ∈ rt.gcObjList ↔ rt.has p = true ∧ rt.mem.isOpen p = false
  counts : ∀ p, rt.refCount p = ext p + inCount rt.mem.refs rt.gcObjList p
  positive : ∀ p, rt.has p = true → 0 < rt.refCount p
  unmarked : ∀ p, rt.marked p = false
  exports : ∀ n, rt.has (.context n) = true → rt.mem.ExportsDetached n

/-- What the collector leaves alone while it counts. -/
structure Counting (rt₀ rt : JSRuntime) : Prop where
  mem : rt.mem = rt₀.mem
  phase : rt.gcPhase = .none
  zero : rt.gcZeroRefCountList = []
  has : ∀ p, rt.has p = rt₀.has p
  opened : ∀ p, rt₀.mem.isOpen p = true → rt.header p = rt₀.header p
  nodup : rt.gcObjList.Nodup
  nodupTmp : rt.tmpObjList.Nodup

theorem Counting.withCount {rt₀ rt : JSRuntime} (h : Counting rt₀ rt) {p : GCPtr}
    (hp : rt₀.mem.isOpen p = false) (k : ℕ) : Counting rt₀ (rt.withCount p k) where
  mem := h.mem
  phase := h.phase
  zero := h.zero
  has q := by rw [JSRuntime.has_withCount, h.has]
  opened := by
    intro q hq
    have hne : q ≠ p := by
      rintro rfl
      rw [hp] at hq
      cases hq
    rw [JSRuntime.header_withCount hne, h.opened q hq]
  nodup := h.nodup
  nodupTmp := h.nodupTmp

theorem Counting.withMark {rt₀ rt : JSRuntime} (h : Counting rt₀ rt) {p : GCPtr}
    (hp : rt₀.mem.isOpen p = false) (b : Bool) : Counting rt₀ (rt.withMark p b) where
  mem := h.mem
  phase := h.phase
  zero := h.zero
  has q := by rw [JSRuntime.has_withMark, h.has]
  opened := by
    intro q hq
    have hne : q ≠ p := by
      rintro rfl
      rw [hp] at hq
      cases hq
    rw [JSRuntime.header_withMark hne, h.opened q hq]
  nodup := h.nodup
  nodupTmp := h.nodupTmp

/-- The lists may change. -/
theorem Counting.withLists {rt₀ rt rt' : JSRuntime} (h : Counting rt₀ rt) (hmem : rt'.mem = rt.mem)
    (hphase : rt'.gcPhase = rt.gcPhase) (hzero : rt'.gcZeroRefCountList = [])
    (hheader : rt'.header = rt.header) (hgc : rt'.gcObjList.Nodup) (htmp : rt'.tmpObjList.Nodup) :
    Counting rt₀ rt' where
  mem := hmem.trans h.mem
  phase := hphase.trans h.phase
  zero := hzero
  has q := by
    rw [← h.has, JSRuntime.has, JSRuntime.has, hheader]
  opened := by
    intro q hq
    rw [hheader, h.opened q hq]
  nodup := hgc
  nodupTmp := htmp

variable {ext : GCPtr → ℕ} {rt₀ : JSRuntime}

/-- What the mark functions are called on, of a block that is on a list. -/
theorem Accounted.children (h₀ : Accounted ext rt₀) {p : GCPtr} (hp : p ∈ rt₀.gcObjList) :
    ∃ children, markChildren rt₀.mem p = some children ∧
      (∀ c ∈ children, rt₀.mem.isOpen c = false) ∧
      ∀ q, rt₀.mem.isOpen q = false → children.count q = (rt₀.mem.refs p).count q := by
  obtain ⟨hhas, hopen⟩ := (h₀.listed p).mp hp
  obtain ⟨children, hchildren, hperm⟩ := markChildren_eq hopen (by
    rintro n rfl
    exact h₀.exports n hhas)
  refine ⟨children, hchildren, ?_, ?_⟩
  · intro c hc
    have hlisted := (List.mem_filter.mp (hperm.mem_iff.mp hc)).2
    rwa [Bool.not_eq_true'] at hlisted
  · intro q hq
    have hlisted : rt₀.mem.listed q = true := by
      rw [Memory.listed, hq]
      rfl
    rw [hperm.count_eq, List.count_filter hlisted]

/-- A list that is walked: what comes after the cursor. -/
theorem linkNext_eq {l pre : List GCPtr} {p : GCPtr} {todo : List GCPtr} (hnodup : l.Nodup)
    (h : l = pre ++ p :: todo) : linkNext l p = todo.head? := by
  subst h
  have hpre : ∀ q ∈ pre, q ≠ p := by
    intro q hq
    exact (List.nodup_append.mp hnodup).2.2 q hq p List.mem_cons_self
  unfold linkNext
  rw [List.dropWhile_append_of_pos (by simpa using hpre)]
  simp

/-! ## The references are taken off -/

/-- In `gc_decref`: the blocks of `unmarked` have not been finished, those of `todo` not been begun, and
the references of `pend` are still to be taken off. -/
structure Decref (ext : GCPtr → ℕ) (rt₀ : JSRuntime) (unmarked todo pend : List GCPtr)
    (rt : JSRuntime) : Prop extends Counting rt₀ rt where
  counts : ∀ p, rt₀.mem.isOpen p = false →
    rt.refCount p = ext p + inCount rt₀.mem.refs todo p + pend.count p
  marks : ∀ p ∈ rt₀.gcObjList, rt.marked p = true ↔ p ∉ unmarked
  suffix : unmarked <:+ rt.gcObjList
  gc : ∀ p, p ∈ rt.gcObjList ↔ p ∈ rt₀.gcObjList ∧ ¬ (rt.marked p = true ∧ rt.refCount p = 0)
  tmp : ∀ p, p ∈ rt.tmpObjList ↔ p ∈ rt₀.gcObjList ∧ rt.marked p = true ∧ rt.refCount p = 0

/-- A list of which a member before `todo` is taken out. -/
theorem suffix_erase {l todo : List GCPtr} {p : GCPtr} (h : todo <:+ l) (hp : p ∉ todo) :
    todo <:+ l.erase p := by
  obtain ⟨pre, rfl⟩ := h
  by_cases hpre : p ∈ pre
  · rw [List.erase_append_left _ hpre]
    exact List.suffix_append _ _
  · rw [List.erase_of_not_mem]
    · exact List.suffix_append _ _
    · rw [List.mem_append]
      exact fun h => h.elim hpre hp

theorem nodup_concat {l : List GCPtr} {p : GCPtr} (h : l.Nodup) (hp : p ∉ l) : (l ++ [p]).Nodup :=
  List.nodup_append.mpr ⟨h, List.nodup_singleton p, by
    intro a ha b hb
    rw [List.mem_singleton] at hb
    rintro rfl
    exact hp (hb ▸ ha)⟩

variable {unmarked todo pend : List GCPtr} {rt : JSRuntime} {p c : GCPtr}

/-- A block whose count is not zero is one of those that the collector has lists for. -/
theorem Decref.mem_of_refCount (h₀ : Accounted ext rt₀) (h : Decref ext rt₀ unmarked todo pend rt)
    (hopen : rt₀.mem.isOpen p = false) (hpos : 0 < rt.refCount p) : p ∈ rt₀.gcObjList := by
  refine (h₀.listed p).mpr ⟨?_, hopen⟩
  rw [← h.has]
  exact JSRuntime.has_of_refCount hpos

theorem gcDecrefChild_ok (h₀ : Accounted ext rt₀) (hopen : rt₀.mem.isOpen c = false)
    (h : Decref ext rt₀ unmarked todo (c :: pend) rt) :
    ∃ rt', gcDecrefChild c rt = some rt' ∧ Decref ext rt₀ unmarked todo pend rt' := by
  have hcount := h.counts c hopen
  rw [List.count_cons_self] at hcount
  obtain ⟨k, hk⟩ : ∃ k, rt.refCount c = k + 1 := ⟨_, hcount⟩
  have hmem := h.mem_of_refCount h₀ hopen (by omega)
  have hhas : rt.has c = true := JSRuntime.has_of_refCount (by omega)
  obtain ⟨hd, hhd⟩ := JSRuntime.exists_header hhas
  have hcounts : ∀ q, rt₀.mem.isOpen q = false → (rt.withCount c k).refCount q =
      ext q + inCount rt₀.mem.refs todo q + pend.count q := by
    intro q hq
    rw [JSRuntime.refCount_withCount hhas]
    split
    next heq =>
      subst heq
      omega
    next hne =>
      rw [h.counts q hq, List.count_cons_of_ne (Ne.symm hne)]
  have htmpc : c ∉ rt.tmpObjList := by
    intro hc
    have hzero := ((h.tmp c).mp hc).2.2
    omega
  unfold gcDecrefChild
  rw [hhd, JSRuntime.decRef_eq hk]
  show ∃ rt', (if k = 0 ∧ hd.mark = true then _ else _) = some rt' ∧ _
  rw [← JSRuntime.marked_eq hhd]
  split
  next hmove =>
    -- It was finished, so it is not among those that the loop has before it.
    obtain ⟨hk0, hmark⟩ := hmove
    have hnot : c ∉ unmarked := (h.marks c hmem).mp hmark
    refine ⟨_, rfl, ⟨(h.toCounting.withCount hopen k).withLists rfl rfl ?_ rfl ?_ ?_, hcounts, ?_, ?_, ?_, ?_⟩⟩
    · show rt.gcZeroRefCountList.erase c = []
      rw [h.zero]
      rfl
    · exact h.nodup.erase c
    · show (rt.tmpObjList.erase c ++ [c]).Nodup
      rw [List.erase_of_not_mem htmpc]
      exact nodup_concat h.nodupTmp htmpc
    · intro q hq
      show (rt.withCount c k).marked q = true ↔ _
      rw [JSRuntime.marked_withCount]
      exact h.marks q hq
    · exact suffix_erase h.suffix hnot
    · intro q
      show q ∈ rt.gcObjList.erase c ↔
        _ ∧ ¬ ((rt.withCount c k).marked q = true ∧ (rt.withCount c k).refCount q = 0)
      rw [h.nodup.mem_erase_iff, h.gc, JSRuntime.marked_withCount, JSRuntime.refCount_withCount hhas]
      by_cases hqc : q = c
      · subst hqc
        rw [if_pos rfl]
        exact ⟨fun hq => absurd rfl hq.1, fun hq => absurd ⟨hmark, hk0⟩ hq.2⟩
      · rw [if_neg hqc]
        exact ⟨fun hq => hq.2, fun hq => ⟨hqc, hq⟩⟩
    · intro q
      show q ∈ rt.tmpObjList.erase c ++ [c] ↔
        _ ∧ (rt.withCount c k).marked q = true ∧ (rt.withCount c k).refCount q = 0
      rw [List.erase_of_not_mem htmpc, List.mem_append, List.mem_singleton, h.tmp,
        JSRuntime.marked_withCount, JSRuntime.refCount_withCount hhas]
      by_cases hqc : q = c
      · subst hqc
        rw [if_pos rfl]
        exact ⟨fun _ => ⟨hmem, hmark, hk0⟩, fun _ => .inr rfl⟩
      · rw [if_neg hqc]
        exact ⟨fun hq => hq.resolve_right hqc, .inl⟩
  next hstay =>
    refine ⟨_, rfl, ⟨h.toCounting.withCount hopen k, hcounts, ?_, h.suffix, ?_, ?_⟩⟩
    · intro q hq
      rw [JSRuntime.marked_withCount]
      exact h.marks q hq
    · intro q
      show q ∈ rt.gcObjList ↔ _
      rw [h.gc, JSRuntime.marked_withCount, JSRuntime.refCount_withCount hhas]
      by_cases hqc : q = c
      · subst hqc
        rw [if_pos rfl]
        exact ⟨fun hq => ⟨hq.1, fun hm => hstay ⟨hm.2, hm.1⟩⟩, fun hq => ⟨hq.1, fun hm => by omega⟩⟩
      · rw [if_neg hqc]
    · intro q
      show q ∈ rt.tmpObjList ↔ _
      rw [h.tmp, JSRuntime.marked_withCount, JSRuntime.refCount_withCount hhas]
      by_cases hqc : q = c
      · subst hqc
        rw [if_pos rfl]
        exact ⟨fun hq => by omega, fun hq => absurd ⟨hq.2.2, hq.2.1⟩ hstay⟩
      · rw [if_neg hqc]

/-- The block at the cursor is finished. -/
theorem gcMarkObject_ok (h₀ : Accounted ext rt₀) (hp : p ∈ rt₀.gcObjList)
    (h : Decref ext rt₀ (p :: todo) todo [] rt) :
    ∃ rt', gcMarkObject p rt = some rt' ∧ Decref ext rt₀ todo todo [] rt' := by
  obtain ⟨hhas₀, hopen⟩ := (h₀.listed p).mp hp
  have hhas : rt.has p = true := by rw [h.has, hhas₀]
  have hhas' : (rt.withMark p true).has p = true := by rw [JSRuntime.has_withMark, hhas]
  obtain ⟨hd, hhd⟩ := JSRuntime.exists_header hhas'
  have hnodup : (p :: todo).Nodup := h.suffix.sublist.nodup h.nodup
  have hnot : p ∉ todo := (List.nodup_cons.mp hnodup).1
  have hmark : rt.marked p = false := by
    rw [← Bool.not_eq_true, h.marks p hp, not_not]
    exact List.mem_cons_self
  have htmpp : p ∉ rt.tmpObjList := by
    rw [h.tmp, hmark]
    rintro ⟨-, hm, -⟩
    cases hm
  have hsuffix : todo <:+ rt.gcObjList := (List.suffix_cons p todo).trans h.suffix
  have hcounts : ∀ q, rt₀.mem.isOpen q = false → (rt.withMark p true).refCount q =
      ext q + inCount rt₀.mem.refs todo q + ([] : List GCPtr).count q := by
    intro q hq
    rw [JSRuntime.refCount_withMark, h.counts q hq]
  have hmarks : ∀ q ∈ rt₀.gcObjList, (rt.withMark p true).marked q = true ↔ q ∉ todo := by
    intro q hq
    rw [JSRuntime.marked_withMark hhas]
    split
    next heq =>
      rw [heq]
      exact ⟨fun _ => hnot, fun _ => rfl⟩
    next hne =>
      rw [h.marks q hq, List.mem_cons]
      exact ⟨fun hq hm => hq (.inr hm), fun hq hm => hm.elim hne hq⟩
  unfold gcMarkObject
  rw [JSRuntime.setMark_eq hhas]
  simp only [Option.bind_eq_bind, Option.bind_some, hhd]
  show ∃ rt', (if hd.refCount = 0 then _ else _) = some rt' ∧ _
  rw [← JSRuntime.refCount_eq hhd, JSRuntime.refCount_withMark]
  split
  next hzero =>
    -- All references to it have been taken away: it goes to `tmp_obj_list`.
    refine ⟨_, rfl, ⟨(h.toCounting.withMark hopen true).withLists rfl rfl ?_ rfl ?_ ?_, hcounts,
      hmarks, suffix_erase hsuffix hnot, ?_, ?_⟩⟩
    · show rt.gcZeroRefCountList.erase p = []
      rw [h.zero]
      rfl
    · exact h.nodup.erase p
    · show (rt.tmpObjList.erase p ++ [p]).Nodup
      rw [List.erase_of_not_mem htmpp]
      exact nodup_concat h.nodupTmp htmpp
    · intro q
      show q ∈ rt.gcObjList.erase p ↔
        _ ∧ ¬ ((rt.withMark p true).marked q = true ∧ (rt.withMark p true).refCount q = 0)
      rw [h.nodup.mem_erase_iff, h.gc, JSRuntime.marked_withMark hhas, JSRuntime.refCount_withMark]
      by_cases hqp : q = p
      · subst hqp
        rw [if_pos rfl]
        exact ⟨fun hq => absurd rfl hq.1, fun hq => absurd ⟨rfl, hzero⟩ hq.2⟩
      · rw [if_neg hqp]
        exact ⟨fun hq => hq.2, fun hq => ⟨hqp, hq⟩⟩
    · intro q
      show q ∈ rt.tmpObjList.erase p ++ [p] ↔
        _ ∧ (rt.withMark p true).marked q = true ∧ (rt.withMark p true).refCount q = 0
      rw [List.erase_of_not_mem htmpp, List.mem_append, List.mem_singleton, h.tmp,
        JSRuntime.marked_withMark hhas, JSRuntime.refCount_withMark]
      by_cases hqp : q = p
      · subst hqp
        rw [if_pos rfl]
        exact ⟨fun _ => ⟨hp, rfl, hzero⟩, fun _ => .inr rfl⟩
      · rw [if_neg hqp]
        exact ⟨fun hq => hq.resolve_right hqp, .inl⟩
  next hpos =>
    -- Something outside, or a block still to come, refers to it: it stays where it is.
    refine ⟨_, rfl, ⟨h.toCounting.withMark hopen true, hcounts, hmarks, hsuffix, ?_, ?_⟩⟩
    · intro q
      show q ∈ rt.gcObjList ↔ _
      rw [h.gc, JSRuntime.marked_withMark hhas, JSRuntime.refCount_withMark]
      by_cases hqp : q = p
      · subst hqp
        rw [hmark, if_pos rfl]
        exact ⟨fun hq => ⟨hq.1, fun hm => hpos hm.2⟩,
          fun hq => ⟨hq.1, fun hm => Bool.false_ne_true hm.1⟩⟩
      · rw [if_neg hqp]
    · intro q
      show q ∈ rt.tmpObjList ↔ _
      rw [h.tmp, JSRuntime.marked_withMark hhas, JSRuntime.refCount_withMark]
      by_cases hqp : q = p
      · subst hqp
        rw [hmark, if_pos rfl]
        exact ⟨fun hq => absurd hq.2.1 Bool.false_ne_true, fun hq => absurd hq.2.2 hpos⟩
      · rw [if_neg hqp]

theorem gcDecrefObject_ok (h₀ : Accounted ext rt₀) (h : Decref ext rt₀ (p :: todo) (p :: todo) [] rt) :
    ∃ rt', gcDecrefObject p rt = some rt' ∧ Decref ext rt₀ todo todo [] rt' := by
  have hp : p ∈ rt₀.gcObjList := ((h.gc p).mp (h.suffix.subset List.mem_cons_self)).1
  obtain ⟨hhas₀, -⟩ := (h₀.listed p).mp hp
  have hhas : rt.has p = true := by rw [h.has, hhas₀]
  obtain ⟨hd, hhd⟩ := JSRuntime.exists_header hhas
  have hmark : hd.mark = false := by
    rw [← JSRuntime.marked_eq hhd, ← Bool.not_eq_true, h.marks p hp, not_not]
    exact List.mem_cons_self
  obtain ⟨children, hchildren, hopen, hcount⟩ := h₀.children hp
  have hbegin : Decref ext rt₀ (p :: todo) todo children rt := by
    refine ⟨h.toCounting, ?_, h.marks, h.suffix, h.gc, h.tmp⟩
    intro q hq
    rw [h.counts q hq, inCount_cons, hcount q hq, List.count_nil]
    omega
  obtain ⟨rt₁, hrt₁, h₁⟩ := forEach_pending (I := fun pend => Decref ext rt₀ (p :: todo) todo pend)
    (P := fun c => rt₀.mem.isOpen c = false) (fun c pend rt hc h => gcDecrefChild_ok h₀ hc h) hopen
    hbegin
  obtain ⟨rt₂, hrt₂, h₂⟩ := gcMarkObject_ok h₀ hp h₁
  refine ⟨rt₂, ?_, h₂⟩
  unfold gcDecrefObject
  rw [hhd]
  show (if hd.mark = true then _ else _) = _
  rw [hmark, if_neg Bool.false_ne_true, h.mem, hchildren]
  show (forEach gcDecrefChild children rt).bind _ = _
  rw [hrt₁]
  exact hrt₂

theorem gcDecrefLoop_ok (h₀ : Accounted ext rt₀) {fuel : ℕ} (hfuel : todo.length ≤ fuel)
    (h : Decref ext rt₀ todo todo [] rt) :
    ∃ rt', gcDecrefLoop fuel todo.head? rt = some rt' ∧ Decref ext rt₀ [] [] [] rt' := by
  induction todo generalizing fuel rt with
  | nil => exact ⟨rt, by cases fuel <;> rfl, h⟩
  | cons p todo ih =>
    rw [List.length_cons] at hfuel
    obtain ⟨fuel, rfl⟩ : ∃ n, fuel = n + 1 := ⟨fuel - 1, by omega⟩
    obtain ⟨rt₁, hrt₁, h₁⟩ := gcDecrefObject_ok h₀ h
    obtain ⟨rt₂, hrt₂, h₂⟩ := ih (Nat.le_of_succ_le_succ hfuel) h₁
    refine ⟨rt₂, ?_, h₂⟩
    obtain ⟨pre, hpre⟩ := h.suffix
    have hnext : linkNext rt.gcObjList p = todo.head? := linkNext_eq h.nodup hpre.symm
    have hon : todo.head?.all (· ∈ rt₁.gcObjList) = true := by
      cases todo with
      | nil => rfl
      | cons q todo => simpa using h₁.suffix.subset List.mem_cons_self
    show (gcDecrefObject p rt).bind _ = _
    rw [hrt₁, hnext]
    show (if todo.head?.all (· ∈ rt₁.gcObjList) = true then _ else _) = _
    rw [if_pos hon, hrt₂]

/-- **`gc_decref` takes every reference in the blocks off the counts.** -/
theorem gcDecref_ok (h₀ : Accounted ext rt₀) :
    ∃ rt, gcDecref rt₀ = some rt ∧ Decref ext rt₀ [] [] [] rt := by
  have hbegin : Decref ext rt₀ rt₀.gcObjList rt₀.gcObjList [] { rt₀ with tmpObjList := [] } := by
    refine ⟨⟨rfl, h₀.phase, h₀.zero, fun _ => rfl, fun _ _ => rfl, h₀.nodup, List.nodup_nil⟩, ?_, ?_,
      List.suffix_rfl, ?_, ?_⟩
    · intro q _
      exact h₀.counts q
    · intro q hq
      show rt₀.marked q = true ↔ _
      rw [h₀.unmarked q]
      exact ⟨fun h => absurd h Bool.false_ne_true, fun h => absurd hq h⟩
    · intro q
      show q ∈ rt₀.gcObjList ↔ _ ∧ ¬ (rt₀.marked q = true ∧ _)
      rw [h₀.unmarked q]
      exact ⟨fun h => ⟨h, fun hm => Bool.false_ne_true hm.1⟩, fun h => h.1⟩
    · intro q
      show q ∈ [] ↔ _ ∧ rt₀.marked q = true ∧ _
      rw [h₀.unmarked q]
      exact ⟨fun h => absurd h List.not_mem_nil, fun h => absurd h.2.1 Bool.false_ne_true⟩
  exact gcDecrefLoop_ok h₀ (by unfold JSRuntime.fuel; omega) hbegin

/-! ## The references are given back -/

/-- In `gc_scan`: the references in the blocks of `done` have been given back, and those of `added`; the
cursor has passed the blocks of `visited`. -/
structure Scan (ext : GCPtr → ℕ) (rt₀ : JSRuntime) (visited done added : List GCPtr)
    (rt : JSRuntime) : Prop extends Counting rt₀ rt where
  counts : ∀ p, rt₀.mem.isOpen p = false →
    rt.refCount p = ext p + inCount rt₀.mem.refs done p + added.count p
  before : visited <+: rt.gcObjList
  unmarked : ∀ p ∈ visited, rt.marked p = false
  gc : ∀ p, p ∈ rt.gcObjList ↔ p ∈ rt₀.gcObjList ∧ 0 < rt.refCount p
  tmp : ∀ p, p ∈ rt.tmpObjList ↔ p ∈ rt₀.gcObjList ∧ rt.refCount p = 0
  reach : ∀ p ∈ rt.gcObjList, Reach rt₀.mem.refs ext p

variable {visited done added : List GCPtr}

/-- What a block on the list refers to is on the list, but for the variables on the stack. -/
theorem Accounted.mem_of_mem_refs (h₀ : Accounted ext rt₀) (hp : p ∈ rt₀.gcObjList)
    (hc : c ∈ rt₀.mem.refs p) (hopen : rt₀.mem.isOpen c = false) : c ∈ rt₀.gcObjList := by
  refine (h₀.listed c).mpr ⟨?_, hopen⟩
  apply JSRuntime.has_of_refCount
  rw [h₀.counts c]
  exact Nat.add_pos_right _ (inCount_pos hp hc)

theorem gcScanIncrefChild_ok (h₀ : Accounted ext rt₀) (hc : c ∈ rt₀.gcObjList)
    (hreach : Reach rt₀.mem.refs ext c) (h : Scan ext rt₀ visited done added rt) :
    ∃ rt', gcScanIncrefChild c rt = some rt' ∧ Scan ext rt₀ visited done (c :: added) rt' := by
  obtain ⟨hhas₀, hopen⟩ := (h₀.listed c).mp hc
  have hhas : rt.has c = true := by rw [h.has, hhas₀]
  have hcounts : ∀ q, rt₀.mem.isOpen q = false → (rt.withCount c (rt.refCount c + 1)).refCount q =
      ext q + inCount rt₀.mem.refs done q + (c :: added).count q := by
    intro q hq
    rw [JSRuntime.refCount_withCount hhas]
    split
    next heq =>
      rw [heq, List.count_cons_self, h.counts c hopen]
      omega
    next hne =>
      rw [h.counts q hq, List.count_cons_of_ne (Ne.symm hne)]
  unfold gcScanIncrefChild
  rw [JSRuntime.incRef_eq hhas]
  show ∃ rt', (if rt.refCount c + 1 = 1 then _ else _) = some rt' ∧ _
  split
  next hone =>
    -- It was on `tmp_obj_list`, and is on `gc_obj_list` from here on.
    have hzero : rt.refCount c = 0 := by omega
    have hnot : c ∉ rt.gcObjList := by
      intro hm
      have := ((h.gc c).mp hm).2
      omega
    have hvisited : c ∉ visited := fun hm => hnot (h.before.subset hm)
    have herase : rt.gcObjList.erase c = rt.gcObjList := List.erase_of_not_mem hnot
    have hhas' : (rt.withCount c (rt.refCount c + 1)).has c = true := by rw [JSRuntime.has_withCount, hhas]
    refine ⟨_, JSRuntime.setMark_eq hhas', ⟨((h.toCounting.withCount hopen _).withMark hopen false).withLists
      rfl rfl ?_ rfl ?_ ?_, ?_, ?_, ?_, ?_, ?_, ?_⟩⟩
    · show rt.gcZeroRefCountList.erase c = []
      rw [h.zero]
      rfl
    · show (rt.gcObjList.erase c ++ [c]).Nodup
      rw [herase]
      exact nodup_concat h.nodup hnot
    · exact h.nodupTmp.erase c
    · intro q hq
      show ((rt.withCount c _).withMark c false).refCount q = _
      rw [JSRuntime.refCount_withMark]
      exact hcounts q hq
    · show visited <+: rt.gcObjList.erase c ++ [c]
      rw [herase]
      exact h.before.trans (List.prefix_append _ _)
    · intro q hq
      show ((rt.withCount c _).withMark c false).marked q = false
      rw [JSRuntime.marked_withMark hhas', JSRuntime.marked_withCount]
      split
      · rfl
      · exact h.unmarked q hq
    · intro q
      show q ∈ rt.gcObjList.erase c ++ [c] ↔ _ ∧ 0 < ((rt.withCount c _).withMark c false).refCount q
      rw [herase, List.mem_append, List.mem_singleton, h.gc, JSRuntime.refCount_withMark,
        JSRuntime.refCount_withCount hhas]
      by_cases hqc : q = c
      · subst hqc
        rw [if_pos rfl]
        exact ⟨fun _ => ⟨hc, Nat.succ_pos _⟩, fun _ => .inr rfl⟩
      · rw [if_neg hqc]
        exact ⟨fun hq => hq.resolve_right hqc, .inl⟩
    · intro q
      show q ∈ rt.tmpObjList.erase c ↔ _ ∧ ((rt.withCount c _).withMark c false).refCount q = 0
      rw [h.nodupTmp.mem_erase_iff, h.tmp, JSRuntime.refCount_withMark, JSRuntime.refCount_withCount hhas]
      by_cases hqc : q = c
      · subst hqc
        rw [if_pos rfl]
        exact ⟨fun hq => absurd rfl hq.1, fun hq => absurd hq.2 (Nat.succ_ne_zero _)⟩
      · rw [if_neg hqc]
        exact ⟨fun hq => hq.2, fun hq => ⟨hqc, hq⟩⟩
    · intro q hq
      change q ∈ rt.gcObjList.erase c ++ [c] at hq
      rw [herase, List.mem_append, List.mem_singleton] at hq
      rcases hq with hq | rfl
      · exact h.reach q hq
      · exact hreach
  next hmore =>
    -- Another reference has brought it back before.
    have hpos : 0 < rt.refCount c := by omega
    refine ⟨_, rfl, ⟨h.toCounting.withCount hopen _, hcounts, h.before, ?_, ?_, ?_, h.reach⟩⟩
    · intro q hq
      rw [JSRuntime.marked_withCount]
      exact h.unmarked q hq
    · intro q
      show q ∈ rt.gcObjList ↔ _
      rw [h.gc, JSRuntime.refCount_withCount hhas]
      by_cases hqc : q = c
      · subst hqc
        rw [if_pos rfl]
        exact ⟨fun hq => ⟨hq.1, Nat.succ_pos _⟩, fun hq => ⟨hq.1, hpos⟩⟩
      · rw [if_neg hqc]
    · intro q
      show q ∈ rt.tmpObjList ↔ _
      rw [h.tmp, JSRuntime.refCount_withCount hhas]
      by_cases hqc : q = c
      · subst hqc
        rw [if_pos rfl]
        exact ⟨fun hq => absurd hq.2 (by omega), fun hq => absurd hq.2 (by omega)⟩
      · rw [if_neg hqc]

/-- The loop has to go through `children`, with `pend` still to do; `I` has the others. -/
def Partway (I : List GCPtr → JSRuntime → Prop) (children pend : List GCPtr) (rt : JSRuntime) : Prop :=
  ∃ added, I added rt ∧ ∀ q, added.count q + pend.count q = children.count q

theorem Partway.begin {I : List GCPtr → JSRuntime → Prop} {children : List GCPtr} (h : I [] rt) :
    Partway I children children rt :=
  ⟨[], h, fun q => by rw [List.count_nil, Nat.zero_add]⟩

/-- A member that goes from what is left to what is done. -/
theorem count_moved {children : List GCPtr}
    (h : ∀ q, added.count q + (c :: pend).count q = children.count q) (q : GCPtr) :
    (c :: added).count q + pend.count q = children.count q := by
  have h := h q
  rw [List.count_cons] at h ⊢
  omega

theorem gcScanObject_ok (h₀ : Accounted ext rt₀) (h : Scan ext rt₀ done done [] rt)
    (hlist : rt.gcObjList = done ++ p :: todo) :
    ∃ rt', gcScanObject p rt = some rt' ∧ Scan ext rt₀ (done ++ [p]) (done ++ [p]) [] rt' := by
  have hgc : p ∈ rt.gcObjList := by
    rw [hlist]
    exact List.mem_append_right _ List.mem_cons_self
  obtain ⟨hp, hpos⟩ := (h.gc p).mp hgc
  obtain ⟨hhas₀, hopen⟩ := (h₀.listed p).mp hp
  have hhas : rt.has p = true := by rw [h.has, hhas₀]
  obtain ⟨hd, hhd⟩ := JSRuntime.exists_header hhas
  obtain ⟨children, hchildren, hchild, hcount⟩ := h₀.children hp
  have hrefs : ∀ c ∈ children, c ∈ rt₀.mem.refs p := by
    intro c hc
    rw [← List.count_pos_iff, ← hcount c (hchild c hc)]
    exact List.count_pos_iff.mpr hc
  -- The block is visited as soon as its mark is off, and all its children are pending.
  have hbegin : Scan ext rt₀ (done ++ [p]) done [] (rt.withMark p false) := by
    refine ⟨h.toCounting.withMark hopen false, ?_, ?_, ?_, ?_, ?_, h.reach⟩
    · intro q hq
      rw [JSRuntime.refCount_withMark]
      exact h.counts q hq
    · refine ⟨todo, ?_⟩
      show _ = rt.gcObjList
      rw [hlist, List.append_assoc, List.singleton_append]
    · intro q hq
      rw [JSRuntime.marked_withMark hhas]
      split
      · rfl
      next hne =>
        rcases List.mem_append.mp hq with hq | hq
        · exact h.unmarked q hq
        · exact absurd (List.mem_singleton.mp hq) hne
    · intro q
      rw [JSRuntime.refCount_withMark]
      exact h.gc q
    · intro q
      rw [JSRuntime.refCount_withMark]
      exact h.tmp q
  -- A child gets its reference back; it can be reached, since the block can.
  have hchildStep : ∀ c pend rt, c ∈ children →
      Partway (Scan ext rt₀ (done ++ [p]) done) children (c :: pend) rt →
      ∃ rt', gcScanIncrefChild c rt = some rt' ∧
        Partway (Scan ext rt₀ (done ++ [p]) done) children pend rt' := by
    rintro c pend rt hc ⟨added, h', hadded⟩
    obtain ⟨rt', hrt', h''⟩ := gcScanIncrefChild_ok h₀
      (h₀.mem_of_mem_refs hp (hrefs c hc) (hchild c hc)) (.step (h.reach p hgc) (hrefs c hc)) h'
    exact ⟨rt', hrt', c :: added, h'', count_moved hadded⟩
  obtain ⟨rt₁, hrt₁, added, h₁, hadded⟩ :=
    forEach_pending (I := Partway _ children) hchildStep (fun c hc => hc) (.begin hbegin)
  refine ⟨rt₁, ?_, ⟨h₁.toCounting, ?_, h₁.before, h₁.unmarked, h₁.gc, h₁.tmp, h₁.reach⟩⟩
  · unfold gcScanObject
    rw [hhd]
    show (if hd.refCount = 0 then _ else _) = _
    rw [← JSRuntime.refCount_eq hhd, if_neg (by omega), JSRuntime.setMark_eq hhas]
    show (markChildren rt.mem p).bind _ = _
    rw [h.mem, hchildren]
    exact hrt₁
  · intro q hq
    have := hadded q
    rw [List.count_nil, Nat.add_zero, hcount q hq] at this
    rw [h₁.counts q hq, inCount_append, inCount_cons, inCount_nil, this, List.count_nil]
    omega

theorem gcScanLoop_ok (h₀ : Accounted ext rt₀) {fuel : ℕ}
    (hfuel : rt₀.gcObjList.length ≤ done.length + fuel) (h : Scan ext rt₀ done done [] rt)
    (hlist : rt.gcObjList = done ++ todo) :
    ∃ rt', gcScanLoop fuel todo.head? rt = some rt' ∧
      Scan ext rt₀ rt'.gcObjList rt'.gcObjList [] rt' := by
  induction fuel generalizing done todo rt with
  | zero =>
    -- As many blocks have been passed as there are.
    have htodo : todo = [] := by
      have hle := h.nodup.length_le_of_subset fun q hq => ((h.gc q).mp hq).1
      rw [hlist, List.length_append] at hle
      exact List.eq_nil_of_length_eq_zero (by omega)
    subst htodo
    rw [List.append_nil] at hlist
    exact ⟨rt, rfl, hlist ▸ h⟩
  | succ fuel ih =>
    cases todo with
    | nil =>
      rw [List.append_nil] at hlist
      exact ⟨rt, rfl, hlist ▸ h⟩
    | cons p todo =>
      obtain ⟨rt₁, hrt₁, h₁⟩ := gcScanObject_ok h₀ h hlist
      obtain ⟨todo₁, htodo₁⟩ := h₁.before
      rw [← List.append_cons] at htodo₁
      obtain ⟨rt₂, hrt₂, h₂⟩ := ih (by
        rw [List.length_append, List.length_singleton]
        omega) h₁ (htodo₁.symm.trans (List.append_cons _ _ _))
      refine ⟨rt₂, ?_, h₂⟩
      show (gcScanObject p rt).bind _ = _
      rw [hrt₁]
      show gcScanLoop fuel (linkNext rt₁.gcObjList p) rt₁ = _
      rw [linkNext_eq h₁.nodup htodo₁.symm, hrt₂]

/-- What the collector has found out: every count is as it was, and the blocks are divided. -/
structure Divided (ext : GCPtr → ℕ) (rt₀ rt : JSRuntime) : Prop extends Counting rt₀ rt where
  counts : ∀ p, rt.refCount p = rt₀.refCount p
  unmarked : ∀ p ∈ rt.gcObjList, rt.marked p = false
  live : ∀ p, p ∈ rt.gcObjList ↔ p ∈ rt₀.gcObjList ∧ Reach rt₀.mem.refs ext p
  dead : ∀ p, p ∈ rt.tmpObjList ↔ p ∈ rt₀.gcObjList ∧ ¬ Reach rt₀.mem.refs ext p

/-- In the second loop of `gc_scan`, which leaves the lists and the marks. -/
structure Restore (ext : GCPtr → ℕ) (rt₀ rt₁ : JSRuntime) (done added : List GCPtr)
    (rt : JSRuntime) : Prop extends Counting rt₀ rt where
  counts : ∀ p, rt₀.mem.isOpen p = false →
    rt.refCount p = ext p + inCount rt₀.mem.refs (rt₁.gcObjList ++ done) p + added.count p
  marked : ∀ p, rt.marked p = rt₁.marked p
  gc : rt.gcObjList = rt₁.gcObjList
  tmp : rt.tmpObjList = rt₁.tmpObjList

variable {rt₁ : JSRuntime}

theorem gcScanIncrefChild2_ok (h₀ : Accounted ext rt₀) (hc : c ∈ rt₀.gcObjList)
    (h : Restore ext rt₀ rt₁ done added rt) :
    ∃ rt', gcScanIncrefChild2 c rt = some rt' ∧ Restore ext rt₀ rt₁ done (c :: added) rt' := by
  obtain ⟨hhas₀, hopen⟩ := (h₀.listed c).mp hc
  have hhas : rt.has c = true := by rw [h.has, hhas₀]
  refine ⟨rt.withCount c (rt.refCount c + 1), ?_, h.toCounting.withCount hopen _, ?_, ?_, h.gc, h.tmp⟩
  · unfold gcScanIncrefChild2
    rw [JSRuntime.incRef_eq hhas]
    rfl
  · intro q hq
    rw [JSRuntime.refCount_withCount hhas]
    split
    next heq =>
      rw [heq, List.count_cons_self, h.counts c hopen]
      omega
    next hne =>
      rw [h.counts q hq, List.count_cons_of_ne (Ne.symm hne)]
  · intro q
    rw [JSRuntime.marked_withCount, h.marked]

theorem gcRestoreObject_ok (h₀ : Accounted ext rt₀) (hp : p ∈ rt₀.gcObjList)
    (h : Restore ext rt₀ rt₁ done [] rt) :
    ∃ rt', gcRestoreObject p rt = some rt' ∧ Restore ext rt₀ rt₁ (done ++ [p]) [] rt' := by
  obtain ⟨children, hchildren, hchild, hcount⟩ := h₀.children hp
  have hrefs : ∀ c ∈ children, c ∈ rt₀.mem.refs p := by
    intro c hc
    rw [← List.count_pos_iff, ← hcount c (hchild c hc)]
    exact List.count_pos_iff.mpr hc
  have hchildStep : ∀ c pend rt, c ∈ children →
      Partway (Restore ext rt₀ rt₁ done) children (c :: pend) rt →
      ∃ rt', gcScanIncrefChild2 c rt = some rt' ∧
        Partway (Restore ext rt₀ rt₁ done) children pend rt' := by
    rintro c pend rt hc ⟨added, h', hadded⟩
    obtain ⟨rt', hrt', h''⟩ := gcScanIncrefChild2_ok h₀
      (h₀.mem_of_mem_refs hp (hrefs c hc) (hchild c hc)) h'
    exact ⟨rt', hrt', c :: added, h'', count_moved hadded⟩
  obtain ⟨rt₂, hrt₂, added, h₂, hadded⟩ :=
    forEach_pending (I := Partway _ children) hchildStep (fun c hc => hc) (.begin h)
  refine ⟨rt₂, ?_, h₂.toCounting, ?_, h₂.marked, h₂.gc, h₂.tmp⟩
  · unfold gcRestoreObject
    rw [h.mem, hchildren]
    exact hrt₂
  · intro q hq
    have := hadded q
    rw [List.count_nil, Nat.add_zero, hcount q hq] at this
    rw [h₂.counts q hq, ← List.append_assoc, inCount_append _ [p], inCount_cons, inCount_nil, this,
      List.count_nil]
    omega

/-- The loop has `pend` of the list still to do. -/
def Restoring (ext : GCPtr → ℕ) (rt₀ rt₁ : JSRuntime) (pend : List GCPtr) (rt : JSRuntime) : Prop :=
  ∃ done, done ++ pend = rt₁.tmpObjList ∧ Restore ext rt₀ rt₁ done [] rt

/-- **`gc_scan` gives every reference back**, and divides the blocks by whether they can be reached. -/
theorem gcScan_ok (h₀ : Accounted ext rt₀) (h : Decref ext rt₀ [] [] [] rt) :
    ∃ rt', gcScan rt = some rt' ∧ Divided ext rt₀ rt' := by
  have hmarked : ∀ p ∈ rt₀.gcObjList, rt.marked p = true := by
    intro p hp
    exact (h.marks p hp).mpr List.not_mem_nil
  have hext : ∀ p, rt₀.mem.isOpen p = false → rt.refCount p = ext p := h.counts
  have hbegin : Scan ext rt₀ [] [] [] rt := by
    refine ⟨h.toCounting, h.counts, List.nil_prefix, fun p hp => absurd hp List.not_mem_nil, ?_, ?_, ?_⟩
    · intro p
      rw [h.gc]
      refine and_congr_right fun hp => ?_
      rw [hmarked p hp, Nat.pos_iff_ne_zero]
      exact ⟨fun h h0 => h ⟨rfl, h0⟩, fun h h0 => h h0.2⟩
    · intro p
      rw [h.tmp]
      refine and_congr_right fun hp => ?_
      rw [hmarked p hp]
      exact ⟨fun h => h.2, fun h => ⟨rfl, h⟩⟩
    · intro p hp
      obtain ⟨hp, hno⟩ := (h.gc p).mp hp
      rw [hmarked p hp, hext p ((h₀.listed p).mp hp).2] at hno
      exact .root (Nat.pos_of_ne_zero fun h0 => hno ⟨rfl, h0⟩)
  have hlen : rt₀.gcObjList.length ≤ ([] : List GCPtr).length + rt.fuel := by
    have hsub : rt₀.gcObjList ⊆ rt.gcObjList ++ rt.tmpObjList := by
      intro p hp
      rw [List.mem_append, hbegin.gc, hbegin.tmp]
      rcases Nat.eq_zero_or_pos (rt.refCount p) with h0 | h0
      · exact .inr ⟨hp, h0⟩
      · exact .inl ⟨hp, h0⟩
    have hle := h₀.nodup.length_le_of_subset hsub
    rw [List.length_append] at hle
    unfold JSRuntime.fuel
    omega
  obtain ⟨rt₁, hrt₁, h₁⟩ := gcScanLoop_ok h₀ hlen hbegin (List.nil_append _).symm
  have hdead : ∀ p ∈ rt₁.tmpObjList, p ∈ rt₀.gcObjList := fun p hp => ((h₁.tmp p).mp hp).1
  have hround : ∀ p pend rt, p ∈ rt₀.gcObjList → Restoring ext rt₀ rt₁ (p :: pend) rt →
      ∃ rt', gcRestoreObject p rt = some rt' ∧ Restoring ext rt₀ rt₁ pend rt' := by
    rintro p pend rt hp ⟨done, htmp, h'⟩
    obtain ⟨rt', hrt', h''⟩ := gcRestoreObject_ok h₀ hp h'
    refine ⟨rt', hrt', done ++ [p], ?_, h''⟩
    rw [List.append_assoc, List.singleton_append, htmp]
  obtain ⟨rt₂, hrt₂, done, htmp, h₂⟩ := forEach_pending (I := Restoring ext rt₀ rt₁) hround hdead
    ⟨[], rfl, ⟨h₁.toCounting, by rw [List.append_nil]; exact h₁.counts, fun _ => rfl, rfl, rfl⟩⟩
  rw [List.append_nil] at htmp
  subst htmp
  -- What is on `gc_obj_list` has what it refers to there too.
  have hclosed : ∀ p, Reach rt₀.mem.refs ext p → rt₀.mem.isOpen p = true ∨ p ∈ rt₁.gcObjList := by
    intro p hp
    have hcount : ∀ p, ext p + inCount rt₀.mem.refs rt₁.gcObjList p ≤
        (fun p => ext p + inCount rt₀.mem.refs rt₁.gcObjList p) p := fun _ => Nat.le_refl _
    refine reach_mem (S := fun p => rt₀.mem.isOpen p = true ∨ p ∈ rt₁.gcObjList) hcount ?_ ?_ hp
    · intro q hq
      by_cases hopen : rt₀.mem.isOpen q = true
      · exact .inl hopen
      · rw [Bool.not_eq_true] at hopen
        have hcount := h₁.counts q hopen
        rw [List.count_nil, Nat.add_zero] at hcount
        have hpos : 0 < rt₁.refCount q := by omega
        have hhas := JSRuntime.has_of_refCount hpos
        rw [h₁.has] at hhas
        exact .inr ((h₁.gc q).mpr ⟨(h₀.listed q).mpr ⟨hhas, hopen⟩, hpos⟩)
    · rintro q (hq | hq) hne
      · exact absurd (Memory.refs_of_isOpen hq) hne
      · exact hq
  have hlive : ∀ p, p ∈ rt₁.gcObjList ↔ p ∈ rt₀.gcObjList ∧ Reach rt₀.mem.refs ext p := by
    intro p
    refine ⟨fun hp => ⟨((h₁.gc p).mp hp).1, h₁.reach p hp⟩, ?_⟩
    rintro ⟨hp, hreach⟩
    refine (hclosed p hreach).resolve_left fun hopen => ?_
    rw [((h₀.listed p).mp hp).2] at hopen
    cases hopen
  have hdivide : ∀ p ∈ rt₀.gcObjList, p ∉ rt₁.gcObjList ↔ p ∈ rt₁.tmpObjList := by
    intro p hp
    rw [h₁.gc, h₁.tmp, Nat.pos_iff_ne_zero, not_and_not_right]
    exact ⟨fun h => ⟨hp, h hp⟩, fun h _ => h.2⟩
  have hperm : (rt₁.gcObjList ++ rt₁.tmpObjList).Perm rt₀.gcObjList := by
    rw [List.perm_ext_iff_of_nodup ?_ h₀.nodup]
    · intro p
      rw [List.mem_append]
      refine ⟨fun h => h.elim (fun h => ((h₁.gc p).mp h).1) (hdead p), fun hp => ?_⟩
      by_cases hgc : p ∈ rt₁.gcObjList
      · exact .inl hgc
      · exact .inr ((hdivide p hp).mp hgc)
    · refine List.nodup_append.mpr ⟨h₁.nodup, h₁.nodupTmp, ?_⟩
      rintro p hp q hq rfl
      exact (hdivide p (hdead p hq)).mpr hq hp
  refine ⟨rt₂, ?_, h₂.toCounting, ?_, ?_, ?_, ?_⟩
  · unfold gcScan
    rw [hrt₁]
    exact hrt₂
  · intro p
    by_cases hopen : rt₀.mem.isOpen p = true
    · rw [JSRuntime.refCount, h₂.opened p hopen, JSRuntime.refCount]
    · rw [Bool.not_eq_true] at hopen
      rw [h₂.counts p hopen, inCount_perm hperm, ← h₀.counts p, List.count_nil, Nat.add_zero]
  · intro p hp
    rw [h₂.gc] at hp
    rw [h₂.marked]
    exact h₁.unmarked p hp
  · intro p
    rw [h₂.gc]
    exact hlive p
  · intro p
    rw [h₂.tmp]
    constructor
    · intro hp
      exact ⟨hdead p hp, fun hreach =>
        (hdivide p (hdead p hp)).mpr hp ((hlive p).mpr ⟨hdead p hp, hreach⟩)⟩
    · rintro ⟨hp, hno⟩
      exact (hdivide p hp).mp fun hgc => hno ((hlive p).mp hgc).2

end JSChip.Gc
