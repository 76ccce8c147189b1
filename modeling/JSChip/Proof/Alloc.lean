import Mathlib.Tactic.Abel
import JSChip.Machine.Run
import JSChip.Spec.Alloc

/-!
# Whether the runtime's memory is accounted for

The functions that count keep the distance between the counters and the blocks, and so does all that
QuickJS does. `lua_compile` then frees the bytecode by the `free` of the C library.

* `Off`: how far the counters are ahead of the blocks.
* `luaCompile_off`: each buffer that `lua_compile` frees puts them one block further ahead.
* `compile_accounted_iff`: **memory stays accounted for exactly as long as no call leaves a buffer**.
-/

namespace JSChip.Alloc

open Machine

variable {o : ℕ} {State : Type} {d e : SizeT} {s t : Runtime o State} {libc : Libc o}

/-! ## Counting -/

/-- `malloc_count` and `malloc_size` are ahead of the blocks, by `d` and by `e`. -/
structure Off (d e : SizeT) (s : Runtime o State) : Prop where
  count : s.mallocState.mallocCount = BitVec.ofNat 64 s.heap.live.card + d
  size : s.mallocState.mallocSize = BitVec.ofNat 64 s.heap.charged + e

theorem Heap.charged_lt' (h : Heap o) : h.charged < 2 ^ 64 := h.charged_lt

theorem accounted_iff_off : Accounted s ↔ Off 0 0 s := by
  have hcard : (BitVec.ofNat 64 s.heap.live.card).toNat = s.heap.live.card := by
    rw [BitVec.toNat_ofNat, Nat.mod_eq_of_lt s.heap.card_lt]
  have hcharged : (BitVec.ofNat 64 s.heap.charged).toNat = s.heap.charged := by
    rw [BitVec.toNat_ofNat, Nat.mod_eq_of_lt s.heap.charged_lt']
  constructor
  · rintro ⟨hcount, hsize⟩
    constructor
    · rw [add_zero]
      exact BitVec.eq_of_toNat_eq (hcount.trans hcard.symm)
    · rw [add_zero]
      exact BitVec.eq_of_toNat_eq (hsize.trans hcharged.symm)
  · rintro ⟨hcount, hsize⟩
    rw [add_zero] at hcount hsize
    exact ⟨hcount ▸ hcard, hsize ▸ hcharged⟩

/-- One block more than there are is not none more. -/
theorem not_accounted_of_off (h : Off 1 e s) : ¬ Accounted s := by
  intro hs
  have hcount := (accounted_iff_off.1 hs).count
  rw [h.count, add_zero] at hcount
  exact absurd (add_eq_left.1 hcount) (by decide)

namespace Heap

variable {h : Heap o} {p : ℕ}

theorem card_add (b : h.Place) : (h.add b).live.card = h.live.card + 1 :=
  Finset.card_insert_of_notMem b.fresh

theorem charged_add (b : h.Place) : (h.add b).charged = h.charged + (b.size + o) := sum_add h b

theorem usable_add (b : h.Place) : (h.add b).usable b.address = b.size := Function.update_self ..

theorem mem_add (b : h.Place) : b.address ∈ (h.add b).live := Finset.mem_insert_self ..

theorem card_remove (hp : p ∈ h.live) : (h.remove p).live.card + 1 = h.live.card :=
  Finset.card_erase_add_one hp

theorem charged_remove (hp : p ∈ h.live) :
    (h.remove p).charged + (h.usable p + o) = h.charged :=
  Finset.sum_erase_add h.live (fun q => h.usable q + o) hp

end Heap

/-- What is charged for a block. -/
def chargeOf (usable o : ℕ) : SizeT := BitVec.ofNat 64 usable + BitVec.ofNat 64 o

theorem Off.add (h : Off d e s) (b : s.heap.Place) {n : ℕ} :
    Off (d - 1) (e - chargeOf b.size o) { s with calls := n, heap := s.heap.add b } := by
  constructor
  · rw [h.count, Heap.card_add, BitVec.ofNat_add]
    abel
  · rw [h.size, Heap.charged_add, BitVec.ofNat_add, BitVec.ofNat_add, chargeOf]
    abel

theorem Off.remove (h : Off d e s) {p : ℕ} (hp : p ∈ s.heap.live) :
    Off (d + 1) (e + chargeOf (s.heap.usable p) o) { s with heap := s.heap.remove p } := by
  constructor
  · rw [h.count, ← Heap.card_remove hp, BitVec.ofNat_add]
    ac_rfl
  · rw [h.size, ← Heap.charged_remove hp, BitVec.ofNat_add, BitVec.ofNat_add, chargeOf]
    abel

/-! ## The C library -/

/-- A block that was added: the counters are behind by it. -/
structure Added (d e : SizeT) (p : ℕ) (s : Runtime o State) : Prop where
  mem : p ∈ s.heap.live
  off : Off (d - 1) (e - chargeOf (s.heap.usable p) o) s

theorem malloc_spec (h : Off d e s) {size : SizeT} :
    wp (malloc size) libc (fun p t => p.elim (Off d e t) fun p => Added d e p t) (fun _ => True) s := by
  unfold malloc
  rw [wp_bind, wp_read, wp_bind, wp_get]
  cases libc.malloc s.calls s.heap size with
  | none => exact ⟨h.count, h.size⟩
  | some b =>
    have husable := Heap.usable_add b
    have hoff := h.add b (n := s.calls + 1)
    rw [← husable] at hoff
    exact ⟨Heap.mem_add b, hoff⟩

theorem realloc_spec {p : ℕ} (hp : p ∈ s.heap.live) (h : Off d e s) {size : SizeT} :
    wp (realloc p size) libc
      (fun q t => q.elim (Off d e t) fun q =>
        Added (d + 1) (e + chargeOf (s.heap.usable p) o) q t) (fun _ => True) s := by
  unfold realloc
  rw [wp_bind, wp_read, wp_bind, wp_get, if_pos hp]
  cases libc.realloc s.calls s.heap p size with
  | none => exact ⟨h.count, h.size⟩
  | some b =>
    have husable := Heap.usable_add b
    have hoff := (h.remove hp).add b (n := s.calls + 1)
    rw [← husable] at hoff
    exact ⟨Heap.mem_add b, hoff⟩

theorem free_spec {p : ℕ} (h : Off d e s) :
    wp (free (some p)) libc
      (fun _ t => p ∈ s.heap.live ∧ Off (d + 1) (e + chargeOf (s.heap.usable p) o) t)
      (fun _ => True) s := by
  unfold free
  rw [wp_bind, wp_get]
  by_cases hp : p ∈ s.heap.live
  · rw [if_pos hp]
    exact ⟨hp, h.remove hp⟩
  · rw [if_neg hp]
    trivial

/-! ## The functions that count -/

theorem usableSize_spec {p : ℕ} {Q : SizeT → Runtime o State → Prop}
    (h : p ∈ s.heap.live → Q (BitVec.ofNat 64 (s.heap.usable p)) s) :
    wp (jsDefMallocUsableSize p) libc Q (fun _ => True) s := by
  unfold jsDefMallocUsableSize
  rw [wp_bind, wp_get]
  by_cases hp : p ∈ s.heap.live
  · rw [if_pos hp]
    exact h hp
  · rw [if_neg hp]
    trivial

theorem charge_spec {usable : ℕ} (h : Off (d - 1) (e - chargeOf usable o) s) :
    wp (charge (BitVec.ofNat 64 usable)) libc (fun _ t => Off d e t) (fun _ => True) s := by
  constructor
  · show s.mallocState.mallocCount + 1 = BitVec.ofNat 64 s.heap.live.card + d
    rw [h.count, add_assoc, sub_add_cancel]
  · show s.mallocState.mallocSize + chargeOf usable o = BitVec.ofNat 64 s.heap.charged + e
    rw [h.size, add_assoc, sub_add_cancel]

theorem discharge_spec (usable : ℕ) (h : Off d e s) :
    wp (discharge (BitVec.ofNat 64 usable)) libc
      (fun _ t => t.heap = s.heap ∧ Off (d - 1) (e - chargeOf usable o) t) (fun _ => True) s := by
  refine ⟨rfl, ?_, ?_⟩
  · show s.mallocState.mallocCount - 1 = BitVec.ofNat 64 s.heap.live.card + (d - 1)
    rw [h.count, add_sub_assoc]
  · show s.mallocState.mallocSize - chargeOf usable o =
      BitVec.ofNat 64 s.heap.charged + (e - chargeOf usable o)
    rw [h.size, add_sub_assoc]

theorem keeps_jsDefMalloc (size : SizeT) :
    Keeps (Off d e) (jsDefMalloc size : AllocM o State Ptr) := by
  intro libc s h
  unfold jsDefMalloc
  by_cases hsize : size = 0
  · rw [if_pos hsize]
    trivial
  rw [if_neg hsize, wp_bind, wp_get]
  by_cases hlimit : s.mallocState.mallocSize + size > s.mallocState.mallocLimit
  · rw [if_pos hlimit]
    exact h
  rw [if_neg hlimit, wp_bind]
  refine wp_mono ?_ (fun _ h => h) (malloc_spec h)
  intro p t hp
  cases p with
  | none => exact hp
  | some p =>
    rw [wp_bind]
    refine usableSize_spec fun _ => ?_
    rw [wp_bind]
    exact charge_spec hp.off

/-- Freeing a block that is charged for. -/
theorem discharge_free (h : Off d e s) (p : ℕ) :
    wp (discharge (BitVec.ofNat 64 (s.heap.usable p)) >>= fun _ => free (some p)) libc
      (fun _ t => Off d e t) (fun _ => True) s := by
  rw [wp_bind]
  refine wp_mono ?_ (fun _ h => h) (discharge_spec (s.heap.usable p) h)
  rintro - t ⟨hheap, hoff⟩
  refine wp_mono ?_ (fun _ h => h) (free_spec hoff)
  rintro - u ⟨-, hu⟩
  rwa [hheap, sub_add_cancel, sub_add_cancel] at hu

theorem keeps_jsDefFree (p : Ptr) : Keeps (Off d e) (jsDefFree p : AllocM o State Unit) := by
  intro libc s h
  cases p with
  | none => exact h
  | some p =>
    unfold jsDefFree
    rw [wp_bind]
    exact usableSize_spec fun _ => discharge_free h p

theorem keeps_jsDefRealloc (p : Ptr) (size : SizeT) :
    Keeps (Off d e) (jsDefRealloc p size : AllocM o State Ptr) := by
  intro libc s h
  unfold jsDefRealloc
  cases p with
  | none =>
    by_cases hsize : size = 0
    · simp only [if_pos hsize]
      exact h
    · simp only [if_neg hsize]
      exact keeps_jsDefMalloc size libc s h
  | some p =>
    rw [wp_bind]
    refine usableSize_spec fun hp => ?_
    by_cases hsize : size = 0
    · rw [if_pos hsize, ← bind_assoc, wp_bind]
      exact discharge_free h p
    rw [if_neg hsize, wp_bind, wp_get]
    split
    · exact h
    rw [wp_bind]
    refine wp_mono ?_ (fun _ h => h) (realloc_spec hp h)
    intro q t hq
    cases q with
    | none => exact hq
    | some q =>
      rw [wp_bind]
      refine usableSize_spec fun _ => ?_
      -- one block for one, and its size for the other's
      constructor
      · show t.mallocState.mallocCount = BitVec.ofNat 64 t.heap.live.card + d
        rw [hq.off.count, add_sub_cancel_right]
      · show t.mallocState.mallocSize +
            (BitVec.ofNat 64 (t.heap.usable q) - BitVec.ofNat 64 (s.heap.usable p)) =
          BitVec.ofNat 64 t.heap.charged + e
        rw [hq.off.size, chargeOf, chargeOf]
        abel

/-! ## QuickJS

All it does to memory it does through these functions. -/

theorem keeps_alloc (op : AllocOp) : Keeps (Off d e) (op.perform : AllocM o State op.Answer) := by
  cases op with
  | malloc size => exact keeps_jsDefMalloc size
  | free p => exact keeps_jsDefFree p
  | realloc p size => exact keeps_jsDefRealloc p size

theorem keeps_dbufRealloc (b : DynBuf) (size : SizeT) :
    Keeps (Off d e) (dbufRealloc b size : AllocM o State (Bool × DynBuf)) := by
  unfold dbufRealloc
  split
  · split
    · exact keeps_pure _
    · refine keeps_bind (keeps_jsDefRealloc _ _) fun p => ?_
      cases p with
      | none => exact keeps_pure _
      | some p => exact keeps_pure _
  · exact keeps_pure _

theorem keeps_dbufPut (b : DynBuf) (data : List UInt8) :
    Keeps (Off d e) (dbufPut b data : AllocM o State (Bool × DynBuf)) := by
  unfold dbufPut
  dsimp only
  split
  · refine keeps_bind (keeps_dbufRealloc _ _) fun x => ?_
    split
    · exact keeps_pure _
    · exact keeps_pure _
  · exact keeps_pure _

theorem keeps_dbufFree (b : DynBuf) :
    Keeps (Off d e) (dbufFree b : AllocM o State Unit) := by
  unfold dbufFree
  split
  · exact keeps_pure _
  · exact keeps_bind (keeps_jsDefRealloc _ _) fun _ => keeps_pure _

theorem keeps_dbufPuts (l : List (List UInt8)) : ∀ b : DynBuf,
    Keeps (Off d e) (dbufPuts b l : AllocM o State DynBuf) := by
  induction l with
  | nil => exact fun b => keeps_pure b
  | cons data l ih => exact fun b => keeps_bind (keeps_dbufPut b data) fun x => ih x.2

theorem keeps_jsWriteString (b : DynBuf) (str : JSString) :
    Keeps (Off d e) (jsWriteString b str : AllocM o State DynBuf) := by
  cases str with
  | str8 chars => exact keeps_bind (keeps_dbufPuts _ _) fun _ => keeps_dbufPuts _ _
  | str16 chars => exact keeps_bind (keeps_dbufPuts _ _) fun _ => keeps_dbufPuts _ _

theorem keeps_writer (op : WriterOp) (w : BCWriterState) :
    Keeps (Off d e) (op.perform w : AllocM o State (op.Answer × BCWriterState)) := by
  cases op with
  | alloc op => exact keeps_bind (keeps_alloc op) fun _ => keeps_pure _
  | put data => exact keeps_bind (keeps_dbufPut _ _) fun _ => keeps_pure _
  | resize array size =>
    refine keeps_bind (keeps_jsDefRealloc _ _) fun p => ?_
    cases p with
    | none => exact keeps_pure _
    | some p => exact keeps_pure _
  | addAtom atom => exact keeps_pure _

variable {engine : Engine}

theorem keeps_call {Op α ω : Type} {Answer : Op → Type}
    {handle : (op : Op) → ω → AllocM o engine.State (Answer op × ω)}
    (h : ∀ op w, Keeps (Off d e) (handle op w))
    (c : engine.State → Client Op Answer (α × engine.State)) (w : ω) :
    Keeps (Off d e) (call engine handle c w) := by
  unfold call
  refine keeps_bind keeps_get fun s => keeps_bind (keeps_interpret h _ w) fun x => ?_
  exact keeps_bind (keeps_modify fun t ht => ⟨ht.count, ht.size⟩) fun _ => keeps_pure _

theorem keeps_callAlloc {α : Type}
    (c : engine.State → Client AllocOp AllocOp.Answer (α × engine.State)) :
    Keeps (Off d e) (callAlloc engine c : AllocM o engine.State α) :=
  keeps_bind (keeps_call (fun op _ => keeps_bind (keeps_alloc op) fun _ => keeps_pure _) c ())
    fun _ => keeps_pure _

theorem keeps_writeAtoms (atoms : List ℕ) : ∀ b : DynBuf,
    Keeps (Off d e) (writeAtoms engine b atoms : AllocM o engine.State DynBuf) := by
  induction atoms with
  | nil => exact fun b => keeps_pure b
  | cons atom atoms ih =>
    exact fun b => keeps_bind keeps_get fun s => keeps_bind (keeps_jsWriteString b _) ih

theorem keeps_jsWriteObjectAtoms (w : BCWriterState) :
    Keeps (Off d e) (jsWriteObjectAtoms engine w : AllocM o engine.State _) := by
  unfold jsWriteObjectAtoms
  refine keeps_bind (keeps_dbufPuts _ _) fun b => keeps_bind (keeps_dbufPuts _ _) fun b => ?_
  refine keeps_bind (keeps_writeAtoms _ b) fun b => keeps_bind (keeps_dbufRealloc _ _) fun x => ?_
  dsimp only
  split
  · exact keeps_bind (keeps_dbufFree _) fun _ => keeps_pure _
  · exact keeps_bind (keeps_dbufFree _) fun _ => keeps_pure _

theorem keeps_jsWriteParts (obj : engine.Value) :
    Keeps (Off d e) (jsWriteParts engine obj : AllocM o engine.State _) := by
  unfold jsWriteParts
  refine keeps_bind (keeps_call keeps_writer _ _) fun x => ?_
  dsimp only
  split
  · exact keeps_jsWriteObjectAtoms _
  · exact keeps_pure _

theorem keeps_jsWriteObject (obj : engine.Value) :
    Keeps (Off d e) (jsWriteObject engine obj : AllocM o engine.State _) := by
  unfold jsWriteObject
  refine keeps_bind (keeps_jsWriteParts obj) fun x => ?_
  refine keeps_bind (keeps_jsDefFree _) fun _ => keeps_bind (keeps_jsDefFree _) fun _ => ?_
  refine keeps_bind (keeps_jsDefFree _) fun _ => keeps_bind (keeps_jsDefFree _) fun _ => ?_
  split
  · exact keeps_pure _
  · exact keeps_bind (keeps_dbufFree _) fun _ => keeps_pure _

theorem keeps_compile (length : ℕ) (script : List UInt8) :
    Keeps (Off d e) (compile engine length script : AllocM o engine.State _) := by
  unfold compile
  refine keeps_bind (keeps_callAlloc _) fun result => ?_
  cases result with
  | none => exact keeps_pure _
  | some result => exact keeps_bind (keeps_jsWriteObject result) fun _ => keeps_pure _

theorem keeps_freeCString (c : Option engine.CString) :
    Keeps (Off d e) (freeCString engine c : AllocM o engine.State Unit) := by
  cases c with
  | none => exact keeps_pure _
  | some c => exact keeps_callAlloc _

theorem keeps_pushException :
    Keeps (Off d e) (pushException engine : AllocM o engine.State (List Pushed)) :=
  keeps_bind (keeps_callAlloc _) fun _ => keeps_bind (keeps_callAlloc _) fun c =>
    keeps_bind (keeps_freeCString c) fun _ => keeps_bind (keeps_callAlloc _) fun _ => keeps_pure _

/-! ## Compiling -/

/-- What was compiled has a buffer. -/
def HasBuffer {Value : Type} (x : Option (Value × Ptr × List UInt8)) : Prop :=
  ∃ y ∈ x, y.2.1 ≠ none

/-- **A call leaves a buffer**: its script compiles, and the bytecode is written. -/
def LeavesBuffer (engine : Engine) (libc : Libc o) (s : Runtime o engine.State) (c : Call) : Prop :=
  1 ≤ c.1 ∧ wp (compile engine c.1 c.2) libc (fun x _ => HasBuffer x) (fun _ => False) s

/-- The counters behind a call of `lua_compile`: one block further ahead if there was a buffer. -/
structure AfterCall (buffer : Prop) (d e : SizeT) (s : Runtime o State) : Prop where
  left : buffer → ∃ e', Off (d + 1) e' s
  kept : ¬ buffer → Off d e s

/-- **What a call of `lua_compile` does to the counters.** -/
theorem luaCompile_off {s : Runtime o engine.State} (h : Off d e s) (c : Call) :
    wp (luaCompile engine c.1 c.2) libc
      (fun _ t => AfterCall (LeavesBuffer engine libc s c) d e t) (fun _ => True) s := by
  unfold luaCompile
  by_cases hlength : c.1 < 1
  · rw [if_pos hlength]
    exact ⟨fun hleaves => absurd hleaves.1 (by omega), fun _ => h⟩
  rw [if_neg hlength, wp_bind]
  have hcompile := wp_and (keeps_compile c.1 c.2 libc s h)
    (wp_decides (compile engine c.1 c.2) fun x _ => HasBuffer x)
  refine wp_mono ?_ (fun _ h => h) hcompile
  rintro x t ⟨ht, hx⟩
  have hleaves : LeavesBuffer engine libc s c ↔ HasBuffer x :=
    ⟨fun hl => hx.2 hl.2, fun hb => ⟨by omega, hx.1 hb⟩⟩
  rw [hleaves]
  rcases x with - | ⟨result, bytecode, bytes⟩
  · refine wp_mono (fun _ u hu => ⟨?_, fun _ => hu⟩) (fun _ h => h) (keeps_pushException libc t ht)
    rintro ⟨y, hy, -⟩
    cases hy
  -- freeing the value counts
  have hvalue : ∀ d e, Keeps (Off d e) (callAlloc engine (engine.freeValue result) >>= fun _ =>
      pure [Pushed.number 0, pushString (bytecode.map fun _ => bytes), .number bytes.length] :
        AllocM o engine.State (List Pushed)) :=
    fun d e => keeps_bind (keeps_callAlloc _) fun _ => keeps_pure _
  cases bytecode with
  | none =>
    refine wp_mono (fun _ u hu => ⟨?_, fun _ => hu⟩) (fun _ h => h) (hvalue d e libc t ht)
    rintro ⟨y, hy, hne⟩
    cases hy
    exact absurd rfl hne
  | some p =>
    have hbuffer : HasBuffer (some (result, some p, bytes)) := ⟨_, rfl, Option.some_ne_none p⟩
    rw [wp_bind]
    refine wp_mono ?_ (fun _ h => h) (free_spec ht)
    rintro - u ⟨-, hu⟩
    exact wp_mono (fun _ v hv => ⟨fun _ => ⟨_, hv⟩, fun hno => absurd hbuffer hno⟩) (fun _ h => h)
      (hvalue _ _ libc u hu)

theorem step_off {s t : Runtime o engine.State} {c : Call} (h : Off d e s)
    (hstep : step engine libc s c = some t) :
    AfterCall (LeavesBuffer engine libc s c) d e t := by
  have hcall : wp (luaCompile engine c.1 c.2) libc
      (fun _ t => AfterCall (LeavesBuffer engine libc s c) d e t) (fun _ => True) s :=
    luaCompile_off h c
  unfold step at hstep
  unfold wp at hcall
  cases hrun : luaCompile engine c.1 c.2 libc s with
  | ok x =>
    rw [hrun] at hstep hcall
    cases hstep
    exact hcall
  | error f =>
    rw [hrun] at hstep
    cases hstep

/-- **When memory stays accounted for**, over any calls of `JS_Compile`. -/
theorem compile_accounted_iff (engine : Engine) (libc : Libc o) (s : Runtime o engine.State)
    (h : Accounted s) (calls : List Call) :
    Always (step engine libc) Accounted s calls ↔
      Along (step engine libc) (fun s c => ¬ LeavesBuffer engine libc s c) s calls := by
  refine always_iff_along (I := Accounted) (fun _ h => h) ?_ ?_ calls h
  · intro s c t hs hc hstep
    exact accounted_iff_off.2 ((step_off (accounted_iff_off.1 hs) hstep).kept hc)
  · intro s c t hs hstep ht hleaves
    obtain ⟨e', hoff⟩ := (step_off (accounted_iff_off.1 hs) hstep).left hleaves
    rw [zero_add] at hoff
    exact not_accounted_of_off hoff ht

/-! One script that compiles, and one that does not. -/

/-- A C library that puts a block at the address that is the number of the call. -/
def bump : Libc 8 where
  malloc n h size :=
    if hn : n ∉ h.live ∧ h.live.card + 1 < 2 ^ 64 ∧ h.charged + (size.toNat + 8) < 2 ^ 64 then
      some ⟨n, size.toNat, hn.1, hn.2.1, hn.2.2⟩
    else none
  realloc n h p size :=
    if hn : n ∉ (h.remove p).live ∧ (h.remove p).live.card + 1 < 2 ^ 64 ∧
        (h.remove p).charged + (size.toNat + 8) < 2 ^ 64 then
      some ⟨n, size.toNat, hn.1, hn.2.1, hn.2.2⟩
    else none

/-- An engine that compiles the script `1`, to a value with a block of its own. For another script
the exception has a block, which is its state, and so has the message. -/
def compilesOne : Engine where
  State := Ptr
  Value := Ptr
  CString := ℕ
  eval length script s :=
    if script.take length = [0x31] then .perform (.malloc 96) fun p => .done (p.map some, s)
    else .perform (.malloc 48) fun p => .done (none, p)
  getException s := .done (s, none)
  toCString _ s := .perform (.malloc 32) fun p => .done (p, s)
  chars _ := [0x53, 0x79, 0x6e, 0x74, 0x61, 0x78, 0x45, 0x72, 0x72, 0x6f, 0x72]
  freeCString p s := .perform (.free (some p)) fun _ => .done ((), s)
  freeValue p s := .perform (.free p) fun _ => .done ((), s)
  writeObjectRec _ s := .perform (.put [0x0e]) fun _ => .done (true, s)
  atomArray _ _ := .str8 []
  bcVersion := 1

/-- A runtime before its first allocation. -/
def fresh : Runtime 8 Ptr := ⟨⟨0, 0, 655359⟩, Heap.empty, 0, none⟩

theorem fresh_accounted : Accounted fresh := ⟨rfl, rfl⟩

/-- The script `)`. -/
theorem unbalanced_accounted : Always (step compilesOne bump) Accounted fresh [(1, [0x29])] := by
  refine (compile_accounted_iff compilesOne bump fresh fresh_accounted _).2 fun t _ => ⟨?_, trivial⟩
  rintro ⟨-, y, hy, -⟩
  cases hy

/-- **The script `1`**: the counters are one block ahead. -/
theorem one_unaccounted : ¬ ∀ (o : ℕ) (engine : Engine) (libc : Libc o)
    (s : Runtime o engine.State) (calls : List Call), Accounted s →
    Always (step engine libc) Accounted s calls := by
  intro hall
  have halways := hall 8 compilesOne bump fresh [(1, [0x31])] fresh_accounted
  have hcounts : (step compilesOne bump fresh (1, [0x31])).map
      (fun t => (t.mallocState.mallocCount, t.heap.live.card)) = some (1, 0) := by
    decide +kernel
  obtain ⟨t, hstep, ht⟩ := Option.map_eq_some_iff.1 hcounts
  obtain ⟨hcount, hcard⟩ := Prod.mk.inj ht
  have haccounted := (halways.2 t hstep).head.1
  rw [hcount, hcard] at haccounted
  exact absurd haccounted (by decide)

end JSChip.Alloc
