import JSChip.Spec.Context

/-!
# Context handles

* `firstFree_spec`, `firstFree_eq_none`: ids are given out lowest free first.
* `compareThenRead_eq_iff`, `readThenCompare_eq_iff`: for which numbers each of the two
  hand-written checks does what it is meant to.
* `perform_eq_meant_iff`: **for which numbers each of the five functions does.** The number
  must have a value in `size_t`, and 128 is never rejected; where the table is read first,
  nothing from 128 on is.
-/

namespace JSChip

variable {F W : Type}

/-! ## Slots -/

theorem firstFree_spec {t : ContextTable F} {i : Fin maxContexts} (h : firstFree t = some i) :
    t i = none := by
  have := List.find?_some h
  simpa using this

theorem firstFree_eq_none {t : ContextTable F} : firstFree t = none ↔ ∀ i, t i ≠ none := by
  simp [firstFree, List.find?_eq_none]

/-! ## Numbers -/

/-- The slot of a number that converts is its value, if that is below 128. -/
theorem slot_of_toSize {x : LuaNumber} {n : ℕ} (h : x.toSize = .ok n) :
    x.slot = if h : n < maxContexts then some ⟨n, h⟩ else none := by
  unfold LuaNumber.toSize at h
  unfold LuaNumber.slot
  cases ht : x.truncate with
  | none => rw [ht] at h; cases h
  | some i =>
    rw [ht] at h
    simp only at h ⊢
    split at h
    · rename_i hi
      cases h
      by_cases hn : i.toNat < maxContexts <;> simp [hn, hi.1]
    · cases h

/-- The number pushed for a small natural number converts back. -/
theorem toSize_ofNat {n : ℕ} (h : n < 2 ^ 64) : (LuaNumber.ofNat n).toSize = .ok n := by
  have ht : (LuaNumber.ofNat n).truncate = some (n : ℤ) := by
    simp [LuaNumber.ofNat, LuaNumber.truncate]
  have hn : 0 ≤ (n : ℤ) ∧ (n : ℤ) < 2 ^ 64 := by omega
  rw [LuaNumber.toSize, ht]
  simp only [hn, and_self, if_true, Int.toNat_natCast]

/-! ## The two checks -/

/-- The table is read where the number says, or the read is undefined. -/
theorem read_of_lt (s : ApiState F W) {n : ℕ} (h : n < maxContexts) :
    s.read n = .ok ((s.contexts ⟨n, h⟩).map fun c => (⟨n, h⟩, c)) := by
  simp [ApiState.read, h]

theorem read_of_ge (s : ApiState F W) {n : ℕ} (h : maxContexts ≤ n) :
    s.read n = .error (.outOfBounds n) := by
  simp [ApiState.read, Nat.not_lt.2 h]

/-- Below 128 a check finds what is in the slot. -/
theorem onSlot_of_toSize {x : LuaNumber} {n : ℕ} (hx : x.toSize = .ok n) (h : n < maxContexts)
    (s : ApiState F W) (body : Body F W) :
    onSlot s x body = match (s.contexts ⟨n, h⟩).map fun c => ((⟨n, h⟩ : Fin maxContexts), c) with
      | some (i, c) => body s i c
      | none => (contextNotFound, s) := by
  rw [onSlot, slot_of_toSize hx, dif_pos h]
  cases hc : s.contexts ⟨n, h⟩ <;> simp [hc]

theorem onSlot_of_ge {x : LuaNumber} {n : ℕ} (hx : x.toSize = .ok n) (h : maxContexts ≤ n)
    (s : ApiState F W) (body : Body F W) : onSlot s x body = (contextNotFound, s) := by
  rw [onSlot, slot_of_toSize hx, dif_neg (Nat.not_lt.2 h)]

/-- **Comparing first** misses only the number 128. -/
theorem compareThenRead_eq_iff (s : ApiState F W) (x : LuaNumber) (body : Body F W) :
    compareThenRead s x body = .ok (onSlot s x body) ↔
      ∃ n, x.toSize = .ok n ∧ n ≠ maxContexts := by
  unfold compareThenRead
  cases hx : x.toSize with
  | error f => simp [bind, Except.bind]
  | ok n =>
    simp only [bind, Except.bind, pure, Except.pure, Except.ok.injEq, exists_eq_left']
    rcases Nat.lt_trichotomy n maxContexts with h | rfl | h
    · rw [if_neg (by omega), read_of_lt s h, onSlot_of_toSize hx h]
      refine iff_of_true ?_ (by omega)
      cases s.contexts ⟨n, h⟩ <;> rfl
    · rw [if_neg (by omega), read_of_ge s le_rfl]
      simp
    · rw [if_pos h, onSlot_of_ge hx h.le]
      exact iff_of_true rfl (by omega)

/-- **Reading first** is defined only inside the table. -/
theorem readThenCompare_eq_iff (s : ApiState F W) (x : LuaNumber) (body : Body F W) :
    readThenCompare s x body = .ok (onSlot s x body) ↔
      ∃ n, x.toSize = .ok n ∧ n < maxContexts := by
  unfold readThenCompare
  cases hx : x.toSize with
  | error f => simp [bind, Except.bind]
  | ok n =>
    simp only [bind, Except.bind, pure, Except.pure, Except.ok.injEq, exists_eq_left']
    rcases Nat.lt_or_ge n maxContexts with h | h
    · rw [read_of_lt s h, onSlot_of_toSize hx h]
      refine iff_of_true ?_ h
      simp only
      rw [if_neg (by omega)]
      cases s.contexts ⟨n, h⟩ <;> rfl
    · rw [read_of_ge s h]
      simpa using h

/-! ## The five functions -/

/-- The numbers a function handles: those with a value in `size_t`, except 128 where the
comparison comes first and except all from 128 on where the read does. -/
def ContextCall.Handles : ContextCall → LuaNumber → Prop
  | .getOps, x | .compile _ _, x | .freeContext, x => ∃ n, x.toSize = .ok n ∧ n ≠ maxContexts
  | .eval _ _, x | .emitEvent _ _, x => ∃ n, x.toSize = .ok n ∧ n < maxContexts

/-- **Exactly for the numbers it handles** does a function act on the slot the number names,
or report that there is no such context and change nothing, without undefined behaviour. -/
theorem perform_eq_meant_iff (e : Engine F W) (s : ApiState F W) (call : ContextCall) (x : LuaNumber) :
    call.perform e s x = .ok (call.meant e s x) ↔ call.Handles x := by
  cases call with
  | getOps => exact compareThenRead_eq_iff s x _
  | compile length script => exact compareThenRead_eq_iff s x _
  | freeContext => exact compareThenRead_eq_iff s x _
  | eval length bytecode => exact readThenCompare_eq_iff s x _
  | emitEvent eventName args => exact readThenCompare_eq_iff s x _

/-- No script can be reached: every evaluation answers `undefined`. -/
def idleEngine : Engine ℕ Unit :=
  ⟨fun s _ script => (.ok (some script), s), fun s _ _ => (.ok (some "undefined"), s),
    fun s _ _ => s, fun s _ _ => (.ok (some "undefined"), s)⟩

/-- `JS_GetOps(128)` reads `contexts[128]`. -/
theorem getOps_128 : ContextCall.perform idleEngine ⟨fun _ => none, ()⟩ (.ofNat 128) .getOps ≠
    .ok (ContextCall.meant idleEngine ⟨fun _ => none, ()⟩ (.ofNat 128) .getOps) := by
  intro h
  obtain ⟨n, hn, hne⟩ := (compareThenRead_eq_iff _ _ _).1 h
  rw [toSize_ofNat (by omega)] at hn
  exact hne (Except.ok.inj hn).symm

end JSChip
