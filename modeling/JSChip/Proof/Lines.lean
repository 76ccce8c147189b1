import JSChip.Machine.Run
import JSChip.Proof.Numbers
import JSChip.Spec.Lines

/-!
# The line of an instruction

* `exact_nextLine`: a slot is read as it was written, in the short form and in the long one.
* `findLineNum_computed`: the line that is found for an instruction is that of the last slot at or before it.
* `findLineNum_run`: the same of whatever slots the compiler makes.
-/

namespace JSChip.Binary

open Codec
open Machine
open Alloc (leb128)

/-! ## What is looked for -/

/-- The slots that have a line and are not behind the instruction. -/
def LineNumberSlot.reached (pcValue : BitVec 32) (slot : LineNumberSlot) : Bool :=
  0 ≤ slot.lineNum.toInt ∧ slot.pc ≤ pcValue

/-- The line of the last slot that is reached, or that of the function. -/
def lineAt (first : BitVec 32) (slots : List LineNumberSlot) (pcValue : BitVec 32) : BitVec 32 :=
  (slots.filter (LineNumberSlot.reached pcValue)).getLast?.elim first (·.lineNum)

/-- The slots are in the order of their instructions, which an `int` can tell apart. -/
structure Sorted (slots : List LineNumberSlot) : Prop where
  order : slots.Pairwise fun a b => a.pc ≤ b.pc
  bound : ∀ slot ∈ slots, slot.pc.toNat < 2 ^ 31

theorem lineAt_cons (first : BitVec 32) (slot : LineNumberSlot) (slots : List LineNumberSlot)
    (pcValue : BitVec 32) :
    lineAt first (slot :: slots) pcValue =
      lineAt (if slot.reached pcValue = true then slot.lineNum else first) slots pcValue := by
  unfold lineAt
  by_cases h : slot.reached pcValue = true
  · rw [List.filter_cons_of_pos h, if_pos h, List.getLast?_cons]
    cases (slots.filter (LineNumberSlot.reached pcValue)).getLast? <;> rfl
  · rw [List.filter_cons_of_neg h, if_neg h]

theorem lineAt_of_lt {first pcValue : BitVec 32} {slots : List LineNumberSlot}
    (h : ∀ slot ∈ slots, pcValue < slot.pc) : lineAt first slots pcValue = first := by
  have hnone : slots.filter (LineNumberSlot.reached pcValue) = [] := by
    apply List.filter_eq_nil_iff.mpr
    intro slot hslot hreached
    have hle := (of_decide_eq_true hreached).2
    have hlt := h slot hslot
    bv_omega
  unfold lineAt
  rw [hnone]
  rfl

/-! ## A slot -/

/-- A number that is no negative `int` is what it is as a `uint32_t`. -/
theorem toInt_eq_toNat {v : BitVec 32} (h : 0 ≤ v.toInt) : v.toInt = v.toNat := by
  have hlt := v.isLt
  rw [BitVec.toInt_eq_toNat_cond] at h ⊢
  split at h
  next hlow => rw [if_pos hlow]
  next => omega

/-- A line from its distance to `PC2LINE_BASE`. -/
theorem ofNat_add_base {v : BitVec 32} (h : pc2lineBase ≤ v.toInt) :
    BitVec.ofNat 32 (v.toInt - pc2lineBase).toNat + BitVec.ofInt 32 pc2lineBase = v := by
  have hcast : (((v.toInt - pc2lineBase).toNat : ℕ) : ℤ) = v.toInt - pc2lineBase := by omega
  rw [← BitVec.ofInt_natCast, ← BitVec.ofInt_add, hcast, Int.sub_add_cancel, BitVec.ofInt_toInt]

/-- The short form: a distance of less than `PC2LINE_RANGE` lines and at most `PC2LINE_DIFF_PC_MAX` bytes. -/
theorem exact_nextLine_short (pc lineNum : BitVec 32) {line bytes : ℕ} (hline : line < pc2lineRange)
    (hbytes : bytes ≤ pc2lineDiffPcMax) :
    Exact .readAfterEnd (nextLine pc lineNum)
      [UInt8.ofNat (line + bytes * pc2lineRange + pc2lineOpFirst)]
      (pc + BitVec.ofNat 32 bytes, lineNum + BitVec.ofNat 32 line + BitVec.ofInt 32 pc2lineBase) := by
  have hmax : pc2lineDiffPcMax = 50 := rfl
  have hop : (UInt8.ofNat (line + bytes * pc2lineRange + pc2lineOpFirst)).toNat =
      line + bytes * pc2lineRange + pc2lineOpFirst := by
    apply toNat_byte
    unfold pc2lineRange at hline ⊢
    unfold pc2lineOpFirst
    omega
  have hdiv : (line + bytes * pc2lineRange) / pc2lineRange = bytes := by
    unfold pc2lineRange at hline ⊢
    omega
  have hmod : (line + bytes * pc2lineRange) % pc2lineRange = line := by
    unfold pc2lineRange at hline ⊢
    omega
  generalize UInt8.ofNat (line + bytes * pc2lineRange + pc2lineOpFirst) = op at hop
  have hne : op ≠ 0 := by
    rintro rfl
    exact absurd hop (Nat.succ_ne_zero _).symm
  show Exact _ _ ([op] ++ []) _
  refine (Exact.byte op).bind ?_
  show Exact _ (if op = 0 then _ else pure (pc + BitVec.ofNat 32 ((op.toNat - pc2lineOpFirst) / pc2lineRange),
    lineNum + BitVec.ofNat 32 ((op.toNat - pc2lineOpFirst) % pc2lineRange) + BitVec.ofInt 32 pc2lineBase)) _ _
  rw [if_neg hne, hop, Nat.add_sub_cancel, hdiv, hmod]
  exact Exact.pure _

theorem exact_nextLine (pc lineNum diffPc diffLine : BitVec 32) (hpc : 0 ≤ diffPc.toInt) :
    Exact .readAfterEnd (nextLine pc lineNum) (putLine diffPc diffLine) (pc + diffPc, lineNum + diffLine) := by
  unfold putLine
  split
  next h =>
    obtain ⟨hbase, hrange, hmax⟩ := h
    have hint := toInt_eq_toNat hpc
    have hline : (diffLine.toInt - pc2lineBase).toNat < pc2lineRange := by omega
    have hbytes : diffPc.toNat ≤ pc2lineDiffPcMax := by omega
    have hshort := exact_nextLine_short pc lineNum hline hbytes
    rw [BitVec.add_assoc, ofNat_add_base hbase, BitVec.ofNat_toNat, BitVec.setWidth_eq] at hshort
    exact hshort
  next =>
    have hval := exact_bcGetLeb128 diffPc
    have hv := (exact_bcGetSleb128 diffLine).bind_nil
      (f := fun v => pure (pc + diffPc, lineNum + v)) (Exact.pure _)
    exact (Exact.byte 0).bind (hval.bind hv)

theorem putLine_ne_nil (diffPc diffLine : BitVec 32) : putLine diffPc diffLine ≠ [] := by
  unfold putLine
  split
  · exact List.cons_ne_nil _ _
  · exact List.cons_ne_nil _ _

/-! ## The table -/

variable {first pcValue lastPc lastLine : BitVec 32} {slot : LineNumberSlot} {slots : List LineNumberSlot}

theorem Sorted.tail (h : Sorted (slot :: slots)) : Sorted slots where
  order := (List.pairwise_cons.mp h.order).2
  bound s hs := h.bound s (List.mem_cons_of_mem slot hs)

theorem Sorted.after (h : Sorted (slot :: slots)) : ∀ s ∈ slots, slot.pc ≤ s.pc :=
  (List.pairwise_cons.mp h.order).1

/-- The distance to an instruction that comes later is no negative `int`. -/
theorem toInt_sub_nonneg {pc : BitVec 32} (hle : lastPc ≤ pc) (hpc : pc.toNat < 2 ^ 31) :
    0 ≤ (pc - lastPc).toInt := by
  have hsub : (pc - lastPc).toNat = pc.toNat - lastPc.toNat := BitVec.toNat_sub_of_le hle
  have hint : (pc - lastPc).toInt = (pc - lastPc).toNat := BitVec.toInt_eq_toNat_of_lt (by omega)
  omega

theorem computePc2lineInfo_skip (h : slot.lineNum.toInt < 0 ∨ slot.lineNum = lastLine) :
    computePc2lineInfo lastPc lastLine (slot :: slots) = computePc2lineInfo lastPc lastLine slots := by
  rw [computePc2lineInfo]
  by_cases hneg : slot.lineNum.toInt < 0
  · exact if_pos hneg
  · have hzero : slot.lineNum - lastLine = 0 := by
      rw [h.resolve_left hneg]
      exact BitVec.sub_self lastLine
    exact (if_neg hneg).trans (if_pos (Or.inl hzero))

theorem computePc2lineInfo_put (h : ¬ (slot.lineNum.toInt < 0 ∨ slot.lineNum = lastLine))
    (hdiff : 0 ≤ (slot.pc - lastPc).toInt) :
    computePc2lineInfo lastPc lastLine (slot :: slots) =
      putLine (slot.pc - lastPc) (slot.lineNum - lastLine) ++ computePc2lineInfo slot.pc slot.lineNum slots := by
  have hline : ¬ (slot.lineNum - lastLine = 0 ∨ (slot.pc - lastPc).toInt < 0) := by
    rintro (hzero | hneg)
    · refine h (.inr ?_)
      bv_omega
    · omega
  rw [computePc2lineInfo]
  exact (if_neg fun hneg => h (.inl hneg)).trans (if_neg hline)

/-- The table is empty if every line is that of the function. -/
theorem computePc2lineInfo_eq_nil (hsorted : Sorted slots) (hlast : ∀ s ∈ slots, lastPc ≤ s.pc) :
    computePc2lineInfo lastPc lastLine slots = [] ↔
      ∀ s ∈ slots, s.lineNum.toInt < 0 ∨ s.lineNum = lastLine := by
  induction slots with
  | nil => exact iff_of_true rfl fun s hs => absurd hs List.not_mem_nil
  | cons slot slots ih =>
    rw [List.forall_mem_cons]
    by_cases hskip : slot.lineNum.toInt < 0 ∨ slot.lineNum = lastLine
    · rw [computePc2lineInfo_skip hskip, ih hsorted.tail fun s hs => hlast s (List.mem_cons_of_mem slot hs)]
      exact (and_iff_right hskip).symm
    · have hdiff := toInt_sub_nonneg (hlast slot List.mem_cons_self) (hsorted.bound slot List.mem_cons_self)
      rw [computePc2lineInfo_put hskip hdiff]
      refine iff_of_false (fun h => ?_) fun h => hskip h.1
      exact putLine_ne_nil _ _ (List.append_eq_nil_iff.mp h).1

/-- **The loop over the table**: the line so far is that of the last slot before those that are left. -/
theorem findLineLoop_computed (hsorted : Sorted slots) (hlast : ∀ s ∈ slots, lastPc ≤ s.pc)
    (hpc : lastPc ≤ pcValue) {rounds : ℕ}
    (hrounds : (computePc2lineInfo lastPc lastLine slots).length ≤ rounds) :
    findLineLoop first pcValue rounds lastPc lastLine (computePc2lineInfo lastPc lastLine slots) =
      lineAt lastLine slots pcValue := by
  induction slots generalizing lastPc lastLine rounds with
  | nil => cases rounds <;> rfl
  | cons slot slots ih =>
    rw [lineAt_cons]
    by_cases hskip : slot.lineNum.toInt < 0 ∨ slot.lineNum = lastLine
    · -- Such a slot says nothing new: it has no line, or the line that it follows.
      have hline : (if slot.reached pcValue = true then slot.lineNum else lastLine) = lastLine := by
        rcases hskip with hneg | hsame
        · refine if_neg fun hreached => ?_
          have hle := (of_decide_eq_true hreached).1
          omega
        · rw [hsame, ite_self]
      rw [computePc2lineInfo_skip hskip] at hrounds ⊢
      rw [hline]
      exact ih hsorted.tail (fun s hs => hlast s (List.mem_cons_of_mem slot hs)) hpc hrounds
    · have hdiff := toInt_sub_nonneg (hlast slot List.mem_cons_self) (hsorted.bound slot List.mem_cons_self)
      rw [computePc2lineInfo_put hskip hdiff] at hrounds ⊢
      have hne := putLine_ne_nil (slot.pc - lastPc) (slot.lineNum - lastLine)
      have hpos := List.length_pos_of_ne_nil hne
      rw [List.length_append] at hrounds
      obtain ⟨n, rfl⟩ : ∃ n, rounds = n + 1 := ⟨rounds - 1, by omega⟩
      -- A round reads this slot, and stops there if it is behind the instruction.
      have hread := (exact_nextLine lastPc lastLine (slot.pc - lastPc) (slot.lineNum - lastLine) hdiff).reads 0
        (computePc2lineInfo slot.pc slot.lineNum slots)
      have hnextPc : lastPc + (slot.pc - lastPc) = slot.pc := by bv_omega
      have hnextLine : lastLine + (slot.lineNum - lastLine) = slot.lineNum := by bv_omega
      rw [hnextPc, hnextLine] at hread
      unfold findLineLoop
      rw [if_neg fun h => hne (List.append_eq_nil_iff.mp h).1, hread]
      dsimp only
      by_cases hlt : pcValue < slot.pc
      · have hunreached : ¬ slot.reached pcValue = true := by
          intro hreached
          have hle := (of_decide_eq_true hreached).2
          bv_omega
        rw [if_pos hlt, if_neg hunreached]
        refine (lineAt_of_lt fun s hs => ?_).symm
        have hle := hsorted.after s hs
        bv_omega
      · have hle : slot.pc ≤ pcValue := by bv_omega
        have hreached : slot.reached pcValue = true := by
          refine decide_eq_true ⟨?_, hle⟩
          exact Int.not_lt.mp fun hneg => hskip (.inl hneg)
        rw [if_neg hlt, if_pos hreached]
        exact ih hsorted.tail hsorted.after hle (by omega)

/-- **The line of an instruction** is that of the last slot at or before it; if no slot has another line than
the function, no line is found. -/
theorem findLineNum_computed (debug : DebugInfo) (hsorted : Sorted slots)
    (htable : debug.pc2line = computePc2lineInfo 0 debug.lineNum slots) (pcValue : BitVec 32) :
    findLineNum (some debug) pcValue =
      if ∀ s ∈ slots, s.lineNum.toInt < 0 ∨ s.lineNum = debug.lineNum then -1
      else lineAt debug.lineNum slots pcValue := by
  have hzero : ∀ pc : BitVec 32, 0 ≤ pc := fun pc => Nat.zero_le pc.toNat
  have hlast : ∀ s ∈ slots, 0 ≤ s.pc := fun s _ => hzero s.pc
  unfold findLineNum
  dsimp only
  rw [htable]
  by_cases hnil : computePc2lineInfo 0 debug.lineNum slots = []
  · rw [if_pos hnil, if_pos ((computePc2lineInfo_eq_nil hsorted hlast).mp hnil)]
  · rw [if_neg hnil, if_neg fun h => hnil ((computePc2lineInfo_eq_nil hsorted hlast).mpr h)]
    exact findLineLoop_computed hsorted hlast (hzero pcValue) (Nat.le_refl _)

/-! ## The slots -/

/-- What `add_pc2line_info` keeps: the slots are sorted, and none is behind the last one. -/
structure LineNumbers.Ok (s : LineNumbers) : Prop where
  sorted : Sorted s.slots
  last : ∀ slot ∈ s.slots, slot.pc ≤ s.lastPc

theorem LineNumbers.Ok.add {s : LineNumbers} (h : s.Ok) {pc : BitVec 32} (hpc : pc.toNat < 2 ^ 31)
    (lineNum : BitVec 32) : (addPc2lineInfo s pc lineNum).Ok := by
  unfold addPc2lineInfo
  split
  next hadd =>
    have hbefore : ∀ slot ∈ s.slots, slot.pc ≤ pc := by
      intro slot hslot
      have hle := h.last slot hslot
      have hnext := hadd.2.1
      bv_omega
    refine ⟨⟨?_, ?_⟩, ?_⟩
    · refine List.pairwise_append.mpr ⟨h.sorted.order, List.pairwise_singleton _ _, fun a ha b hb => ?_⟩
      rw [List.mem_singleton.mp hb]
      exact hbefore a ha
    · intro slot hslot
      rcases List.mem_append.mp hslot with hslot | hslot
      · exact h.sorted.bound slot hslot
      · rw [List.mem_singleton.mp hslot]
        exact hpc
    · intro slot hslot
      rcases List.mem_append.mp hslot with hslot | hslot
      · exact hbefore slot hslot
      · rw [List.mem_singleton.mp hslot]
        exact BitVec.le_refl _
  next => exact h

/-- A slot before the bytes that go stays, and one after them comes nearer by as many. -/
theorem LineNumberSlot.shrink_cases {pos delta : BitVec 32} {slot : LineNumberSlot}
    (hout : slot.pc ≤ pos ∨ pos.toNat + delta.toNat ≤ slot.pc.toNat) :
    slot.pc.toNat ≤ pos.toNat ∧ (slot.shrink pos delta).pc.toNat = slot.pc.toNat ∨
      pos.toNat + delta.toNat ≤ slot.pc.toNat ∧
        (slot.shrink pos delta).pc.toNat = slot.pc.toNat - delta.toNat := by
  unfold LineNumberSlot.shrink
  by_cases hpos : pos < slot.pc
  · have hge : pos.toNat + delta.toNat ≤ slot.pc.toNat := by
      rcases hout with hle | hge
      · bv_omega
      · exact hge
    have hdelta : delta ≤ slot.pc := Nat.le_trans (Nat.le_add_left _ _) hge
    rw [if_pos hpos]
    exact .inr ⟨hge, BitVec.toNat_sub_of_le hdelta⟩
  · rw [if_neg hpos]
    exact .inl ⟨Nat.le_of_not_lt hpos, rfl⟩

theorem LineNumbers.Ok.shrink {s : LineNumbers} (h : s.Ok) {pos delta : BitVec 32}
    (hout : ∀ slot ∈ s.slots, slot.pc ≤ pos ∨ pos.toNat + delta.toNat ≤ slot.pc.toNat) :
    (s.shrink pos delta).Ok := by
  have hle : ∀ slot ∈ s.slots, (slot.shrink pos delta).pc ≤ slot.pc := by
    intro slot hslot
    rw [BitVec.le_def]
    have hcases := LineNumberSlot.shrink_cases (hout slot hslot)
    omega
  refine ⟨⟨?_, ?_⟩, ?_⟩
  · refine List.pairwise_map.mpr (h.sorted.order.imp_of_mem fun {a b} ha hb hab => ?_)
    have hab : a.pc.toNat ≤ b.pc.toNat := hab
    have ha := LineNumberSlot.shrink_cases (hout a ha)
    have hb := LineNumberSlot.shrink_cases (hout b hb)
    rw [BitVec.le_def]
    omega
  · intro slot hslot
    obtain ⟨old, hold, rfl⟩ := List.mem_map.mp hslot
    exact Nat.lt_of_le_of_lt (hle old hold) (h.sorted.bound old hold)
  · intro slot hslot
    obtain ⟨old, hold, rfl⟩ := List.mem_map.mp hslot
    exact BitVec.le_trans (hle old hold) (h.last old hold)

/-! ## What the compiler does -/

inductive LineAction
  | add (pc lineNum : BitVec 32)
  | shrink (pos delta : BitVec 32)
deriving DecidableEq, Repr

namespace LineNumbers

variable (s : LineNumbers)

/-- The code is no longer than an `int` can say, and no instruction with a slot is among the bytes that go. -/
def Allows : LineAction → Prop
  | .add pc _ => pc.toNat < 2 ^ 31
  | .shrink pos delta => ∀ slot ∈ s.slots, slot.pc ≤ pos ∨ pos.toNat + delta.toNat ≤ slot.pc.toNat

def perform : LineAction → Option LineNumbers
  | .add pc lineNum => some (addPc2lineInfo s pc lineNum)
  | .shrink pos delta => some (s.shrink pos delta)

instance : (a : LineAction) → Decidable (s.Allows a)
  | .add pc _ => inferInstanceAs (Decidable (pc.toNat < 2 ^ 31))
  | .shrink pos delta =>
    inferInstanceAs (Decidable (∀ slot ∈ s.slots, slot.pc ≤ pos ∨ pos.toNat + delta.toNat ≤ slot.pc.toNat))

end LineNumbers

theorem LineNumbers.Ok.start (lineNum : BitVec 32) (size : ℕ) : (LineNumbers.start lineNum size).Ok where
  sorted := ⟨List.Pairwise.nil, fun _ hslot => absurd hslot List.not_mem_nil⟩
  last _ hslot := absurd hslot List.not_mem_nil

theorem LineNumbers.perform_ok (s : LineNumbers) (a : LineAction) (h : s.Ok) (ha : s.Allows a) :
    ∃ s', s.perform a = some s' ∧ s'.Ok := by
  cases a with
  | add pc lineNum => exact ⟨_, rfl, h.add ha lineNum⟩
  | shrink pos delta => exact ⟨_, rfl, h.shrink ha⟩

/-- **Whatever slots the compiler makes**, and wherever it shortens the code behind them, a backtrace has for an
instruction the line of the last slot at or before it, or no line where none differs from that of the function. -/
theorem findLineNum_run (lineNum : BitVec 32) (size : ℕ) (as : List LineAction)
    (h : Permits LineNumbers.perform LineNumbers.Allows (.start lineNum size) as) :
    ∃ s, run LineNumbers.perform (.start lineNum size) as = some s ∧
      ∀ debug : DebugInfo, debug.lineNum = lineNum → debug.pc2line = computePc2lineInfo 0 lineNum s.slots →
        ∀ pcValue, findLineNum (some debug) pcValue =
          if ∀ slot ∈ s.slots, slot.lineNum.toInt < 0 ∨ slot.lineNum = lineNum then -1
          else lineAt lineNum s.slots pcValue := by
  obtain ⟨s, hrun, hok⟩ := run_of_permits LineNumbers.perform_ok as (.start lineNum size) h
  refine ⟨s, hrun, ?_⟩
  rintro debug rfl htable pcValue
  exact findLineNum_computed debug hok.sorted htable pcValue

/-- The first line is that of the function, the third is far away, and a jump before it becomes shorter. -/
def threeLines : List LineAction := [.add 0 1, .add 4 2, .add 12 40, .shrink 7 3]

theorem findLineNum_threeLines :
    ∃ s, run LineNumbers.perform (.start 1 8) threeLines = some s ∧
      ∀ debug : DebugInfo, debug.lineNum = 1 → debug.pc2line = computePc2lineInfo 0 1 s.slots →
        ∀ pcValue, findLineNum (some debug) pcValue =
          if ∀ slot ∈ s.slots, slot.lineNum.toInt < 0 ∨ slot.lineNum = 1 then -1
          else lineAt 1 s.slots pcValue :=
  findLineNum_run 1 8 threeLines (by decide)

end JSChip.Binary
