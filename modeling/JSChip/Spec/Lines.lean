import JSChip.Spec.Object

/-!
# The lines of a function

The table of the lines, of which `compute_pc2line_info` makes the bytes that are in the file and
`find_line_num` finds the line of an instruction for a backtrace.
-/

namespace JSChip.Binary

open Codec
open Alloc (leb128)

/-- `PC2LINE_BASE` -/
def pc2lineBase : ℤ := -1
/-- `PC2LINE_RANGE` -/
def pc2lineRange : ℕ := 5
/-- `PC2LINE_OP_FIRST` -/
def pc2lineOpFirst : ℕ := 1
/-- `PC2LINE_DIFF_PC_MAX` -/
def pc2lineDiffPcMax : ℕ := (255 - pc2lineOpFirst) / pc2lineRange

/-- From this instruction on, this line. -/
structure LineNumberSlot where
  pc : BitVec 32
  lineNum : BitVec 32
deriving DecidableEq, Repr

/-- The slots of a `JSFunctionDef`: `line_number_count` is their number. -/
structure LineNumbers where
  slots : List LineNumberSlot
  size : ℕ
  last : BitVec 32
  lastPc : BitVec 32
deriving DecidableEq, Repr

/-- As `resolve_labels` begins with them. -/
def LineNumbers.start (lineNum : BitVec 32) (size : ℕ) : LineNumbers := ⟨[], size, lineNum, 0⟩

def addPc2lineInfo (s : LineNumbers) (pc lineNum : BitVec 32) : LineNumbers :=
  if s.slots.length < s.size ∧ s.lastPc ≤ pc ∧ lineNum ≠ s.last then
    { s with slots := s.slots ++ [⟨pc, lineNum⟩], last := lineNum, lastPc := pc }
  else s

/-- What `resolve_labels` does to a slot when it takes `delta` bytes away behind `pos`. -/
def LineNumberSlot.shrink (pos delta : BitVec 32) (slot : LineNumberSlot) : LineNumberSlot :=
  if pos < slot.pc then { slot with pc := slot.pc - delta } else slot

def LineNumbers.shrink (s : LineNumbers) (pos delta : BitVec 32) : LineNumbers :=
  { s with slots := s.slots.map (LineNumberSlot.shrink pos delta) }

/-- What is written of a slot, from its distance to the one before. -/
def putLine (diffPc diffLine : BitVec 32) : List UInt8 :=
  if pc2lineBase ≤ diffLine.toInt ∧ diffLine.toInt < pc2lineBase + pc2lineRange ∧
      diffPc.toInt ≤ pc2lineDiffPcMax then
    [UInt8.ofNat ((diffLine.toInt - pc2lineBase).toNat + diffPc.toNat * pc2lineRange + pc2lineOpFirst)]
  else
    0 :: (leb128 diffPc.toNat ++ leb128 ((diffLine <<< 1) ^^^ -(diffLine >>> 31) : BitVec 32).toNat)

/-- The loop of `compute_pc2line_info`, which skips a slot without a line, with the line of the one before, or
before that one. -/
def computePc2lineInfo : (lastPc lastLineNum : BitVec 32) → List LineNumberSlot → List UInt8
  | _, _, [] => []
  | lastPc, lastLineNum, slot :: slots =>
    if slot.lineNum.toInt < 0 then computePc2lineInfo lastPc lastLineNum slots
    else
      let diffPc := slot.pc - lastPc
      let diffLine := slot.lineNum - lastLineNum
      if diffLine = 0 ∨ diffPc.toInt < 0 then computePc2lineInfo lastPc lastLineNum slots
      else putLine diffPc diffLine ++ computePc2lineInfo slot.pc slot.lineNum slots

/-- A round of `find_line_num`: what the instruction and the line become. -/
def nextLine (pc lineNum : BitVec 32) : Reader (BitVec 32 × BitVec 32) := do
  let op ← bcGetU8
  if op = 0 then do
    let val ← bcGetLeb128
    let v ← bcGetSleb128
    pure (pc + val, lineNum + v)
  else
    let op := op.toNat - pc2lineOpFirst
    pure (pc + BitVec.ofNat 32 (op / pc2lineRange),
      lineNum + BitVec.ofNat 32 (op % pc2lineRange) + BitVec.ofInt 32 pc2lineBase)

/-- The loop of `find_line_num`, which answers `first` where the table is cut short. -/
def findLineLoop (first pcValue : BitVec 32) :
    (rounds : ℕ) → (pc lineNum : BitVec 32) → List UInt8 → BitVec 32
  | 0, _, lineNum, _ => lineNum
  | n + 1, pc, lineNum, p =>
    if p = [] then lineNum
    else
      match nextLine pc lineNum ⟨0, p⟩ with
      | .error _ => first
      | .ok (next, i) =>
        if pcValue < next.1 then lineNum else findLineLoop first pcValue n next.1 next.2 i.rest

/-- `find_line_num`; `pc2line_buf` is NULL if it has no bytes. -/
def findLineNum (debug : Option DebugInfo) (pcValue : BitVec 32) : BitVec 32 :=
  match debug with
  | none => -1
  | some debug =>
    if debug.pc2line = [] then -1
    else findLineLoop debug.lineNum pcValue debug.pc2line.length 0 debug.lineNum debug.pc2line

end JSChip.Binary
