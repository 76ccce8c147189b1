import Mathlib.Algebra.Group.Nat.Defs
import Mathlib.Data.Nat.Basic

/-!
# The op counter of a context

The fields `op_count` and `op_limit` of a `JSContext` and the functions on them.
`handle_op_limit` is what the metered opcodes of `JS_CallInternal` call first: it
charges the instruction and says whether the limit is passed. The limit error is
an ordinary exception, and the charge that fails stays on the counter.
-/

namespace JSChip

/-- `ctx->op_count` and `ctx->op_limit`, both `uint64_t`. -/
structure Meter where
  opCount : UInt64
  opLimit : UInt64
deriving DecidableEq, Repr

/-- A new context: nothing counted yet, limit 25000. -/
def Meter.new : Meter := ⟨0, 25000⟩

/-- `handle_op_limit`: charges `cost`, then answers `true` ("OP limit reached" is thrown)
when the counter is past the limit. The addition is the one of `uint64_t`. -/
def handleOpLimit (m : Meter) (cost : ℕ) : Bool × Meter :=
  let m' : Meter := { m with opCount := m.opCount + UInt64.ofNat cost }
  (decide (m'.opCount > m'.opLimit), m')

/-- `get_ops`. -/
def getOps (m : Meter) : UInt64 := m.opCount

/-- `set_ops`. -/
def setOps (m : Meter) (ops : UInt64) : Meter := { m with opCount := ops }

@[simp] theorem handleOpLimit_opLimit (m : Meter) (cost : ℕ) :
    (handleOpLimit m cost).2.opLimit = m.opLimit := rfl

@[simp] theorem setOps_opLimit (m : Meter) (ops : UInt64) : (setOps m ops).opLimit = m.opLimit := rfl

@[simp] theorem setOps_opCount (m : Meter) (ops : UInt64) : (setOps m ops).opCount = ops := rfl

/-- **The counter after a charge**, as long as 64 bits hold it. -/
theorem handleOpLimit_opCount {m : Meter} {cost : ℕ} (h : m.opCount.toNat + cost < 2 ^ 64) :
    (handleOpLimit m cost).2.opCount.toNat = m.opCount.toNat + cost := by
  have hc : cost % 2 ^ 64 = cost := Nat.mod_eq_of_lt (by omega)
  simp only [handleOpLimit, UInt64.toNat_add, UInt64.toNat_ofNat', hc]
  exact Nat.mod_eq_of_lt h

/-- A charge completes when the counter stays within the limit. -/
theorem handleOpLimit_eq_false {m : Meter} {cost : ℕ} :
    (handleOpLimit m cost).1 = false ↔
      (handleOpLimit m cost).2.opCount.toNat ≤ m.opLimit.toNat := by
  simp only [handleOpLimit, gt_iff_lt, decide_eq_false_iff_not, UInt64.lt_iff_toNat_lt]
  omega

end JSChip
