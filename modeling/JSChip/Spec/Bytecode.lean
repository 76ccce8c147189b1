import Mathlib.Algebra.GroupWithZero.Nat
import Mathlib.Data.Finset.Insert
import JSChip.Spec.Meter

/-!
# The dispatch loop

`JS_CallInternal` runs one activation of a compiled body. It is entered from a call
opcode, or from C code that runs on behalf of an opcode: a getter or setter, an iterator
method, a callback of a built-in function, a generator that is resumed.

* `Op`: the opcodes, with their length (`Op.size`) and what each charges first thing
  (`Op.cost`), as `quickjs-opcode.h` and `JS_CallInternal` have them.
* `Vm.step`: one step of the machine. Values are not modelled. What depends on them (which
  way a branch goes, whether a property has a getter, whether an operation throws) is
  part of the action, so the machine has every run of the program and more.
* `dispatched` and `charged` count what the loop did: instructions, and the sum of the
  costs passed to `handle_op_limit`, the failing charges included.

A run is one entry of the host. `JS_EmitEvent` sets `op_count` to 0: a script that reaches it
again, through the host, is in the run of another entry, with a count of its own.
-/

namespace JSChip.Bytecode

/-! ## Opcodes -/

/-- `OPCodeEnum`, the opcodes that reach the dispatch loop. -/
inductive Op
  | opInvalid | opPushI32 | opPushConst | opFclosure | opPushAtomValue | opPrivateSymbol
  | opUndefined | opNull | opPushThis | opPushFalse | opPushTrue | opObject | opSpecialObject
  | opRest | opDrop | opNip | opNip1 | opDup | opDup1 | opDup2 | opDup3 | opInsert2 | opInsert3
  | opInsert4 | opPerm3 | opPerm4 | opPerm5 | opSwap | opSwap2 | opRot3l | opRot3r | opRot4l
  | opRot5l | opCallConstructor | opCall | opTailCall | opCallMethod | opTailCallMethod
  | opArrayFrom | opApply | opReturn | opReturnUndef | opCheckCtorReturn | opCheckCtor
  | opCheckBrand | opAddBrand | opReturnAsync | opThrow | opThrowError | opEval | opApplyEval
  | opRegexp | opGetSuper | opImport | opCheckVar | opGetVarUndef | opGetVar | opPutVar
  | opPutVarInit | opPutVarStrict | opGetRefValue | opPutRefValue | opDefineVar
  | opCheckDefineVar | opDefineFunc | opGetField | opGetField2 | opPutField | opGetPrivateField
  | opPutPrivateField | opDefinePrivateField | opGetArrayEl | opGetArrayEl2 | opPutArrayEl
  | opGetSuperValue | opPutSuperValue | opDefineField | opSetName | opSetNameComputed
  | opSetProto | opSetHomeObject | opDefineArrayEl | opAppend | opCopyDataProperties
  | opDefineMethod | opDefineMethodComputed | opDefineClass | opDefineClassComputed | opGetLoc
  | opPutLoc | opSetLoc | opGetArg | opPutArg | opSetArg | opGetVarRef | opPutVarRef
  | opSetVarRef | opSetLocUninitialized | opGetLocCheck | opPutLocCheck | opPutLocCheckInit
  | opGetVarRefCheck | opPutVarRefCheck | opPutVarRefCheckInit | opCloseLoc | opIfFalse
  | opIfTrue | opGoto | opCatch | opGosub | opRet | opToObject | opToPropkey | opToPropkey2
  | opWithGetVar | opWithPutVar | opWithDeleteVar | opWithMakeRef | opWithGetRef
  | opWithGetRefUndef | opMakeLocRef | opMakeArgRef | opMakeVarRefRef | opMakeVarRef
  | opForInStart | opForOfStart | opForAwaitOfStart | opForInNext | opForOfNext
  | opIteratorCheckObject | opIteratorGetValueDone | opIteratorClose | opIteratorCloseReturn
  | opIteratorNext | opIteratorCall | opInitialYield | opYield | opYieldStar | opAsyncYieldStar
  | opAwait | opNeg | opPlus | opDec | opInc | opPostDec | opPostInc | opDecLoc | opIncLoc
  | opAddLoc | opNot | opLnot | opTypeof | opDelete | opDeleteVar | opMul | opDiv | opMod
  | opAdd | opSub | opPow | opShl | opSar | opShr | opLt | opLte | opGt | opGte | opInstanceof
  | opIn | opEq | opNeq | opStrictEq | opStrictNeq | opAnd | opXor | opOr | opIsUndefinedOrNull
  | opMulPow10 | opMathMod | opNop | opPushMinus1 | opPush0 | opPush1 | opPush2 | opPush3
  | opPush4 | opPush5 | opPush6 | opPush7 | opPushI8 | opPushI16 | opPushConst8 | opFclosure8
  | opPushEmptyString | opGetLoc8 | opPutLoc8 | opSetLoc8 | opGetLoc0 | opGetLoc1 | opGetLoc2
  | opGetLoc3 | opPutLoc0 | opPutLoc1 | opPutLoc2 | opPutLoc3 | opSetLoc0 | opSetLoc1
  | opSetLoc2 | opSetLoc3 | opGetArg0 | opGetArg1 | opGetArg2 | opGetArg3 | opPutArg0
  | opPutArg1 | opPutArg2 | opPutArg3 | opSetArg0 | opSetArg1 | opSetArg2 | opSetArg3
  | opGetVarRef0 | opGetVarRef1 | opGetVarRef2 | opGetVarRef3 | opPutVarRef0 | opPutVarRef1
  | opPutVarRef2 | opPutVarRef3 | opSetVarRef0 | opSetVarRef1 | opSetVarRef2 | opSetVarRef3
  | opGetLength | opIfFalse8 | opIfTrue8 | opGoto8 | opGoto16 | opCall0 | opCall1 | opCall2
  | opCall3 | opIsUndefined | opIsNull | opTypeofIsUndefined | opTypeofIsFunction
deriving DecidableEq, Repr

/-- The length of an instruction in bytes. -/
def Op.size : Op → ℕ
  | .opSpecialObject | .opCopyDataProperties | .opDefineMethodComputed | .opForOfNext
  | .opIteratorCall | .opDecLoc | .opIncLoc | .opAddLoc | .opPushI8 | .opPushConst8
  | .opFclosure8 | .opGetLoc8 | .opPutLoc8 | .opSetLoc8 | .opIfFalse8 | .opIfTrue8 | .opGoto8 => 2
  | .opRest | .opCallConstructor | .opCall | .opTailCall | .opCallMethod | .opTailCallMethod
  | .opArrayFrom | .opApply | .opApplyEval | .opGetLoc | .opPutLoc | .opSetLoc | .opGetArg
  | .opPutArg | .opSetArg | .opGetVarRef | .opPutVarRef | .opSetVarRef | .opSetLocUninitialized
  | .opGetLocCheck | .opPutLocCheck | .opPutLocCheckInit | .opGetVarRefCheck
  | .opPutVarRefCheck | .opPutVarRefCheckInit | .opCloseLoc | .opPushI16 | .opGoto16 => 3
  | .opPushI32 | .opPushConst | .opFclosure | .opPushAtomValue | .opPrivateSymbol | .opEval
  | .opCheckVar | .opGetVarUndef | .opGetVar | .opPutVar | .opPutVarInit | .opPutVarStrict
  | .opGetField | .opGetField2 | .opPutField | .opDefineField | .opSetName | .opIfFalse
  | .opIfTrue | .opGoto | .opCatch | .opGosub | .opMakeVarRef | .opDeleteVar => 5
  | .opThrowError | .opDefineVar | .opCheckDefineVar | .opDefineFunc | .opDefineMethod
  | .opDefineClass | .opDefineClassComputed => 6
  | .opMakeLocRef | .opMakeArgRef | .opMakeVarRefRef => 7
  | .opWithGetVar | .opWithPutVar | .opWithDeleteVar | .opWithMakeRef | .opWithGetRef
  | .opWithGetRefUndef => 10
  | _ => 1

/-- What an instruction passes to `handle_op_limit` before anything else; `0` for the
opcodes that do not call it. -/
def Op.cost : Op → ℕ
  | .opPushI32 | .opPushConst | .opPushAtomValue | .opUndefined | .opNull | .opPushFalse
  | .opPushTrue | .opCallConstructor | .opCall | .opTailCall | .opCallMethod
  | .opTailCallMethod | .opThrow | .opRegexp | .opIfFalse | .opIfTrue | .opGoto | .opCatch
  | .opPlus | .opDec | .opInc | .opPostDec | .opPostInc | .opDecLoc | .opIncLoc | .opAddLoc
  | .opNot | .opLnot | .opTypeof | .opDelete | .opAdd | .opSub | .opLt | .opLte | .opGt
  | .opGte | .opInstanceof | .opIn | .opEq | .opNeq | .opStrictEq | .opStrictNeq
  | .opPushMinus1 | .opPush0 | .opPush1 | .opPush2 | .opPush3 | .opPush4 | .opPush5 | .opPush6
  | .opPush7 | .opPushI8 | .opPushI16 | .opPushConst8 | .opFclosure8 | .opPushEmptyString
  | .opGetLength | .opIfFalse8 | .opIfTrue8 | .opGoto8 | .opGoto16 | .opCall0 | .opCall1
  | .opCall2 | .opCall3 => 1
  | .opObject | .opSpecialObject | .opRest | .opApply | .opNeg | .opMul | .opDiv | .opMod
  | .opPow | .opAnd | .opXor | .opOr | .opMulPow10 | .opMathMod => 2
  | .opArrayFrom | .opShl | .opSar | .opShr => 3
  | .opEval | .opApplyEval => 10
  | _ => 0

/-- The second charge, at `binary_arith_slow`, of the operators whose fast path jumps there. -/
def Op.slowCost : Op → ℕ
  | .opMul | .opDiv | .opMod | .opMathMod | .opSub => 2
  | _ => 0

/-- Where control can go from an instruction. -/
inductive Flow
  /-- to the next instruction -/
  | straight
  /-- to a callee, then to the next instruction -/
  | call
  /-- to a callee, then out of the activation -/
  | tailCall
  /-- to the target -/
  | jump
  /-- to the target or to the next instruction -/
  | branch
  /-- to the instruction after a `gosub` -/
  | ret
  /-- out of the activation -/
  | leave
  /-- out of the activation, which is kept to be resumed at the next instruction -/
  | suspend
  /-- to the exception handler -/
  | raise
deriving DecidableEq, Repr

def Op.flow : Op → Flow
  | .opCall | .opCall0 | .opCall1 | .opCall2 | .opCall3 | .opCallMethod | .opCallConstructor
  | .opApply | .opEval | .opApplyEval => .call
  | .opTailCall | .opTailCallMethod => .tailCall
  | .opGoto | .opGoto8 | .opGoto16 | .opGosub => .jump
  | .opIfFalse | .opIfTrue | .opIfFalse8 | .opIfTrue8 | .opWithGetVar | .opWithPutVar
  | .opWithDeleteVar | .opWithMakeRef | .opWithGetRef | .opWithGetRefUndef => .branch
  | .opRet => .ret
  | .opReturn | .opReturnUndef | .opReturnAsync => .leave
  | .opInitialYield | .opYield | .opYieldStar | .opAsyncYieldStar | .opAwait => .suspend
  | .opThrow | .opThrowError | .opInvalid => .raise
  | _ => .straight

/-! ## Programs -/

/-- An instruction with its jump target (of a jump, a branch, `catch` or `gosub`), as the
position of an instruction of the same body. -/
structure Instr where
  op : Op
  target : ℕ
deriving DecidableEq, Repr

/-- `byte_code_buf` of a compiled function body. -/
abbrev Body := List Instr

def Body.size (code : Body) : ℕ := (code.map fun i => i.op.size).sum

/-- The compiled bodies, called by their position. -/
abbrev Program := List Body

/-- The total length of the bodies in bytes. -/
def Program.size (p : Program) : ℕ := (p.map Body.size).sum

/-- The instructions after a `gosub`, which is what `ret` finds on the stack. -/
def Body.returnPoints (code : Body) : List ℕ :=
  ((List.range code.length).filter fun k => decide ((code[k]?).map Instr.op = some .opGosub)).map (· + 1)

/-- The handlers of the body: `catch` pushes its target as a catch offset. -/
def Body.handlers (code : Body) : List ℕ :=
  (code.filter fun i => decide (i.op = .opCatch)).map Instr.target

/-- Where the activation can be after the instruction at `pc`. After a tail call it is at the
end, where it is left. -/
def Instr.successors (i : Instr) (code : Body) (pc : ℕ) : List ℕ :=
  match i.op.flow with
  | .straight | .call | .suspend => [pc + 1]
  | .tailCall => [code.length]
  | .jump => [i.target]
  | .branch => [pc + 1, i.target]
  | .ret => code.returnPoints
  | .leave | .raise => []

/-! ## The machine -/

/-- An activation of a body. `seen` holds the positions it has dispatched since its last
charged instruction that went on within the body. -/
structure Activation where
  f : ℕ
  pc : ℕ
  seen : Finset ℕ
  /-- at the label `exception`, between two handlers -/
  unwinding : Bool
deriving DecidableEq

def Activation.enter (f : ℕ) : Activation := ⟨f, 0, ∅, false⟩

/-- A frame of the call stack: an activation, or the C code between two activations. `paid`:
the instruction that led to the C code was charged, and the code has called no body yet. -/
inductive Frame
  | body (a : Activation)
  | native (paid : Bool)
deriving DecidableEq

structure Vm where
  /-- the call stack, innermost first -/
  frames : List Frame
  /-- activations that yielded (`JSAsyncFunctionState`) -/
  suspended : List Activation
  meter : Meter
  dispatched : ℕ
  charged : ℕ

/-- `JS_Call` of a body by the host, with nothing counted yet. -/
def Vm.start (f : ℕ) (opLimit : UInt64) : Vm :=
  ⟨[.body (.enter f)], [], ⟨0, opLimit⟩, 0, 0⟩

/-- What an instruction does when its charge passes. -/
inductive Outcome
  /-- goes on in the body -/
  | next (pc : ℕ)
  /-- `JS_CallInternal` of a body -/
  | enter (g : ℕ)
  /-- runs C code that may call back, then goes on in the body -/
  | native (pc : ℕ)
  | leave
  | suspend
  | throw
deriving DecidableEq, Repr

inductive Action
  /-- dispatches an instruction; `slow` when it reaches `binary_arith_slow` by a jump -/
  | dispatch (slow : Bool) (o : Outcome)
  /-- `exception` finds a catch offset on the stack -/
  | handle (pc : ℕ)
  /-- `exception` finds an enumerator and calls its `return` method -/
  | closeIterator
  /-- `exception` finds nothing and leaves the activation -/
  | unwind
  /-- `done` after a tail call -/
  | done
  /-- C code calls a body -/
  | callBody (g : ℕ)
  /-- C code resumes a generator, with a value or with an exception -/
  | resume (k : ℕ) (throwFlag : Bool)
  /-- C code returns, with a value or with an exception -/
  | finish (threw : Bool)
deriving DecidableEq, Repr

/-- A call of `handle_op_limit`, if the instruction has one. -/
def Vm.charge (s : Vm) (cost : ℕ) : Bool × Vm :=
  if cost = 0 then (false, s)
  else
    let (failed, m) := handleOpLimit s.meter cost
    (failed, { s with meter := m, charged := s.charged + cost })

/-- The charges of an instruction. The second is made only if the first passes. -/
def Vm.charges (s : Vm) (op : Op) (slow : Bool) : Bool × Vm :=
  let (failed, s') := s.charge op.cost
  if failed then (true, s')
  else if slow then s'.charge op.slowCost else (false, s')

/-- An exception reaches the frame it is thrown to. C code decides itself what it returns. -/
def throwTo : List Frame → List Frame
  | .body a :: fs => .body { a with unwinding := true } :: fs
  | fs => fs

/-- The instruction `i` of the activation `a`, after its charges. -/
def Vm.perform (s : Vm) (p : Program) (code : Body) (i : Instr) (a : Activation)
    (fs : List Frame) : Outcome → Option Vm
  | .next pc =>
    if i.op.flow ∈ [.straight, .jump, .branch, .ret] ∧ pc ∈ i.successors code a.pc then
      let seen := if i.op.cost = 0 then a.seen else ∅
      some { s with frames := .body { a with pc, seen } :: fs }
    else none
  | .enter g =>
    if i.op.flow ∈ [.call, .tailCall] ∧ g < p.length then
      (i.successors code a.pc).head?.map fun pc =>
        { s with frames := .body (.enter g) :: .body { a with pc } :: fs }
    else none
  | .native pc =>
    if i.op.flow ∈ [.straight, .branch, .call, .tailCall] ∧ pc ∈ i.successors code a.pc then
      some { s with frames := .native (i.op.cost != 0) :: .body { a with pc } :: fs }
    else none
  | .leave => if i.op.flow = .leave then some { s with frames := fs } else none
  | .suspend =>
    if i.op.flow = .suspend then
      some { s with frames := fs, suspended := { a with pc := a.pc + 1 } :: s.suspended }
    else none
  | .throw => some { s with frames := throwTo (.body a :: fs) }

/-- One step of the machine, within one entry of the host: no action sets `op_count` back. -/
def Vm.step (p : Program) (s : Vm) : Action → Option Vm
  | .dispatch slow o =>
    match s.frames with
    | .body a :: fs =>
      if a.unwinding then none
      else
        (p[a.f]?).bind fun code =>
          (code[a.pc]?).bind fun i =>
            let (failed, s') := { s with dispatched := s.dispatched + 1 }.charges i.op slow
            let a := { a with seen := insert a.pc a.seen }
            if failed then some { s' with frames := throwTo (.body a :: fs) }
            else s'.perform p code i a fs o
    | _ => none
  | .handle pc =>
    match s.frames with
    | .body a :: fs =>
      if a.unwinding ∧ pc ∈ (p.getD a.f []).handlers then
        some { s with frames := .body { a with pc, unwinding := false } :: fs }
      else none
    | _ => none
  | .closeIterator =>
    match s.frames with
    | .body a :: fs =>
      if a.unwinding then some { s with frames := .native false :: .body a :: fs } else none
    | _ => none
  | .unwind =>
    match s.frames with
    | .body a :: fs => if a.unwinding then some { s with frames := throwTo fs } else none
    | _ => none
  | .done =>
    match s.frames with
    | .body a :: fs =>
      if ¬ a.unwinding ∧ a.pc = (p.getD a.f []).length then some { s with frames := fs } else none
    | _ => none
  | .callBody g =>
    match s.frames with
    | .native _ :: fs =>
      if g < p.length then some { s with frames := .body (.enter g) :: .native false :: fs }
      else none
    | _ => none
  | .resume k throwFlag =>
    match s.frames with
    | .native paid :: fs =>
      (s.suspended[k]?).map fun a =>
        { s with
          frames := .body { a with unwinding := throwFlag } :: .native paid :: fs
          suspended := s.suspended.eraseIdx k }
    | _ => none
  | .finish threw =>
    match s.frames with
    | .native _ :: fs => some { s with frames := if threw then throwTo fs else fs }
    | _ => none

/-- What the limit is for: the instructions dispatched are at most the length of the program
for each unit charged, and once more. -/
def Vm.Metered (p : Program) (s : Vm) : Prop := s.dispatched ≤ p.size * (s.charged + 1)

/-- **The work of the step is paid for**: an activation does not dispatch an instruction again
before it completes a charged one, and C code calls a body only when the instruction that led
to it was charged, one call for each such instruction. -/
def PaidFor (s : Vm) : Action → Prop
  | .dispatch _ _ => ∀ a fs, s.frames = .body a :: fs → a.pc ∉ a.seen
  | .callBody _ => ∀ paid fs, s.frames = .native paid :: fs → paid = true
  | _ => True

end JSChip.Bytecode
