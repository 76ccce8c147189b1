import JSChip.Spec.Object

/-!
# What the reader takes

* `streams_readObject`: whatever the buffer, what is read depends on the bytes that are taken alone,
  and the reader fails at the end of any buffer that has not all of them.
* `jsReadObject_local`: the same of `JS_ReadObject`.
-/

namespace JSChip.Binary

open Codec
open Alloc (JSString)

/-- The reader's successes are exact. -/
abbrev ReadsStream {α : Type} (p : Reader α) : Prop := Streams .readAfterEnd p

/-! ## Numbers, atoms and strings -/

theorem streams_bcGetU8 : ReadsStream bcGetU8 := Streams.byte

theorem streams_bcGetU16 : ReadsStream bcGetU16 :=
  (Streams.take 2).bind fun _ => Streams.pure _

theorem streams_bcGetU64 : ReadsStream bcGetU64 :=
  (Streams.take 8).bind fun _ => Streams.pure _

theorem streams_getLeb128 (rounds shift v : ℕ) : ReadsStream (getLeb128 rounds shift v) := by
  induction rounds generalizing shift v with
  | zero => exact Streams.fail _
  | succ n ih => exact streams_bcGetU8.bind fun a => (Streams.pure _).ite (ih _ _)

theorem streams_bcGetLeb128 : ReadsStream bcGetLeb128 := streams_getLeb128 5 0 0

theorem streams_bcGetSleb128 : ReadsStream bcGetSleb128 :=
  streams_bcGetLeb128.bind fun _ => Streams.pure _

theorem streams_bcGetLeb128U16 : ReadsStream bcGetLeb128U16 :=
  streams_bcGetLeb128.bind fun _ => Streams.pure _

theorem streams_bcGetBuf (len : BitVec 32) : ReadsStream (bcGetBuf len) := Streams.take _

theorem streams_bcIdxToAtom (atoms : List JSAtom) (idx : BitVec 32) :
    ReadsStream (bcIdxToAtom atoms idx) := by
  unfold bcIdxToAtom
  refine (Streams.pure _).ite ((Streams.pure _).ite ?_)
  split
  · exact Streams.fail _
  · exact Streams.pure _

theorem streams_bcGetAtom (atoms : List JSAtom) : ReadsStream (bcGetAtom atoms) :=
  streams_bcGetLeb128.bind fun _ => (Streams.pure _).ite (streams_bcIdxToAtom atoms _)

theorem streams_jsReadString : ReadsStream jsReadString :=
  streams_bcGetLeb128.bind fun _ =>
    ((Streams.take _).bind fun _ => Streams.pure _).ite
      ((Streams.take _).bind fun _ => Streams.pure _)

/-! ## Bytecode and big numbers -/

theorem streams_mapAtomOperands {f : BitVec 32 → Reader (BitVec 32)}
    (hf : ∀ v, ReadsStream (f v)) (n : ℕ) (code : List UInt8) :
    ReadsStream (mapAtomOperands (fun _ => throw .fault) f n code) := by
  induction n generalizing code with
  | zero => exact Streams.pure _
  | succ n ih =>
    cases code with
    | nil => exact Streams.pure _
    | cons byte code =>
      unfold mapAtomOperands
      split
      · exact Streams.throw _
      · refine Streams.ite (Streams.ite (Streams.throw _) ?_) ?_
        · exact (hf _).bind fun _ => (ih _).bind fun _ => Streams.pure _
        · exact (ih _).bind fun _ => Streams.pure _

theorem streams_jsReadFunctionBytecode (atoms : List JSAtom) (len : BitVec 32) :
    ReadsStream (jsReadFunctionBytecode atoms len) :=
  (streams_bcGetBuf len).bind fun _ => streams_mapAtomOperands (streams_bcIdxToAtom atoms) _ _

theorem streams_getDigit (v8 : Option UInt8) : ReadsStream (getDigit v8) := by
  have hcheck : ∀ d v8, ReadsStream (getDigit.check d v8) := fun d v8 =>
    (Streams.throw _).ite (Streams.pure _)
  cases v8 with
  | none => exact streams_bcGetU8.bind fun _ => hcheck _ _
  | some b => exact hcheck _ _

theorem streams_getDigits (rounds j v : ℕ) (v8 : Option UInt8) :
    ReadsStream (getDigits rounds j v v8) := by
  induction rounds generalizing j v v8 with
  | zero => exact Streams.pure _
  | succ n ih => exact (streams_getDigit v8).bind fun _ => ih _ _ _

theorem streams_getDecLimbs (limbs digits : ℕ) (v8 : Option UInt8) :
    ReadsStream (getDecLimbs limbs digits v8) := by
  induction limbs generalizing digits v8 with
  | zero => exact Streams.pure _
  | succ n ih =>
    exact (streams_getDigits _ _ _ _).bind fun _ => (ih _ _).bind fun _ => Streams.pure _

theorem streams_readLimbs (kind : BigNumKind) (len : BitVec 32) : ReadsStream (readLimbs kind len) := by
  have hlow : ∀ n, ReadsStream (getLowLimb n) := fun n =>
    (Streams.pure _).ite ((streams_bcGetU8.times n).bind fun _ => Streams.pure _)
  cases kind with
  | bigDecimal => exact streams_getDecLimbs _ _ _
  | bigInt | bigFloat =>
    exact (hlow _).bind fun _ => (streams_bcGetU64.times _).bind fun _ => Streams.pure _

theorem streams_readMantissa (kind : BigNumKind) : ReadsStream (readMantissa kind) :=
  streams_bcGetLeb128.bind fun len => (Streams.throw _).ite (streams_readLimbs kind len)

theorem streams_jsReadBigNum (kind : BigNumKind) : ReadsStream (jsReadBigNum kind) := by
  refine streams_bcGetSleb128.bind fun e => ?_
  refine Streams.ite (Streams.pure _) (Streams.ite (Streams.pure _) (Streams.ite (Streams.pure _) ?_))
  exact (streams_readMantissa kind).bind fun _ => Streams.pure _

/-! ## Values -/

variable (atoms : List JSAtom)

theorem streams_readVarDef : ReadsStream (readVarDef atoms) :=
  (streams_bcGetAtom atoms).bind fun _ => streams_bcGetLeb128.bind fun _ =>
    streams_bcGetLeb128.bind fun _ => streams_bcGetU8.bind fun _ => Streams.pure _

theorem streams_readClosureVar : ReadsStream (readClosureVar atoms) :=
  (streams_bcGetAtom atoms).bind fun _ => streams_bcGetLeb128.bind fun _ =>
    streams_bcGetU8.bind fun _ => Streams.pure _

theorem streams_readDebug (hasDebug : Bool) : ReadsStream (readDebug atoms hasDebug) :=
  Streams.ite
    ((streams_bcGetAtom atoms).bind fun _ => streams_bcGetLeb128.bind fun _ =>
      streams_bcGetLeb128.bind fun _ => (streams_bcGetBuf _).bind fun _ => Streams.pure _)
    (Streams.pure _)

theorem streams_readExportEntry : ReadsStream (readExportEntry atoms) := by
  refine streams_bcGetU8.bind fun v8 => streams_bcGetLeb128.bind fun idx => ?_
  split
  · exact (streams_bcGetAtom atoms).bind fun _ => Streams.pure _
  · exact (streams_bcGetAtom atoms).bind fun _ => (streams_bcGetAtom atoms).bind fun _ =>
      Streams.pure _

theorem streams_readImportEntry : ReadsStream (readImportEntry atoms) :=
  streams_bcGetLeb128.bind fun _ => (streams_bcGetAtom atoms).bind fun _ =>
    streams_bcGetLeb128.bind fun _ => Streams.pure _

theorem streams_jsToObject (val : JSValue) : ReadsStream (jsToObject val) := by
  unfold jsToObject
  split
  · exact Streams.throw _
  · exact Streams.throw _
  · exact Streams.throw _
  · exact Streams.throw _
  all_goals exact Streams.pure _

theorem streams_jsTypedArrayConstructor (kind : Fin 11) (count offset : BitVec 32)
    (buffer : JSValue) : ReadsStream (jsTypedArrayConstructor kind count offset buffer) := by
  unfold jsTypedArrayConstructor
  split
  · exact Streams.ite (Streams.throw _) (Streams.ite (Streams.throw _) (Streams.pure _))
  · exact Streams.throw _

theorem streams_jsReadArrayBuffer : ReadsStream jsReadArrayBuffer :=
  streams_bcGetLeb128.bind fun _ => (streams_bcGetBuf _).bind fun _ =>
    (Streams.throw _).ite (Streams.pure _)

section

variable {readRec : Reader JSValue} (hrec : ReadsStream readRec)
include hrec

theorem streams_jsReadFunctionTag : ReadsStream (jsReadFunctionTag atoms readRec) := by
  refine streams_bcGetU16.bind fun v16 => streams_bcGetU8.bind fun jsMode => ?_
  refine (streams_bcGetAtom atoms).bind fun funcName => ?_
  refine streams_bcGetLeb128U16.bind fun argCount => streams_bcGetLeb128U16.bind fun varCount => ?_
  refine streams_bcGetLeb128U16.bind fun defined => streams_bcGetLeb128U16.bind fun stackSize => ?_
  refine streams_bcGetLeb128.bind fun closureVarCount => streams_bcGetLeb128.bind fun cpoolCount => ?_
  refine streams_bcGetLeb128.bind fun byteCodeLen => streams_bcGetLeb128.bind fun localCount => ?_
  refine ((streams_readVarDef atoms).times _).bind fun vardefs => ?_
  refine ((streams_readClosureVar atoms).times _).bind fun closureVar => ?_
  refine (streams_jsReadFunctionBytecode atoms _).bind fun byteCode => ?_
  refine (streams_readDebug atoms _).bind fun debug => ?_
  exact (hrec.times _).bind fun cpool => Streams.pure _

theorem streams_jsReadModule : ReadsStream (jsReadModule atoms readRec) := by
  refine (streams_bcGetAtom atoms).bind fun moduleName => streams_bcGetLeb128.bind fun n => ?_
  refine ((streams_bcGetAtom atoms).times _).bind fun reqs => streams_bcGetLeb128.bind fun n => ?_
  refine ((streams_readExportEntry atoms).times _).bind fun exps => ?_
  refine streams_bcGetLeb128.bind fun n => (streams_bcGetLeb128.times _).bind fun stars => ?_
  refine streams_bcGetLeb128.bind fun n => ?_
  refine ((streams_readImportEntry atoms).times _).bind fun imports => ?_
  exact hrec.bind fun funcObj => Streams.pure _

theorem streams_jsReadObjectTag : ReadsStream (jsReadObjectTag atoms readRec) := by
  refine streams_bcGetLeb128.bind fun propCount => Streams.bind (Streams.times ?_ _) fun props =>
    Streams.pure _
  exact (streams_bcGetAtom atoms).bind fun _ => hrec.bind fun _ => Streams.pure _

theorem streams_jsReadArray (isTemplate : Bool) : ReadsStream (jsReadArray readRec isTemplate) :=
  streams_bcGetLeb128.bind fun _ => (hrec.times _).bind fun _ =>
    Streams.ite (hrec.bind fun _ => Streams.pure _) (Streams.pure _)

theorem streams_jsReadTypedArray : ReadsStream (jsReadTypedArray readRec) := by
  refine streams_bcGetU8.bind fun arrayTag => ?_
  split
  · exact streams_bcGetLeb128.bind fun _ => streams_bcGetLeb128.bind fun _ =>
      hrec.bind fun _ => streams_jsTypedArrayConstructor _ _ _ _
  · exact Streams.throw _

theorem streams_jsReadDate : ReadsStream (jsReadDate readRec) :=
  hrec.bind fun _ => Streams.ite (Streams.pure _) (Streams.throw _)

theorem streams_jsReadObjectValue : ReadsStream (jsReadObjectValue readRec) :=
  hrec.bind fun _ => streams_jsToObject _

end

theorem streams_jsReadObjectRec (stack : ℕ) : ReadsStream (jsReadObjectRec atoms stack) := by
  induction stack with
  | zero => exact Streams.throw _
  | succ n ih =>
    refine streams_bcGetU8.bind fun tag => ?_
    split
    · exact Streams.pure _
    · exact Streams.pure _
    · exact Streams.pure _
    · exact Streams.pure _
    · exact streams_bcGetSleb128.bind fun _ => Streams.pure _
    · exact streams_bcGetU64.bind fun _ => Streams.pure _
    · exact streams_jsReadString.bind fun _ => Streams.pure _
    · exact streams_jsReadFunctionTag atoms ih
    · exact streams_jsReadModule atoms ih
    · exact streams_jsReadObjectTag atoms ih
    · exact streams_jsReadArray ih false
    · exact streams_jsReadArray ih true
    · exact streams_jsReadArrayBuffer
    · exact streams_jsReadTypedArray ih
    · exact streams_jsReadDate ih
    · exact streams_jsReadObjectValue ih
    · exact (streams_jsReadBigNum _).bind fun _ => Streams.pure _
    · exact (streams_jsReadBigNum _).bind fun _ => Streams.pure _
    · exact (streams_jsReadBigNum _).bind fun _ => Streams.pure _
    · exact Streams.throw _
    · exact Streams.fail _
    · exact Streams.fail _

theorem streams_jsReadObjectAtoms (newAtomStr : JSString → JSAtom) :
    ReadsStream (jsReadObjectAtoms newAtomStr) := by
  refine streams_bcGetU8.bind fun v8 => (Streams.throw _).ite ?_
  exact streams_bcGetLeb128.bind fun _ => (streams_jsReadString.map _).times _

/-- **Whatever is read is exact on the bytes that were taken.** -/
theorem streams_readObject (newAtomStr : JSString → JSAtom) (stack : ℕ) :
    ReadsStream (readObject newAtomStr stack) :=
  (streams_jsReadObjectAtoms newAtomStr).bind fun atoms => streams_jsReadObjectRec atoms stack

/-- `JS_ReadObject` answers `v` on `bs` and whatever comes after it, and on a buffer that ends within
`bs` it throws. -/
structure ReadsExactly (newAtomStr : JSString → JSAtom) (stack : ℕ) (bs : List UInt8) (v : JSValue) :
    Prop where
  reads : ∀ rest, jsReadObject newAtomStr stack (bs ++ rest) = .ok v
  cut : ∀ pre, pre <+: bs → pre ≠ bs → jsReadObject newAtomStr stack pre = .error .readAfterEnd

theorem ReadsExactly.of_exact {newAtomStr : JSString → JSAtom} {stack : ℕ} {bs : List UInt8}
    {v : JSValue} (h : Exact .readAfterEnd (readObject newAtomStr stack) bs v) :
    ReadsExactly newAtomStr stack bs v where
  reads := by
    intro rest
    unfold jsReadObject
    rw [h.reads]
    rfl
  cut := by
    intro pre hpre hne
    unfold jsReadObject
    rw [h.cut 0 pre hpre hne]
    rfl

end JSChip.Binary
