import JSChip.Proof.BigNum
import JSChip.Proof.Reader

/-!
# Values that are written can be read

* `JSValue.reload ρ`: what becomes of a value, where `ρ` takes the atoms of the runtime that writes to
  those of the runtime that reads.
* `JSValue.Fits`: the values that the program has.
* `readsBack_jsWriteObjectRec`: what is written for a value is read as what becomes of it.
* `jsWriteObject_read`: the same of the whole buffer, with its table of atoms.
-/

namespace JSChip.Binary

open Codec
open Alloc (JSString)

/-! ## What becomes of a value -/

variable (ρ : JSAtom → JSAtom)

def JSVarDef.reload (vd : JSVarDef) : JSVarDef := { vd with varName := renameAtom ρ vd.varName }

def JSClosureVar.reload (cv : JSClosureVar) : JSClosureVar :=
  { cv with varName := renameAtom ρ cv.varName }

def DebugInfo.reload (debug : DebugInfo) : DebugInfo :=
  { debug with filename := renameAtom ρ debug.filename, source := none }

def FunctionBytecode.reload (b : FunctionBytecode) : FunctionBytecode := {
  b with
  byteCode := renameCode ρ b.byteCode.length b.byteCode
  funcName := renameAtom ρ b.funcName
  vardefs := b.vardefs.map (JSVarDef.reload ρ)
  closureVar := b.closureVar.map (JSClosureVar.reload ρ)
  debug := b.debug.map (DebugInfo.reload ρ) }

def JSExportEntry.reload : JSExportEntry → JSExportEntry
  | .ofLocal varIdx exportName => .ofLocal varIdx (renameAtom ρ exportName)
  | .ofModule exportType notLocal reqModuleIdx localName exportName =>
    .ofModule exportType notLocal reqModuleIdx (renameAtom ρ localName) (renameAtom ρ exportName)

def JSImportEntry.reload (mi : JSImportEntry) : JSImportEntry :=
  { mi with importName := renameAtom ρ mi.importName }

def JSModuleDef.reload (m : JSModuleDef) : JSModuleDef := {
  m with
  moduleName := renameAtom ρ m.moduleName
  reqModuleEntries := m.reqModuleEntries.map (renameAtom ρ)
  exportEntries := m.exportEntries.map (JSExportEntry.reload ρ)
  importEntries := m.importEntries.map (JSImportEntry.reload ρ) }

mutual

/-- The value that is read where `v` was written: its atoms have other numbers, and its functions have
lost their source text. -/
def JSValue.reload : JSValue → JSValue
  | .functionBytecode b cpool => .functionBytecode (b.reload ρ) (reloadAll cpool)
  | .moduleDef m funcObj => .moduleDef (m.reload ρ) funcObj.reload
  | .object props => .object ((reloadProps props).foldl defineProperty [])
  | .array elements => .array (reloadAll elements)
  | .templateObject elements raw => .templateObject (reloadAll elements) raw.reload
  | .typedArray kind count offset buffer => .typedArray kind count offset buffer.reload
  | .date objectData => .date objectData.reload
  | .objectValue objectData => .objectValue objectData.reload
  | .null => .null
  | .undefined => .undefined
  | .bool b => .bool b
  | .int n => .int n
  | .float64 u64 => .float64 u64
  | .string p => .string p
  | .bigNum kind num => .bigNum kind num
  | .arrayBuffer data => .arrayBuffer data

def reloadAll : List JSValue → List JSValue
  | [] => []
  | v :: vs => v.reload :: reloadAll vs

def reloadProps : List (JSAtom × JSValue) → List (JSAtom × JSValue)
  | [] => []
  | (atom, v) :: props => (renameAtom ρ atom, v.reload) :: reloadProps props

end

theorem reloadAll_eq_map (vs : List JSValue) : reloadAll ρ vs = vs.map (JSValue.reload ρ) := by
  induction vs with
  | nil => rfl
  | cons v vs ih => rw [reloadAll, ih, List.map_cons]

theorem reloadProps_eq_map (props : List (JSAtom × JSValue)) :
    reloadProps ρ props = props.map fun p => (renameAtom ρ p.1, p.2.reload ρ) := by
  induction props with
  | nil => rfl
  | cons p props ih => rw [reloadProps, ih, List.map_cons]

variable {ρ}

/-! ## Values as the program has them -/

/-- An array has an entry for each argument and each variable, or there is none; a length is an
`int`. -/
structure FunctionBytecode.Fits (b : FunctionBytecode) : Prop where
  vardefs : b.vardefs = [] ∨ b.vardefs.length = b.argCount.toNat + b.varCount.toNat
  closureVar : b.closureVar.length < 2 ^ 31
  byteCode : b.byteCode.length < 2 ^ 31
  pc2line : ∀ debug, b.debug = some debug → debug.pc2line.length < 2 ^ 31

structure JSModuleDef.Fits (m : JSModuleDef) : Prop where
  reqModuleEntries : m.reqModuleEntries.length < 2 ^ 31
  exportEntries : m.exportEntries.length < 2 ^ 31
  starExportEntries : m.starExportEntries.length < 2 ^ 31
  importEntries : m.importEntries.length < 2 ^ 31

/-- A typed array lies in its buffer, on a multiple of its element size. -/
structure TypedArrayFits (kind : Fin 11) (count offset : BitVec 32) (data : List UInt8) : Prop where
  aligned : offset.toNat % 2 ^ typedArraySizeLog2 kind = 0
  inside : offset.toNat + count.toNat * 2 ^ typedArraySizeLog2 kind ≤ data.length
  length : data.length < 2 ^ 31

/-- The values whose lengths fit the fields that the program keeps them in, and whose big numbers are
normalized. -/
inductive JSValue.Fits : JSValue → Prop
  | null : Fits .null
  | undefined : Fits .undefined
  | bool (b : Bool) : Fits (.bool b)
  | int (n : BitVec 32) : Fits (.int n)
  | float64 (u64 : BitVec 64) : Fits (.float64 u64)
  | string {p : JSString} (hp : stringFits p) : Fits (.string p)
  | bigNum {kind : BigNumKind} {num : BigFloat} (hnum : num.Normal kind) : Fits (.bigNum kind num)
  | functionBytecode {b : FunctionBytecode} {cpool : List JSValue} (hb : b.Fits)
      (hlen : cpool.length < 2 ^ 31) (hcpool : ∀ v ∈ cpool, Fits v) : Fits (.functionBytecode b cpool)
  | moduleDef {m : JSModuleDef} {funcObj : JSValue} (hm : m.Fits) (hfunc : Fits funcObj) :
      Fits (.moduleDef m funcObj)
  | object {props : List (JSAtom × JSValue)} (hlen : props.length < 2 ^ 32)
      (hprops : ∀ p ∈ props, Fits p.2) : Fits (.object props)
  | array {elements : List JSValue} (hlen : elements.length < 2 ^ 32)
      (helements : ∀ v ∈ elements, Fits v) : Fits (.array elements)
  | templateObject {elements : List JSValue} {raw : JSValue} (hlen : elements.length < 2 ^ 32)
      (helements : ∀ v ∈ elements, Fits v) (hraw : Fits raw) : Fits (.templateObject elements raw)
  | arrayBuffer {data : List UInt8} (hlen : data.length < 2 ^ 31) : Fits (.arrayBuffer data)
  | typedArray {kind : Fin 11} {count offset : BitVec 32} {data : List UInt8}
      (h : TypedArrayFits kind count offset data) :
      Fits (.typedArray kind count offset (.arrayBuffer data))
  | date {objectData : JSValue} (hnumber : objectData.isNumber = true) : Fits (.date objectData)
  | objectBool (b : Bool) : Fits (.objectValue (.bool b))
  | objectNumber {objectData : JSValue} (hnumber : objectData.isNumber = true) :
      Fits (.objectValue objectData)
  | objectString {p : JSString} (hp : stringFits p) : Fits (.objectValue (.string p))
  | objectBigNum {kind : BigNumKind} {num : BigFloat} (hnum : num.Normal kind) :
      Fits (.objectValue (.bigNum kind num))

/-! ## Functions and modules -/

/-- A count that is read as an `int`, and then as many things. -/
theorem readsBack_counted {γ α : Type} {l : List γ} {w : γ → WriterM Unit}
    {r : List JSAtom → Reader α} {g : γ → α} (hlen : l.length < 2 ^ 31)
    (h : ∀ a ∈ l, ReadsBack (w a) r (g a)) :
    ReadsBack (l.forM w) (fun d => (r d).times (rounds (BitVec.ofNat 32 l.length))) (l.map g) := by
  rw [rounds_ofNat hlen]
  exact Mirrors.forEach h

/-- A count that is read as a `uint32_t`, and then as many things. -/
theorem readsBack_counted32 {γ α : Type} {l : List γ} {w : γ → WriterM Unit}
    {r : List JSAtom → Reader α} {g : γ → α} (hlen : l.length < 2 ^ 32)
    (h : ∀ a ∈ l, ReadsBack (w a) r (g a)) :
    ReadsBack (l.forM w) (fun d => (r d).times (BitVec.ofNat 32 l.length).toNat) (l.map g) := by
  rw [BitVec.toNat_ofNat, Nat.mod_eq_of_lt hlen]
  exact Mirrors.forEach h

theorem JSVarDef.flags_fit (vd : JSVarDef) : FlagsFit vd.flags := by
  simp only [FlagsFit, JSVarDef.flags, List.forall_mem_cons]
  exact ⟨vd.varKind.isLt, Bool.toNat_lt _, Bool.toNat_lt _, Bool.toNat_lt _, fun _ h => by cases h⟩

theorem JSClosureVar.flags_fit (cv : JSClosureVar) : FlagsFit cv.flags := by
  simp only [FlagsFit, JSClosureVar.flags, List.forall_mem_cons]
  exact ⟨Bool.toNat_lt _, Bool.toNat_lt _, Bool.toNat_lt _, Bool.toNat_lt _, cv.varKind.isLt,
    fun _ h => by cases h⟩

theorem FunctionBytecode.flags_fit (b : FunctionBytecode) : FlagsFit b.flags := by
  simp only [FlagsFit, FunctionBytecode.flags, List.forall_mem_cons]
  exact ⟨Bool.toNat_lt _, Bool.toNat_lt _, Bool.toNat_lt _, Bool.toNat_lt _, b.funcKind.isLt,
    Bool.toNat_lt _, Bool.toNat_lt _, Bool.toNat_lt _, Bool.toNat_lt _, Bool.toNat_lt _,
    Bool.toNat_lt _, fun _ h => by cases h⟩

/-- Flags that fit a byte go through it. -/
theorem toNat_flags_byte {fs : List (ℕ × ℕ)} (hfs : FlagsFit fs) (hw : flagWidths fs ≤ 8) :
    (UInt8.ofNat (bcSetFlags fs)).toNat = packFlags fs := by
  have hlt := packFlags_lt hfs
  have hpow : 2 ^ flagWidths fs ≤ 2 ^ 8 := Nat.pow_le_pow_right (by omega) hw
  rw [bcSetFlags_eq hfs]
  exact toNat_byte (by omega)

theorem readsBack_writeVarDef (vd : JSVarDef) :
    ReadsBack (writeVarDef vd) (fun d => readVarDef (d.map ρ)) (vd.reload ρ) := by
  have hfit := vd.flags_fit
  have hkind : BitVec.ofNat 4 (bcGetFlags (packFlags vd.flags) 0 4) = vd.varKind :=
    bcGetFlags_packFlags_bitVec hfit (k := 0) rfl
  have hconst : (bcGetFlags (packFlags vd.flags) 4 1 != 0) = vd.isConst :=
    bcGetFlags_packFlags_bool hfit (k := 1) rfl
  have hlexical : (bcGetFlags (packFlags vd.flags) 5 1 != 0) = vd.isLexical :=
    bcGetFlags_packFlags_bool hfit (k := 2) rfl
  have hcaptured : (bcGetFlags (packFlags vd.flags) 6 1 != 0) = vd.isCaptured :=
    bcGetFlags_packFlags_bool hfit (k := 3) rfl
  refine Mirrors.bind (readsBack_bcPutAtom _) (Mirrors.bind (readsBack_bcPutLeb128 _) ?_)
  refine Mirrors.bind (readsBack_bcPutLeb128 _) ?_
  refine ((readsBack_bcPutU8 _).bind_pure fun v8 => _).congr (fun _ => rfl) ?_
  rw [toNat_flags_byte hfit (Nat.le_of_ble_eq_true rfl), hkind, hconst, hlexical, hcaptured,
    BitVec.add_sub_cancel]
  rfl

theorem readsBack_writeClosureVar (cv : JSClosureVar) :
    ReadsBack (writeClosureVar cv) (fun d => readClosureVar (d.map ρ)) (cv.reload ρ) := by
  have hfit := cv.flags_fit
  have hlocal : (bcGetFlags (packFlags cv.flags) 0 1 != 0) = cv.isLocal :=
    bcGetFlags_packFlags_bool hfit (k := 0) rfl
  have harg : (bcGetFlags (packFlags cv.flags) 1 1 != 0) = cv.isArg :=
    bcGetFlags_packFlags_bool hfit (k := 1) rfl
  have hconst : (bcGetFlags (packFlags cv.flags) 2 1 != 0) = cv.isConst :=
    bcGetFlags_packFlags_bool hfit (k := 2) rfl
  have hlexical : (bcGetFlags (packFlags cv.flags) 3 1 != 0) = cv.isLexical :=
    bcGetFlags_packFlags_bool hfit (k := 3) rfl
  have hkind : BitVec.ofNat 4 (bcGetFlags (packFlags cv.flags) 4 4) = cv.varKind :=
    bcGetFlags_packFlags_bitVec hfit (k := 4) rfl
  refine Mirrors.bind (readsBack_bcPutAtom _) (Mirrors.bind (readsBack_bcPutLeb128 _) ?_)
  refine ((readsBack_bcPutU8 _).bind_pure fun v8 => _).congr (fun _ => rfl) ?_
  rw [toNat_flags_byte hfit (Nat.le_of_ble_eq_true rfl), hlocal, harg, hconst, hlexical, hkind,
    setWidth_setWidth_16]
  rfl

theorem readsBack_writeVarDefs {b : FunctionBytecode} (hb : b.Fits) :
    ReadsBack (writeVarDefs b) (fun d => do
      let localCount ← bcGetLeb128
      (readVarDef (d.map ρ)).times (rounds localCount)) (b.vardefs.map (JSVarDef.reload ρ)) := by
  refine Mirrors.ite (fun hnil => ?_) fun hne => ?_
  · rw [hnil]
    exact readsBack_put fun _ => (exact_bcGetLeb128 0).bind_nil (Exact.pure [])
  · have hlen := hb.vardefs.resolve_left hne
    have hsum : b.argCount.setWidth 32 + b.varCount.setWidth 32 =
        BitVec.ofNat 32 b.vardefs.length := by
      apply BitVec.eq_of_toNat_eq
      have := b.argCount.isLt
      have := b.varCount.isLt
      rw [hlen]
      simp only [BitVec.toNat_add, BitVec.toNat_setWidth, BitVec.toNat_ofNat]
      omega
    rw [hsum]
    refine Mirrors.bind (readsBack_bcPutLeb128 _) ?_
    refine readsBack_counted ?_ fun vd _ => readsBack_writeVarDef vd
    have := b.argCount.isLt
    have := b.varCount.isLt
    omega

theorem readsBack_writeDebug {debug : Option DebugInfo}
    (h : ∀ d, debug = some d → d.pc2line.length < 2 ^ 31) :
    ReadsBack (writeDebug debug) (fun d => readDebug (d.map ρ) debug.isSome)
      (debug.map (DebugInfo.reload ρ)) := by
  cases debug with
  | none => exact Mirrors.pure none
  | some debug =>
    have hlen := h debug rfl
    refine Mirrors.bind (readsBack_bcPutAtom _) (Mirrors.bind (readsBack_bcPutLeb128 _) ?_)
    refine Mirrors.bind (readsBack_bcPutLeb128 _) ?_
    exact (readsBack_put fun _ => exact_bcGetBuf (by omega)).bind_pure fun pc2line => some
      ({ filename := renameAtom ρ debug.filename, lineNum := debug.lineNum, pc2line, source := none } :
        DebugInfo)

theorem readsBack_writeFunction {w : JSValue → WriterM Unit} {r : List JSAtom → Reader JSValue}
    {g : JSValue → JSValue} {b : FunctionBytecode} {cpool : List JSValue} (hb : b.Fits)
    (hlen : cpool.length < 2 ^ 31) (hrec : ∀ v ∈ cpool, ReadsBack (w v) r (g v)) :
    ReadsBack (writeFunction w b cpool) (fun d => jsReadFunctionTag (d.map ρ) (r d))
      (.functionBytecode (b.reload ρ) (cpool.map g)) := by
  have hfit := b.flags_fit
  have hflags : (BitVec.ofNat 16 (bcSetFlags b.flags)).toNat = packFlags b.flags := by
    have hlt : packFlags b.flags < 2 ^ 12 := packFlags_lt hfit
    rw [bcSetFlags_eq hfit, BitVec.toNat_ofNat, Nat.mod_eq_of_lt (by omega)]
  have hproto : (bcGetFlags (packFlags b.flags) 0 1 != 0) = b.hasPrototype :=
    bcGetFlags_packFlags_bool hfit (k := 0) rfl
  have hsimple : (bcGetFlags (packFlags b.flags) 1 1 != 0) = b.hasSimpleParameterList :=
    bcGetFlags_packFlags_bool hfit (k := 1) rfl
  have hderived : (bcGetFlags (packFlags b.flags) 2 1 != 0) = b.isDerivedClassConstructor :=
    bcGetFlags_packFlags_bool hfit (k := 2) rfl
  have hhome : (bcGetFlags (packFlags b.flags) 3 1 != 0) = b.needHomeObject :=
    bcGetFlags_packFlags_bool hfit (k := 3) rfl
  have hkind : BitVec.ofNat 2 (bcGetFlags (packFlags b.flags) 4 2) = b.funcKind :=
    bcGetFlags_packFlags_bitVec hfit (k := 4) rfl
  have htarget : (bcGetFlags (packFlags b.flags) 6 1 != 0) = b.newTargetAllowed :=
    bcGetFlags_packFlags_bool hfit (k := 5) rfl
  have hcall : (bcGetFlags (packFlags b.flags) 7 1 != 0) = b.superCallAllowed :=
    bcGetFlags_packFlags_bool hfit (k := 6) rfl
  have hsuper : (bcGetFlags (packFlags b.flags) 8 1 != 0) = b.superAllowed :=
    bcGetFlags_packFlags_bool hfit (k := 7) rfl
  have hargs : (bcGetFlags (packFlags b.flags) 9 1 != 0) = b.argumentsAllowed :=
    bcGetFlags_packFlags_bool hfit (k := 8) rfl
  have hdebug : (bcGetFlags (packFlags b.flags) 10 1 != 0) = b.debug.isSome :=
    bcGetFlags_packFlags_bool hfit (k := 9) rfl
  have hbarrier : (bcGetFlags (packFlags b.flags) 11 1 != 0) = b.backtraceBarrier :=
    bcGetFlags_packFlags_bool hfit (k := 10) rfl
  have hcode : b.byteCode.length < 2 ^ 32 := Nat.lt_trans hb.byteCode (by omega)
  refine Mirrors.bind (readsBack_bcPutU16 _) ?_
  simp only [hflags, hproto, hsimple, hderived, hhome, hkind, htarget, hcall, hsuper, hargs, hdebug,
    hbarrier]
  refine Mirrors.bind (readsBack_bcPutU8 _) (Mirrors.bind (readsBack_bcPutAtom _) ?_)
  refine Mirrors.bind (readsBack_bcPutLeb128U16 _) (Mirrors.bind (readsBack_bcPutLeb128U16 _) ?_)
  refine Mirrors.bind (readsBack_bcPutLeb128U16 _) (Mirrors.bind (readsBack_bcPutLeb128U16 _) ?_)
  refine Mirrors.bind (readsBack_bcPutLeb128 _) (Mirrors.bind (readsBack_bcPutLeb128 _) ?_)
  refine Mirrors.bind (readsBack_bcPutLeb128 _) ?_
  refine Mirrors.bind_assoc (readsBack_writeVarDefs hb) ?_
  refine Mirrors.bind (readsBack_counted hb.closureVar fun cv _ => readsBack_writeClosureVar cv) ?_
  refine Mirrors.bind (readsBack_jsWriteFunctionBytecode ρ hcode) ?_
  refine Mirrors.bind (readsBack_writeDebug hb.pc2line) ?_
  exact (readsBack_counted hlen hrec).bind_pure fun cpool => JSValue.functionBytecode _ cpool

theorem readsBack_writeExportEntry (me : JSExportEntry) :
    ReadsBack (writeExportEntry me) (fun d => readExportEntry (d.map ρ)) (me.reload ρ) := by
  cases me with
  | ofLocal varIdx exportName =>
    refine Mirrors.bind (readsBack_bcPutU8 _) (Mirrors.bind (readsBack_bcPutLeb128 _) ?_)
    exact (readsBack_bcPutAtom _).bind_pure _
  | ofModule exportType notLocal reqModuleIdx localName exportName =>
    refine Mirrors.bind (readsBack_bcPutU8 _) (Mirrors.bind (readsBack_bcPutLeb128 _) ?_)
    simp only [dif_neg notLocal]
    refine Mirrors.bind (readsBack_bcPutAtom _) ?_
    exact (readsBack_bcPutAtom _).bind_pure _

theorem readsBack_writeImportEntry (mi : JSImportEntry) :
    ReadsBack (writeImportEntry mi) (fun d => readImportEntry (d.map ρ)) (mi.reload ρ) := by
  refine Mirrors.bind (readsBack_bcPutLeb128 _) (Mirrors.bind (readsBack_bcPutAtom _) ?_)
  exact (readsBack_bcPutLeb128 _).bind_pure _

theorem readsBack_writeModule {w : JSValue → WriterM Unit} {r : List JSAtom → Reader JSValue}
    {g : JSValue → JSValue} {m : JSModuleDef} {funcObj : JSValue} (hm : m.Fits)
    (hrec : ReadsBack (w funcObj) r (g funcObj)) :
    ReadsBack (writeModule w m funcObj) (fun d => jsReadModule (d.map ρ) (r d))
      (.moduleDef (m.reload ρ) (g funcObj)) := by
  refine Mirrors.bind (readsBack_bcPutAtom _) (Mirrors.bind (readsBack_bcPutLeb128 _) ?_)
  refine Mirrors.bind (readsBack_counted hm.reqModuleEntries fun a _ => readsBack_bcPutAtom a) ?_
  refine Mirrors.bind (readsBack_bcPutLeb128 _) ?_
  refine Mirrors.bind (readsBack_counted hm.exportEntries fun me _ => readsBack_writeExportEntry me) ?_
  refine Mirrors.bind (readsBack_bcPutLeb128 _) ?_
  refine Mirrors.bind (readsBack_counted (g := id) hm.starExportEntries
    fun se _ => readsBack_bcPutLeb128 se) ?_
  refine Mirrors.bind (readsBack_bcPutLeb128 _) ?_
  refine Mirrors.bind (readsBack_counted hm.importEntries fun mi _ => readsBack_writeImportEntry mi) ?_
  rw [List.map_id]
  exact hrec.bind_pure fun funcObj => JSValue.moduleDef _ funcObj

/-! ## Values -/

theorem readsBack_writeProps {w : JSValue → WriterM Unit} {r : List JSAtom → Reader JSValue}
    {g : JSValue → JSValue} {props : List (JSAtom × JSValue)} (hlen : props.length < 2 ^ 32)
    (hrec : ∀ p ∈ props, ReadsBack (w p.2) r (g p.2)) :
    ReadsBack (do
        bcPutCount props
        props.forM fun p => do
          bcPutAtom p.1
          w p.2)
      (fun d => jsReadObjectTag (d.map ρ) (r d))
      (.object ((props.map fun p => (renameAtom ρ p.1, g p.2)).foldl defineProperty [])) := by
  refine Mirrors.bind (readsBack_bcPutLeb128 _) ?_
  refine (readsBack_counted32 hlen fun p hp => ?_).bind_pure
    fun props => JSValue.object (props.foldl defineProperty [])
  refine Mirrors.bind (readsBack_bcPutAtom _) ?_
  exact (hrec p hp).bind_pure fun v => (renameAtom ρ p.1, v)

theorem readsBack_writeArray {w : JSValue → WriterM Unit} {r : List JSAtom → Reader JSValue}
    {g : JSValue → JSValue} {elements : List JSValue} (hlen : elements.length < 2 ^ 32)
    (hrec : ∀ v ∈ elements, ReadsBack (w v) r (g v)) :
    ReadsBack (do
        bcPutCount elements
        elements.forM w
        (none : Option JSValue).forM w)
      (fun d => jsReadArray (r d) false) (.array (elements.map g)) := by
  refine Mirrors.bind (readsBack_bcPutLeb128 _) ?_
  exact Mirrors.bind (readsBack_counted32 hlen hrec) (Mirrors.pure _)

theorem readsBack_writeTemplate {w : JSValue → WriterM Unit} {r : List JSAtom → Reader JSValue}
    {g : JSValue → JSValue} {elements : List JSValue} {raw : JSValue} (hlen : elements.length < 2 ^ 32)
    (hrec : ∀ v ∈ elements, ReadsBack (w v) r (g v)) (hraw : ReadsBack (w raw) r (g raw)) :
    ReadsBack (do
        bcPutCount elements
        elements.forM w
        (some raw).forM w)
      (fun d => jsReadArray (r d) true) (.templateObject (elements.map g) (g raw)) := by
  refine Mirrors.bind (readsBack_bcPutLeb128 _) ?_
  refine Mirrors.bind (readsBack_counted32 hlen hrec) ?_
  exact hraw.bind_pure (JSValue.templateObject _)

theorem readsBack_writeBuffer {data : List UInt8} (hlen : data.length < 2 ^ 31) :
    ReadsBack (do bcPutCount data; put data) (fun _ => jsReadArrayBuffer) (.arrayBuffer data) := by
  refine Mirrors.bind (readsBack_bcPutLeb128 _) (readsBack_put fun _ => ?_)
  refine (exact_bcGetBuf (by omega)).bind_nil ?_
  rw [if_neg (by omega)]
  exact Exact.pure _

theorem jsTypedArrayConstructor_of_fits {kind : Fin 11} {count offset : BitVec 32} {data : List UInt8}
    (h : TypedArrayFits kind count offset data) :
    jsTypedArrayConstructor kind count offset (.arrayBuffer data) =
      pure (.typedArray kind count offset (.arrayBuffer data)) := by
  have hinside := h.inside
  show (if _ then _ else if _ then _ else _) = _
  rw [if_neg, if_neg (by omega)]
  rintro (hne | hgt)
  · exact hne h.aligned
  · omega

theorem readsBack_writeTypedArray {w : JSValue → WriterM Unit} {r : List JSAtom → Reader JSValue}
    {kind : Fin 11} {count offset : BitVec 32} {data : List UInt8}
    (h : TypedArrayFits kind count offset data)
    (hrec : ReadsBack (w (.arrayBuffer data)) r (.arrayBuffer data)) :
    ReadsBack (do
        bcPutU8 (UInt8.ofNat kind)
        bcPutLeb128 count
        bcPutLeb128 offset
        w (.arrayBuffer data))
      (fun d => jsReadTypedArray (r d)) (.typedArray kind count offset (.arrayBuffer data)) := by
  have hbyte : (UInt8.ofNat kind).toNat = kind := toNat_byte (by omega)
  refine Mirrors.bind (readsBack_bcPutU8 _) ?_
  have hlt : (UInt8.ofNat kind).toNat < 11 := by omega
  have hkind : (⟨(UInt8.ofNat kind).toNat, hlt⟩ : Fin 11) = kind := Fin.ext hbyte
  simp only [dif_pos hlt, hkind]
  refine Mirrors.bind (readsBack_bcPutLeb128 _) (Mirrors.bind (readsBack_bcPutLeb128 _) ?_)
  refine hrec.bind_exact fun d => ?_
  rw [jsTypedArrayConstructor_of_fits h]
  exact Exact.pure _

/-- A tag with nothing after it. -/
theorem readsBack_tag (tag : BCTag) {r : List JSAtom → UInt8 → Reader JSValue} {x : JSValue}
    (h : ∀ d, Exact .readAfterEnd (r d tag.toByte) [] x) :
    ReadsBack (bcPutTag tag) (fun d => bcGetU8 >>= r d) x :=
  readsBack_put fun d => (Exact.byte _).bind_nil (h d)

theorem reload_number {ρ : JSAtom → JSAtom} {v : JSValue} (h : v.isNumber = true) :
    v.Fits ∧ v.reload ρ = v := by
  cases v with
  | int n => exact ⟨.int n, rfl⟩
  | float64 u64 => exact ⟨.float64 u64, rfl⟩
  | _ => cases h

/-- A wrapper object of a value that is its own. -/
theorem readsBack_writeObjectValue {w : JSValue → WriterM Unit} {r : List JSAtom → Reader JSValue}
    {v : JSValue} (hv : jsToObject v = pure (.objectValue v)) (hrec : ReadsBack (w v) r v) :
    ReadsBack (w v) (fun d => jsReadObjectValue (r d)) (.objectValue v) := by
  refine hrec.bind_exact fun d => ?_
  rw [hv]
  exact Exact.pure _

/-- **A value that is written is read back.** -/
theorem readsBack_jsWriteObjectRec (ρ : JSAtom → JSAtom) {v : JSValue} {n m : ℕ} (hv : v.Fits)
    (hnm : n ≤ m) :
    ReadsBack (jsWriteObjectRec n v) (fun d => jsReadObjectRec (d.map ρ) m) (v.reload ρ) := by
  induction n generalizing v m with
  | zero => exact Mirrors.throw _ _ _
  | succ n ih =>
    obtain ⟨m, rfl⟩ : ∃ k, m = k + 1 := ⟨m - 1, by omega⟩
    -- Below a value the writer and the reader both have one level less.
    have ih : ∀ v : JSValue, v.Fits →
        ReadsBack (jsWriteObjectRec n v) (fun d => jsReadObjectRec (d.map ρ) m) (v.reload ρ) :=
      fun v hv => ih hv (by omega)
    cases hv with
    | null => exact readsBack_tag .null fun _ => Exact.pure _
    | undefined => exact readsBack_tag .undefined fun _ => Exact.pure _
    | bool b =>
      cases b with
      | false => exact readsBack_tag .boolFalse fun _ => Exact.pure _
      | true => exact readsBack_tag .boolTrue fun _ => Exact.pure _
    | int k => exact Mirrors.bind (readsBack_bcPutU8 _) ((readsBack_bcPutSleb128 k).bind_pure _)
    | float64 u64 => exact Mirrors.bind (readsBack_bcPutU8 _) ((readsBack_bcPutU64 u64).bind_pure _)
    | string hp => exact Mirrors.bind (readsBack_bcPutU8 _) ((readsBack_jsWriteString hp).bind_pure _)
    | @bigNum kind num hnum =>
      cases kind with
      | bigInt =>
        exact Mirrors.bind (readsBack_bcPutU8 _) ((readsBack_jsWriteBigNum hnum).bind_pure _)
      | bigFloat =>
        exact Mirrors.bind (readsBack_bcPutU8 _) ((readsBack_jsWriteBigNum hnum).bind_pure _)
      | bigDecimal =>
        exact Mirrors.bind (readsBack_bcPutU8 _) ((readsBack_jsWriteBigNum hnum).bind_pure _)
    | functionBytecode hb hlen hcpool =>
      rw [JSValue.reload, reloadAll_eq_map]
      exact Mirrors.bind (readsBack_bcPutU8 _)
        (readsBack_writeFunction hb hlen fun v hv => ih v (hcpool v hv))
    | moduleDef hm hfunc =>
      exact Mirrors.bind (readsBack_bcPutU8 _) (readsBack_writeModule hm (ih _ hfunc))
    | object hlen hprops =>
      rw [JSValue.reload, reloadProps_eq_map]
      exact Mirrors.bind (readsBack_bcPutU8 _)
        (readsBack_writeProps hlen fun p hp => ih _ (hprops p hp))
    | array hlen helements =>
      rw [JSValue.reload, reloadAll_eq_map]
      exact Mirrors.bind (readsBack_bcPutU8 _)
        (readsBack_writeArray hlen fun v hv => ih v (helements v hv))
    | templateObject hlen helements hraw =>
      rw [JSValue.reload, reloadAll_eq_map]
      exact Mirrors.bind (readsBack_bcPutU8 _)
        (readsBack_writeTemplate hlen (fun v hv => ih v (helements v hv)) (ih _ hraw))
    | arrayBuffer hlen => exact Mirrors.bind (readsBack_bcPutU8 _) (readsBack_writeBuffer hlen)
    | typedArray h =>
      exact Mirrors.bind (readsBack_bcPutU8 _)
        (readsBack_writeTypedArray h (ih _ (.arrayBuffer h.length)))
    | date hnumber =>
      obtain ⟨hfits, hreload⟩ := reload_number (ρ := ρ) hnumber
      have hrec := ih _ hfits
      rw [hreload] at hrec
      rw [JSValue.reload, hreload]
      refine Mirrors.bind (readsBack_bcPutU8 _) (hrec.bind_exact fun d => ?_)
      rw [if_pos hnumber]
      exact Exact.pure _
    | objectBool b =>
      exact Mirrors.bind (readsBack_bcPutU8 _) (readsBack_writeObjectValue rfl (ih _ (.bool b)))
    | @objectNumber objectData hnumber =>
      cases objectData with
      | int k =>
        exact Mirrors.bind (readsBack_bcPutU8 _) (readsBack_writeObjectValue rfl (ih _ (.int k)))
      | float64 u64 =>
        exact Mirrors.bind (readsBack_bcPutU8 _) (readsBack_writeObjectValue rfl (ih _ (.float64 u64)))
      | _ => cases hnumber
    | objectString hp =>
      exact Mirrors.bind (readsBack_bcPutU8 _) (readsBack_writeObjectValue rfl (ih _ (.string hp)))
    | objectBigNum hnum =>
      exact Mirrors.bind (readsBack_bcPutU8 _) (readsBack_writeObjectValue rfl (ih _ (.bigNum hnum)))

/-! ## The buffer -/

theorem readsBack_jsWriteObjectAtoms {atomArray : JSAtom → JSString} (newAtomStr : JSString → JSAtom)
    {atoms : List JSAtom} (hlen : atoms.length < 2 ^ 31) (hfits : ∀ a ∈ atoms, stringFits (atomArray a)) :
    ReadsBack (jsWriteObjectAtoms atomArray atoms) (fun _ => jsReadObjectAtoms newAtomStr)
      (atoms.map fun a => newAtomStr (atomArray a)) := by
  refine Mirrors.bind (readsBack_bcPutU8 _) ?_
  simp only [ne_eq, not_true_eq_false, if_false]
  refine Mirrors.bind (readsBack_bcPutLeb128 _) (readsBack_counted32 (by omega) fun a ha => ?_)
  exact (readsBack_jsWriteString (hfits a ha)).map newAtomStr

/-- The script `x`, whose only name of its own is the atom 300. -/
def nameScript : JSValue := .functionBytecode {
    jsMode := 0
    hasPrototype := false
    hasSimpleParameterList := true
    isDerivedClassConstructor := false
    needHomeObject := false
    funcKind := 0
    newTargetAllowed := false
    superCallAllowed := false
    superAllowed := false
    argumentsAllowed := true
    backtraceBarrier := false
    byteCode := [56, 44, 1, 0, 0, 40]
    funcName := 82
    vardefs := []
    closureVar := []
    argCount := 0
    varCount := 0
    definedArgCount := 0
    stackSize := 1
    debug := none } [.int 7]

theorem nameScript_fits : nameScript.Fits := by
  refine .functionBytecode ⟨.inl rfl, by decide, by decide, ?_⟩ (by decide) ?_
  · intro debug h
    cases h
  · intro v hv
    rw [List.mem_singleton.mp hv]
    exact .int 7

end JSChip.Binary
