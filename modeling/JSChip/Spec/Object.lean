import JSChip.Spec.Binary

/-!
# Values as bytes

`lua_compile` writes a compiled script with `JS_WriteObject`, and `lua_eval` reads it with
`JS_ReadObject`; both allow bytecode, and neither allows references or shared memory.

Values are trees here, of the kinds that the format has. What the writer throws for other values is left
out: for an object within itself ('circular reference'), for an enumerable property with a getter or a setter
('only value properties are supported'), for other classes and tags, and for a detached buffer. So are the
exceptions of an array whose length or elements cannot be read, and the lack of memory.

* `jsWriteObjectRec` and `jsReadObjectRec`: a value. The number is how many more nested calls the C
  stack has room for.
* `jsWriteObject` and `jsReadObject`: a version, a table of the atoms, and a value.
* `JSValue.reload`: what becomes of a value that is read by another runtime, where an atom has
  another number.
-/

namespace JSChip.Binary

open Codec
open Alloc (JSString)

/-! ## Values -/

structure JSVarDef where
  varName : JSAtom
  scopeLevel : BitVec 32
  scopeNext : BitVec 32
  isConst : Bool
  isLexical : Bool
  isCaptured : Bool
  varKind : BitVec 4
deriving DecidableEq, Repr

structure JSClosureVar where
  isLocal : Bool
  isArg : Bool
  isConst : Bool
  isLexical : Bool
  varKind : BitVec 4
  varIdx : BitVec 16
  varName : JSAtom
deriving DecidableEq, Repr

/-- `debug` of a `JSFunctionBytecode`. The source text is not written. -/
structure DebugInfo where
  filename : JSAtom
  lineNum : BitVec 32
  pc2line : List UInt8
  source : Option (List UInt8)
deriving DecidableEq, Repr

/-- `JSFunctionBytecode` without its constant pool. `debug` is there if `has_debug` is set. -/
structure FunctionBytecode where
  jsMode : UInt8
  hasPrototype : Bool
  hasSimpleParameterList : Bool
  isDerivedClassConstructor : Bool
  needHomeObject : Bool
  funcKind : BitVec 2
  newTargetAllowed : Bool
  superCallAllowed : Bool
  superAllowed : Bool
  argumentsAllowed : Bool
  backtraceBarrier : Bool
  byteCode : List UInt8
  funcName : JSAtom
  vardefs : List JSVarDef
  closureVar : List JSClosureVar
  argCount : BitVec 16
  varCount : BitVec 16
  definedArgCount : BitVec 16
  stackSize : BitVec 16
  debug : Option DebugInfo
deriving DecidableEq, Repr

inductive JSExportEntry
  /-- `JS_EXPORT_TYPE_LOCAL` -/
  | ofLocal (varIdx : BitVec 32) (exportName : JSAtom)
  | ofModule (exportType : UInt8) (notLocal : exportType ≠ 0) (reqModuleIdx : BitVec 32)
      (localName exportName : JSAtom)
deriving DecidableEq, Repr

structure JSImportEntry where
  varIdx : BitVec 32
  importName : JSAtom
  reqModuleIdx : BitVec 32
deriving DecidableEq, Repr

/-- `JSModuleDef`, as it is before it is linked. -/
structure JSModuleDef where
  moduleName : JSAtom
  reqModuleEntries : List JSAtom
  exportEntries : List JSExportEntry
  starExportEntries : List (BitVec 32)
  importEntries : List JSImportEntry
deriving DecidableEq, Repr

inductive JSValue
  | null
  | undefined
  | bool (b : Bool)
  | int (n : BitVec 32)
  /-- The bits of a double. -/
  | float64 (u64 : BitVec 64)
  | string (p : JSString)
  | bigNum (kind : BigNumKind) (num : BigFloat)
  | functionBytecode (b : FunctionBytecode) (cpool : List JSValue)
  | moduleDef (m : JSModuleDef) (funcObj : JSValue)
  /-- The enumerable properties whose name is a string. -/
  | object (props : List (JSAtom × JSValue))
  | array (elements : List JSValue)
  /-- An array that is not extensible. -/
  | templateObject (elements : List JSValue) (raw : JSValue)
  | arrayBuffer (data : List UInt8)
  /-- The kind counts from `JS_CLASS_UINT8C_ARRAY`; the offset is in bytes. -/
  | typedArray (kind : Fin 11) (count offset : BitVec 32) (buffer : JSValue)
  | date (objectData : JSValue)
  /-- A `Number`, `String`, `Boolean` or big number object. -/
  | objectValue (objectData : JSValue)

/-! ## Tags -/

/-- `BCTagEnum`, which begins at 1. -/
inductive BCTag
  | null
  | undefined
  | boolFalse
  | boolTrue
  | int32
  | float64
  | string
  | object
  | array
  | bigInt
  | bigFloat
  | bigDecimal
  | templateObject
  | functionBytecode
  | moduleDef
  | typedArray
  | arrayBuffer
  | sharedArrayBuffer
  | date
  | objectValue
  | objectReference
deriving DecidableEq, Repr

def BCTag.toByte (tag : BCTag) : UInt8 := UInt8.ofNat (tag.ctorIdx + 1)

def BCTag.ofByte (b : UInt8) : Option BCTag :=
  if 1 ≤ b.toNat ∧ b.toNat ≤ 21 then some (BCTag.ofNat (b.toNat - 1)) else none

def BigNumKind.tag : BigNumKind → BCTag
  | .bigInt => .bigInt
  | .bigFloat => .bigFloat
  | .bigDecimal => .bigDecimal

/-! ## The writer -/

def bcPutTag (tag : BCTag) : WriterM Unit := bcPutU8 tag.toByte

/-- The length of an array, which the program keeps as an `int` or a `uint32_t` beside it. -/
def bcPutCount {α : Type} (l : List α) : WriterM Unit := bcPutLeb128 (BitVec.ofNat 32 l.length)

/-- The flags of a variable, with their widths. -/
def JSVarDef.flags (vd : JSVarDef) : List (ℕ × ℕ) :=
  [(vd.varKind.toNat, 4), (vd.isConst.toNat, 1), (vd.isLexical.toNat, 1), (vd.isCaptured.toNat, 1)]

def writeVarDef (vd : JSVarDef) : WriterM Unit := do
  bcPutAtom vd.varName
  bcPutLeb128 vd.scopeLevel
  bcPutLeb128 (vd.scopeNext + 1)
  bcPutU8 (UInt8.ofNat (bcSetFlags vd.flags))

def JSClosureVar.flags (cv : JSClosureVar) : List (ℕ × ℕ) :=
  [(cv.isLocal.toNat, 1), (cv.isArg.toNat, 1), (cv.isConst.toNat, 1), (cv.isLexical.toNat, 1),
    (cv.varKind.toNat, 4)]

def writeClosureVar (cv : JSClosureVar) : WriterM Unit := do
  bcPutAtom cv.varName
  bcPutLeb128 (cv.varIdx.setWidth 32)
  bcPutU8 (UInt8.ofNat (bcSetFlags cv.flags))

def writeDebug : Option DebugInfo → WriterM Unit
  | none => pure ()
  | some debug => do
    bcPutAtom debug.filename
    bcPutLeb128 debug.lineNum
    bcPutCount debug.pc2line
    put debug.pc2line

/-- `vardefs` is either NULL or has an entry for each argument and each variable. -/
def writeVarDefs (b : FunctionBytecode) : WriterM Unit :=
  if b.vardefs = [] then bcPutLeb128 0
  else do
    bcPutLeb128 (b.argCount.setWidth 32 + b.varCount.setWidth 32)
    b.vardefs.forM writeVarDef

def FunctionBytecode.flags (b : FunctionBytecode) : List (ℕ × ℕ) :=
  [(b.hasPrototype.toNat, 1), (b.hasSimpleParameterList.toNat, 1),
    (b.isDerivedClassConstructor.toNat, 1), (b.needHomeObject.toNat, 1), (b.funcKind.toNat, 2),
    (b.newTargetAllowed.toNat, 1), (b.superCallAllowed.toNat, 1), (b.superAllowed.toNat, 1),
    (b.argumentsAllowed.toNat, 1), (b.debug.isSome.toNat, 1), (b.backtraceBarrier.toNat, 1)]

variable (writeRec : JSValue → WriterM Unit)

/-- What `JS_WriteFunctionTag` writes after the tag. -/
def writeFunction (b : FunctionBytecode) (cpool : List JSValue) : WriterM Unit := do
  bcPutU16 (BitVec.ofNat 16 (bcSetFlags b.flags))
  bcPutU8 b.jsMode
  bcPutAtom b.funcName
  bcPutLeb128 (b.argCount.setWidth 32)
  bcPutLeb128 (b.varCount.setWidth 32)
  bcPutLeb128 (b.definedArgCount.setWidth 32)
  bcPutLeb128 (b.stackSize.setWidth 32)
  bcPutCount b.closureVar
  bcPutCount cpool
  bcPutCount b.byteCode
  writeVarDefs b
  b.closureVar.forM writeClosureVar
  jsWriteFunctionBytecode b.byteCode
  writeDebug b.debug
  cpool.forM writeRec

def jsWriteFunctionTag (b : FunctionBytecode) (cpool : List JSValue) : WriterM Unit := do
  bcPutTag .functionBytecode
  writeFunction writeRec b cpool

def writeExportEntry : JSExportEntry → WriterM Unit
  | .ofLocal varIdx exportName => do
    bcPutU8 0
    bcPutLeb128 varIdx
    bcPutAtom exportName
  | .ofModule exportType _ reqModuleIdx localName exportName => do
    bcPutU8 exportType
    bcPutLeb128 reqModuleIdx
    bcPutAtom localName
    bcPutAtom exportName

def writeImportEntry (mi : JSImportEntry) : WriterM Unit := do
  bcPutLeb128 mi.varIdx
  bcPutAtom mi.importName
  bcPutLeb128 mi.reqModuleIdx

/-- What `JS_WriteModule` writes after the tag. -/
def writeModule (m : JSModuleDef) (funcObj : JSValue) : WriterM Unit := do
  bcPutAtom m.moduleName
  bcPutCount m.reqModuleEntries
  m.reqModuleEntries.forM bcPutAtom
  bcPutCount m.exportEntries
  m.exportEntries.forM writeExportEntry
  bcPutCount m.starExportEntries
  m.starExportEntries.forM bcPutLeb128
  bcPutCount m.importEntries
  m.importEntries.forM writeImportEntry
  writeRec funcObj

def jsWriteModule (m : JSModuleDef) (funcObj : JSValue) : WriterM Unit := do
  bcPutTag .moduleDef
  writeModule writeRec m funcObj

/-- `JS_WriteArray`, where `raw` is the property that is written of a template. -/
def jsWriteArray (elements : List JSValue) (raw : Option JSValue) : WriterM Unit := do
  bcPutTag (if raw.isSome then .templateObject else .array)
  bcPutCount elements
  elements.forM writeRec
  raw.forM writeRec

def jsWriteObjectTag (props : List (JSAtom × JSValue)) : WriterM Unit := do
  bcPutTag .object
  bcPutCount props
  props.forM fun p => do
    bcPutAtom p.1
    writeRec p.2

def jsWriteObjectRec : (stack : ℕ) → JSValue → WriterM Unit
  | 0, _ => throw .stackOverflow
  | _ + 1, .null => bcPutTag .null
  | _ + 1, .undefined => bcPutTag .undefined
  | _ + 1, .bool b => bcPutTag (if b then .boolTrue else .boolFalse)
  | _ + 1, .int n => do
    bcPutTag .int32
    bcPutSleb128 n
  | _ + 1, .float64 u64 => do
    bcPutTag .float64
    bcPutU64 u64
  | _ + 1, .string p => do
    bcPutTag .string
    jsWriteString p
  | _ + 1, .bigNum kind num => do
    bcPutTag kind.tag
    jsWriteBigNum kind num
  | n + 1, .functionBytecode b cpool => jsWriteFunctionTag (jsWriteObjectRec n) b cpool
  | n + 1, .moduleDef m funcObj => jsWriteModule (jsWriteObjectRec n) m funcObj
  | n + 1, .object props => jsWriteObjectTag (jsWriteObjectRec n) props
  | n + 1, .array elements => jsWriteArray (jsWriteObjectRec n) elements none
  | n + 1, .templateObject elements raw => jsWriteArray (jsWriteObjectRec n) elements (some raw)
  | _ + 1, .arrayBuffer data => do
    bcPutTag .arrayBuffer
    bcPutCount data
    put data
  | n + 1, .typedArray kind count offset buffer => do
    bcPutTag .typedArray
    bcPutU8 (UInt8.ofNat kind)
    bcPutLeb128 count
    bcPutLeb128 offset
    jsWriteObjectRec n buffer
  | n + 1, .date objectData => do
    bcPutTag .date
    jsWriteObjectRec n objectData
  | n + 1, .objectValue objectData => do
    bcPutTag .objectValue
    jsWriteObjectRec n objectData

/-- `JS_WriteObjectAtoms`, where `atomArray` has the strings of the atoms of the runtime. -/
def jsWriteObjectAtoms (atomArray : JSAtom → JSString) (idxToAtom : List JSAtom) : WriterM Unit := do
  bcPutU8 bcVersion
  bcPutCount idxToAtom
  idxToAtom.forM fun atom => jsWriteString (atomArray atom)

def jsWriteObject (atomArray : JSAtom → JSString) (stack : ℕ) (obj : JSValue) :
    Except WriteError (List UInt8) := do
  let (_, s) ← jsWriteObjectRec stack obj ⟨[], [], []⟩
  let (_, atoms) ← jsWriteObjectAtoms atomArray s.idxToAtom { s with dbuf := [] }
  pure (atoms.dbuf ++ s.dbuf)

/-! ## The reader -/

def readVarDef (idxToAtom : List JSAtom) : Reader JSVarDef := do
  let varName ← bcGetAtom idxToAtom
  let scopeLevel ← bcGetLeb128
  let scopeNext ← bcGetLeb128
  let v8 ← bcGetU8
  pure {
    varName, scopeLevel, scopeNext := scopeNext - 1
    varKind := BitVec.ofNat 4 (bcGetFlags v8.toNat 0 4)
    isConst := bcGetFlags v8.toNat 4 1 != 0
    isLexical := bcGetFlags v8.toNat 5 1 != 0
    isCaptured := bcGetFlags v8.toNat 6 1 != 0 }

def readClosureVar (idxToAtom : List JSAtom) : Reader JSClosureVar := do
  let varName ← bcGetAtom idxToAtom
  let varIdx ← bcGetLeb128
  let v8 ← bcGetU8
  pure {
    varName, varIdx := varIdx.setWidth 16
    isLocal := bcGetFlags v8.toNat 0 1 != 0
    isArg := bcGetFlags v8.toNat 1 1 != 0
    isConst := bcGetFlags v8.toNat 2 1 != 0
    isLexical := bcGetFlags v8.toNat 3 1 != 0
    varKind := BitVec.ofNat 4 (bcGetFlags v8.toNat 4 4) }

def readDebug (idxToAtom : List JSAtom) (hasDebug : Bool) : Reader (Option DebugInfo) :=
  if hasDebug then do
    let filename ← bcGetAtom idxToAtom
    let lineNum ← bcGetLeb128
    let pc2lineLen ← bcGetLeb128
    let pc2line ← bcGetBuf pc2lineLen
    pure (some { filename, lineNum, pc2line, source := none })
  else pure none

def readExportEntry (idxToAtom : List JSAtom) : Reader JSExportEntry := do
  let v8 ← bcGetU8
  let idx ← bcGetLeb128
  if h : v8 = 0 then do
    let exportName ← bcGetAtom idxToAtom
    pure (.ofLocal idx exportName)
  else do
    let localName ← bcGetAtom idxToAtom
    let exportName ← bcGetAtom idxToAtom
    pure (.ofModule v8 h idx localName exportName)

def readImportEntry (idxToAtom : List JSAtom) : Reader JSImportEntry := do
  let varIdx ← bcGetLeb128
  let importName ← bcGetAtom idxToAtom
  let reqModuleIdx ← bcGetLeb128
  pure { varIdx, importName, reqModuleIdx }

/-- `JS_DefinePropertyValue` of a plain object. -/
def defineProperty (props : List (JSAtom × JSValue)) (prop : JSAtom × JSValue) :
    List (JSAtom × JSValue) :=
  if props.any (·.1 == prop.1) then props.map fun p => if p.1 == prop.1 then prop else p
  else props ++ [prop]

/-- `JS_IsNumber` -/
def JSValue.isNumber : JSValue → Bool
  | .int _ | .float64 _ => true
  | _ => false

/-- `JS_ToObject` -/
def jsToObject (val : JSValue) : Reader JSValue :=
  match val with
  | .null | .undefined | .functionBytecode _ _ | .moduleDef _ _ => throw .cannotConvertToObject
  | .bool _ | .int _ | .float64 _ | .string _ | .bigNum _ _ => pure (.objectValue val)
  | .object _ | .array _ | .templateObject _ _ | .arrayBuffer _ | .typedArray _ _ _ _ | .date _
  | .objectValue _ => pure val

/-- `typed_array_size_log2` -/
def typedArraySizeLog2 (kind : Fin 11) : ℕ := [0, 0, 0, 1, 1, 2, 2, 3, 3, 2, 3][kind]

/-- `js_typed_array_constructor` on a value that should be a buffer. -/
def jsTypedArrayConstructor (kind : Fin 11) (count offset : BitVec 32) (buffer : JSValue) :
    Reader JSValue :=
  match buffer with
  | .arrayBuffer data =>
    let size := 2 ^ typedArraySizeLog2 kind
    if offset.toNat % size ≠ 0 ∨ offset.toNat > data.length then throw .invalidOffset
    else if offset.toNat + count.toNat * size > data.length then throw .invalidLength
    else pure (.typedArray kind count offset buffer)
  | _ => throw .arrayBufferExpected

variable (idxToAtom : List JSAtom) (readRec : Reader JSValue)

def jsReadFunctionTag : Reader JSValue := do
  let v16 ← bcGetU16
  let jsMode ← bcGetU8
  let funcName ← bcGetAtom idxToAtom
  let argCount ← bcGetLeb128U16
  let varCount ← bcGetLeb128U16
  let definedArgCount ← bcGetLeb128U16
  let stackSize ← bcGetLeb128U16
  let closureVarCount ← bcGetLeb128
  let cpoolCount ← bcGetLeb128
  let byteCodeLen ← bcGetLeb128
  let localCount ← bcGetLeb128
  let vardefs ← (readVarDef idxToAtom).times (rounds localCount)
  let closureVar ← (readClosureVar idxToAtom).times (rounds closureVarCount)
  let byteCode ← jsReadFunctionBytecode idxToAtom byteCodeLen
  let debug ← readDebug idxToAtom (bcGetFlags v16.toNat 10 1 != 0)
  let cpool ← readRec.times (rounds cpoolCount)
  pure (.functionBytecode {
    jsMode, funcName, argCount, varCount, definedArgCount, stackSize, vardefs, closureVar, byteCode,
    debug
    hasPrototype := bcGetFlags v16.toNat 0 1 != 0
    hasSimpleParameterList := bcGetFlags v16.toNat 1 1 != 0
    isDerivedClassConstructor := bcGetFlags v16.toNat 2 1 != 0
    needHomeObject := bcGetFlags v16.toNat 3 1 != 0
    funcKind := BitVec.ofNat 2 (bcGetFlags v16.toNat 4 2)
    newTargetAllowed := bcGetFlags v16.toNat 6 1 != 0
    superCallAllowed := bcGetFlags v16.toNat 7 1 != 0
    superAllowed := bcGetFlags v16.toNat 8 1 != 0
    argumentsAllowed := bcGetFlags v16.toNat 9 1 != 0
    backtraceBarrier := bcGetFlags v16.toNat 11 1 != 0 } cpool)

def jsReadModule : Reader JSValue := do
  let moduleName ← bcGetAtom idxToAtom
  let reqModuleEntriesCount ← bcGetLeb128
  let reqModuleEntries ← (bcGetAtom idxToAtom).times (rounds reqModuleEntriesCount)
  let exportEntriesCount ← bcGetLeb128
  let exportEntries ← (readExportEntry idxToAtom).times (rounds exportEntriesCount)
  let starExportEntriesCount ← bcGetLeb128
  let starExportEntries ← bcGetLeb128.times (rounds starExportEntriesCount)
  let importEntriesCount ← bcGetLeb128
  let importEntries ← (readImportEntry idxToAtom).times (rounds importEntriesCount)
  let funcObj ← readRec
  pure (.moduleDef {
    moduleName, reqModuleEntries, exportEntries, starExportEntries, importEntries } funcObj)

def jsReadObjectTag : Reader JSValue := do
  let propCount ← bcGetLeb128
  let props ← Parser.times (do
    let atom ← bcGetAtom idxToAtom
    let val ← readRec
    pure (atom, val)) propCount.toNat
  pure (.object (props.foldl defineProperty []))

def jsReadArray (isTemplate : Bool) : Reader JSValue := do
  let len ← bcGetLeb128
  let elements ← readRec.times len.toNat
  if isTemplate then do
    let raw ← readRec
    pure (.templateObject elements raw)
  else pure (.array elements)

def jsReadArrayBuffer : Reader JSValue := do
  let byteLength ← bcGetLeb128
  let data ← bcGetBuf byteLength
  if data.length > 0x7fffffff then throw .invalidBufferLength else pure (.arrayBuffer data)

def jsReadTypedArray : Reader JSValue := do
  let arrayTag ← bcGetU8
  if h : arrayTag.toNat < 11 then do
    let len ← bcGetLeb128
    let offset ← bcGetLeb128
    let arrayBuffer ← readRec
    jsTypedArrayConstructor ⟨arrayTag.toNat, h⟩ len offset arrayBuffer
  else throw .invalidTypedArray

def jsReadDate : Reader JSValue := do
  let val ← readRec
  if val.isNumber then pure (.date val) else throw .dateNumberExpected

def jsReadObjectValue : Reader JSValue := do
  let val ← readRec
  jsToObject val

def jsReadObjectRec : (stack : ℕ) → Reader JSValue
  | 0 => throw .stackOverflow
  | n + 1 => do
    let tag ← bcGetU8
    match BCTag.ofByte tag with
    | some .null => pure .null
    | some .undefined => pure .undefined
    | some .boolFalse => pure (.bool false)
    | some .boolTrue => pure (.bool true)
    | some .int32 => do
      let val ← bcGetSleb128
      pure (.int val)
    | some .float64 => do
      let u64 ← bcGetU64
      pure (.float64 u64)
    | some .string => do
      let p ← jsReadString
      pure (.string p)
    | some .functionBytecode => jsReadFunctionTag idxToAtom (jsReadObjectRec n)
    | some .moduleDef => jsReadModule idxToAtom (jsReadObjectRec n)
    | some .object => jsReadObjectTag idxToAtom (jsReadObjectRec n)
    | some .array => jsReadArray (jsReadObjectRec n) false
    | some .templateObject => jsReadArray (jsReadObjectRec n) true
    | some .arrayBuffer => jsReadArrayBuffer
    | some .typedArray => jsReadTypedArray (jsReadObjectRec n)
    | some .date => jsReadDate (jsReadObjectRec n)
    | some .objectValue => jsReadObjectValue (jsReadObjectRec n)
    | some .bigInt => do
      let num ← jsReadBigNum .bigInt
      pure (.bigNum .bigInt num)
    | some .bigFloat => do
      let num ← jsReadBigNum .bigFloat
      pure (.bigNum .bigFloat num)
    | some .bigDecimal => do
      let num ← jsReadBigNum .bigDecimal
      pure (.bigNum .bigDecimal num)
    | some .objectReference => throw .objectReference
    | some .sharedArrayBuffer | none => Parser.fail (.invalidTag tag)

/-- `JS_ReadObjectAtoms`, where `newAtomStr` is what `JS_NewAtomStr` answers. -/
def jsReadObjectAtoms (newAtomStr : JSString → JSAtom) : Reader (List JSAtom) := do
  let v8 ← bcGetU8
  if v8 ≠ bcVersion then throw (.invalidVersion v8)
  else do
    let idxToAtomCount ← bcGetLeb128
    Parser.times (newAtomStr <$> jsReadString) idxToAtomCount.toNat

def readObject (newAtomStr : JSString → JSAtom) (stack : ℕ) : Reader JSValue := do
  let idxToAtom ← jsReadObjectAtoms newAtomStr
  jsReadObjectRec idxToAtom stack

def jsReadObject (newAtomStr : JSString → JSAtom) (stack : ℕ) (buf : List UInt8) :
    Except ReadError JSValue :=
  (readObject newAtomStr stack ⟨0, buf⟩).map Prod.fst

end JSChip.Binary
