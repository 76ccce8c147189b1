import Mathlib.Logic.Function.Basic
import JSChip.Heap.Count

/-!
# Reference counts and the collector

The memory of a `JSRuntime`, as `JS_FreeValueRT` and `JS_RunGC` see it: blocks that refer to each other,
with a count of references each, and the lists that they are on. A value is one that the collector looks
at or any other; strings and numbers are of the others.

* `markChildren`: what the mark functions call `mark_func` on.
* `freeGcObject`: what freeing an object or a function drops; `freeZeroRefcount` goes through those whose
  count has come to zero.
* `jsRunGC`: `gc_decref`, `gc_scan` and `gc_free_cycles`.

A function answers `none` where an assertion fails, where it touches a block that is not there, and where
a list is walked past its end.

Not here are the frames of generators and of async functions, which keep what is on their stacks while they are
suspended, weak maps and sets, module namespaces, and the classes that keep anything but values, a closure or a
realm.
-/

namespace JSChip.Gc

/-! ## Blocks -/

/-- A pointer to a block, of a type. -/
inductive GCPtr
  | object (n : ℕ)
  | functionBytecode (n : ℕ)
  | shape (n : ℕ)
  | varRef (n : ℕ)
  | context (n : ℕ)
deriving DecidableEq, Repr

inductive JSValue
  | object (n : ℕ)
  | functionBytecode (n : ℕ)
  | other
deriving DecidableEq, Repr

/-- `JSProperty`, with the flags of its `JSShapeProperty`. -/
inductive JSProperty
  /-- The atom is `JS_ATOM_NULL`. -/
  | deleted
  | normal (value : JSValue)
  | getset (getter setter : Option ℕ)
  | varref (varRef : ℕ)
  | autoinit (realm : ℕ)
deriving DecidableEq, Repr

/-- What the class of an object keeps in `u`. -/
inductive ClassData
  | none
  | array (values : List JSValue)
  | objectData (objectData : JSValue)
  | cfunc (realm : Option ℕ)
  | func (functionBytecode : Option ℕ) (varRefs : List (Option ℕ)) (homeObject : Option ℕ)
  | boundFunction (funcObj thisVal : JSValue) (argv : List JSValue)
  | forInIterator (obj : JSValue)
deriving DecidableEq, Repr

structure JSObject where
  shape : ℕ
  prop : List JSProperty
  u : ClassData
deriving DecidableEq, Repr

structure JSFunctionBytecode where
  cpool : List JSValue
  realm : Option ℕ
deriving DecidableEq, Repr

structure JSShape where
  proto : Option ℕ
deriving DecidableEq, Repr

/-- The value is on the stack, unless the variable is detached. -/
structure JSVarRef where
  isDetached : Bool
  value : JSValue
deriving DecidableEq, Repr

/-- `JSModuleDef`: the variables of its local exports, and `module_ns`, `func_obj`, `eval_exception` and
`meta_obj`. -/
structure JSModuleDef where
  exportVarRefs : List (Option ℕ)
  values : List JSValue
deriving DecidableEq, Repr

/-- `JSContext`: the values are those of `JS_MarkContext`, from `global_obj` to `function_proto`. -/
structure JSContext where
  loadedModules : List JSModuleDef
  values : List JSValue
  arrayShape : Option ℕ
deriving DecidableEq, Repr

/-- What is in the blocks. -/
structure Memory where
  object : ℕ → JSObject
  functionBytecode : ℕ → JSFunctionBytecode
  shape : ℕ → JSShape
  varRef : ℕ → JSVarRef
  context : ℕ → JSContext

structure JSGCObjectHeader where
  refCount : ℕ
  mark : Bool
deriving DecidableEq, Repr

inductive GCPhase
  | none
  | decref
  | removeCycles
deriving DecidableEq, Repr

structure JSRuntime where
  mem : Memory
  /-- The header of a block; a block that is not allocated has none. -/
  header : GCPtr → Option JSGCObjectHeader
  gcObjList : List GCPtr
  tmpObjList : List GCPtr
  gcZeroRefCountList : List GCPtr
  gcPhase : GCPhase

/-! ## Marking -/

/-- `JS_MarkValue` -/
def jsMarkValue : JSValue → List GCPtr
  | .object n => [.object n]
  | .functionBytecode n => [.functionBytecode n]
  | .other => []

/-- `js_autoinit_mark` and the other cases of a property in `mark_children`. -/
def markProperty (mem : Memory) : JSProperty → List GCPtr
  | .deleted => []
  | .normal value => jsMarkValue value
  | .getset getter setter => getter.toList.map .object ++ setter.toList.map .object
  | .varref n => if (mem.varRef n).isDetached then [.varRef n] else []
  | .autoinit realm => [.context realm]

/-- A variable of a closure, in `js_bytecode_function_mark`. -/
def markVarRef (mem : Memory) : Option ℕ → List GCPtr
  | some n => if (mem.varRef n).isDetached then [.varRef n] else []
  | none => []

/-- `gc_mark` of the class. -/
def gcMark (mem : Memory) : ClassData → List GCPtr
  | .none => []
  | .array values => values.flatMap jsMarkValue
  | .objectData objectData => jsMarkValue objectData
  | .cfunc realm => realm.toList.map .context
  | .func functionBytecode varRefs homeObject =>
    homeObject.toList.map .object ++
      match functionBytecode with
      | some b => varRefs.flatMap (markVarRef mem) ++ [.functionBytecode b]
      | none => []
  | .boundFunction funcObj thisVal argv =>
    jsMarkValue funcObj ++ jsMarkValue thisVal ++ argv.flatMap jsMarkValue
  | .forInIterator obj => jsMarkValue obj

/-- `js_mark_module_def` -/
def jsMarkModuleDef (m : JSModuleDef) : List GCPtr :=
  m.exportVarRefs.flatMap (fun v => v.toList.map .varRef) ++ m.values.flatMap jsMarkValue

/-- `JS_MarkContext` -/
def jsMarkContext (c : JSContext) : List GCPtr :=
  c.loadedModules.flatMap jsMarkModuleDef ++ c.values.flatMap jsMarkValue ++
    c.arrayShape.toList.map .shape

/-- What `mark_children` calls `mark_func` on, in order. -/
def markChildren (mem : Memory) : GCPtr → Option (List GCPtr)
  | .object n =>
    let p := mem.object n
    some (.shape p.shape :: p.prop.flatMap (markProperty mem) ++ gcMark mem p.u)
  | .functionBytecode n =>
    let b := mem.functionBytecode n
    some (b.cpool.flatMap jsMarkValue ++ b.realm.toList.map .context)
  | .varRef n =>
    if (mem.varRef n).isDetached then some (jsMarkValue (mem.varRef n).value) else none
  | .shape n => some ((mem.shape n).proto.toList.map .object)
  | .context n => some (jsMarkContext (mem.context n))

/-! ## Counts and lists -/

namespace JSRuntime

def setHeader (rt : JSRuntime) (p : GCPtr) (h : Option JSGCObjectHeader) : JSRuntime :=
  { rt with header := Function.update rt.header p h }

/-- `list_del`, of whichever list the block is on. -/
def listDel (rt : JSRuntime) (p : GCPtr) : JSRuntime := {
  rt with
  gcObjList := rt.gcObjList.erase p
  tmpObjList := rt.tmpObjList.erase p
  gcZeroRefCountList := rt.gcZeroRefCountList.erase p }

/-- `js_free_rt` -/
def jsFreeRt (rt : JSRuntime) (p : GCPtr) : Option JSRuntime :=
  match rt.header p with
  | some _ => some (rt.setHeader p none)
  | none => none

/-- `--p->ref_count`, and what it comes to. -/
def decRef (rt : JSRuntime) (p : GCPtr) : Option (ℕ × JSRuntime) :=
  match rt.header p with
  | some h =>
    if h.refCount = 0 then none
    else some (h.refCount - 1, rt.setHeader p (some { h with refCount := h.refCount - 1 }))
  | none => none

/-- `p->ref_count++`, and what it comes to. -/
def incRef (rt : JSRuntime) (p : GCPtr) : Option (ℕ × JSRuntime) :=
  match rt.header p with
  | some h => some (h.refCount + 1, rt.setHeader p (some { h with refCount := h.refCount + 1 }))
  | none => none

/-- `p->mark = mark` -/
def setMark (rt : JSRuntime) (p : GCPtr) (mark : Bool) : Option JSRuntime :=
  match rt.header p with
  | some h => some (rt.setHeader p (some { h with mark }))
  | none => none

/-- A reference to `p` is dropped, and `onZero` is done if it was the last. -/
def drop (p : GCPtr) (onZero : JSRuntime → Option JSRuntime) (rt : JSRuntime) : Option JSRuntime := do
  let (n, rt) ← rt.decRef p
  if n = 0 then onZero rt else some rt

end JSRuntime

/-- `f` on each in turn. -/
def forEach {α : Type} (f : α → JSRuntime → Option JSRuntime) (l : List α) (rt : JSRuntime) :
    Option JSRuntime :=
  l.foldlM (fun rt a => f a rt) rt

/-! ## Freeing -/

/-- `__JS_FreeValueRT`, of an object or a function, while there is a phase. -/
def zeroRefCount (p : GCPtr) (rt : JSRuntime) : Option JSRuntime :=
  -- the block stays on `tmp_obj_list`, where `gc_free_cycles` comes to it
  if rt.gcPhase = .removeCycles then some rt
  else
    let rt := rt.listDel p
    some { rt with gcZeroRefCountList := p :: rt.gcZeroRefCountList }

section Dropping

/-! A reference is dropped in the same way whether the collector is at work or not; what differs is
`__JS_FreeValueRT`, which is `zeroRefCount` while there is a phase, and otherwise frees at once. -/

variable (freeZero : GCPtr → JSRuntime → Option JSRuntime)

/-- `JS_FreeValueRT` -/
def freeValue : JSValue → JSRuntime → Option JSRuntime
  | .object n => JSRuntime.drop (.object n) (freeZero (.object n))
  | .functionBytecode n => JSRuntime.drop (.functionBytecode n) (freeZero (.functionBytecode n))
  | .other => some

/-- `JS_FreeValueRT` of a `JSObject *`, which may be NULL. -/
def freeObjectPtr : Option ℕ → JSRuntime → Option JSRuntime
  | some n => freeValue freeZero (.object n)
  | none => some

/-- `remove_gc_object` (or `list_del`) and `js_free_rt`. -/
def removeBlock (p : GCPtr) (rt : JSRuntime) : Option JSRuntime := (rt.listDel p).jsFreeRt p

/-- What a variable that is not on the stack has. -/
def freeDetached (varRef : JSVarRef) (rt : JSRuntime) : Option JSRuntime :=
  if varRef.isDetached then freeValue freeZero varRef.value rt else some rt

def freeVarRef : Option ℕ → JSRuntime → Option JSRuntime
  | some n => JSRuntime.drop (.varRef n) fun rt => do
    let rt ← freeDetached freeZero (rt.mem.varRef n) rt
    removeBlock (.varRef n) rt
  | none => some

/-- `js_free_shape` and `js_free_shape0`. -/
def jsFreeShape (n : ℕ) : JSRuntime → Option JSRuntime :=
  JSRuntime.drop (.shape n) fun rt => do
    -- the shape is on `gc_obj_list` until its prototype is dropped
    let rt ← freeObjectPtr freeZero (rt.mem.shape n).proto rt
    removeBlock (.shape n) rt

/-- `js_free_shape_null` -/
def jsFreeShapeNull : Option ℕ → JSRuntime → Option JSRuntime
  | some n => jsFreeShape freeZero n
  | none => some

/-- `js_free_module_def` -/
def jsFreeModuleDef (m : JSModuleDef) (rt : JSRuntime) : Option JSRuntime := do
  let rt ← forEach (freeVarRef freeZero) m.exportVarRefs rt
  forEach (freeValue freeZero) m.values rt

/-- `JS_FreeContext` -/
def jsFreeContext (n : ℕ) : JSRuntime → Option JSRuntime :=
  JSRuntime.drop (.context n) fun rt => do
    let ctx := rt.mem.context n
    let rt ← forEach (jsFreeModuleDef freeZero) ctx.loadedModules rt
    let rt ← forEach (freeValue freeZero) ctx.values rt
    let rt ← jsFreeShapeNull freeZero ctx.arrayShape rt
    removeBlock (.context n) rt

/-- The reference is dropped, as that to a block of its type is. -/
def freeRef : GCPtr → JSRuntime → Option JSRuntime
  | .object n => freeValue freeZero (.object n)
  | .functionBytecode n => freeValue freeZero (.functionBytecode n)
  | .shape n => jsFreeShape freeZero n
  | .varRef n => freeVarRef freeZero (some n)
  | .context n => jsFreeContext freeZero n

/-- `JS_FreeContext` of a realm, which may be NULL. -/
def freeRealm : Option ℕ → JSRuntime → Option JSRuntime
  | some n => jsFreeContext freeZero n
  | none => some

def freeProperty : JSProperty → JSRuntime → Option JSRuntime
  | .deleted => some
  | .normal value => freeValue freeZero value
  | .getset getter setter => fun rt => do
    let rt ← freeObjectPtr freeZero getter rt
    freeObjectPtr freeZero setter rt
  | .varref n => freeVarRef freeZero (some n)
  | .autoinit realm => jsFreeContext freeZero realm

/-- The finalizer of the class. -/
def finalizer : ClassData → JSRuntime → Option JSRuntime
  | .none => some
  | .array values => forEach (freeValue freeZero) values
  | .objectData objectData => freeValue freeZero objectData
  | .cfunc realm => freeRealm freeZero realm
  | .func functionBytecode varRefs homeObject => fun rt => do
    let rt ← freeObjectPtr freeZero homeObject rt
    match functionBytecode with
    | some b => do
      let rt ← forEach (freeVarRef freeZero) varRefs rt
      freeValue freeZero (.functionBytecode b) rt
    | none => some rt
  | .boundFunction funcObj thisVal argv => fun rt => do
    let rt ← freeValue freeZero funcObj rt
    let rt ← freeValue freeZero thisVal rt
    forEach (freeValue freeZero) argv rt
  | .forInIterator obj => freeValue freeZero obj

end Dropping

/-- The end of `free_object` and of `free_function_bytecode`. -/
def removeObject (p : GCPtr) (rt : JSRuntime) : Option JSRuntime :=
  match rt.header p with
  | some h =>
    let rt := rt.listDel p
    -- the other blocks of the cycle still refer to it: its memory is freed at the end
    if rt.gcPhase = .removeCycles ∧ h.refCount ≠ 0 then
      some { rt with gcZeroRefCountList := rt.gcZeroRefCountList ++ [p] }
    else rt.jsFreeRt p
  | none => none

/-- An object is freed while there is a phase only. -/
def freeObject (n : ℕ) (rt : JSRuntime) : Option JSRuntime := do
  let p := rt.mem.object n
  let rt ← forEach (freeProperty zeroRefCount) p.prop rt
  let rt ← jsFreeShape zeroRefCount p.shape rt
  let rt ← finalizer zeroRefCount p.u rt
  removeObject (.object n) rt

def freeFunctionBytecode (n : ℕ) (rt : JSRuntime) : Option JSRuntime := do
  let b := rt.mem.functionBytecode n
  let rt ← forEach (freeValue zeroRefCount) b.cpool rt
  let rt ← freeRealm zeroRefCount b.realm rt
  removeObject (.functionBytecode n) rt

def freeGcObject : GCPtr → JSRuntime → Option JSRuntime
  | .object n => freeObject n
  | .functionBytecode n => freeFunctionBytecode n
  | .shape _ | .varRef _ | .context _ => fun _ => none

/-- The loop of `free_zero_refcount`. -/
def freeZeroLoop : (fuel : ℕ) → JSRuntime → Option JSRuntime
  | 0, _ => none
  | fuel + 1, rt =>
    match rt.gcZeroRefCountList with
    | [] => some rt
    | p :: _ =>
      match rt.header p with
      | some h =>
        if h.refCount ≠ 0 then none
        else do
          let rt ← freeGcObject p rt
          freeZeroLoop fuel rt
      | none => none

/-- More than the rounds that a loop over the lists goes. -/
def JSRuntime.fuel (rt : JSRuntime) : ℕ :=
  rt.gcObjList.length + rt.tmpObjList.length + rt.gcZeroRefCountList.length + 1

def freeZeroRefcount (rt : JSRuntime) : Option JSRuntime := do
  let rt ← freeZeroLoop rt.fuel { rt with gcPhase := .decref }
  some { rt with gcPhase := .none }

/-- `__JS_FreeValueRT`, of an object or a function. -/
def freeZeroValue (p : GCPtr) (rt : JSRuntime) : Option JSRuntime := do
  let phase := rt.gcPhase
  let rt ← zeroRefCount p rt
  if phase = .none then freeZeroRefcount rt else some rt

/-- `JS_FreeValue` -/
def jsFreeValue : JSValue → JSRuntime → Option JSRuntime := freeValue freeZeroValue

/-! ## The collector -/

/-- `el->next`, if it is not the head of the list. -/
def linkNext (l : List GCPtr) (p : GCPtr) : Option GCPtr := (l.dropWhile (· ≠ p)).tail.head?

def gcDecrefChild (p : GCPtr) (rt : JSRuntime) : Option JSRuntime :=
  match rt.header p with
  | some h => do
    let (n, rt) ← rt.decRef p
    -- only a block whose own round is over is moved: the loop comes to the others
    if n = 0 ∧ h.mark then
      let rt := rt.listDel p
      some { rt with tmpObjList := rt.tmpObjList ++ [p] }
    else some rt
  | none => none

/-- The end of a round of `gc_decref`. -/
def gcMarkObject (p : GCPtr) (rt : JSRuntime) : Option JSRuntime := do
  let rt ← rt.setMark p true
  match rt.header p with
  | some h =>
    if h.refCount = 0 then
      let rt := rt.listDel p
      some { rt with tmpObjList := rt.tmpObjList ++ [p] }
    else some rt
  | none => none

/-- A round of `gc_decref`. -/
def gcDecrefObject (p : GCPtr) (rt : JSRuntime) : Option JSRuntime :=
  match rt.header p with
  | some h =>
    if h.mark then none
    else do
      let children ← markChildren rt.mem p
      let rt ← forEach gcDecrefChild children rt
      gcMarkObject p rt
  | none => none

/-- `list_for_each_safe` of `gc_decref`: the next block is looked up before the round, and has to be on
the list after it. -/
def gcDecrefLoop : (fuel : ℕ) → Option GCPtr → JSRuntime → Option JSRuntime
  | _, none, rt => some rt
  | 0, some _, _ => none
  | fuel + 1, some p, rt => do
    let next := linkNext rt.gcObjList p
    let rt ← gcDecrefObject p rt
    -- a round may take blocks off the list, but not the one that was looked up
    if next.all (· ∈ rt.gcObjList) then gcDecrefLoop fuel next rt else none

def gcDecref (rt : JSRuntime) : Option JSRuntime :=
  gcDecrefLoop rt.fuel rt.gcObjList.head? { rt with tmpObjList := [] }

def gcScanIncrefChild (p : GCPtr) (rt : JSRuntime) : Option JSRuntime := do
  let (n, rt) ← rt.incRef p
  -- it can be reached after all: back to the end of the list, where the loop comes to it
  if n = 1 then
    let rt := rt.listDel p
    JSRuntime.setMark { rt with gcObjList := rt.gcObjList ++ [p] } p false
  else some rt

def gcScanIncrefChild2 (p : GCPtr) (rt : JSRuntime) : Option JSRuntime := do
  let (_, rt) ← rt.incRef p
  some rt

/-- A round of the first loop of `gc_scan`. -/
def gcScanObject (p : GCPtr) (rt : JSRuntime) : Option JSRuntime :=
  match rt.header p with
  | some h =>
    if h.refCount = 0 then none
    else do
      let rt ← rt.setMark p false
      let children ← markChildren rt.mem p
      forEach gcScanIncrefChild children rt
  | none => none

/-- `list_for_each` of `gc_scan`: the next block is looked up after the round. -/
def gcScanLoop : (fuel : ℕ) → Option GCPtr → JSRuntime → Option JSRuntime
  | _, none, rt => some rt
  | 0, some _, _ => none
  | fuel + 1, some p, rt => do
    let rt ← gcScanObject p rt
    gcScanLoop fuel (linkNext rt.gcObjList p) rt

/-- A round of the second loop of `gc_scan`. -/
def gcRestoreObject (p : GCPtr) (rt : JSRuntime) : Option JSRuntime := do
  let children ← markChildren rt.mem p
  forEach gcScanIncrefChild2 children rt

def gcScan (rt : JSRuntime) : Option JSRuntime := do
  let rt ← gcScanLoop rt.fuel rt.gcObjList.head? rt
  forEach gcRestoreObject rt.tmpObjList rt

/-- A round of `gc_free_cycles`. -/
def gcFreeHead (p : GCPtr) (rt : JSRuntime) : Option JSRuntime :=
  match p with
  | .object _ | .functionBytecode _ => freeGcObject p rt
  | .shape _ | .varRef _ | .context _ =>
    let rt := rt.listDel p
    some { rt with gcZeroRefCountList := rt.gcZeroRefCountList ++ [p] }

/-- The loop of `gc_free_cycles`. -/
def gcFreeLoop : (fuel : ℕ) → JSRuntime → Option JSRuntime
  | 0, _ => none
  | fuel + 1, rt =>
    match rt.tmpObjList with
    | [] => some rt
    | p :: _ => do
      let rt ← gcFreeHead p rt
      gcFreeLoop fuel rt

/-- What is left on `gc_zero_ref_count_list` at the end. -/
def gcFreeZombie (p : GCPtr) (rt : JSRuntime) : Option JSRuntime :=
  match p with
  | .object _ | .functionBytecode _ => rt.jsFreeRt p
  | .shape _ | .varRef _ | .context _ => none

def gcFreeCycles (rt : JSRuntime) : Option JSRuntime := do
  let rt ← gcFreeLoop rt.fuel { rt with gcPhase := .removeCycles }
  let rt ← forEach gcFreeZombie rt.gcZeroRefCountList { rt with gcPhase := .none }
  some { rt with gcZeroRefCountList := [] }

def jsRunGC (rt : JSRuntime) : Option JSRuntime := do
  let rt ← gcDecref rt
  let rt ← gcScan rt
  gcFreeCycles rt

end JSChip.Gc
