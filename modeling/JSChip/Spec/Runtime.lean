import JSChip.Spec.Gc

/-!
# What the engine does with its blocks

The functions through which the rest of the engine has to do with blocks, between two calls of the
collector: new blocks, further references, the fields that are written, the variables that leave the
stack, and the end of the runtime.
-/

namespace JSChip.Gc

/-- A block and its fields. -/
inductive Block
  | object (n : ℕ) (p : JSObject)
  | functionBytecode (n : ℕ) (b : JSFunctionBytecode)
  | shape (n : ℕ) (sh : JSShape)
  | varRef (n : ℕ) (varRef : JSVarRef)
  | context (n : ℕ) (ctx : JSContext)
deriving DecidableEq, Repr

def Block.ptr : Block → GCPtr
  | .object n _ => .object n
  | .functionBytecode n _ => .functionBytecode n
  | .shape n _ => .shape n
  | .varRef n _ => .varRef n
  | .context n _ => .context n

/-- The fields of a block are written. -/
def Memory.write (mem : Memory) : Block → Memory
  | .object n p => { mem with object := Function.update mem.object n p }
  | .functionBytecode n b => { mem with functionBytecode := Function.update mem.functionBytecode n b }
  | .shape n sh => { mem with shape := Function.update mem.shape n sh }
  | .varRef n varRef => { mem with varRef := Function.update mem.varRef n varRef }
  | .context n ctx => { mem with context := Function.update mem.context n ctx }

/-- `JS_NewRuntime`: there is no block, whatever is in memory. -/
def jsNewRuntime (mem : Memory) : JSRuntime := {
  mem
  header := fun _ => none
  gcObjList := []
  tmpObjList := []
  gcZeroRefCountList := []
  gcPhase := .none }

namespace JSRuntime

/-- One reference more, as `js_dup_shape`, `JS_DupContext` and `get_var_ref` take it. -/
def dup (p : GCPtr) (rt : JSRuntime) : Option JSRuntime := do
  let (_, rt) ← rt.incRef p
  some rt

def write (b : Block) (rt : JSRuntime) : JSRuntime := { rt with mem := rt.mem.write b }

end JSRuntime

/-- `JS_DupValueRT` -/
def jsDupValue : JSValue → JSRuntime → Option JSRuntime
  | .object n => JSRuntime.dup (.object n)
  | .functionBytecode n => JSRuntime.dup (.functionBytecode n)
  | .other => some

/-- `JS_FreeValue`, `js_free_shape`, `free_var_ref` and `JS_FreeContext`, of a reference that is no block's. -/
def jsFreeRef : GCPtr → JSRuntime → Option JSRuntime := freeRef freeZeroValue

/-- `add_gc_object` -/
def addGcObject (p : GCPtr) (rt : JSRuntime) : Option JSRuntime := do
  let rt ← rt.setMark p false
  some { rt with gcObjList := rt.gcObjList ++ [p] }

/-- A new block with one reference to it: the end of `JS_NewObjectFromShape`, `js_create_function`,
`js_new_shape2`, `js_create_module_var` and `JS_NewContextRaw`, and `get_var_ref`, whose variable is on
the stack. -/
def newBlock (b : Block) (rt : JSRuntime) : Option JSRuntime :=
  let rt := (rt.write b).setHeader b.ptr (some { refCount := 1, mark := false })
  match b with
  | .varRef _ { isDetached := false, .. } => some rt
  | b => addGcObject b.ptr rt

/-- A round of `close_var_refs`: the variable takes the value that it has on the stack. -/
def closeVarRef (n : ℕ) (value : JSValue) (rt : JSRuntime) : Option JSRuntime := do
  let rt ← jsDupValue value rt
  addGcObject (.varRef n) (rt.write (.varRef n { isDetached := true, value }))

/-- `JS_FreeRuntime`, as far as its assertion that no block is left. -/
def jsFreeRuntime (currentException : JSValue) (jobList : List (List JSValue)) (rt : JSRuntime) :
    Option JSRuntime := do
  let rt ← jsFreeValue currentException rt
  let rt ← forEach (forEach jsFreeValue) jobList rt
  let rt ← jsRunGC rt
  if rt.gcObjList = [] then some rt else none

end JSChip.Gc
