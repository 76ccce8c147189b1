import JSChip.Spec.Api

/-!
# The host entries

`lua_emit_event`, `lua_eval` and `lua_compile`, which are `JS_EmitEvent`, `JS_Eval` and
`JS_Compile` to Lua. Their number and string arguments have passed `CheckType`. Whether the
number names a context is part of what a call finds (`Env.contextFound`), and the op counter they
reset is left out.
-/

namespace JSChip.Native

variable {R : Type} [Double R]

/-! ## Arguments of an event -/

/-- A field of the table at the slot `k`: whether it is a number. The field is popped again. -/
def hasNumber (k : ℤ) (name : String) : NativeM R Bool := do
  pushString (some name)
  getTable k
  let v ← look (-1)
  pop 1
  pure v.isNumber

/-- A table argument: a colour, when it has the numbers `r`, `g` and `b`. The components are read
from the slots `-3`, `-2` and `-1`, from which the fields have been popped. -/
def convertTable (k : ℤ) : NativeM R (JSValue R) := do
  let hasR ← hasNumber k "r"
  let hasG ← hasNumber k "g"
  let hasB ← hasNumber k "b"
  if hasR && hasG && hasB then do
    let v ← newObject
    -- the fields have been popped, but their slots still have the values
    let r ← getNumber (-3)
    setPropertyStr v "r" (.number r)
    let g ← getNumber (-2)
    setPropertyStr v "g" (.number g)
    let b ← getNumber (-1)
    setPropertyStr v "b" (.number b)
    pushString (some "a")
    getTable k
    let a ← look (-1)
    setPropertyStr v "a" (.number (if a.isNumber then a.toNumber else Double.ofNat 255))
    pop 1
    pure v
  else pure .null

/-- An entity argument: its index, or null for the index 0. The metatable is not popped. -/
def convertEntity (k : ℤ) : NativeM R (JSValue R) := do
  getMetaTable k
  getField k "EntIndex"
  pushSlot k
  call 1 1
  let index ← getNumber (-1)
  pop 1
  pure (if Double.isZero index then .null else .number index)

/-- The argument at the slot `k`, by its type. -/
def convertArg (k : ℤ) : NativeM R (JSValue R) := do
  match ← look k with
  | .nil => pure .null
  | .bool b => pure (.bool b)
  | .number x => pure (.number x)
  | .string text => newString (some text)
  | .table _ => convertTable k
  | .entity _ => convertEntity k
  | .vector x y z => newTriple xyz (x, y, z)
  | .angle x y z => newTriple pitchYawRoll (x, y, z)
  | _ => pure .null

def convertArgs : List ℕ → NativeM R (List (JSValue R))
  | [] => pure []
  | k :: ks => do
    let v ← convertArg k
    let vs ← convertArgs ks
    pure (v :: vs)

def freeValues : List (JSValue R) → NativeM R Unit
  | [] => pure ()
  | v :: vs => do
    freeValue v
    freeValues vs

/-! ## Results -/

/-- The results of a host entry: the status and the result as a string, or the message of the
exception. -/
def pushResult (result : JSValue R) : NativeM R Unit := do
  let e ← read
  if result.isException then do
    let thrown := e.exceptionValue
    acquire thrown.refs
    let errorMessage ← toCString thrown
    pushNumber (Double.ofNat 1)
    pushString (errorMessage.map CString.text)
    freeCString errorMessage
    freeValue thrown
  else do
    let str ← toCString result
    pushNumber (Double.ofNat 0)
    match str with
    | some c => do
      pushString (some c.text)
      freeCString str
    | none => pushNil

def pushFailure (message : String) : NativeM R Unit := do
  pushNumber (Double.ofNat 1)
  pushString (some message)

/-- `lua_emit_event` with the event's name and `count` further arguments, which are the slots
from 3 on. The result of the callback is not freed. -/
def luaEmitEvent (eventName : String) (count : ℕ) : NativeM R Unit := do
  let e ← read
  if !e.contextFound then pushFailure "Couldn't find that context!" else do
  let s ← get
  match s.listeners.lookup eventName with
  | some callback => do
    let args ← convertArgs ((List.range count).map (· + 3))
    modify fun s => { s with jsCalls := s.jsCalls ++ [(callback, args)] }
    -- `JS_Call` hands out a reference, which nothing takes back
    let result := e.result
    acquire result.refs
    pushResult result
    freeValues args
  | none => do
    pushNumber (Double.ofNat 0)
    pushNil

/-- `lua_eval` of `length` bytes. `JS_EvalFunction` frees the bytecode. -/
def luaEval (length : ℕ) : NativeM R Unit := do
  let e ← read
  if !e.contextFound then pushFailure "Couldn't find that context!" else
  if length < 1 then pushFailure "Your script has to have at least 1 character!" else do
  let bytecode := e.bytecode
  acquire bytecode.refs
  -- `JS_EvalFunction` takes the reference
  release bytecode.refs
  let result := e.result
  acquire result.refs
  pushResult result
  freeValue result

/-- `lua_compile` of `length` bytes, which has a third result: the length of the bytecode. -/
def luaCompile (length : ℕ) : NativeM R Unit := do
  let e ← read
  if !e.contextFound then pushFailure "Couldn't find that context!" else
  if length < 1 then pushFailure "Your script has to have at least 1 character!" else do
  let result := e.compiled
  acquire result.refs
  if result.isException then do
    let thrown := e.exceptionValue
    acquire thrown.refs
    let errorMessage ← toCString thrown
    pushNumber (Double.ofNat 1)
    pushString (errorMessage.map CString.text)
    pushNil
    freeCString errorMessage
    freeValue thrown
  else do
    pushNumber (Double.ofNat 0)
    -- a NULL buffer is pushed as nil, with the length 0
    pushString e.written
    pushNumber (Double.ofNat ((e.written.map String.utf8ByteSize).getD 0))
  freeValue result

end JSChip.Native
