import Mathlib.Algebra.Group.Int.Defs
import Mathlib.Data.Rat.Defs
import Mathlib.Data.List.FinRange
import Mathlib.Logic.Function.Basic
import JSChip.Spec.Meter
import JSChip.Spec.Listener

/-!
# The context table and the functions Lua calls on it

* `ContextTable`: the arrays `contexts[]` and `runtimes[]`, which are written together.
* `luaCreateContext`, `luaFreeContext`, `luaGetOps`, `luaCompile`, `luaEval`, `luaEmitEvent`:
  the six functions the module registers. A context is named by a Lua number, which is
  converted to `size_t` and used as an index; what JavaScript does is the `Engine`.
* `onSlot`: what the last five are meant to do with the number they are given.

Undefined behaviour is a `Fault`: a read outside the table, or a conversion to `size_t`
of a number that has no value there.
-/

namespace JSChip

/-- `MAX_CONTEXTS`. -/
def maxContexts : ℕ := 128

/-- Slot 0. -/
def firstSlot : Fin maxContexts := ⟨0, by decide⟩

/-- A `JSContext` with its `ContextData`. `entity` is not in the source: it remembers which
entity the context was created for. -/
structure Context (F : Type) where
  entity : ℕ
  entIndex : ℕ
  ownerIndex : ℕ
  meter : Meter
  listeners : ListenerTable F

/-- `contexts[]`; `none` is a null pointer. -/
abbrev ContextTable (F : Type) := Fin maxContexts → Option (Context F)

/-! ## Lua numbers -/

/-- A Lua number is a double; the finite doubles are among the rationals. -/
inductive LuaNumber
  | fin (q : ℚ)
  | posInf
  | negInf
  | nan

/-- What Lua passes to the module, as far as the functions tell values apart. -/
inductive LuaValue
  | nil
  | bool (b : Bool)
  | number (x : LuaNumber)
  | string (s : String)
  /-- Tables, vectors, angles, entities: kept by Lua and named here. -/
  | object (id : ℕ)

inductive Fault
  /-- The double has no value in `size_t`. -/
  | conversion
  /-- `contexts[i]` with `i` past the end. -/
  | outOfBounds (i : ℕ)
deriving DecidableEq, Repr

namespace LuaNumber

/-- The integer part of a finite number. -/
def truncate : LuaNumber → Option ℤ
  | .fin q => some (q.num.tdiv q.den)
  | _ => none

/-- `size_t context = LUA->GetNumber(1)`, for a `size_t` of 64 bits: the fraction is cut
off; what does not fit then is undefined. -/
def toSize (x : LuaNumber) : Except Fault ℕ :=
  match x.truncate with
  | some i => if 0 ≤ i ∧ i < 2 ^ 64 then .ok i.toNat else .error .conversion
  | none => .error .conversion

/-- The slot a number names, if it names one. -/
def slot (x : LuaNumber) : Option (Fin maxContexts) :=
  match x.truncate with
  | some i => if h : 0 ≤ i ∧ i.toNat < maxContexts then some ⟨i.toNat, h.2⟩ else none
  | none => none

/-- The number the module pushes for a natural number. -/
def ofNat (n : ℕ) : LuaNumber := .fin n

end LuaNumber

/-! ## Creating and freeing -/

variable {F : Type}

/-- The loop of `lua_create_context`: the lowest slot that holds no context. -/
def firstFree (t : ContextTable F) : Option (Fin maxContexts) :=
  (List.finRange maxContexts).find? fun i => (t i).isNone

/-- `lua_create_context`, called for an entity whose `EntIndex()` is `entIndex` with an owner
whose `EntIndex()` is `ownerIndex`. -/
def luaCreateContext (t : ContextTable F) (entity entIndex ownerIndex : ℕ) :
    Except String (Fin maxContexts × ContextTable F) :=
  if entIndex = 0 ∨ ownerIndex = 0 then .error "Invalid entity"
  else match firstFree t with
    | some i => .ok (i, Function.update t i (some ⟨entity, entIndex, ownerIndex, .new, .empty⟩))
    | none => .error "You've hit the max number of javascript contexts!"

/-- The part of `lua_free_context` after its check. -/
def freeSlot (t : ContextTable F) (i : Fin maxContexts) : ContextTable F := Function.update t i none

/-- Writing through the pointer in a slot. -/
def ContextTable.modify (t : ContextTable F) (i : Fin maxContexts) (g : Context F → Context F) :
    ContextTable F :=
  Function.update t i ((t i).map g)

/-- `set_ops(ctx, 0)`. -/
def Context.resetOps (c : Context F) : Context F := { c with meter := setOps c.meter 0 }

/-- `event_on` in a context; when the table is full it throws and changes nothing. -/
def Context.on (c : Context F) (name : String) (f : F) : Context F :=
  match eventOn c.listeners name f with
  | .replaced _ t | .added t => { c with listeners := t }
  | .full => c

@[simp] theorem Context.on_entity (c : Context F) (name : String) (f : F) :
    (c.on name f).entity = c.entity := by
  unfold Context.on; split <;> rfl

@[simp] theorem Context.on_meter (c : Context F) (name : String) (f : F) :
    (c.on name f).meter = c.meter := by
  unfold Context.on; split <;> rfl

/-! ## The functions that take a context -/

/-- The contexts, and everything else that running a script can change. -/
structure ApiState (F W : Type) where
  contexts : ContextTable F
  world : W

/-- What a call into JavaScript ends with: an exception or a value, and its text. `none` is the
NULL of a `JS_ToCString` that failed. -/
abbrev Outcome := Except (Option String) (Option String)

/-- What compiling a script ends with: an exception and its text, or the bytecode. `none` is NULL,
which `JS_ToCString` and `JS_WriteObject` return when memory runs out. -/
abbrev Compiled := Except (Option String) (Option String)

/-- QuickJS and what scripts reach through it. It may change every context: a script can
make the host emit events on other chips. -/
structure Engine (F W : Type) where
  /-- `JS_Eval` with `JS_EVAL_FLAG_COMPILE_ONLY`, then `JS_WriteObject`. -/
  compile : ApiState F W → Fin maxContexts → String → Compiled × ApiState F W
  /-- `JS_ReadObject`, then `JS_EvalFunction`. -/
  evalFunction : ApiState F W → Fin maxContexts → String → Outcome × ApiState F W
  /-- The conversion of the event's arguments; what they become is part of `W`. -/
  arguments : ApiState F W → Fin maxContexts → List LuaValue → ApiState F W
  /-- `JS_Call` on the converted arguments. -/
  call : ApiState F W → Fin maxContexts → F → Outcome × ApiState F W

variable {W : Type}

/-- A call's return values and the state after it. -/
abbrev Answer (F W : Type) := List LuaValue × ApiState F W

/-- `(1, message)`. -/
def failure (message : String) : List LuaValue := [.number (.ofNat 1), .string message]

/-- The error of every failed check. -/
def contextNotFound : List LuaValue := failure "Couldn't find that context!"

/-- `LUA->PushString`, of a pointer. -/
def LuaValue.ofPointer : Option String → LuaValue
  | some text => .string text
  | none => .nil

/-- How `lua_eval` and `lua_emit_event` report an outcome. -/
def Outcome.push : Outcome → List LuaValue
  | .error message => [.number (.ofNat 1), .ofPointer message]
  | .ok str => [.number (.ofNat 0), .ofPointer str]

/-- `contexts[i]`. -/
def ApiState.read (s : ApiState F W) (i : ℕ) : Except Fault (Option (Fin maxContexts × Context F)) :=
  if h : i < maxContexts then .ok ((s.contexts ⟨i, h⟩).map fun c => (⟨i, h⟩, c))
  else .error (.outOfBounds i)

/-- `set_ops(ctx, 0)` on the context of a slot. -/
def ApiState.resetOps (s : ApiState F W) (i : Fin maxContexts) : ApiState F W :=
  { s with contexts := s.contexts.modify i Context.resetOps }

/-- What a function does once it has its context. -/
abbrev Body (F W : Type) := ApiState F W → Fin maxContexts → Context F → Answer F W

/-- `lua_get_ops` after its check. -/
def getOpsBody : Body F W := fun s _ c =>
  ([.number (.ofNat 0), .number (.ofNat (getOps c.meter).toNat)], s)

/-- `lua_compile` after its check. -/
def compileBody (e : Engine F W) (length : ℕ) (script : String) : Body F W := fun s i _ =>
  if length < 1 then (failure "Your script has to have at least 1 character!", s)
  else match e.compile s i script with
    | (.error message, s') => ([.number (.ofNat 1), .ofPointer message, .nil], s')
    | (.ok bytecode, s') =>
      ([.number (.ofNat 0), .ofPointer bytecode,
        .number (.ofNat ((bytecode.map String.utf8ByteSize).getD 0))], s')

/-- `lua_free_context` after its check. -/
def freeContextBody : Body F W := fun s i _ =>
  ([.number (.ofNat 0), .nil], { s with contexts := freeSlot s.contexts i })

/-- `lua_eval` after its check. -/
def evalBody (e : Engine F W) (length : ℕ) (script : String) : Body F W := fun s i _ =>
  if length < 1 then (failure "Your script has to have at least 1 character!", s)
  else
    let (outcome, s') := e.evalFunction (s.resetOps i) i script
    (outcome.push, s')

/-- `lua_emit_event` after its check. -/
def emitEventBody (e : Engine F W) (eventName : String) (args : List LuaValue) : Body F W :=
  fun s i c =>
    match c.listeners.lookup eventName with
    | some callback =>
      let (outcome, s') := e.call ((e.arguments s i args).resetOps i) i callback
      (outcome.push, s')
    | none => ([.number (.ofNat 0), .nil], s)

/-- The check of `lua_get_ops`, `lua_compile` and `lua_free_context`: the table is read after
the comparison. -/
def compareThenRead (s : ApiState F W) (x : LuaNumber) (body : Body F W) :
    Except Fault (Answer F W) := do
  let context ← x.toSize
  if context > maxContexts then return (contextNotFound, s)
  match ← s.read context with
  | some (i, c) => return body s i c
  | none => return (contextNotFound, s)

/-- The check of `lua_eval` and `lua_emit_event`: `ctx` is read first. -/
def readThenCompare (s : ApiState F W) (x : LuaNumber) (body : Body F W) :
    Except Fault (Answer F W) := do
  let context ← x.toSize
  let ctx ← s.read context
  if context > maxContexts then return (contextNotFound, s)
  match ctx with
  | some (i, c) => return body s i c
  | none => return (contextNotFound, s)

/-- `JS_GetOps`. -/
def luaGetOps (s : ApiState F W) (x : LuaNumber) : Except Fault (Answer F W) :=
  compareThenRead s x getOpsBody

/-- `JS_Compile`. -/
def luaCompile (e : Engine F W) (s : ApiState F W) (x : LuaNumber) (length : ℕ) (script : String) :
    Except Fault (Answer F W) :=
  compareThenRead s x (compileBody e length script)

/-- `JS_FreeContext`. -/
def luaFreeContext (s : ApiState F W) (x : LuaNumber) : Except Fault (Answer F W) :=
  compareThenRead s x freeContextBody

/-- `JS_Eval`. -/
def luaEval (e : Engine F W) (s : ApiState F W) (x : LuaNumber) (length : ℕ) (script : String) :
    Except Fault (Answer F W) :=
  readThenCompare s x (evalBody e length script)

/-- `JS_EmitEvent`. -/
def luaEmitEvent (e : Engine F W) (s : ApiState F W) (x : LuaNumber) (eventName : String)
    (args : List LuaValue) : Except Fault (Answer F W) :=
  readThenCompare s x (emitEventBody e eventName args)

/-! ## What they are for -/

/-- **The intended meaning** of a function on a context: it acts on the slot the number names
if there is a context in it, and otherwise says so and changes nothing. -/
def onSlot (s : ApiState F W) (x : LuaNumber) (body : Body F W) : Answer F W :=
  match x.slot with
  | some i => match s.contexts i with
    | some c => body s i c
    | none => (contextNotFound, s)
  | none => (contextNotFound, s)

/-- One call of a function that takes a context, with its other arguments. -/
inductive ContextCall
  | getOps
  | compile (length : ℕ) (script : String)
  | freeContext
  | eval (length : ℕ) (bytecode : String)
  | emitEvent (eventName : String) (args : List LuaValue)

namespace ContextCall

/-- The call as the module performs it. -/
def perform (e : Engine F W) (s : ApiState F W) (x : LuaNumber) :
    ContextCall → Except Fault (Answer F W)
  | .getOps => luaGetOps s x
  | .compile length script => luaCompile e s x length script
  | .freeContext => luaFreeContext s x
  | .eval length bytecode => luaEval e s x length bytecode
  | .emitEvent eventName args => luaEmitEvent e s x eventName args

/-- The call as it is meant. -/
def meant (e : Engine F W) (s : ApiState F W) (x : LuaNumber) : ContextCall → Answer F W
  | .getOps => onSlot s x getOpsBody
  | .compile length script => onSlot s x (compileBody e length script)
  | .freeContext => onSlot s x freeContextBody
  | .eval length bytecode => onSlot s x (evalBody e length bytecode)
  | .emitEvent eventName args => onSlot s x (emitEventBody e eventName args)

end ContextCall

end JSChip
