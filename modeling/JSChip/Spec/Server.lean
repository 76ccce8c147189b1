import JSChip.Spec.Context

/-!
# The server: chips, handlers, running scripts

The Lua side runs one handler at a time, and a handler that enters a script waits until
the script returns. `Server.frames` are the host entries that have not returned, innermost
first; each one remembers what its handler still has to do (`Continuation`). While a script
runs, an output it triggers can call `TriggerInput` of any chip wired to it, which is a new
entry on top. All other handlers start when no script is running.

What a script does is open: it runs metered instructions, registers listeners, triggers
outputs, and returns or throws, in any order.

Three things are not in the source and only record what happened: `Context.entity`,
`Frame.spent` and `Server.calls`.
-/

namespace JSChip

/-- `EntIndex()` of an entity other than the world and the null entity. -/
abbrev EntIndex := { n : ℕ // n ≠ 0 }

/-- A player: its entity, and its index. -/
structure Player where
  entity : ℕ
  index : EntIndex

/-- The fields of a `gmod_wire_jschip` that its handlers use. -/
structure Chip where
  index : EntIndex
  ctx : Option (Fin maxContexts)
  run : Bool
  script : Option String

/-- What the handler that entered the script does when it returns. -/
inductive Continuation
  /-- `ENT:ApplyDupeInfo`, after `JS_Eval`. -/
  | dupeEval
  /-- The upload handler, after `JS_Eval`. -/
  | uploadEval (script : String)
  /-- `ENT:Think` and `ENT:TriggerInput`, after `JS_EmitEvent`. -/
  | emit

/-- A host entry that has not returned: `JS_Eval`, or a `JS_EmitEvent` that found a listener. -/
structure Frame where
  chip : ℕ
  slot : Fin maxContexts
  /-- The cost of the metered instructions of this context that completed since the entry. -/
  spent : ℕ
  cont : Continuation

inductive ApiFunction
  | compile
  | eval
  | emitEvent
  | freeContext
deriving DecidableEq

/-- A call with a context id: for whom, on which slot, and whose context was there. -/
structure Call where
  function : ApiFunction
  caller : ℕ
  slot : Fin maxContexts
  creator : Option ℕ

/-- The server. Entities are numbered as they are spawned and never come back. -/
structure Server (F : Type) where
  contexts : ContextTable F
  chips : ℕ → Option Chip
  nextEntity : ℕ
  frames : List Frame
  calls : List Call

namespace Server

variable {F : Type}

/-- The module has just been loaded. -/
def init : Server F := ⟨fun _ => none, fun _ => none, 0, [], []⟩

/-- `self.ctx` of a valid chip. -/
def ctxOf (s : Server F) (e : ℕ) : Option (Fin maxContexts) := (s.chips e).bind (·.ctx)

/-- Assigns fields of a chip. -/
def setChip (s : Server F) (e : ℕ) (g : Chip → Chip) : Server F :=
  { s with chips := Function.update s.chips e ((s.chips e).map g) }

/-- `ENT:Error`. `WireLib.ClientError` is taken to return. -/
def chipError (s : Server F) (e : ℕ) : Server F := s.setChip e fun chip => { chip with run := false }

/-- Records a call. -/
def logCall (s : Server F) (function : ApiFunction) (e : ℕ) (i : Fin maxContexts) : Server F :=
  { s with calls := ⟨function, e, i, (s.contexts i).map (·.entity)⟩ :: s.calls }

/-! ## Calls into the module -/

/-- `JS_FreeContext(i)`. -/
def jsFreeContext (s : Server F) (e : ℕ) (i : Fin maxContexts) : Server F :=
  { s.logCall .freeContext e i with contexts := freeSlot s.contexts i }

/-- `JS_Compile(i, #script, script)`; `result` is what comes of it if the script is compiled. -/
def jsCompile (s : Server F) (e : ℕ) (i : Fin maxContexts) (script : String) (result : Compiled) :
    Compiled × Server F :=
  (if (s.contexts i).isNone then .error (some "Couldn't find that context!")
    else if script = "" then .error (some "Your script has to have at least 1 character!")
    else result,
    s.logCall .compile e i)

/-- The rest of a handler, once its script has returned. -/
def resume (s : Server F) (e : ℕ) (i : Fin maxContexts) (threw : Bool) : Continuation → Server F
  | .dupeEval =>
    if threw then s.chipError e
    else s.setChip e fun chip => { chip with run := true, ctx := some i }
  | .uploadEval script =>
    -- the script is recorded also if it threw
    let s' := if threw then s.chipError e else s
    s'.setChip e fun chip => { chip with script := some script }
  | .emit => if threw then s.chipError e else s

/-- `set_ops(ctx, 0)`, and the script starts. -/
def enter (s : Server F) (e : ℕ) (i : Fin maxContexts) (cont : Continuation) : Server F :=
  { s with
    contexts := s.contexts.modify i Context.resetOps
    frames := ⟨e, i, 0, cont⟩ :: s.frames }

/-- `JS_Eval(i, length, bytecode)`. -/
def jsEval (s : Server F) (e : ℕ) (i : Fin maxContexts) (cont : Continuation) : Server F :=
  let s' := s.logCall .eval e i
  match s.contexts i with
  | some _ => s'.enter e i cont
  | none => s'.resume e i true cont

/-- `JS_Eval(i, 0, nil)`: `CheckType` raises a Lua error, which ends the handler. -/
def jsEvalNil (s : Server F) (e : ℕ) (i : Fin maxContexts) : Server F := s.logCall .eval e i

/-- `JS_EmitEvent(i, eventName, ...)`. Without a listener it returns at once. -/
def jsEmitEvent (s : Server F) (e : ℕ) (i : Fin maxContexts) (eventName : String) : Server F :=
  let s' := s.logCall .emitEvent e i
  match s.contexts i with
  | some c => match c.listeners.lookup eventName with
    | some _ => s'.enter e i .emit
    | none => s'.resume e i false .emit
  | none => s'.resume e i true .emit

/-! ## Handlers -/

/-- `TOOL:LeftClick_Update`. `chip:Remove()` takes effect later, as `onRemove`. -/
def leftClickUpdate (s : Server F) (e : ℕ) (ply : Player) : Server F :=
  match s.chips e with
  | none => s
  | some chip =>
    -- the old context goes first, so its slot may be taken again
    let s' := match chip.ctx with
      | some i => s.jsFreeContext e i
      | none => s
    match luaCreateContext s'.contexts e chip.index ply.index with
    | .error _ => s'.chipError e
    | .ok (i, t) => { s' with contexts := t }.setChip e fun chip => { chip with ctx := some i }

/-- `WireLib.MakeWireEnt` and `ENT:Initialize`: a new entity. -/
def makeWireEnt (s : Server F) (index : EntIndex) : Server F :=
  { s with
    chips := Function.update s.chips s.nextEntity (some ⟨index, none, false, none⟩)
    nextEntity := s.nextEntity + 1 }

/-- `TOOL:MakeEnt`. -/
def makeEnt (s : Server F) (index : EntIndex) (ply : Player) : Server F :=
  (s.makeWireEnt index).leftClickUpdate s.nextEntity ply

/-- `ENT:ApplyDupeInfo`. The pasting player may be missing or null, which `ownerIndex` says.
Without a script `#self.script` raises a Lua error, which ends the handler. -/
def applyDupeInfo (s : Server F) (e : ℕ) (index : EntIndex) (ownerIndex : ℕ)
    (script : Option String) (result : Compiled) : Server F :=
  let s := s.setChip e fun chip => { chip with script := script }
  match luaCreateContext s.contexts e index ownerIndex with
  | .error _ => s.chipError e
  | .ok (i, t) =>
    let s := { s with contexts := t }
    -- a dupe without a script has taken a slot by now
    match script with
    | none => s
    | some script =>
      match s.jsCompile e i script result with
      | (.error _, s) => s.chipError e
      | (.ok (some _), s) => s.jsEval e i .dupeEval
      -- the context stays in its slot, and the chip does not know it
      | (.ok none, s) => s.jsEvalNil e i

/-- The upload handler, once the script is complete. With no context `JS_Compile` raises a
Lua error. -/
def uploadComplete (s : Server F) (e : ℕ) (script : String) (result : Compiled) : Server F :=
  match s.ctxOf e with
  | none => s
  | some i =>
    match s.jsCompile e i script result with
    | (.error _, s) => s.chipError e
    | (.ok (some _), s) =>
      (s.setChip e fun chip => { chip with run := true }).jsEval e i (.uploadEval script)
    -- `Run` is set by now, but the script is not
    | (.ok none, s) => (s.setChip e fun chip => { chip with run := true }).jsEvalNil e i

/-- The second value that `JS_Compile` returns is a string, for `net.WriteString`. -/
def hasText : Compiled → Bool
  | .error text | .ok text => text.isSome

/-- The validation handler, once the script is complete. `net.WriteString(nil)` raises a Lua
error, before the context is freed. -/
def validateComplete (s : Server F) (ply : Player) (script : String) (result : Compiled) : Server F :=
  match luaCreateContext s.contexts ply.entity ply.index ply.index with
  | .error _ => s
  | .ok (i, t) =>
    let answer := { s with contexts := t }.jsCompile ply.entity i script result
    if hasText answer.1 then answer.2.jsFreeContext ply.entity i else answer.2

/-- `ENT:Think` and `ENT:TriggerInput`, up to `JS_EmitEvent`. With no context it raises a Lua
error. `JS_GetOps`, which `Think` calls afterwards, changes nothing. -/
def emitEvent (s : Server F) (e : ℕ) (eventName : String) : Server F :=
  match s.chips e with
  | some ⟨_, some i, true, _⟩ => s.jsEmitEvent e i eventName
  | _ => s

/-- `ENT:Think`. -/
def think (s : Server F) (e : ℕ) : Server F := s.emitEvent e "tick"

/-- `ENT:TriggerInput`. -/
def triggerInput (s : Server F) (e : ℕ) : Server F := s.emitEvent e "input"

/-- `ENT:OnRemove`; the entity is gone afterwards. -/
def onRemove (s : Server F) (e : ℕ) : Server F :=
  let s' := match s.ctxOf e with
    | some i => s.jsFreeContext e i
    | none => s
  { s' with chips := Function.update s'.chips e none }

/-! ## What a running script does -/

/-- A metered instruction of the context in slot `i`. If `handle_op_limit` returns 0 it
counts for every entry into that context that has not returned. -/
def meter (s : Server F) (i : Fin maxContexts) (cost : ℕ) : Server F :=
  match s.contexts i with
  | none => s
  | some c =>
    let (limit, m) := handleOpLimit c.meter cost
    { s with
      contexts := s.contexts.modify i fun c => { c with meter := m }
      frames := if limit then s.frames else
        s.frames.map fun f => if f.slot = i then { f with spent := f.spent + cost } else f }

/-- `Events.on(name, f)` in the context of slot `i`. -/
def on (s : Server F) (i : Fin maxContexts) (name : String) (f : F) : Server F :=
  { s with contexts := s.contexts.modify i fun c => c.on name f }

/-- What happens next. -/
inductive Action (F : Type)
  | makeEnt (index : EntIndex) (ply : Player)
  | leftClickUpdate (e : ℕ) (ply : Player)
  /-- A chip is pasted: it is spawned, and gets the script of the dupe. -/
  | paste (index : EntIndex) (ownerIndex : ℕ) (script : Option String) (result : Compiled)
  | upload (e : ℕ) (script : String) (result : Compiled)
  | validate (ply : Player) (script : String) (result : Compiled)
  | think (e : ℕ)
  /-- An input changes: from outside, or because the running script triggered an output. -/
  | triggerInput (e : ℕ)
  | remove (e : ℕ)
  | meter (cost : ℕ)
  | on (name : String) (f : F)
  /-- The innermost script returns, or throws. -/
  | ret (threw : Bool)

/-- One step. Handlers other than `TriggerInput` start when no script runs. -/
def step (s : Server F) : Action F → Option (Server F)
  | .makeEnt index ply => if s.frames = [] then some (s.makeEnt index ply) else none
  | .leftClickUpdate e ply =>
    if s.frames = [] ∧ (s.chips e).isSome then some (s.leftClickUpdate e ply) else none
  | .paste index ownerIndex script result =>
    if s.frames = [] then
      some ((s.makeWireEnt index).applyDupeInfo s.nextEntity index ownerIndex script result)
    else none
  | .upload e script result =>
    if s.frames = [] ∧ (s.chips e).isSome then some (s.uploadComplete e script result) else none
  | .validate ply script result =>
    if s.frames = [] then some (s.validateComplete ply script result) else none
  | .think e => if s.frames = [] ∧ (s.chips e).isSome then some (s.think e) else none
  | .triggerInput e => if (s.chips e).isSome then some (s.triggerInput e) else none
  | .remove e => if s.frames = [] ∧ (s.chips e).isSome then some (s.onRemove e) else none
  | .meter cost => s.frames.head?.map fun f => s.meter f.slot cost
  | .on name g => s.frames.head?.map fun f => s.on f.slot name g
  | .ret threw => match s.frames with
    | f :: fs => some ({ s with frames := fs }.resume f.chip f.slot threw f.cont)
    | [] => none

end Server

end JSChip
