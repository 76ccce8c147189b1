import JSChip.Spec.Context

/-!
# The arrays of the module

* `Registry`: `contexts[]` and `runtimes[]`, and the scripts that run in them.
* `Registry.perform`: the calls that Lua makes with ids below 128, and what a script does that
  runs in one of them. A script works on its own context, which it gets from QuickJS and not from
  the arrays; it may make the host emit events in other contexts.
* `freeReleases`, `closeModule`: what `lua_free_context` and `GMOD_MODULE_CLOSE` release.
-/

namespace JSChip

variable {F : Type}

/-- `handle_op_limit` in a context. -/
def Context.charge (c : Context F) (cost : ℕ) : Context F :=
  { c with meter := (handleOpLimit c.meter cost).2 }

/-- A `JSRuntime`. -/
structure Runtime where
  memoryLimit : ℕ
deriving DecidableEq, Repr

/-- `contexts[]` and `runtimes[]`. `frames` are the slots of the host entries that have not
returned, innermost first. -/
structure Registry (F : Type) where
  contexts : ContextTable F
  runtimes : Fin maxContexts → Option Runtime
  frames : List (Fin maxContexts)

namespace Registry

/-- The module has just been loaded. -/
def init : Registry F := ⟨fun _ => none, fun _ => none, []⟩

/-- What Lua calls, and what the innermost script does. -/
inductive Act (F : Type)
  /-- `JS_CreateContext` for an entity, with the indices of the entity and of its owner. -/
  | createContext (entity entIndex ownerIndex : ℕ)
  | freeContext (i : Fin maxContexts)
  | eval (i : Fin maxContexts) (length : ℕ)
  | emitEvent (i : Fin maxContexts) (eventName : String)
  | getOps (i : Fin maxContexts)
  /-- `Events.on(name, f)`. -/
  | on (name : String) (f : F)
  /-- A metered instruction. -/
  | charge (cost : ℕ)
  /-- The script returns, or throws; the entry that started it answers this. -/
  | ret (outcome : Outcome)

/-- `lua_create_context`. -/
def createContext (s : Registry F) (entity entIndex ownerIndex : ℕ) : List LuaValue × Registry F :=
  match luaCreateContext s.contexts entity entIndex ownerIndex with
  | .error message => (failure message, s)
  | .ok (i, t) => ([.number (.ofNat 0), .number (.ofNat i)],
      { s with contexts := t, runtimes := Function.update s.runtimes i (some ⟨655359⟩) })

/-- `lua_free_context`. -/
def freeContext (s : Registry F) (i : Fin maxContexts) : List LuaValue × Registry F :=
  match s.contexts i with
  | none => (contextNotFound, s)
  | some _ => ([.number (.ofNat 0), .nil],
      { s with contexts := freeSlot s.contexts i, runtimes := Function.update s.runtimes i none })

/-- `set_ops(ctx, 0)`, and the script starts: there is no answer yet. -/
def enter (s : Registry F) (i : Fin maxContexts) : List LuaValue × Registry F :=
  ([], { s with contexts := s.contexts.modify i Context.resetOps, frames := i :: s.frames })

/-- `lua_eval`. -/
def eval (s : Registry F) (i : Fin maxContexts) (length : ℕ) : List LuaValue × Registry F :=
  match s.contexts i with
  | none => (contextNotFound, s)
  | some _ =>
    if length < 1 then (failure "Your script has to have at least 1 character!", s)
    else s.enter i

/-- `lua_emit_event`. -/
def emitEvent (s : Registry F) (i : Fin maxContexts) (eventName : String) :
    List LuaValue × Registry F :=
  match s.contexts i with
  | none => (contextNotFound, s)
  | some c => match c.listeners.lookup eventName with
    | some _ => s.enter i
    | none => ([.number (.ofNat 0), .nil], s)

/-- `lua_get_ops`. -/
def getOps (s : Registry F) (i : Fin maxContexts) : List LuaValue × Registry F :=
  match s.contexts i with
  | none => (contextNotFound, s)
  | some c => ([.number (.ofNat 0), .number (.ofNat (JSChip.getOps c.meter).toNat)], s)

/-- One step: the answer, and the arrays after it. A context in which a script runs is not freed,
for the handlers that free one start when no script runs. -/
def perform (s : Registry F) : Act F → Option (List LuaValue × Registry F)
  | .createContext entity entIndex ownerIndex => some (s.createContext entity entIndex ownerIndex)
  | .freeContext i => if i ∈ s.frames then none else some (s.freeContext i)
  | .eval i length => some (s.eval i length)
  | .emitEvent i eventName => some (s.emitEvent i eventName)
  | .getOps i => some (s.getOps i)
  | .on name f => s.frames.head?.map fun i =>
    ([], { s with contexts := s.contexts.modify i fun c => c.on name f })
  | .charge cost => s.frames.head?.map fun i =>
    ([], { s with contexts := s.contexts.modify i fun c => c.charge cost })
  | .ret outcome => match s.frames with
    | _ :: frames => some (outcome.push, { s with frames := frames })
    | [] => none

def step (s : Registry F) (a : Act F) : Option (Registry F) := (s.perform a).map Prod.snd

/-- The slot a step is about: the one it names, or the one of the innermost script. -/
def Act.slot (s : Registry F) : Act F → Option (Fin maxContexts)
  | .createContext _ _ _ => firstFree s.contexts
  | .freeContext i | .eval i _ | .emitEvent i _ | .getOps i => some i
  | .on _ _ | .charge _ | .ret _ => s.frames.head?

end Registry

/-! ## What is released -/

/-- A release of something that belongs to the context in a slot. The reference to a callback is
given back to the runtime of a context, which is null when the slot it is taken from is empty. The
two indices are numbers, for which `JS_FreeValue` does nothing. -/
inductive Release (F : Type)
  /-- `free(eventName)`. -/
  | name (slot : Fin maxContexts) (eventName : String)
  /-- `JS_FreeValue(context, callback)`. -/
  | callback (slot : Fin maxContexts) (context : Option (Fin maxContexts)) (f : F)
  /-- `free(contextData)`. -/
  | data (slot : Fin maxContexts)
  /-- `JS_FreeContext`. -/
  | context (slot : Fin maxContexts)
  /-- `JS_FreeRuntime`. -/
  | runtime (slot : Fin maxContexts)
deriving DecidableEq, Repr

/-- Whose release it is. -/
def Release.slot : Release F → Fin maxContexts
  | name i _ | callback i _ _ | data i | context i | runtime i => i

/-- The pointer `contexts[j]`. -/
def ContextTable.pointer (t : ContextTable F) (j : ℕ) : Option (Fin maxContexts) :=
  if h : j < maxContexts then (t ⟨j, h⟩).map fun _ => ⟨j, h⟩ else none

/-- The loop over the listeners of the context in slot `i`, from the index `j` on. `context` says
which pointer is used for the listener with an index. -/
def freeListeners (i : Fin maxContexts) (context : ℕ → Option (Fin maxContexts)) :
    ℕ → List (EventListener F) → List (Release F)
  | _, [] => []
  | j, l :: ls =>
    .name i l.eventName :: .callback i (context j) l.callback :: freeListeners i context (j + 1) ls

variable (s : Registry F) (i : Fin maxContexts)

/-- What `lua_free_context` releases. -/
def freeReleases (c : Context F) : List (Release F) :=
  freeListeners i (fun _ => s.contexts.pointer i) 0 c.listeners.entries ++
    [.data i, .context i, .runtime i]

/-- The first loop of `GMOD_MODULE_CLOSE`, for the slot `i`. In the loop over the listeners `i` is
the index of the listener. -/
def closeContext : List (Release F) :=
  match s.contexts i with
  | none => []
  | some c => freeListeners i (fun j => s.contexts.pointer j) 0 c.listeners.entries ++
      [.data i, .context i]

/-- The second loop. -/
def closeRuntime : List (Release F) := if (s.runtimes i).isSome then [.runtime i] else []

/-- `GMOD_MODULE_CLOSE`. -/
def closeModule : List (Release F) :=
  (List.finRange maxContexts).flatMap (closeContext s) ++
    (List.finRange maxContexts).flatMap (closeRuntime s)

end JSChip
