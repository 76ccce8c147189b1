import Mathlib.Data.List.Nodup
import JSChip.Machine.Run

/-!
# The listener table of a context and the ownership of its callbacks

`ListenerTable` is the prefix `listeners[0 .. listenerCount - 1]` of a
`ContextData`. A name is a C string, so `strcmp` is equality. `eventOn` is the body
of `event_on` after its argument checks: it replaces the callback of a name that is
there, and adds an entry otherwise.

`Emitter` adds who owns the callbacks: the table owns one reference for each entry,
the script owns the references it holds, and `lua_emit_event` passes a callback to
`JS_Call` without taking one. Its actions are what a script can do while (or before)
a callback runs.
-/

namespace JSChip

/-- `MAX_LISTENERS`. -/
def maxListeners : ℕ := 10

/-- `EventListener`. -/
structure EventListener (F : Type) where
  eventName : String
  callback : F
deriving DecidableEq, Repr

variable {F : Type}

/-- The callback loop of `event_on`: the first entry of that name gets the new callback.
Also returns the callback it had; `none` when no entry has the name. -/
def replaceFirst : List (EventListener F) → String → F → Option (F × List (EventListener F))
  | [], _, _ => none
  | l :: ls, name, f =>
    if l.eventName = name then some (l.callback, { l with callback := f } :: ls)
    else (replaceFirst ls name f).map fun p => (p.1, l :: p.2)

/-- The names stay in place when a callback is replaced. -/
theorem replaceFirst_names : ∀ {ls : List (EventListener F)} {name : String} {f old : F}
    {ls' : List (EventListener F)}, replaceFirst ls name f = some (old, ls') →
      ls'.map (·.eventName) = ls.map (·.eventName) := by
  intro ls
  induction ls with
  | nil => intro name f old ls' h; cases h
  | cons l ls ih =>
    intro name f old ls' h
    unfold replaceFirst at h
    split at h
    · cases h; rfl
    · simp only [Option.map_eq_some_iff, Prod.mk.injEq, Prod.exists] at h
      obtain ⟨old', ls'', hr, -, rfl⟩ := h
      simp [ih hr]

/-- No entry is replaced exactly when no entry has the name. -/
theorem replaceFirst_eq_none : ∀ {ls : List (EventListener F)} {name : String} {f : F},
    replaceFirst ls name f = none ↔ name ∉ ls.map (·.eventName) := by
  intro ls
  induction ls with
  | nil => simp [replaceFirst]
  | cons l ls ih =>
    intro name f
    unfold replaceFirst
    by_cases hl : l.eventName = name
    · simp [hl]
    · rw [if_neg hl, Option.map_eq_none_iff, ih]
      simp [Ne.symm hl]

/-- **The listener table.** Names are pairwise distinct and there are at most
`MAX_LISTENERS` entries. -/
structure ListenerTable (F : Type) where
  entries : List (EventListener F)
  distinct : (entries.map (·.eventName)).Nodup
  bounded : entries.length ≤ maxListeners

namespace ListenerTable

/-- `listenerCount = 0`. -/
def empty : ListenerTable F := ⟨[], by simp, by simp [maxListeners]⟩

/-- The lookup loop of `lua_emit_event`. -/
def lookup (t : ListenerTable F) (name : String) : Option F :=
  (t.entries.find? fun l => l.eventName = name).map (·.callback)

/-- The callbacks the table owns, one for each entry. -/
def callbacks (t : ListenerTable F) : List F := t.entries.map (·.callback)

theorem lookup_mem {t : ListenerTable F} {name : String} {f : F} (h : t.lookup name = some f) :
    f ∈ t.callbacks := by
  unfold lookup at h
  simp only [Option.map_eq_some_iff] at h
  obtain ⟨l, hl, rfl⟩ := h
  exact List.mem_map.2 ⟨l, List.mem_of_find?_eq_some hl, rfl⟩

end ListenerTable

/-- What `event_on` does to the table. -/
inductive OnResult (F : Type)
  /-- The entry of that name had callback `old`, whose reference the table gives up. -/
  | replaced (old : F) (t : ListenerTable F)
  | added (t : ListenerTable F)
  /-- "Maximum events reached" is thrown. -/
  | full

/-- `event_on` after its argument checks. -/
def eventOn (t : ListenerTable F) (name : String) (f : F) : OnResult F :=
  match h : replaceFirst t.entries name f with
  | some (old, ls) =>
    .replaced old ⟨ls, by rw [replaceFirst_names h]; exact t.distinct, by
      have := congrArg List.length (replaceFirst_names h)
      simp only [List.length_map] at this
      rw [this]; exact t.bounded⟩
  | none =>
    if hf : t.entries.length < maxListeners then
      .added ⟨t.entries ++ [⟨name, f⟩], by
        rw [List.map_append, List.map_singleton, List.nodup_append]
        refine ⟨t.distinct, List.nodup_singleton _, ?_⟩
        rintro x hx y hy rfl
        obtain rfl : x = name := List.mem_singleton.1 hy
        exact replaceFirst_eq_none.1 h hx, by
          rw [List.length_append, List.length_singleton]; omega⟩
    else .full

/-! ## Reference counts -/

/-- `JS_DupValue`. -/
def dupValue [DecidableEq F] (rc : F → ℕ) (f : F) : F → ℕ := Function.update rc f (rc f + 1)

/-- `JS_FreeValue`; at 0 the function is destroyed. -/
def freeValue [DecidableEq F] (rc : F → ℕ) (f : F) : F → ℕ := Function.update rc f (rc f - 1)

/-- A context, as far as its callbacks are concerned. -/
structure Emitter (F : Type) where
  table : ListenerTable F
  /-- `ref_count` of each function. -/
  refCount : F → ℕ
  /-- References the script itself holds: variables, closures, arguments of calls. -/
  held : F → ℕ
  /-- The functions `lua_emit_event` has passed to `JS_Call` and that have not returned,
  innermost first. -/
  running : List F

/-- What a script can do that concerns its functions. -/
inductive EmitterAct (F : Type)
  | create (f : F)
  | dup (f : F)
  | drop (f : F)
  /-- `Events.on(name, f)`. -/
  | on (name : String) (f : F)
  /-- `JS_EmitEvent` (by the host, or nested through an output wired to the chip). -/
  | emit (name : String)
  /-- The innermost `JS_Call` returns. -/
  | ret

namespace Emitter

variable [DecidableEq F]

/-- One action. `on` needs a reference that its caller holds: `argv[1]`. -/
def step (s : Emitter F) : EmitterAct F → Option (Emitter F)
  | .create f =>
    if s.refCount f = 0 ∧ f ∉ s.running then
      some { s with refCount := dupValue s.refCount f, held := dupValue s.held f }
    else none
  | .dup f =>
    if 0 < s.held f then
      some { s with refCount := dupValue s.refCount f, held := dupValue s.held f }
    else none
  | .drop f =>
    if 0 < s.held f then
      some { s with refCount := freeValue s.refCount f, held := freeValue s.held f }
    else none
  | .on name f =>
    if 0 < s.held f then
      match eventOn s.table name f with
      -- the old reference is dropped before the new one is taken
      | .replaced old t => some { s with table := t, refCount := dupValue (freeValue s.refCount old) f }
      | .added t => some { s with table := t, refCount := dupValue s.refCount f }
      | .full => some s
    else none
  | .emit name =>
    match s.table.lookup name with
    | some f => some { s with running := f :: s.running }
    | none => some s
  | .ret =>
    match s.running with
    | _ :: fs => some { s with running := fs }
    | [] => none

/-- The second argument of `Events.on`. -/
inductive Argument (F : Type)
  | function (f : F)
  | other

/-- How `event_on` ends. -/
inductive Registration
  | undefined
  /-- "Second argument must be a function" -/
  | typeError
  /-- "Maximum events reached" -/
  | internalError
deriving DecidableEq, Repr

/-- `event_on`, with any second argument. -/
def register (s : Emitter F) (name : String) : Argument F → Registration × Emitter F
  | .other => (.typeError, s)
  | .function f =>
    match eventOn s.table name f with
    | .replaced old t =>
      (.undefined, { s with table := t, refCount := dupValue (freeValue s.refCount old) f })
    | .added t => (.undefined, { s with table := t, refCount := dupValue s.refCount f })
    | .full => (.internalError, s)

omit [DecidableEq F] in
/-- `lua_emit_event`, and the functions it calls. -/
def emitEvent (s : Emitter F) (name : String) : List F × Emitter F :=
  match s.table.lookup name with
  | some f => ([f], { s with running := f :: s.running })
  | none => ([], s)

/-- Every reference is owned: by an entry of the table, or by the script. -/
def Owned (s : Emitter F) : Prop := ∀ f, s.refCount f = s.table.callbacks.count f + s.held f

/-- Every function that is being run is alive. -/
def Alive (s : Emitter F) : Prop := ∀ f ∈ s.running, 1 ≤ s.refCount f

end Emitter

end JSChip
