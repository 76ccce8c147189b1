import JSChip.Spec.Server

/-!
# Which program is in a context

The server does not remember what it evaluated. `Programs.loaded` does: for each slot, the last
source that was evaluated in the context that is there. It is written when a context is created
and when `JS_Eval` is called, and the server never reads it.
-/

namespace JSChip

variable {F : Type}

namespace Server

/-- The slot in which the step creates a context. A chip that is clicked gives up the one it has
first. -/
def createdSlot (s : Server F) : Action F → Option (Fin maxContexts)
  | .makeEnt _ _ => firstFree s.contexts
  | .leftClickUpdate e _ => match s.ctxOf e with
    | some i => firstFree (freeSlot s.contexts i)
    | none => firstFree s.contexts
  | .paste _ ownerIndex _ _ => if ownerIndex = 0 then none else firstFree s.contexts
  | .validate _ _ _ => firstFree s.contexts
  | _ => none

/-- The source the step evaluates for a chip, and the slot. -/
def evaluatedSource (s : Server F) (a : Action F) : Option (Fin maxContexts × String) :=
  match a with
  | .paste _ _ (some script) (.ok (some _)) =>
    if script ≠ "" then (s.createdSlot a).map (·, script) else none
  | .upload e script (.ok (some _)) =>
    if script ≠ "" then (s.ctxOf e).map (·, script) else none
  | _ => none

/-- `ENT:BuildDupeInfo`: the script of the dupe. -/
def buildDupeInfo (s : Server F) (e : ℕ) : Option String := (s.chips e).bind (·.script)

/-- `self.Run`. -/
def Runs (s : Server F) (e : ℕ) : Prop := ∃ chip, s.chips e = some chip ∧ chip.run = true

end Server

/-- The server, and the last source evaluated in each slot. -/
structure Programs (F : Type) where
  server : Server F
  loaded : Fin maxContexts → Option String

namespace Programs

open Server

def init : Programs F := ⟨.init, fun _ => none⟩

/-- What is loaded after a step. -/
def loadedAfter (p : Programs F) (a : Action F) : Fin maxContexts → Option String :=
  let created := match p.server.createdSlot a with
    | some j => Function.update p.loaded j none
    | none => p.loaded
  match p.server.evaluatedSource a with
  | some (i, script) => Function.update created i (some script)
  | none => created

def step (p : Programs F) (a : Action F) : Option (Programs F) :=
  (p.server.step a).map fun s => ⟨s, p.loadedAfter a⟩

/-- **A running chip runs its recorded script**: between handlers, it has a live context, and the
last source evaluated there is the one a dupe of the chip would get. -/
def RunsScript (p : Programs F) : Prop :=
  p.server.frames = [] → ∀ e, p.server.Runs e → ∃ i script, p.server.ctxOf e = some i ∧
    (p.server.contexts i).isSome ∧ p.server.buildDupeInfo e = some script ∧
      p.loaded i = some script

/-- **A running program is given up** only with its chip, for a replacement that compiled and is
evaluated, or by putting the chip in the error state. -/
def KeepsProgram (p : Programs F) (a : Action F) : Prop :=
  ∀ p', p.step a = some p' → ∀ e i, p.server.Runs e → p.server.ctxOf e = some i →
    a = .remove e ∨
      (∃ script bytecode, a = .upload e script (.ok (some bytecode)) ∧ p'.loaded i = some script) ∨
      ¬ p'.server.Runs e ∨
      p'.server.ctxOf e = some i ∧ (p'.server.contexts i).isSome ∧ p'.loaded i = p.loaded i

end Programs

end JSChip
