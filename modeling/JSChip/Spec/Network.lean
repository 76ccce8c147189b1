import JSChip.Spec.Context
import JSChip.Spec.Upload

/-!
# A player's client and the server

The server asks the client for its script when the player clicks a chip, and the client
answers with the chunks of what its editor holds then. Both directions are in order and
lose nothing. The server knows which chip an upload is for only from `ply.JSChipTarget`,
at the moment a chunk is handled.

Requests carry, for the statements only, the chip they were sent for, and chunks the number
of the upload they belong to.
-/

namespace JSChip

/-- A call of `JS_Compile` for an upload: the chip whose context it is in, the script, and what comes
of it. -/
structure Compilation (α : Type) where
  chip : ℕ
  script : List α
  result : Compiled

/-- There is bytecode to evaluate. -/
def Compilation.hasBytecode {α : Type} (c : Compilation α) : Bool :=
  match c.result with
  | .ok (some _) => true
  | _ => false

/-- The server's data about a player, the two channels, and what was sent and done. -/
structure Network (α : Type) where
  /-- `ply.JSChipTarget`. -/
  target : Option ℕ
  /-- `scriptChunks[ply]`. -/
  buffer : Option (ScriptChunks α)
  /-- Requests on their way to the client. -/
  toClient : List ℕ
  /-- Chunks on their way to the server. -/
  toServer : List (ℕ × ChunkMessage α)
  /-- The uploads: the chip whose request the client answered, and the script. -/
  answered : List (ℕ × List α)
  /-- The calls of `JS_Compile` for an upload. -/
  compiled : List (Compilation α)
  /-- What `JS_Eval` evaluated for an upload: the chip whose context it was in, and the script. -/
  evaluated : List (ℕ × List α)

namespace Network

variable {α : Type}

/-- The player has just joined. -/
def init : Network α := ⟨none, none, [], [], [], [], []⟩

inductive Action (α : Type)
  /-- `TOOL:LeftClick_Update`. -/
  | click (chip : ℕ)
  /-- The client handles a request: `code` is `JS_Editor:GetCode()`, if there is an editor. -/
  | answer (code : Option (List α))
  /-- The server handles a chunk; `result` is what comes of a script that is complete. -/
  | deliver (result : Compiled)

/-- The upload handler from `JS_Compile` on. `JS_Eval` of nil evaluates nothing. -/
def complete (s : Network α) (chip : ℕ) (script : List α) (result : Compiled) : Network α :=
  let result :=
    if script = [] then .error (some "Your script has to have at least 1 character!") else result
  { s with
    compiled := s.compiled ++ [⟨chip, script, result⟩]
    evaluated := match result with
      | .ok (some _) => s.evaluated ++ [(chip, script)]
      | _ => s.evaluated }

/-- One step. All chips stay valid. -/
def step (len : LuaLength α) (s : Network α) : Action α → Option (Network α)
  | .click chip => some { s with target := some chip, toClient := s.toClient ++ [chip] }
  | .answer code =>
    match s.toClient with
    | [] => none
    | chip :: requests =>
      match code with
      | none => some { s with toClient := requests }
      | some script =>
        some { s with
          toClient := requests
          toServer := s.toServer ++ (uploadCode script).map fun m => (s.answered.length, m)
          -- an empty script has no chunks, and is not uploaded at all
          answered := s.answered ++ (if (chunksOf script).length = 0 then [] else [(chip, script)]) }
  | .deliver result =>
    match s.toServer with
    | [] => none
    | (_, m) :: messages =>
      let s := { s with toServer := messages }
      match s.target with
      | none => some s
      | some chip =>
        match requestCode len true s.buffer m with
        | (b, none) => some { s with buffer := b }
        | (b, some script) => some ({ s with buffer := b }.complete chip script result)

/-- **Code reaches the chip it was requested for.** What was compiled are the first uploads,
each in the chip whose request it answered; they include every upload with no chunk in
flight; and of these, exactly those that have bytecode were evaluated, each in the same chip. -/
def Delivered (s : Network α) : Prop :=
  s.compiled.map (fun c => (c.chip, c.script)) <+: s.answered ∧
    (∀ k < s.answered.length, (∀ p ∈ s.toServer, p.1 ≠ k) → k < s.compiled.length) ∧
    s.evaluated = (s.compiled.filter (·.hasBytecode)).map fun c => (c.chip, c.script)

end Network

end JSChip
