import JSChip.Spec.Upload

/-!
# Two handlers, many players

`JSChip_RequestCode` and `JSChip_ValidateCode` put scripts together in the same way, each in a
table `scriptChunks` of its own, with an entry for each player.
-/

namespace JSChip

variable {α P : Type}

/-- The `JSChip_ValidateCode` handler of the server up to `JS_CreateContext`: like `requestCode`, but
there is no chip to check. -/
def validateCode (len : LuaLength α) (b : Option (ScriptChunks α)) (m : ChunkMessage α) :
    Option (ScriptChunks α) × Option (List α) :=
  let chunkIndex := clamp m.index.toNat 1 m.total.toNat
  let b' : ScriptChunks α := ⟨(storedChunks b).insert chunkIndex m.data, m.total.toNat⟩
  if tableCount b'.chunks = m.total.toNat then
    match tableConcat len b'.chunks with
    | some completeScript => (none, some completeScript)
    | none => (some b', none)
  else (some b', none)

inductive CodeHandler
  | requestCode
  | validateCode
deriving DecidableEq, Repr

/-- What a handler does with the entry of the player. `valid` says if the player's target is a
valid chip. -/
def CodeHandler.handle (len : LuaLength α) (valid : Bool) :
    CodeHandler → Option (ScriptChunks α) → ChunkMessage α →
      Option (ScriptChunks α) × Option (List α)
  | requestCode => JSChip.requestCode len valid
  | validateCode => JSChip.validateCode len

/-- Handles messages of one player, whose target is valid: the entry afterwards, and the scripts
that were completed. -/
def CodeHandler.assemble (len : LuaLength α) (handler : CodeHandler) :
    Option (ScriptChunks α) → List (ChunkMessage α) → Option (ScriptChunks α) × List (List α)
  | b, [] => (b, [])
  | b, m :: ms =>
    let now := handler.handle len true b m
    let later := assemble len handler now.1 ms
    (later.1, now.2.toList ++ later.2)

/-! ## Many players -/

/-- A message of a player arrives. -/
structure Arrival (α P : Type) where
  handler : CodeHandler
  ply : P
  valid : Bool
  message : ChunkMessage α

/-- The tables of both handlers, and the scripts that were completed, in order. -/
structure Assembly (α P : Type) where
  scriptChunks : CodeHandler → P → Option (ScriptChunks α)
  completed : List (CodeHandler × P × List α)

namespace Assembly

/-- Nothing has arrived. -/
def init : Assembly α P := ⟨fun _ _ => none, []⟩

variable [DecidableEq P]

/-- One message. -/
def step (len : LuaLength α) (s : Assembly α P) (a : Arrival α P) : Assembly α P :=
  let result := a.handler.handle len a.valid (s.scriptChunks a.handler a.ply) a.message
  { scriptChunks := Function.update s.scriptChunks a.handler
      (Function.update (s.scriptChunks a.handler) a.ply result.1)
    completed := s.completed ++ result.2.toList.map fun script => (a.handler, a.ply, script) }

/-- All messages, in the order in which they arrive. -/
def receive (len : LuaLength α) (as : List (Arrival α P)) : Assembly α P := as.foldl (step len) init

/-- The scripts a handler completed for a player. -/
def scriptsOf (s : Assembly α P) (handler : CodeHandler) (ply : P) : List (List α) :=
  (s.completed.filter fun c => c.1 = handler ∧ c.2.1 = ply).map fun c => c.2.2

/-- What a handler has for a player is the same in both. -/
def Agree (s t : Assembly α P) (handler : CodeHandler) (ply : P) : Prop :=
  s.scriptChunks handler ply = t.scriptChunks handler ply ∧
    s.scriptsOf handler ply = t.scriptsOf handler ply

end Assembly

end JSChip
