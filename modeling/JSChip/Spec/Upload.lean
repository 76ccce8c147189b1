import Mathlib.Data.List.AList

/-!
# Uploading a script in chunks

* `uploadCode`: the client cuts a script into chunks of 64000 bytes and sends each with the
  number of chunks and its position, both as 16-bit numbers.
* `requestCode`: the server keeps the chunks of each player in a table until it has as many
  as the latest message announces, then joins them and compiles the result.

The chunks are a Lua table, whose length operator may answer any border of it (`LuaLength`).
-/

namespace JSChip

variable {α : Type}

/-! ## The client -/

/-- `chunkSize`. -/
def chunkSize : ℕ := 64000

/-- A `JSChip_RequestCode` message to the server. -/
structure ChunkMessage (α : Type) where
  total : UInt16
  index : UInt16
  data : List α

/-- The first loop of `JSChip_UploadCode`. -/
def chunksOf (script : List α) : List (List α) :=
  (List.range ((script.length + (chunkSize - 1)) / chunkSize)).map fun k =>
    (script.drop (chunkSize * k)).take chunkSize

/-- The message with chunk `k` (counted from 0) of a script. -/
def chunkMessage (script : List α) (k : ℕ) : ChunkMessage α :=
  ⟨UInt16.ofNat (chunksOf script).length, UInt16.ofNat (k + 1), (chunksOf script).getD k []⟩

/-- `JSChip_UploadCode`: the messages of an upload, in order. -/
def uploadCode (script : List α) : List (ChunkMessage α) :=
  (List.range (chunksOf script).length).map (chunkMessage script)

/-! ## The server -/

/-- A Lua table from numbers to strings. -/
abbrev ChunkTable (α : Type) := AList fun _ : ℕ => List α

/-- `table.Count`. -/
def tableCount (t : ChunkTable α) : ℕ := t.keys.length

/-- What the length operator of Lua may answer: an index with nothing after it, that is 0 or
has something at it. -/
def IsBorder (t : ChunkTable α) (n : ℕ) : Prop :=
  (n = 0 ∨ (t.lookup n).isSome) ∧ t.lookup (n + 1) = none

/-- A length operator. -/
abbrev LuaLength (α : Type) := { len : ChunkTable α → ℕ // ∀ t, IsBorder t (len t) }

/-- `table.concat`: the strings at `1 .. #t`; `none` is the error it raises when one is missing. -/
def tableConcat (len : LuaLength α) (t : ChunkTable α) : Option (List α) :=
  ((List.range (len.1 t)).mapM fun k => t.lookup (k + 1)).map List.flatten

/-- `math.Clamp`. -/
def clamp (n low high : ℕ) : ℕ := min (max n low) high

/-- `scriptChunks[ply]`. -/
structure ScriptChunks (α : Type) where
  chunks : ChunkTable α
  total : ℕ

/-- The chunks that are there: none if there is no entry for the player. -/
def storedChunks : Option (ScriptChunks α) → ChunkTable α
  | some b => b.chunks
  | none => ∅

/-- The `JSChip_RequestCode` handler of the server up to `JS_Compile`: the entry of the player
afterwards, and the script that is compiled, if it is complete. `valid` says if the player's
target is a valid chip. -/
def requestCode (len : LuaLength α) (valid : Bool) (b : Option (ScriptChunks α))
    (m : ChunkMessage α) : Option (ScriptChunks α) × Option (List α) :=
  let chunkIndex := clamp m.index.toNat 1 m.total.toNat
  if !valid then (b, none)
  else
    let b' : ScriptChunks α := ⟨(storedChunks b).insert chunkIndex m.data, m.total.toNat⟩
    if tableCount b'.chunks = m.total.toNat then
      match tableConcat len b'.chunks with
      | some completeScript => (none, some completeScript)
      -- the error ends the handler before the entry is removed
      | none => (some b', none)
    else (some b', none)

/-! ## Runs of uploads -/

/-- An upload, and for each of its messages if the target is valid when it is handled. -/
structure Upload (α : Type) where
  script : List α
  valid : ℕ → Bool
  nonempty : script ≠ []

/-- Handles messages in order, each with whether the target is valid then. -/
def requestCodes (len : LuaLength α) : Option (ScriptChunks α) → List (Bool × ChunkMessage α) →
    Option (ScriptChunks α) × List (List α)
  | b, [] => (b, [])
  | b, (valid, m) :: ms =>
    let now := requestCode len valid b m
    let later := requestCodes len now.1 ms
    (later.1, now.2.toList ++ later.2)

/-- The messages of an upload from chunk `k` on. -/
def Upload.messages (u : Upload α) (k : ℕ) : List (Bool × ChunkMessage α) :=
  (List.range' k ((chunksOf u.script).length - k)).map fun j => (u.valid j, chunkMessage u.script j)

/-- The server's side of one player: the entry in `scriptChunks`, and for each upload so far
the scripts that were compiled while its messages were handled. -/
structure Receiver (α : Type) where
  buffer : Option (ScriptChunks α)
  done : List (Upload α × List (List α))

namespace Receiver

/-- Nothing received yet. -/
def init : Receiver α := ⟨none, []⟩

/-- One upload. -/
def step (len : LuaLength α) (s : Receiver α) (u : Upload α) : Option (Receiver α) :=
  let result := requestCodes len s.buffer (u.messages 0)
  some ⟨result.1, (u, result.2) :: s.done⟩

/-- **Uploads arrive intact.** Whatever was compiled is a script that was uploaded, and an
upload during which the target was valid was compiled once, and nothing else with it. -/
def Intact (s : Receiver α) : Prop :=
  ∀ p ∈ s.done, (∀ script ∈ p.2, ∃ q ∈ s.done, q.1.script = script) ∧
    ((∀ k < (chunksOf p.1.script).length, p.1.valid k = true) → p.2 = [p.1.script])

end Receiver

end JSChip
