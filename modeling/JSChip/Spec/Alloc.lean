import Mathlib.Algebra.Order.BigOperators.Group.Finset
import Mathlib.Data.BitVec
import JSChip.Machine.Client

/-!
# Compiling, and the memory it takes

`lua_compile` on one context, with the memory allocation functions of the runtime below it. The
C library's own `malloc`, `realloc` and `free` are a parameter: what they answer may depend on all
that went before. The compiler and the serializer of QuickJS are clients of the allocation
functions; `quickjs.c` forbids itself any other.

* `jsDefMalloc`, `jsDefFree`, `jsDefRealloc`: the functions that count.
* `DynBuf` and `jsWriteObject`: the buffer that bytecode is written to.
* `luaCompile`.
-/

namespace JSChip.Alloc

open Machine

abbrev SizeT := BitVec 64

/-- A pointer; `none` is NULL. -/
abbrev Ptr := Option ℕ

/-! ## The C library -/

/-- The blocks that were allocated for the runtime and have not been freed. They lie in the address
space, which bounds their number and what is charged for them: for each its usable size and
`MALLOC_OVERHEAD`. -/
structure Heap (overhead : ℕ) where
  live : Finset ℕ
  usable : ℕ → ℕ
  card_lt : live.card < 2 ^ 64
  charged_lt : ∑ p ∈ live, (usable p + overhead) < 2 ^ 64

variable {o : ℕ}

namespace Heap

/-- What is charged for the blocks. -/
def charged (h : Heap o) : ℕ := ∑ p ∈ h.live, (h.usable p + o)

/-- A place for one more block. -/
structure Place (h : Heap o) where
  address : ℕ
  size : ℕ
  fresh : address ∉ h.live
  card_lt : h.live.card + 1 < 2 ^ 64
  charged_lt : h.charged + (size + o) < 2 ^ 64

theorem sum_add (h : Heap o) (b : h.Place) :
    ∑ p ∈ insert b.address h.live, (Function.update h.usable b.address b.size p + o) =
      h.charged + (b.size + o) := by
  rw [Finset.sum_insert b.fresh, Function.update_self, Nat.add_comm]
  congr 1
  refine Finset.sum_congr rfl fun p hp => ?_
  have hne : p ≠ b.address := by
    rintro rfl
    exact b.fresh hp
  rw [Function.update_of_ne hne]

def add (h : Heap o) (b : h.Place) : Heap o where
  live := insert b.address h.live
  usable := Function.update h.usable b.address b.size
  card_lt := by
    rw [Finset.card_insert_of_notMem b.fresh]
    exact b.card_lt
  charged_lt := by
    rw [sum_add]
    exact b.charged_lt

theorem card_empty_lt : (∅ : Finset ℕ).card < 2 ^ 64 := Nat.two_pow_pos 64

theorem charged_empty_lt : ∑ _p ∈ (∅ : Finset ℕ), (0 + o) < 2 ^ 64 := Nat.two_pow_pos 64

def empty : Heap o := ⟨∅, fun _ => 0, card_empty_lt, charged_empty_lt⟩

def remove (h : Heap o) (p : ℕ) : Heap o where
  live := h.live.erase p
  usable := h.usable
  card_lt := Nat.lt_of_le_of_lt (Finset.card_erase_le) h.card_lt
  charged_lt := Nat.lt_of_le_of_lt
    (Finset.sum_le_sum_of_subset (Finset.erase_subset p h.live)) h.charged_lt

end Heap

/-- The C library: where a block is put, if there is room. The number of calls before this one is an
argument, so that two answers need not be related. -/
structure Libc (o : ℕ) where
  malloc : ℕ → (h : Heap o) → SizeT → Option h.Place
  realloc : ℕ → (h : Heap o) → (p : ℕ) → SizeT → Option (h.remove p).Place

/-- `JSMallocState` -/
structure MallocState where
  mallocCount : SizeT
  mallocSize : SizeT
  mallocLimit : SizeT

/-- The runtime of a context. `engine` is all that is not about memory. -/
structure Runtime (o : ℕ) (State : Type) where
  mallocState : MallocState
  heap : Heap o
  calls : ℕ
  engine : State

inductive Fault
  /-- A pointer that is not to a block is freed or looked at. -/
  | undefined
  /-- `assert(size != 0)` -/
  | assertion

variable {State : Type}

abbrev AllocM (o : ℕ) (State : Type) := Prog (Libc o) (Runtime o State) Fault

def malloc (size : SizeT) : AllocM o State Ptr := do
  let libc ← read
  let s ← get
  match libc.malloc s.calls s.heap size with
  | none => do
    set { s with calls := s.calls + 1 }
    pure none
  | some b => do
    set { s with calls := s.calls + 1, heap := s.heap.add b }
    pure (some b.address)

/-- Where there is no room the old block stays. -/
def realloc (p : ℕ) (size : SizeT) : AllocM o State Ptr := do
  let libc ← read
  let s ← get
  if p ∈ s.heap.live then
    match libc.realloc s.calls s.heap p size with
    | none => do
      set { s with calls := s.calls + 1 }
      pure none
    | some b => do
      set { s with calls := s.calls + 1, heap := (s.heap.remove p).add b }
      pure (some b.address)
  else throw .undefined

def free : Ptr → AllocM o State Unit
  | none => pure ()
  | some p => do
    let s ← get
    if p ∈ s.heap.live then set { s with heap := s.heap.remove p } else throw .undefined

/-! ## The allocation functions of the runtime -/

def jsDefMallocUsableSize (p : ℕ) : AllocM o State SizeT := do
  let s ← get
  if p ∈ s.heap.live then pure (BitVec.ofNat 64 (s.heap.usable p)) else throw .undefined

/-- `malloc_count++`, and the block of this size is charged for. -/
def charge (usable : SizeT) : AllocM o State Unit :=
  modify fun s => { s with mallocState := { s.mallocState with
    mallocCount := s.mallocState.mallocCount + 1
    mallocSize := s.mallocState.mallocSize + (usable + BitVec.ofNat 64 o) } }

/-- `malloc_count--`. -/
def discharge (usable : SizeT) : AllocM o State Unit :=
  modify fun s => { s with mallocState := { s.mallocState with
    mallocCount := s.mallocState.mallocCount - 1
    mallocSize := s.mallocState.mallocSize - (usable + BitVec.ofNat 64 o) } }

def jsDefMalloc (size : SizeT) : AllocM o State Ptr := do
  if size = 0 then throw .assertion else do
  let s ← get
  if s.mallocState.mallocSize + size > s.mallocState.mallocLimit then pure none else do
  match ← malloc size with
  | none => pure none
  | some ptr => do
    let usable ← jsDefMallocUsableSize ptr
    charge usable
    pure (some ptr)

def jsDefFree : Ptr → AllocM o State Unit
  | none => pure ()
  | some ptr => do
    let usable ← jsDefMallocUsableSize ptr
    discharge usable
    free (some ptr)

def jsDefRealloc (ptr : Ptr) (size : SizeT) : AllocM o State Ptr := do
  match ptr with
  | none => if size = 0 then pure none else jsDefMalloc size
  | some p => do
    let oldSize ← jsDefMallocUsableSize p
    if size = 0 then do
      discharge oldSize
      free (some p)
      pure none
    else do
    let s ← get
    if s.mallocState.mallocSize + size - oldSize > s.mallocState.mallocLimit then pure none else do
    match ← realloc p size with
    | none => pure none
    | some q => do
      let usable ← jsDefMallocUsableSize q
      modify fun s => { s with mallocState := { s.mallocState with
        mallocSize := s.mallocState.mallocSize + (usable - oldSize) } }
      pure (some q)

/-! ## Dynamic buffers -/

/-- `DynBuf`, set up by `js_dbuf_init`: it is reallocated by `js_realloc_rt`. `bytes` is what is in
the buffer. -/
structure DynBuf where
  buf : Ptr
  bytes : List UInt8
  allocatedSize : SizeT
  error : Bool

def DynBuf.init : DynBuf := ⟨none, [], 0, false⟩

def DynBuf.size (s : DynBuf) : SizeT := BitVec.ofNat 64 s.bytes.length

/-- `dbuf_realloc`; true if there is no error. -/
def dbufRealloc (s : DynBuf) (newSize : SizeT) : AllocM o State (Bool × DynBuf) := do
  if newSize > s.allocatedSize then
    if s.error then pure (false, s) else do
    let size := s.allocatedSize * 3 / 2
    let newSize := if size > newSize then size else newSize
    match ← jsDefRealloc s.buf newSize with
    | none => pure (false, { s with error := true })
    | some newBuf => pure (true, { s with buf := some newBuf, allocatedSize := newSize })
  else pure (true, s)

/-- `dbuf_put` -/
def dbufPut (s : DynBuf) (data : List UInt8) : AllocM o State (Bool × DynBuf) := do
  let size := s.size + BitVec.ofNat 64 data.length
  if size > s.allocatedSize then do
    let (ok, s) ← dbufRealloc s size
    if ok then pure (true, { s with bytes := s.bytes ++ data }) else pure (false, s)
  else pure (true, { s with bytes := s.bytes ++ data })

/-- `dbuf_free` -/
def dbufFree (s : DynBuf) : AllocM o State Unit := do
  match s.buf with
  | none => pure ()
  | some buf => do
    let _ ← jsDefRealloc (some buf) 0
    pure ()

/-- Puts one after the other. What they return is not looked at. -/
def dbufPuts (s : DynBuf) : List (List UInt8) → AllocM o State DynBuf
  | [] => pure s
  | data :: rest => do
    let (_, s) ← dbufPut s data
    dbufPuts s rest

/-- The bytes of `dbuf_put_leb128`: seven bits at a time, at most five for a `uint32_t`. -/
def leb128 (v : ℕ) : List UInt8 := digits 5 v
where
  digits : ℕ → ℕ → List UInt8
  | 0, _ => []
  | n + 1, v =>
    if v / 128 = 0 then [UInt8.ofNat v] else UInt8.ofNat (v % 128 + 128) :: digits n (v / 128)

/-- `dbuf_put_leb128` puts each byte with `dbuf_putc`. -/
def dbufPutLeb128 (s : DynBuf) (v : ℕ) : AllocM o State DynBuf :=
  dbufPuts s ((leb128 v).map fun b => [b])

/-! ## The serializer -/

/-- `JSString`, with 8 or 16 bits for a character. -/
inductive JSString
  | str8 (chars : List UInt8)
  | str16 (chars : List UInt16)

/-- `JS_WriteString` -/
def jsWriteString (s : DynBuf) : JSString → AllocM o State DynBuf
  | .str8 chars => do
    let s ← dbufPutLeb128 s (2 * chars.length)
    dbufPuts s [chars]
  | .str16 chars => do
    let s ← dbufPutLeb128 s (2 * chars.length + 1)
    dbufPuts s (chars.map fun c : UInt16 => [c.toUInt8, (c >>> 8).toUInt8])

/-- `BCWriterState`, as far as it is about memory. `atoms` is what is in `idx_to_atom`. -/
structure BCWriterState where
  dbuf : DynBuf
  atomToIdx : Ptr
  idxToAtom : Ptr
  atoms : List ℕ
  objectTab : Ptr
  hashTable : Ptr

def BCWriterState.init : BCWriterState := ⟨.init, none, none, [], none, none⟩

/-- What QuickJS asks of the allocation functions. -/
inductive AllocOp
  | malloc (size : SizeT)
  | free (p : Ptr)
  | realloc (p : Ptr) (size : SizeT)

def AllocOp.Answer : AllocOp → Type
  | malloc _ => Ptr
  | free _ => Unit
  | realloc _ _ => Ptr

def AllocOp.perform : (op : AllocOp) → AllocM o State op.Answer
  | malloc size => jsDefMalloc size
  | free p => jsDefFree p
  | realloc p size => jsDefRealloc p size

/-- The arrays of a writer, with `js_resize_array`. -/
inductive WriterArray
  | atomToIdx | idxToAtom

def BCWriterState.array (s : BCWriterState) : WriterArray → Ptr
  | .atomToIdx => s.atomToIdx
  | .idxToAtom => s.idxToAtom

def BCWriterState.setArray (s : BCWriterState) : WriterArray → Ptr → BCWriterState
  | .atomToIdx, p => { s with atomToIdx := p }
  | .idxToAtom, p => { s with idxToAtom := p }

/-- What `JS_WriteObjectRec` does with the writer. The list of objects stays empty: it is for
`JS_WRITE_OBJ_REFERENCE`. -/
inductive WriterOp
  | alloc (op : AllocOp)
  | put (data : List UInt8)
  | resize (array : WriterArray) (size : SizeT)
  | addAtom (atom : ℕ)

def WriterOp.Answer : WriterOp → Type
  | alloc op => op.Answer
  | put _ => Bool
  | resize _ _ => Bool
  | addAtom _ => Unit

def WriterOp.perform : (op : WriterOp) → BCWriterState → AllocM o State (op.Answer × BCWriterState)
  | alloc op, s => do
    let y ← op.perform
    pure (y, s)
  | put data, s => do
    let (ok, dbuf) ← dbufPut s.dbuf data
    pure (ok, { s with dbuf })
  | resize array size, s => do
    match ← jsDefRealloc (s.array array) size with
    | none => pure (false, s)
    | some p => pure (true, s.setArray array (some p))
  | addAtom atom, s => pure ((), { s with atoms := s.atoms ++ [atom] })

/-! ## The engine -/

/-- What QuickJS does besides. Each function works on the state of the engine and is a client of the
allocation functions. -/
structure Engine where
  State : Type
  Value : Type
  CString : Type
  /-- `JS_Eval` with `JS_EVAL_FLAG_COMPILE_ONLY`; `none` is an exception. -/
  eval : ℕ → List UInt8 → State → Client AllocOp AllocOp.Answer (Option Value × State)
  getException : State → Client AllocOp AllocOp.Answer (Value × State)
  /-- `none` is a null pointer. -/
  toCString : Value → State → Client AllocOp AllocOp.Answer (Option CString × State)
  chars : CString → List UInt8
  freeCString : CString → State → Client AllocOp AllocOp.Answer (Unit × State)
  freeValue : Value → State → Client AllocOp AllocOp.Answer (Unit × State)
  /-- true if there is no error -/
  writeObjectRec : Value → State → Client WriterOp WriterOp.Answer (Bool × State)
  /-- `atom_array` -/
  atomArray : State → ℕ → JSString
  /-- `BC_VERSION` -/
  bcVersion : UInt8

variable (engine : Engine)

/-- A call of the engine. -/
def call {Op α ω : Type} {Answer : Op → Type}
    (handle : (op : Op) → ω → AllocM o engine.State (Answer op × ω))
    (c : engine.State → Client Op Answer (α × engine.State)) (w : ω) :
    AllocM o engine.State (α × ω) := do
  let s ← get
  let ((x, e), w) ← (c s.engine).interpret handle w
  modify fun s => { s with engine := e }
  pure (x, w)

def callAlloc {α : Type} (c : engine.State → Client AllocOp AllocOp.Answer (α × engine.State)) :
    AllocM o engine.State α := do
  let (x, _) ← call engine (fun op w => do
    let y ← op.perform
    pure (y, w)) c ()
  pure x

/-- The atoms are written one after the other. -/
def writeAtoms (dbuf : DynBuf) : List ℕ → AllocM o engine.State DynBuf
  | [] => pure dbuf
  | atom :: atoms => do
    let s ← get
    let dbuf ← jsWriteString dbuf (engine.atomArray s.engine atom)
    writeAtoms dbuf atoms

/-- `JS_WriteObjectAtoms` -/
def jsWriteObjectAtoms (s : BCWriterState) : AllocM o engine.State (Bool × BCWriterState) := do
  let dbuf1 := s.dbuf
  let dbuf ← dbufPuts .init [[engine.bcVersion]]
  let dbuf ← dbufPutLeb128 dbuf s.atoms.length
  let dbuf ← writeAtoms engine dbuf s.atoms
  let (ok, dbuf1) ← dbufRealloc dbuf1 (dbuf1.size + dbuf.size)
  if ok then do
    dbufFree dbuf
    pure (true, { s with dbuf := { dbuf1 with bytes := dbuf.bytes ++ dbuf1.bytes } })
  else do
    dbufFree dbuf1
    pure (false, { s with dbuf })

/-- `JS_WriteObjectRec`, then `JS_WriteObjectAtoms`. -/
def jsWriteParts (obj : engine.Value) : AllocM o engine.State (Bool × BCWriterState) := do
  let (ok, s) ← call engine WriterOp.perform (engine.writeObjectRec obj) .init
  if ok then jsWriteObjectAtoms engine s else pure (false, s)

/-- `JS_WriteObject` with `JS_WRITE_OBJ_BYTECODE`: the buffer, and what is in it. -/
def jsWriteObject (obj : engine.Value) : AllocM o engine.State (Ptr × List UInt8) := do
  let (ok, s) ← jsWriteParts engine obj
  jsDefFree s.objectTab
  jsDefFree s.hashTable
  jsDefFree s.atomToIdx
  jsDefFree s.idxToAtom
  if ok then pure (s.dbuf.buf, s.dbuf.bytes) else do
  dbufFree s.dbuf
  pure (none, [])

/-! ## Compiling -/

/-- What is pushed for Lua. -/
inductive Pushed
  | number (n : ℕ)
  | text (s : String)
  | bytes (b : List UInt8)
  | nil

/-- `PushString`; a null pointer is pushed as nil. -/
def pushString : Option (List UInt8) → Pushed
  | some bytes => .bytes bytes
  | none => .nil

/-- What `lua_compile` has before it frees anything: the value the script is compiled to, and its
bytecode in a buffer. -/
def compile (length : ℕ) (script : List UInt8) :
    AllocM o engine.State (Option (engine.Value × Ptr × List UInt8)) := do
  match ← callAlloc engine (engine.eval length script) with
  | none => pure none
  | some result => do
    let (bytecode, bytes) ← jsWriteObject engine result
    pure (some (result, bytecode, bytes))

/-- `JS_FreeCString`, which does nothing with a null pointer. -/
def freeCString : Option engine.CString → AllocM o engine.State Unit
  | some c => callAlloc engine (engine.freeCString c)
  | none => pure ()

/-- The message of the exception is pushed. -/
def pushException : AllocM o engine.State (List Pushed) := do
  let exception ← callAlloc engine engine.getException
  let errorMessage ← callAlloc engine (engine.toCString exception)
  freeCString engine errorMessage
  callAlloc engine (engine.freeValue exception)
  pure [.number 1, pushString (errorMessage.map engine.chars), .nil]

/-- `lua_compile`, for a context that there is. -/
def luaCompile (length : ℕ) (script : List UInt8) : AllocM o engine.State (List Pushed) := do
  if length < 1 then pure [.number 1, .text "Your script has to have at least 1 character!"] else do
  match ← compile engine length script with
  | none => pushException engine
  | some (result, bytecode, bytes) => do
    free bytecode
    callAlloc engine (engine.freeValue result)
    pure [.number 0, pushString (bytecode.map fun _ => bytes), .number bytes.length]

/-- A call of `JS_Compile`: the length, and the script. -/
abbrev Call := ℕ × List UInt8

/-- One call; `none` if it does not return. -/
def step (libc : Libc o) (s : Runtime o engine.State) (c : Call) : Option (Runtime o engine.State) :=
  match luaCompile engine c.1 c.2 libc s with
  | .ok (_, t) => some t
  | .error _ => none

/-- **Memory is accounted for**: `malloc_count` and `malloc_size` are the number of the blocks and
what is charged for them. -/
def Accounted (s : Runtime o State) : Prop :=
  s.mallocState.mallocCount.toNat = s.heap.live.card ∧
    s.mallocState.mallocSize.toNat = s.heap.charged

end JSChip.Alloc
