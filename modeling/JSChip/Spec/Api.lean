import Mathlib.Algebra.Group.Int.Defs
import Mathlib.Data.Multiset.AddSub
import JSChip.Machine.Wp
import JSChip.Spec.Listener

/-!
# What the native functions are written in

A native function of `js.cpp` works on two sides: on the values of the script, through the
functions of QuickJS, and on the Lua stack, through `LUA_CH`. Here is what it uses of both.

* `JSValue`, `LuaValue`: the values, as far as a native function can tell them apart.
* `Env`: what a call finds, and what the engines answer it, each kind of answer in the order
  in which it is asked for. Any answers are possible, and a getter may answer twice differently.
* `State`: the part of the Lua stack above the entry, the references the call owns, what it
  has done to objects and which Lua functions it has called.
* `NativeM`: the programs. A slot below the entry is not a fault: the call goes on with
  whatever is there, and `underflow` records it. What stops a call is a null string where a
  string is read, and a release of a reference that is not owned.
-/

namespace JSChip.Native

open Machine

/-- `double`, with the functions of `math.h` and the conversions of Lua. -/
class Double (R : Type) where
  ofNat : ℕ → R
  add : R → R → R
  sub : R → R → R
  mul : R → R → R
  div : R → R → R
  fmod : R → R → R
  pow : R → R → R
  sqrt : R → R
  isZero : R → Bool
  /-- `lua_tolstring` of a number -/
  toText : R → String
  /-- `lua_tonumber` of a string -/
  ofText : String → R

/-! ## Values -/

/-- What a call can own a reference to. -/
inductive Ref
  | value (id : ℕ)
  | cString (id : ℕ)
  | atom (id : ℕ)
deriving DecidableEq, Repr

/-- `JSValue` by its tag. `other` are the counted values a native function has no test for: a
symbol, a big integer, bytecode. What a string is converted to is an answer of the engine. -/
inductive JSValue (R : Type)
  | undefined
  | null
  | bool (b : Bool)
  | number (x : R)
  | exception
  | string (id : ℕ) (text : String)
  | object (id : ℕ) (callable : Bool)
  | other (id : ℕ)
deriving DecidableEq, Repr

/-- What C reads of a string: nothing behind its first NUL. -/
def untilNul (string : String) : String :=
  String.ofList (string.toList.takeWhile fun c => c.toNat != 0)

/-- A pointer that `JS_ToCString` returns, with the string it points to. -/
structure CString where
  id : ℕ
  string : String
deriving DecidableEq, Repr

/-- What `strcmp`, `strdup` and `PushString` read of it. -/
def CString.text (c : CString) : String := untilNul c.string

/-- A value on the Lua stack. `globals` is the global table, `member` what `GetField` pushes. The
text of a string is what `GetString` points to, up to its first NUL. -/
inductive LuaValue (R : Type)
  | globals
  | nil
  | bool (b : Bool)
  | number (x : R)
  | string (text : String)
  | table (id : ℕ)
  | entity (id : ℕ)
  | vector (x y z : R)
  | angle (x y z : R)
  | member (object : LuaValue R) (name : String)
  | other (id : ℕ)
deriving DecidableEq, Repr

variable {R : Type}

namespace JSValue

def isNumber : JSValue R → Bool
  | number _ => true
  | _ => false

def isString : JSValue R → Bool
  | string _ _ => true
  | _ => false

def isObject : JSValue R → Bool
  | object _ _ => true
  | _ => false

def isFunction : JSValue R → Bool
  | object _ callable => callable
  | _ => false

def isException : JSValue R → Bool
  | exception => true
  | _ => false

/-- The reference a value is, if it is counted. -/
def refs : JSValue R → Multiset Ref
  | string id _ | object id _ | other id => {.value id}
  | _ => 0

@[simp] theorem refs_exception : (exception : JSValue R).refs = 0 := rfl

@[simp] theorem refs_undefined : (undefined : JSValue R).refs = 0 := rfl

@[simp] theorem refs_null : (null : JSValue R).refs = 0 := rfl

@[simp] theorem refs_bool (b : Bool) : (bool b : JSValue R).refs = 0 := rfl

@[simp] theorem refs_number (x : R) : (number x).refs = 0 := rfl

end JSValue

/-- The reference a C string is, unless it is null. -/
def cStringRefs : Option CString → Multiset Ref
  | some c => {.cString c.id}
  | none => 0

namespace LuaValue

def isNumber : LuaValue R → Bool
  | number _ => true
  | _ => false

/-- `GetBool`. -/
def toBool : LuaValue R → Bool
  | nil | bool false => false
  | _ => true

/-- `GetNumber`. -/
def toNumber [Double R] : LuaValue R → R
  | number x => x
  | string text => Double.ofText text
  | _ => Double.ofNat 0

/-- `GetString`; null for what is neither a string nor a number. -/
def toText [Double R] : LuaValue R → Option String
  | string text => some text
  | number x => some (Double.toText x)
  | _ => none

/-- `GetVector`, zero for another value. -/
def toVector [Double R] : LuaValue R → R × R × R
  | vector x y z => (x, y, z)
  | _ => (Double.ofNat 0, Double.ofNat 0, Double.ofNat 0)

/-- `GetAngle`, zero for another value. -/
def toAngle [Double R] : LuaValue R → R × R × R
  | angle x y z => (x, y, z)
  | _ => (Double.ofNat 0, Double.ofNat 0, Double.ofNat 0)

end LuaValue

/-! ## What a call finds and what it changes -/

structure Env (R : Type) where
  /-- `contextData->entIndex`, a number -/
  entIndex : R
  /-- `contextData->ownerIndex`, a number -/
  ownerIndex : R
  /-- `argv[k]` behind the end of `argv` -/
  beyond : ℕ → JSValue R
  /-- the Lua stack below the entry, by depth -/
  below : ℕ → LuaValue R
  /-- local variables that are read before they are set -/
  uninit : ℕ → R
  /-- `JS_GetPropertyStr` -/
  property : ℕ → JSValue R → String → JSValue R
  /-- `JS_GetProperty` -/
  value : ℕ → JSValue R → ℕ → JSValue R
  /-- `JS_GetOwnPropertyNames`, none when it fails -/
  ownNames : JSValue R → Option (List ℕ)
  /-- `JS_AtomToCString` -/
  atomName : ℕ → ℕ → Option CString
  /-- `JS_ToCString`, none (a null pointer) when the conversion throws -/
  cString : ℕ → JSValue R → Option CString
  /-- `JS_ToFloat64` of what is not a number -/
  float : ℕ → JSValue R → R
  /-- `JS_NewObject` and `JS_NewString`, none when there is no memory left -/
  alloc : ℕ → Option ℕ
  /-- the number a host entry is called with names a context -/
  contextFound : Bool
  /-- `JS_ReadObject` -/
  bytecode : JSValue R
  /-- `JS_Eval` with `JS_EVAL_FLAG_COMPILE_ONLY` -/
  compiled : JSValue R
  /-- `JS_WriteObject`, none when there is no memory left -/
  written : Option String
  /-- `JS_Call` and `JS_EvalFunction`, by the host -/
  result : JSValue R
  /-- `JS_GetException` -/
  exceptionValue : JSValue R
  /-- `GetTable`: the field of a table at a key -/
  luaTable : ℕ → LuaValue R → LuaValue R → LuaValue R
  /-- the result of `Call` -/
  luaCall : ℕ → LuaValue R

inductive ErrorKind
  | typeError
  | internalError
deriving DecidableEq, Repr

/-- A call of a Lua function. -/
structure LuaCall (R : Type) where
  fn : LuaValue R
  args : List (LuaValue R)

/-- A property set on an object that the call created. -/
structure PropertySet (R : Type) where
  object : JSValue R
  name : String
  value : JSValue R

/-- An assignment to a field of a Lua table that the call created. -/
structure FieldSet (R : Type) where
  table : LuaValue R
  name : String
  value : LuaValue R

structure State (R : Type) where
  /-- the Lua stack above the entry, the top first -/
  stack : List (LuaValue R)
  /-- the arguments of a Lua C function, which positive indices name -/
  args : List (LuaValue R)
  /-- a slot below the entry has been read or popped -/
  underflow : Bool
  /-- an argument behind the end of `argv` has been read -/
  pastArgs : Bool
  /-- a value has been asked for its string and has none -/
  unconverted : Bool
  /-- a null pointer has been given to `PushString` -/
  nullPushed : Bool
  /-- the references the call owns -/
  held : Multiset Ref
  /-- the error the call throws last -/
  thrown : Option (ErrorKind × String)
  listeners : ListenerTable (JSValue R)
  /-- `JS_Call`, by the host: the callback and its arguments -/
  jsCalls : List (JSValue R × List (JSValue R))
  luaCalls : List (LuaCall R)
  sets : List (PropertySet R)
  fieldSets : List (FieldSet R)
  /-- how many tables the call has created -/
  tables : ℕ
  /-- how often each kind of answer has been asked for -/
  properties : ℕ
  values : ℕ
  atomNames : ℕ
  cStrings : ℕ
  floats : ℕ
  allocs : ℕ
  luaTables : ℕ

/-- A call that has done nothing yet. -/
def State.entry (listeners : ListenerTable (JSValue R)) (args : List (LuaValue R)) : State R :=
  ⟨[], args, false, false, false, false, 0, none, listeners, [], [], [], [], 0, 0, 0, 0, 0, 0, 0, 0⟩

/-- What stops a call. -/
inductive Fault
  /-- a null pointer is read as a string -/
  | nullString
  /-- a reference is released that the call does not own -/
  | badRelease
deriving DecidableEq, Repr

abbrev NativeM (R : Type) := Prog (Env R) (State R) Fault

/-! ## The Lua stack -/

/-- The value at an index: positive ones count the arguments, negative ones from the top. -/
def State.slot (s : State R) (i : ℤ) : Option (LuaValue R) :=
  if 0 < i then s.args[(i - 1).toNat]? else (s.stack ++ s.args.reverse)[(-i - 1).toNat]?

def look (i : ℤ) : NativeM R (LuaValue R) := do
  let e ← read
  modifyGet fun s =>
    ((s.slot i).getD (e.below (-i).toNat),
      { s with underflow := s.underflow || (s.slot i).isNone })

def push (v : LuaValue R) : NativeM R Unit :=
  modify fun s => { s with stack := v :: s.stack }

/-- `PushSpecial(SPECIAL_GLOB)`. -/
def pushGlobals : NativeM R Unit := push .globals

def pushNil : NativeM R Unit := push .nil

def pushNumber (x : R) : NativeM R Unit := push (.number x)

/-- `PushString`; a null pointer is pushed as nil. -/
def pushString : Option String → NativeM R Unit
  | some text => push (.string text)
  | none => modify fun s => { s with stack := .nil :: s.stack, nullPushed := true }

/-- `Push`: a copy of a slot. -/
def pushSlot (i : ℤ) : NativeM R Unit := do push (← look i)

def pop (n : ℕ) : NativeM R Unit :=
  modify fun s =>
    { s with
      stack := s.stack.drop n
      underflow := s.underflow || decide (s.stack.length < n) }

def getField (i : ℤ) (name : String) : NativeM R Unit := do push (.member (← look i) name)

def getMetaTable (i : ℤ) : NativeM R Unit := do push (.member (← look i) "__metatable")

/-- `GetTable`: pops the key, pushes the value. -/
def getTable (i : ℤ) : NativeM R Unit := do
  let e ← read
  let table ← look i
  let key ← look (-1)
  pop 1
  let v ← modifyGet fun s =>
    (e.luaTable s.luaTables table key, { s with luaTables := s.luaTables + 1 })
  push v

def createTable : NativeM R Unit := do
  let v ← modifyGet fun s => (.table s.tables, { s with tables := s.tables + 1 })
  push v

/-- `SetField`: pops the value. -/
def setField (i : ℤ) (name : String) : NativeM R Unit := do
  let table ← look i
  let value ← look (-1)
  pop 1
  modify fun s => { s with fieldSets := s.fieldSets ++ [⟨table, name, value⟩] }

/-- `Call`: pops `n` arguments and the function, pushes `r` results, of which there is at most
one. The call is assumed not to raise an error. -/
def call (n r : ℕ) : NativeM R Unit := do
  let e ← read
  modify fun s =>
    { s with
      stack := (if r = 0 then [] else [e.luaCall s.luaCalls.length]) ++ s.stack.drop (n + 1)
      underflow := s.underflow || decide (s.stack.length < n + 1)
      luaCalls := s.luaCalls ++ [⟨s.stack.getD n (e.below 1), (s.stack.take n).reverse⟩] }

def getBool (i : ℤ) : NativeM R Bool := LuaValue.toBool <$> look i

section Double

variable [Double R]

def getNumber (i : ℤ) : NativeM R R := LuaValue.toNumber <$> look i

def getString (i : ℤ) : NativeM R (Option String) := LuaValue.toText <$> look i

def getVector (i : ℤ) : NativeM R (R × R × R) := LuaValue.toVector <$> look i

def getAngle (i : ℤ) : NativeM R (R × R × R) := LuaValue.toAngle <$> look i

end Double

/-! ## References -/

def acquire (rs : Multiset Ref) : NativeM R Unit :=
  modify fun s => { s with held := s.held + rs }

def release (rs : Multiset Ref) : NativeM R Unit := do
  let s ← get
  if rs ≤ s.held then modify fun s => { s with held := s.held - rs }
  else throw .badRelease

def freeValue (v : JSValue R) : NativeM R Unit := release v.refs

def freeCString (c : Option CString) : NativeM R Unit := release (cStringRefs c)

def freeAtom (atom : ℕ) : NativeM R Unit := release {.atom atom}

def dupValue (v : JSValue R) : NativeM R (JSValue R) := do
  acquire v.refs
  pure v

/-! ## The functions of QuickJS -/

/-- `argv[k]`. `js_call_c_function` fills `argv` up with `undefined` to the length a function
is created with, which is 1 for all of them. -/
def argument (e : Env R) (argv : List (JSValue R)) (k : ℕ) : JSValue R :=
  argv.getD k (if k = 0 then .undefined else e.beyond k)

def arg (argv : List (JSValue R)) (k : ℕ) : NativeM R (JSValue R) := do
  let e ← read
  modifyGet fun s =>
    (argument e argv k, { s with pastArgs := s.pastArgs || decide (max argv.length 1 ≤ k) })

/-- Throwing gives the error to the runtime. -/
def throwNew (kind : ErrorKind) (message : String) : NativeM R (JSValue R) := do
  modify fun s => { s with thrown := some (kind, message) }
  pure .exception

/-- `JS_ThrowTypeError`. -/
def throwTypeError (message : String) : NativeM R (JSValue R) := throwNew .typeError message

/-- `JS_ThrowInternalError`. -/
def throwInternalError (message : String) : NativeM R (JSValue R) := throwNew .internalError message

def getPropertyStr (v : JSValue R) (name : String) : NativeM R (JSValue R) := do
  let e ← read
  let w ← modifyGet fun s =>
    (e.property s.properties v name, { s with properties := s.properties + 1 })
  dupValue w

def getProperty (v : JSValue R) (atom : ℕ) : NativeM R (JSValue R) := do
  let e ← read
  let w ← modifyGet fun s => (e.value s.values v atom, { s with values := s.values + 1 })
  dupValue w

/-- `JS_GetOwnPropertyNames`; on success the call owns the atoms. -/
def getOwnPropertyNames (v : JSValue R) : NativeM R (Option (List ℕ)) := do
  let e ← read
  acquire (((e.ownNames v).getD []).map Ref.atom)
  pure (e.ownNames v)

def atomToCString (atom : ℕ) : NativeM R (Option CString) := do
  let e ← read
  let c ← modifyGet fun s => (e.atomName s.atomNames atom, { s with atomNames := s.atomNames + 1 })
  acquire (cStringRefs c)
  pure c

def toCString (v : JSValue R) : NativeM R (Option CString) := do
  let e ← read
  let c ← modifyGet fun s => (e.cString s.cStrings v,
    { s with
      cStrings := s.cStrings + 1
      unconverted := s.unconverted || (e.cString s.cStrings v).isNone })
  acquire (cStringRefs c)
  pure c

/-- What `strcmp`, `strdup` and `strlen` read. -/
def readString {α : Type} (text : α → String) : Option α → NativeM R String
  | some c => pure (text c)
  | none => throw .nullString

/-- The number `JS_ToFloat64` finds. -/
def JSValue.toFloat (e : Env R) (k : ℕ) : JSValue R → R
  | .number x => x
  | v => e.float k v

/-- `JS_ToFloat64`, which frees what it converts through. -/
def toFloat64 (v : JSValue R) : NativeM R R := do
  let e ← read
  modifyGet fun s =>
    (v.toFloat e s.floats, { s with floats := s.floats + if v.isNumber then 0 else 1 })

def allocate (make : ℕ → JSValue R) : NativeM R (JSValue R) := do
  let e ← read
  let id ← modifyGet fun s => (e.alloc s.allocs, { s with allocs := s.allocs + 1 })
  dupValue ((id.map make).getD .exception)

def newObject : NativeM R (JSValue R) := allocate fun id => .object id false

/-- `JS_NewString`, which reads its argument first. -/
def newString (text : Option String) : NativeM R (JSValue R) := do
  let text ← readString id text
  allocate fun id => .string id text

/-- `JS_SetPropertyStr`: the value goes to the object. -/
def setPropertyStr (v : JSValue R) (name : String) (w : JSValue R) : NativeM R Unit := do
  release w.refs
  modify fun s => { s with sets := s.sets ++ [⟨v, name, w⟩] }

/-! ## Common parts -/

/-- `Entity(x)`, on top of the global table. -/
def pushEntity (x : R) : NativeM R Unit := do
  pushGlobals
  getField (-1) "Entity"
  pushNumber x
  call 1 1

/-- The method `name` of the slot `i`, called on the slot `j` (with the method pushed). -/
def callMethod (i : ℤ) (name : String) (j : ℤ) : NativeM R Unit := do
  getField i name
  pushSlot j
  call 1 1

/-- A global constructor, in the table at the slot `i`, called on numbers. -/
def construct (i : ℤ) (name : String) (xs : List R) : NativeM R Unit := do
  getField i name
  xs.forM pushNumber
  call xs.length 1

/-- `JS_GetPropertyStr` of three names. -/
def getProperties (v : JSValue R) (names : String × String × String) :
    NativeM R (JSValue R × JSValue R × JSValue R) := do
  let jx ← getPropertyStr v names.1
  let jy ← getPropertyStr v names.2.1
  let jz ← getPropertyStr v names.2.2
  pure (jx, jy, jz)

/-- A new object with three numbers. -/
def newTriple (names : String × String × String) (x : R × R × R) : NativeM R (JSValue R) := do
  let v ← newObject
  setPropertyStr v names.1 (.number x.1)
  setPropertyStr v names.2.1 (.number x.2.1)
  setPropertyStr v names.2.2 (.number x.2.2)
  pure v

def xyz : String × String × String := ("x", "y", "z")

def pitchYawRoll : String × String × String := ("pitch", "yaw", "roll")

/-! ## Trying a call -/

/-- Whole numbers as doubles. -/
instance : Double ℤ where
  ofNat n := n
  add x y := x + y
  sub x y := x - y
  mul x y := x * y
  div := Int.tdiv
  fmod := Int.tmod
  pow x y := x ^ y.toNat
  sqrt x := x.toNat.sqrt
  isZero x := x == 0
  toText := toString
  ofText text := text.toInt?.getD 0

/-- A call that gets no answers. -/
def Env.silent : Env ℤ where
  entIndex := 1
  ownerIndex := 2
  beyond _ := .undefined
  below _ := .nil
  uninit _ := 0
  property _ _ _ := .undefined
  value _ _ _ := .undefined
  ownNames _ := none
  atomName _ _ := none
  cString _ _ := none
  float _ _ := 0
  alloc _ := none
  contextFound := false
  bytecode := .exception
  compiled := .exception
  written := none
  result := .exception
  exceptionValue := .undefined
  luaTable _ _ _ := .nil
  luaCall _ := .nil

end JSChip.Native
