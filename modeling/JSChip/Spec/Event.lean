import JSChip.Spec.Host

/-!
# What the arguments of an event should become

`convert` says what each Lua value is for a script, and `IsIn` when an argument that the callback
gets is that. Tables and entities are looked up in a `World`, which answers the same whenever it is
asked.
-/

namespace JSChip.Native

variable {R : Type} [Double R]

/-- The fields of the tables, and the indices of the entities. -/
structure World (R : Type) where
  field : ℕ → String → LuaValue R
  entIndex : ℕ → R

/-- What a script can see of a value. -/
inductive EventValue (R : Type)
  | null
  | bool (b : Bool)
  | number (x : R)
  | string (text : String)
  | object (properties : List (String × R))

/-- The table has the numbers `r`, `g` and `b`. -/
def World.isColor (w : World R) (id : ℕ) : Bool :=
  (w.field id "r").isNumber && (w.field id "g").isNumber && (w.field id "b").isNumber

/-- Its `a`, or 255. -/
def World.alpha (w : World R) (id : ℕ) : R :=
  if (w.field id "a").isNumber then (w.field id "a").toNumber else Double.ofNat 255

/-- **What an argument should become.** -/
def convert (w : World R) : LuaValue R → EventValue R
  | .bool b => .bool b
  | .number x => .number x
  | .string text => .string text
  | .table id =>
    if w.isColor id then
      .object [("r", (w.field id "r").toNumber), ("g", (w.field id "g").toNumber),
        ("b", (w.field id "b").toNumber), ("a", w.alpha id)]
    else .null
  | .entity id => if Double.isZero (w.entIndex id) then .null else .number (w.entIndex id)
  | .vector x y z => .object [("x", x), ("y", y), ("z", z)]
  | .angle x y z => .object [("pitch", x), ("yaw", y), ("roll", z)]
  | _ => .null

/-- What has been set on an object. -/
def propertiesOf (sets : List (PropertySet R)) (id : ℕ) : List (String × JSValue R) :=
  sets.filterMap fun p => match p.object with
    | .object k _ => if k = id then some (p.name, p.value) else none
    | _ => none

/-- The argument of the callback is the value. An object has the properties and no others. -/
def EventValue.IsIn (sets : List (PropertySet R)) (v : JSValue R) : EventValue R → Prop
  | null => v = .null
  | bool b => v = .bool b
  | number x => v = .number x
  | string text => ∃ id, v = .string id text
  | object properties => ∃ id, v = .object id false ∧
      propertiesOf sets id = properties.map fun p => (p.1, .number p.2)

/-! ## What is taken for granted -/

def LuaValue.isEntity : LuaValue R → Bool
  | entity _ => true
  | _ => false

/-- Strings have no zero bytes, tables have their fields, entities have their indices, and new
objects are different from each other. -/
structure Behaves (e : Env R) (w : World R) (as : List (LuaValue R)) : Prop where
  text : ∀ text, .string text ∈ as → '\x00' ∉ text.toList
  field : ∀ k id name, e.luaTable k (.table id) (.string name) = w.field id name
  entIndex : ∀ k id, (as.filter LuaValue.isEntity)[k]? = some (.entity id) →
    e.luaCall k = .number (w.entIndex id)
  fresh : ∀ k l id, e.alloc k = some id → e.alloc l = some id → k = l

end JSChip.Native
