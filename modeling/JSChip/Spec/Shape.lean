import Mathlib.Algebra.Group.Nat.Defs
import Mathlib.Algebra.GroupWithZero.Nat
import Mathlib.Logic.Function.Basic

/-!
# Shapes

The properties of an object: names and flags are in its `JSShape`, values in the object. Objects with the
same names in the same order share a shape, as long as it is in the table of the runtime; a shape has a hash
table of its own, with its chains in the array of the properties.

* `addProperty`, `findOwnProperty`, `deleteProperty`, `jsUpdatePropertyFlags`.
* `findHashedShapeProto`, `findHashedShapeProp`: a shape that other objects have already.
* `jsShapePrepareUpdate`: a shape that no other object has.

A function answers `none` where an assertion fails, where it touches a shape or an object that is not there,
or an array outside of its bounds, and where a chain does not end. The counts of the atoms and of the values
are not here, and memory does not run out.
-/

namespace JSChip.Shapes

structure JSShapeProperty where
  /-- 26 bits; 0 if last in the chain. -/
  hashNext : ℕ
  flags : ℕ
  /-- `JS_ATOM_NULL` in a free entry. -/
  atom : ℕ
deriving DecidableEq, Repr

/-- `JS_ATOM_NULL` -/
def jsAtomNull : ℕ := 0

/-- `__JS_AtomIsTaggedInt` -/
def jsAtomIsTaggedInt (atom : ℕ) : Bool := atom.testBit 31

/-- `JS_PROP_CONFIGURABLE` is set. -/
def isConfigurable (flags : ℕ) : Bool := flags.testBit 0

/-- `JSShape`: `prop_count` is the length of `prop`, and `prop_hash_mask` the length of `propHash` less
one. -/
structure JSShape where
  refCount : ℕ
  isHashed : Bool
  hasSmallArrayIndex : Bool
  hash : ℕ
  propHash : List ℕ
  propSize : ℕ
  deletedPropCount : ℕ
  proto : Option ℕ
  prop : List JSShapeProperty
deriving DecidableEq, Repr

/-- `JSObject`: `prop` is as long as `prop_size` of the shape says. -/
structure JSObject (V : Type) where
  shape : ℕ
  prop : List V
deriving DecidableEq, Repr

structure JSRuntime (V : Type) where
  shapes : ℕ → Option JSShape
  objects : ℕ → Option (JSObject V)
  /-- Where the next shape is allocated. -/
  nextShape : ℕ
  /-- The objects on `gc_obj_list`. -/
  gcObjList : List ℕ
  shapeHashBits : ℕ
  shapeHashCount : ℕ
  /-- The chains of `shape_hash`. -/
  shapeHash : ℕ → List ℕ

variable {V : Type}

namespace JSRuntime

def setShape (rt : JSRuntime V) (n : ℕ) (sh : Option JSShape) : JSRuntime V :=
  { rt with shapes := Function.update rt.shapes n sh }

def setObject (rt : JSRuntime V) (o : ℕ) (p : Option (JSObject V)) : JSRuntime V :=
  { rt with objects := Function.update rt.objects o p }

/-- `js_malloc` of a shape. -/
def newShape (rt : JSRuntime V) (sh : JSShape) : JSRuntime V :=
  { rt.setShape rt.nextShape (some sh) with nextShape := rt.nextShape + 1 }

end JSRuntime

/-- `JS_NewRuntime` and `init_shape_hash`. -/
def jsNewRuntime : JSRuntime V where
  shapes _ := none
  objects _ := none
  nextShape := 0
  gcObjList := []
  shapeHashBits := 4
  shapeHashCount := 0
  shapeHash _ := []

/-! ## The table of the runtime -/

/-- `shape_hash` -/
def shapeHash (h val : ℕ) : ℕ := (h + val) * 0x9e370001 % 2 ^ 32

/-- `get_shape_hash` -/
def getShapeHash (h hashBits : ℕ) : ℕ := h >>> (32 - hashBits)

/-- `shape_initial_hash`: of the pointer to the prototype, which may be NULL. -/
def shapeInitialHash (proto : Option ℕ) : ℕ :=
  shapeHash (shapeHash 1 (proto.getD 0 % 2 ^ 32)) (proto.getD 0 / 2 ^ 32 % 2 ^ 32)

/-- `js_shape_hash_link` -/
def jsShapeHashLink (n : ℕ) (rt : JSRuntime V) : Option (JSRuntime V) := do
  let sh ← rt.shapes n
  let h := getShapeHash sh.hash rt.shapeHashBits
  some { rt with
    shapeHash := Function.update rt.shapeHash h (n :: rt.shapeHash h)
    shapeHashCount := rt.shapeHashCount + 1 }

/-- `js_shape_hash_unlink` -/
def jsShapeHashUnlink (n : ℕ) (rt : JSRuntime V) : Option (JSRuntime V) := do
  let sh ← rt.shapes n
  let h := getShapeHash sh.hash rt.shapeHashBits
  if n ∈ rt.shapeHash h then
    some { rt with
      shapeHash := Function.update rt.shapeHash h ((rt.shapeHash h).erase n)
      shapeHashCount := rt.shapeHashCount - 1 }
  else none

/-- A round of `resize_shape_hash`. -/
def rehashShape (rt : JSRuntime V) (newBits : ℕ) (table : ℕ → List ℕ) (n : ℕ) : Option (ℕ → List ℕ) := do
  let sh ← rt.shapes n
  let h := getShapeHash sh.hash newBits
  some (Function.update table h (n :: table h))

/-- `resize_shape_hash` -/
def resizeShapeHash (newBits : ℕ) (rt : JSRuntime V) : Option (JSRuntime V) := do
  let table ← ((List.range (2 ^ rt.shapeHashBits)).flatMap rt.shapeHash).foldlM
    (rehashShape rt newBits) fun _ => []
  some { rt with shapeHashBits := newBits, shapeHash := table }

/-- The first shape of the chain that passes the test. -/
def findShape (rt : JSRuntime V) (test : JSShape → Bool) : List ℕ → Option (Option ℕ)
  | [] => some none
  | n :: l =>
    match rt.shapes n with
    | some sh => if test sh then some (some n) else findShape rt test l
    | none => none

/-- `find_hashed_shape_proto` -/
def findHashedShapeProto (proto : Option ℕ) (rt : JSRuntime V) : Option (Option ℕ) :=
  let h := shapeInitialHash proto
  findShape rt (fun sh1 => sh1.hash = h ∧ sh1.proto = proto ∧ sh1.prop.length = 0)
    (rt.shapeHash (getShapeHash h rt.shapeHashBits))

def JSShapeProperty.name (pr : JSShapeProperty) : ℕ × ℕ := (pr.atom, pr.flags)

/-- `find_hashed_shape_prop` -/
def findHashedShapeProp (sh : JSShape) (atom propFlags : ℕ) (rt : JSRuntime V) : Option (Option ℕ) :=
  let h := shapeHash (shapeHash sh.hash atom) propFlags
  let n := sh.prop.length
  findShape rt
    (fun sh1 => sh1.hash = h ∧ sh1.proto = sh.proto ∧ sh1.prop.length = n + 1 ∧
      -- the properties that are there come first, in their order
      (sh1.prop.take n).map JSShapeProperty.name = sh.prop.map JSShapeProperty.name ∧
      sh1.prop[n]?.map JSShapeProperty.name = some (atom, propFlags))
    (rt.shapeHash (getShapeHash h rt.shapeHashBits))

/-! ## Shapes that come and go -/

/-- The first lines of `js_new_shape2`. -/
def growShapeHash (rt : JSRuntime V) : Option (JSRuntime V) :=
  if 2 * (rt.shapeHashCount + 1) > 2 ^ rt.shapeHashBits then resizeShapeHash (rt.shapeHashBits + 1) rt
  else some rt

/-- A shape without properties, with `JS_PROP_INITIAL_HASH_SIZE` and `JS_PROP_INITIAL_SIZE`. -/
def emptyShape (proto : Option ℕ) : JSShape where
  refCount := 1
  isHashed := true
  hasSmallArrayIndex := false
  hash := shapeInitialHash proto
  propHash := List.replicate 4 0
  propSize := 2
  deletedPropCount := 0
  proto := proto
  prop := []

/-- `js_new_shape` -/
def jsNewShape (proto : Option ℕ) (rt : JSRuntime V) : Option (ℕ × JSRuntime V) := do
  let rt ← growShapeHash rt
  let n := rt.nextShape
  let rt ← jsShapeHashLink n (rt.newShape (emptyShape proto))
  some (n, rt)

/-- `js_dup_shape` -/
def jsDupShape (n : ℕ) (rt : JSRuntime V) : Option (JSRuntime V) := do
  let sh ← rt.shapes n
  some (rt.setShape n (some { sh with refCount := sh.refCount + 1 }))

/-- The shape leaves the table, if it is there. -/
def unlinkHashed (n : ℕ) (sh : JSShape) (rt : JSRuntime V) : Option (JSRuntime V) :=
  if sh.isHashed then jsShapeHashUnlink n rt else some rt

/-- `js_free_shape` and `js_free_shape0`. -/
def jsFreeShape (n : ℕ) (rt : JSRuntime V) : Option (JSRuntime V) := do
  let sh ← rt.shapes n
  match sh.refCount with
  -- the assertion that a count is not taken below zero
  | 0 => none
  | 1 => do
    let rt ← unlinkHashed n sh rt
    some (rt.setShape n none)
  | k + 2 => some (rt.setShape n (some { sh with refCount := k + 1 }))

/-- `js_clone_shape` -/
def cloneShape (sh : JSShape) : JSShape := { sh with refCount := 1, isHashed := false }

/-! ## The hash table of a shape -/

/-- A property comes first in the chain of its atom: its entry is `i`. -/
def linkProperty (propHash : List ℕ) (i : ℕ) (pr : JSShapeProperty) : List ℕ × JSShapeProperty :=
  let h := pr.atom &&& (propHash.length - 1)
  (propHash.set h (i + 1), { pr with hashNext := propHash.getD h 0 % 2 ^ 26 })

/-- The loop of `resize_properties`, from entry `i` on. -/
def relinkProperties : (i : ℕ) → List JSShapeProperty → List ℕ → List ℕ × List JSShapeProperty
  | _, [], propHash => (propHash, [])
  | i, pr :: prop, propHash =>
    if pr.atom ≠ jsAtomNull then
      let linked := linkProperty propHash i pr
      let rest := relinkProperties (i + 1) prop linked.1
      (rest.1, linked.2 :: rest.2)
    else
      let rest := relinkProperties (i + 1) prop propHash
      (rest.1, pr :: rest.2)

/-- `while (new_hash_size < new_size) new_hash_size = 2 * new_hash_size` -/
def growHash : (fuel : ℕ) → (newHashSize newSize : ℕ) → ℕ
  | 0, newHashSize, _ => newHashSize
  | fuel + 1, newHashSize, newSize =>
    if newHashSize < newSize then growHash fuel (2 * newHashSize) newSize else newHashSize

/-- `while ((new_hash_size / 2) >= new_size) new_hash_size = new_hash_size / 2` -/
def shrinkHash : (fuel : ℕ) → (newHashSize newSize : ℕ) → ℕ
  | 0, newHashSize, _ => newHashSize
  | fuel + 1, newHashSize, newSize =>
    if newHashSize / 2 ≥ newSize then shrinkHash fuel (newHashSize / 2) newSize else newHashSize

/-- `js_realloc` of the values: what is new is not initialized. -/
def reallocProp [Inhabited V] (prop : List V) (size : ℕ) : List V :=
  (prop ++ List.replicate (size - prop.length) default).take size

/-- What `resize_properties` makes of the shape. -/
def resizedShape (sh : JSShape) (count : ℕ) : JSShape :=
  let newSize := max count (sh.propSize * 3 / 2)
  let newHashSize := growHash newSize sh.propHash.length newSize
  if newHashSize ≠ sh.propHash.length then
    let linked := relinkProperties 0 sh.prop (List.replicate newHashSize 0)
    { sh with propHash := linked.1, prop := linked.2, propSize := newSize }
  else { sh with propSize := newSize }

/-- `resize_properties` -/
def resizeProperties [Inhabited V] (o count : ℕ) (rt : JSRuntime V) : Option (JSRuntime V) := do
  let p ← rt.objects o
  let sh ← rt.shapes p.shape
  let sh' := resizedShape sh count
  let n := rt.nextShape
  -- the shape is allocated again: its pointer is another
  let rt := (rt.setShape p.shape none).newShape sh'
  some (rt.setObject o (some { shape := n, prop := reallocProp p.prop sh'.propSize }))

/-- The loop of `compact_properties`, from entry `i` on: a property and its value move to the end of those
that are kept. -/
def compactLoop : (i : ℕ) → List JSShapeProperty → (propHash : List ℕ) → (kept : List JSShapeProperty) →
    (values : List V) → Option (List ℕ × List JSShapeProperty × List V)
  | _, [], propHash, kept, values => some (propHash, kept, values)
  | i, pr :: prop, propHash, kept, values =>
    if pr.atom ≠ jsAtomNull then do
      let linked := linkProperty propHash kept.length pr
      let value ← values[i]?
      compactLoop (i + 1) prop linked.1 (kept ++ [linked.2]) (values.set kept.length value)
    else compactLoop (i + 1) prop propHash kept values

/-- `compact_properties` -/
def compactProperties [Inhabited V] (o : ℕ) (rt : JSRuntime V) : Option (JSRuntime V) := do
  let p ← rt.objects o
  let sh ← rt.shapes p.shape
  let newSize := max 2 (sh.prop.length - sh.deletedPropCount)
  if sh.isHashed ∨ sh.propSize < newSize then none
  else do
    let newHashSize := shrinkHash sh.propHash.length sh.propHash.length newSize
    let (propHash, kept, values) ← compactLoop 0 sh.prop (List.replicate newHashSize 0) [] p.prop
    -- the assertion after the loop
    if kept.length ≠ sh.prop.length - sh.deletedPropCount then none
    else
      let n := rt.nextShape
      let rt := (rt.setShape p.shape none).newShape
        { sh with propHash, propSize := newSize, deletedPropCount := 0, prop := kept }
      some (rt.setObject o (some { shape := n, prop := reallocProp values newSize }))

/-! ## Properties -/

/-- The loop of `find_own_property` and of `delete_property`: the entry with the atom, and the entry before
it in its chain. -/
def findLoop (prop : List JSShapeProperty) (atom : ℕ) :
    (fuel : ℕ) → (h : ℕ) → (lpr : Option ℕ) → Option (Option (ℕ × Option ℕ))
  | _, 0, _ => some none
  | 0, _ + 1, _ => none
  | fuel + 1, h + 1, lpr =>
    match prop[h]? with
    | some pr => if pr.atom = atom then some (some (h, lpr)) else findLoop prop atom fuel pr.hashNext (some h)
    | none => none

def JSShape.find (sh : JSShape) (atom : ℕ) : Option (Option (ℕ × Option ℕ)) := do
  let h ← sh.propHash[atom &&& (sh.propHash.length - 1)]?
  findLoop sh.prop atom sh.prop.length h none

/-- `find_own_property`: the flags and the value. -/
def findOwnProperty (o atom : ℕ) (rt : JSRuntime V) : Option (Option (ℕ × V)) := do
  let p ← rt.objects o
  let sh ← rt.shapes p.shape
  match ← sh.find atom with
  | some (i, _) => do
    let pr ← sh.prop[i]?
    let value ← p.prop[i]?
    some (some (pr.flags, value))
  | none => some none

/-- The end of `add_shape_property`, for a shape that has room. -/
def pushProperty (sh : JSShape) (atom propFlags : ℕ) : JSShape :=
  let linked := linkProperty sh.propHash sh.prop.length { hashNext := 0, flags := propFlags, atom }
  { sh with
    propHash := linked.1
    prop := sh.prop ++ [linked.2]
    hasSmallArrayIndex := sh.hasSmallArrayIndex || jsAtomIsTaggedInt atom }

/-- `resize_properties`, where it is called. -/
def ensureProperty [Inhabited V] (o : ℕ) (sh : JSShape) (rt : JSRuntime V) : Option (JSRuntime V) :=
  if sh.prop.length ≥ sh.propSize then resizeProperties o (sh.prop.length + 1) rt else some rt

/-- The shape is in the table again, with its new hash. -/
def relinkHashed (n : ℕ) (sh : JSShape) (hash : ℕ) (rt : JSRuntime V) : Option (JSRuntime V) :=
  if sh.isHashed then jsShapeHashLink n (rt.setShape n (some { sh with hash })) else some rt

/-- `add_shape_property` -/
def addShapeProperty [Inhabited V] (o atom propFlags : ℕ) (rt : JSRuntime V) : Option (JSRuntime V) := do
  let p ← rt.objects o
  let sh ← rt.shapes p.shape
  let newShapeHash := shapeHash (shapeHash sh.hash atom) propFlags
  -- the table finds the shape by its old hash, so it leaves it until it has the new one
  let rt ← unlinkHashed p.shape sh rt
  let rt ← ensureProperty o sh rt
  -- `resize_properties` may have moved the shape
  let p ← rt.objects o
  let sh ← rt.shapes p.shape
  let rt ← relinkHashed p.shape sh newShapeHash rt
  let sh ← rt.shapes p.shape
  some (rt.setShape p.shape (some (pushProperty sh atom propFlags)))

/-- The property is in a shape that other objects have. -/
def useShape [Inhabited V] (o n : ℕ) (rt : JSRuntime V) : Option (JSRuntime V) := do
  let p ← rt.objects o
  let sh ← rt.shapes p.shape
  let newSh ← rt.shapes n
  -- the values get the room that the new shape says
  let prop := if newSh.propSize ≠ sh.propSize then reallocProp p.prop newSh.propSize else p.prop
  let rt ← jsDupShape n (rt.setObject o (some { shape := n, prop }))
  jsFreeShape p.shape rt

/-- A copy of the shape, for the object alone. -/
def ownShape (o : ℕ) (rt : JSRuntime V) : Option (JSRuntime V) := do
  let p ← rt.objects o
  let sh ← rt.shapes p.shape
  let n := rt.nextShape
  let rt ← jsFreeShape p.shape (rt.newShape (cloneShape sh))
  some (rt.setObject o (some { p with shape := n }))

/-- `js_clone_shape` in `add_property`, which hashes the clone. -/
def ownHashedShape (o : ℕ) (rt : JSRuntime V) : Option (JSRuntime V) := do
  let p ← rt.objects o
  let sh ← rt.shapes p.shape
  let n := rt.nextShape
  -- the clone is in the table before the old shape is given up
  let rt ← jsShapeHashLink n (rt.newShape { cloneShape sh with isHashed := true })
  let rt ← jsFreeShape p.shape rt
  some (rt.setObject o (some { p with shape := n }))

/-- The end of `add_property`, with its assertion. -/
def addOwnProperty [Inhabited V] (o atom propFlags : ℕ) (rt : JSRuntime V) : Option (JSRuntime V) := do
  let p ← rt.objects o
  let sh ← rt.shapes p.shape
  if sh.refCount ≠ 1 then none else addShapeProperty o atom propFlags rt

/-- `add_property`, up to the value. -/
def addProperty [Inhabited V] (o atom propFlags : ℕ) (rt : JSRuntime V) : Option (JSRuntime V) := do
  let p ← rt.objects o
  let sh ← rt.shapes p.shape
  if sh.isHashed then
    match ← findHashedShapeProp sh atom propFlags rt with
    | some n => useShape o n rt
    | none =>
      -- other objects go on with the shape as it is
      if sh.refCount ≠ 1 then do
        let rt ← ownHashedShape o rt
        addOwnProperty o atom propFlags rt
      else addOwnProperty o atom propFlags rt
  else addOwnProperty o atom propFlags rt

/-- `p->prop[i].u.value = value` -/
def setValue (o i : ℕ) (value : V) (rt : JSRuntime V) : Option (JSRuntime V) := do
  let p ← rt.objects o
  if i < p.prop.length then some (rt.setObject o (some { p with prop := p.prop.set i value })) else none

/-- A new property with its value, as the callers of `add_property` write it: it is the last one. -/
def addPropertyValue [Inhabited V] (o atom propFlags : ℕ) (value : V) (rt : JSRuntime V) :
    Option (JSRuntime V) := do
  let rt ← addProperty o atom propFlags rt
  let p ← rt.objects o
  let sh ← rt.shapes p.shape
  setValue o (sh.prop.length - 1) value rt

/-- `js_shape_prepare_update` -/
def jsShapePrepareUpdate (o : ℕ) (rt : JSRuntime V) : Option (JSRuntime V) := do
  let p ← rt.objects o
  let sh ← rt.shapes p.shape
  if sh.isHashed then
    -- a shape that is to change may have no other object, and is not to be found by one
    if sh.refCount ≠ 1 then ownShape o rt
    else do
      let rt ← jsShapeHashUnlink p.shape rt
      some (rt.setShape p.shape (some { sh with isHashed := false }))
  else some rt

/-- Entry `i` is removed from its chain, and is free. -/
def removeEntry (sh : JSShape) (h1 i : ℕ) (lpr : Option ℕ) : Option JSShape := do
  let pr ← sh.prop[i]?
  let free : JSShapeProperty := { pr with flags := 0, atom := jsAtomNull }
  match lpr with
  | some j => do
    let prev ← sh.prop[j]?
    some { sh with
      prop := (sh.prop.set j { prev with hashNext := pr.hashNext }).set i free
      deletedPropCount := sh.deletedPropCount + 1 }
  | none =>
    some { sh with
      propHash := sh.propHash.set h1 pr.hashNext
      prop := sh.prop.set i free
      deletedPropCount := sh.deletedPropCount + 1 }

/-- The end of `delete_property`. -/
def compactIfNeeded [Inhabited V] (o : ℕ) (sh : JSShape) (rt : JSRuntime V) : Option (JSRuntime V) :=
  if sh.deletedPropCount ≥ 8 ∧ sh.deletedPropCount ≥ sh.prop.length / 2 then compactProperties o rt
  else some rt

/-- `delete_property`, of an object that is not exotic: whether the property is deleted, if there is
one. -/
def deleteProperty [Inhabited V] (o atom : ℕ) (rt : JSRuntime V) : Option (Option Bool × JSRuntime V) := do
  let p ← rt.objects o
  let sh ← rt.shapes p.shape
  match ← sh.find atom with
  | some (i, lpr) => do
    let pr ← sh.prop[i]?
    if !isConfigurable pr.flags then some (some false, rt)
    else do
      let rt ← jsShapePrepareUpdate o rt
      -- the shape may be a clone by now, but the entry has the same index
      let p ← rt.objects o
      let sh ← rt.shapes p.shape
      let sh ← removeEntry sh (atom &&& (sh.propHash.length - 1)) i lpr
      let rt ← setValue o i default (rt.setShape p.shape (some sh))
      let rt ← compactIfNeeded o sh rt
      some (some true, rt)
  | none => some (none, rt)

/-- `js_update_property_flags`, of entry `i`. -/
def jsUpdatePropertyFlags (o i flags : ℕ) (rt : JSRuntime V) : Option (JSRuntime V) := do
  let p ← rt.objects o
  let sh ← rt.shapes p.shape
  let pr ← sh.prop[i]?
  if flags ≠ pr.flags then do
    let rt ← jsShapePrepareUpdate o rt
    let p ← rt.objects o
    let sh ← rt.shapes p.shape
    let pr ← sh.prop[i]?
    some (rt.setShape p.shape (some { sh with prop := sh.prop.set i { pr with flags } }))
  else some rt

/-! ## Objects -/

/-- The shape of a new object. -/
def shapeForProto (proto : Option ℕ) (rt : JSRuntime V) : Option (ℕ × JSRuntime V) := do
  match ← findHashedShapeProto proto rt with
  | some n => do
    let rt ← jsDupShape n rt
    some (n, rt)
  | none => jsNewShape proto rt

/-- `JS_NewObjectProtoClass` and `JS_NewObjectFromShape`, of `JS_CLASS_OBJECT`; `js_malloc` gives `o`. -/
def jsNewObject [Inhabited V] (o : ℕ) (proto : Option ℕ) (rt : JSRuntime V) : Option (JSRuntime V) := do
  let (n, rt) ← shapeForProto proto rt
  let sh ← rt.shapes n
  let rt := rt.setObject o (some { shape := n, prop := List.replicate sh.propSize default })
  some { rt with gcObjList := rt.gcObjList ++ [o] }

/-- The end of `JS_SetPrototypeInternal`. -/
def jsSetPrototype (o : ℕ) (proto : Option ℕ) (rt : JSRuntime V) : Option (JSRuntime V) := do
  let rt ← jsShapePrepareUpdate o rt
  let p ← rt.objects o
  let sh ← rt.shapes p.shape
  some (rt.setShape p.shape (some { sh with proto }))

/-- `free_object` -/
def freeObject (o : ℕ) (rt : JSRuntime V) : Option (JSRuntime V) := do
  let p ← rt.objects o
  let rt ← jsFreeShape p.shape rt
  some { rt.setObject o none with gcObjList := rt.gcObjList.erase o }

end JSChip.Shapes
