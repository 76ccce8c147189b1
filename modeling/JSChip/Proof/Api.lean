import Mathlib.Algebra.Order.Monoid.Canonical.Defs
import Mathlib.Data.Multiset.Basic
import Mathlib.Data.Nat.SuccPred
import JSChip.Spec.Api

/-!
# The rules of the operations

What each operation of a native function does, as an equation of its weakest precondition.
Simplifying with them runs a native function symbolically: the Lua stack above the entry stays
a list of known length, and what is left are the answers of the engines.

* `wp_pushEntity`, `wp_callMethod`, `wp_construct`: the Lua calls that native functions share.
* `wp_getProperties`, `wp_newTriple`: three properties, read and set.
-/

namespace JSChip.Native

open Machine

variable {R : Type} {e : Env R} {s : State R} {E : Fault → Prop}

/-! ## The Lua stack -/

section Lua

variable {Q : Unit → State R → Prop}

@[simp] theorem wp_look (i : ℤ) {Q : LuaValue R → State R → Prop} :
    wp (look i) e Q E s ↔ Q ((s.slot i).getD (e.below (-i).toNat))
      { s with underflow := s.underflow || (s.slot i).isNone } := Iff.rfl

@[simp] theorem wp_push (v : LuaValue R) :
    wp (push v) e Q E s ↔ Q () { s with stack := v :: s.stack } := Iff.rfl

@[simp] theorem wp_pushGlobals :
    wp pushGlobals e Q E s ↔ Q () { s with stack := .globals :: s.stack } := Iff.rfl

@[simp] theorem wp_pushNil :
    wp pushNil e Q E s ↔ Q () { s with stack := .nil :: s.stack } := Iff.rfl

@[simp] theorem wp_pushNumber (x : R) :
    wp (pushNumber x) e Q E s ↔ Q () { s with stack := .number x :: s.stack } := Iff.rfl

/-- What `PushString` pushes. -/
def luaString : Option String → LuaValue R
  | some text => .string text
  | none => .nil

@[simp] theorem wp_pushString (text : Option String) :
    wp (pushString text) e Q E s ↔ Q () { s with
      stack := luaString text :: s.stack
      nullPushed := s.nullPushed || text.isNone } := by
  cases text <;> simp [pushString, luaString]

@[simp] theorem wp_pushSlot (i : ℤ) :
    wp (pushSlot i) e Q E s ↔ wp (look i) e (fun v s => wp (push v) e Q E s) E s := by
  rw [pushSlot, wp_bind]

@[simp] theorem wp_pop (n : ℕ) :
    wp (pop n) e Q E s ↔ Q () { s with
      stack := s.stack.drop n
      underflow := s.underflow || decide (s.stack.length < n) } := Iff.rfl

@[simp] theorem wp_getField (i : ℤ) (name : String) :
    wp (getField i name) e Q E s ↔
      wp (look i) e (fun v s => wp (push (.member v name)) e Q E s) E s := by
  rw [getField, wp_bind]

@[simp] theorem wp_getMetaTable (i : ℤ) :
    wp (getMetaTable i) e Q E s ↔
      wp (look i) e (fun v s => wp (push (.member v "__metatable")) e Q E s) E s := by
  rw [getMetaTable, wp_bind]

@[simp] theorem wp_getTable (i : ℤ) :
    wp (getTable i) e Q E s ↔
      wp (look i) e (fun table s => wp (look (-1)) e (fun key s => wp (pop 1) e (fun _ s =>
        Q () { s with
          stack := e.luaTable s.luaTables table key :: s.stack
          luaTables := s.luaTables + 1 }) E s) E s) E s :=
  Iff.rfl

@[simp] theorem wp_createTable :
    wp createTable e Q E s ↔
      Q () { s with stack := .table s.tables :: s.stack, tables := s.tables + 1 } := Iff.rfl

@[simp] theorem wp_setField (i : ℤ) (name : String) :
    wp (setField i name) e Q E s ↔
      wp (look i) e (fun table s => wp (look (-1)) e (fun value s => wp (pop 1) e (fun _ s =>
        Q () { s with fieldSets := s.fieldSets ++ [⟨table, name, value⟩] }) E s) E s) E s :=
  Iff.rfl

@[simp] theorem wp_call (n r : ℕ) :
    wp (call n r) e Q E s ↔ Q () { s with
      stack := (if r = 0 then [] else [e.luaCall s.luaCalls.length]) ++ s.stack.drop (n + 1)
      underflow := s.underflow || decide (s.stack.length < n + 1)
      luaCalls := s.luaCalls ++ [⟨s.stack.getD n (e.below 1), (s.stack.take n).reverse⟩] } :=
  Iff.rfl

@[simp] theorem wp_getBool (i : ℤ) {Q : Bool → State R → Prop} :
    wp (getBool i) e Q E s ↔ wp (look i) e (fun v s => Q v.toBool s) E s := wp_map _ _

variable [Double R]

@[simp] theorem wp_getNumber (i : ℤ) {Q : R → State R → Prop} :
    wp (getNumber i) e Q E s ↔ wp (look i) e (fun v s => Q v.toNumber s) E s := wp_map _ _

@[simp] theorem wp_getString (i : ℤ) {Q : Option String → State R → Prop} :
    wp (getString i) e Q E s ↔ wp (look i) e (fun v s => Q v.toText s) E s := wp_map _ _

@[simp] theorem wp_getVector (i : ℤ) {Q : R × R × R → State R → Prop} :
    wp (getVector i) e Q E s ↔ wp (look i) e (fun v s => Q v.toVector s) E s := wp_map _ _

@[simp] theorem wp_getAngle (i : ℤ) {Q : R × R × R → State R → Prop} :
    wp (getAngle i) e Q E s ↔ wp (look i) e (fun v s => Q v.toAngle s) E s := wp_map _ _

end Lua

/-! ## References -/

section References

variable {Q : Unit → State R → Prop}

@[simp] theorem wp_acquire (rs : Multiset Ref) :
    wp (acquire rs) e Q E s ↔ Q () { s with held := s.held + rs } := Iff.rfl

/-- Releasing what is owned. -/
theorem wp_release {rs : Multiset Ref} (h : rs ≤ s.held) :
    wp (release rs) e Q E s ↔ Q () { s with held := s.held - rs } := by
  simp [release, h]

@[simp] theorem wp_release_zero : wp (release 0) e Q E s ↔ Q () s := by
  rw [wp_release (Multiset.zero_le _), Multiset.sub_zero]

/-- Releasing a part of what is owned. -/
theorem wp_release_of_eq {rs k : Multiset Ref} (h : s.held = k + rs) :
    wp (release rs) e Q E s ↔ Q () { s with held := k } := by
  rw [wp_release (h ▸ Multiset.le_add_left _ _), h, Multiset.add_sub_cancel_right]

@[simp] theorem wp_freeValue (v : JSValue R) :
    wp (freeValue v) e Q E s ↔ wp (release v.refs) e Q E s := Iff.rfl

@[simp] theorem wp_freeCString (c : Option CString) :
    wp (freeCString c) e Q E s ↔ wp (release (cStringRefs c)) e Q E s := Iff.rfl

@[simp] theorem wp_freeAtom (atom : ℕ) :
    wp (freeAtom atom) e Q E s ↔ wp (release {.atom atom}) e Q E s := Iff.rfl

@[simp] theorem wp_dupValue (v : JSValue R) {Q : JSValue R → State R → Prop} :
    wp (dupValue v) e Q E s ↔ Q v { s with held := s.held + v.refs } := Iff.rfl

end References

/-! ## The functions of QuickJS -/

section QuickJS

variable {Q : JSValue R → State R → Prop}

@[simp] theorem wp_arg (argv : List (JSValue R)) (k : ℕ) :
    wp (arg argv k) e Q E s ↔ Q (argument e argv k)
      { s with pastArgs := s.pastArgs || decide (max argv.length 1 ≤ k) } := Iff.rfl

@[simp] theorem wp_throwTypeError (message : String) :
    wp (throwTypeError message) e Q E s ↔
      Q .exception { s with thrown := some (.typeError, message) } := Iff.rfl

@[simp] theorem wp_throwInternalError (message : String) :
    wp (throwInternalError message) e Q E s ↔
      Q .exception { s with thrown := some (.internalError, message) } := Iff.rfl

@[simp] theorem wp_getPropertyStr (v : JSValue R) (name : String) :
    wp (getPropertyStr v name) e Q E s ↔ Q (e.property s.properties v name)
      { s with
        properties := s.properties + 1
        held := s.held + (e.property s.properties v name).refs } := Iff.rfl

@[simp] theorem wp_getProperty (v : JSValue R) (atom : ℕ) :
    wp (getProperty v atom) e Q E s ↔ Q (e.value s.values v atom)
      { s with
        values := s.values + 1
        held := s.held + (e.value s.values v atom).refs } := Iff.rfl

@[simp] theorem wp_getOwnPropertyNames (v : JSValue R) {Q : Option (List ℕ) → State R → Prop} :
    wp (getOwnPropertyNames v) e Q E s ↔ Q (e.ownNames v)
      { s with held := s.held + (((e.ownNames v).getD []).map Ref.atom : List Ref) } := Iff.rfl

@[simp] theorem wp_atomToCString (atom : ℕ) {Q : Option CString → State R → Prop} :
    wp (atomToCString atom) e Q E s ↔ Q (e.atomName s.atomNames atom)
      { s with
        atomNames := s.atomNames + 1
        held := s.held + cStringRefs (e.atomName s.atomNames atom) } := Iff.rfl

@[simp] theorem wp_toCString (v : JSValue R) {Q : Option CString → State R → Prop} :
    wp (toCString v) e Q E s ↔ Q (e.cString s.cStrings v)
      { s with
        cStrings := s.cStrings + 1
        unconverted := s.unconverted || (e.cString s.cStrings v).isNone
        held := s.held + cStringRefs (e.cString s.cStrings v) } := Iff.rfl

@[simp] theorem wp_readString {α : Type} (text : α → String) (c : Option α)
    {Q : String → State R → Prop} :
    wp (readString text c) e Q E s ↔
      (∀ x, c = some x → Q (text x) s) ∧ (c = none → E .nullString) := by
  cases c <;> simp [readString]

@[simp] theorem wp_toFloat64 (v : JSValue R) {Q : R → State R → Prop} :
    wp (toFloat64 v) e Q E s ↔ Q (v.toFloat e s.floats)
      { s with floats := s.floats + if v.isNumber then 0 else 1 } := Iff.rfl

/-- What `JS_NewObject` answers. -/
def created (e : Env R) (k : ℕ) (make : ℕ → JSValue R) : JSValue R :=
  ((e.alloc k).map make).getD .exception

@[simp] theorem wp_allocate (make : ℕ → JSValue R) :
    wp (allocate make) e Q E s ↔ Q (created e s.allocs make)
      { s with
        allocs := s.allocs + 1
        held := s.held + (created e s.allocs make).refs } := Iff.rfl

@[simp] theorem wp_newObject :
    wp newObject e Q E s ↔ wp (allocate fun id => .object id false) e Q E s := Iff.rfl

@[simp] theorem wp_newString (text : Option String) :
    wp (newString text) e Q E s ↔
      wp (readString id text) e (fun text s =>
        wp (allocate fun id => .string id text) e Q E s) E s := by
  rw [newString, wp_bind]

/-- Setting a number, which hands nothing over. -/
@[simp] theorem wp_setPropertyStr_number (v : JSValue R) (name : String) (x : R)
    {Q : Unit → State R → Prop} :
    wp (setPropertyStr v name (.number x)) e Q E s ↔
      Q () { s with sets := s.sets ++ [⟨v, name, .number x⟩] } := by
  rw [setPropertyStr, wp_bind, JSValue.refs_number, wp_release_zero]
  rfl

end QuickJS

/-! ## Common parts -/

@[simp] theorem wp_pushEntity (x : R) {Q : Unit → State R → Prop} :
    wp (pushEntity x) e Q E s ↔ Q () { s with
      stack := e.luaCall s.luaCalls.length :: .globals :: s.stack
      luaCalls := s.luaCalls ++ [⟨.member .globals "Entity", [.number x]⟩] } := by
  simp [pushEntity, State.slot]

@[simp] theorem wp_callMethod (i j : ℤ) (name : String) {Q : Unit → State R → Prop} :
    wp (callMethod i name j) e Q E s ↔
      wp (look i) e (fun v s => wp (push (.member v name)) e (fun _ s => wp (look j) e (fun w s =>
        Q () { s with
          stack := e.luaCall s.luaCalls.length :: s.stack.drop 1
          luaCalls := s.luaCalls ++ [⟨s.stack.getD 0 (e.below 1), [w]⟩] }) E s) E s) E s := by
  simp [callMethod]

@[simp] theorem wp_getProperties (v : JSValue R) (names : String × String × String)
    {Q : JSValue R × JSValue R × JSValue R → State R → Prop} :
    wp (getProperties v names) e Q E s ↔
      Q (e.property s.properties v names.1, e.property (s.properties + 1) v names.2.1,
          e.property (s.properties + 2) v names.2.2)
        { s with
          properties := s.properties + 3
          held := s.held + (e.property s.properties v names.1).refs +
            (e.property (s.properties + 1) v names.2.1).refs +
            (e.property (s.properties + 2) v names.2.2).refs } := by
  simp [getProperties]

@[simp] theorem wp_newTriple (names : String × String × String) (x : R × R × R)
    {Q : JSValue R → State R → Prop} :
    wp (newTriple names x) e Q E s ↔
      Q (created e s.allocs fun id => .object id false)
        { s with
          allocs := s.allocs + 1
          held := s.held + (created e s.allocs fun id => .object id false).refs
          sets := s.sets ++
            [⟨created e s.allocs fun id => .object id false, names.1, .number x.1⟩,
              ⟨created e s.allocs fun id => .object id false, names.2.1, .number x.2.1⟩,
              ⟨created e s.allocs fun id => .object id false, names.2.2, .number x.2.2⟩] } := by
  simp [newTriple]

end JSChip.Native
