import JSChip.Spec.Ports
import JSChip.Proof.Native
import JSChip.Proof.Host

/-!
# Do values survive the wire?

`outputs_trigger` makes a Lua value of a value of the script, and `lua_emit_event` a value of the
script of a Lua value.

* `Arrives`: the listener at the other end is called with the name of the input and a value that
  is the one that was sent.
* `arrives_iff`: **a value arrives exactly when the receiving context has memory for it and it is
  no colour**, or a colour that happens to be what the decoder makes of every colour.
* `color_lost`: a colour does not arrive.
-/

namespace JSChip.Native

open Machine

variable {R : Type} [Double R] {e : Env R} {s : State R} {listeners : ListenerTable (JSValue R)}
  {callback : JSValue R} {iname : String} {ctx : R} {w : LuaValue R}

/-! ## The receiving end -/

/-- The object that is created after the name of the input. -/
def secondObject (e : Env R) : JSValue R := created e 1 fun id => .object id false

/-- A new object with three numbers. -/
def tripleSets (e : Env R) (names : String × String × String) (x y z : R) : List (PropertySet R) :=
  [⟨secondObject e, names.1, .number x⟩, ⟨secondObject e, names.2.1, .number y⟩,
    ⟨secondObject e, names.2.2, .number z⟩]

/-- The state in which the value is converted: the name of the input is a string already. -/
def nameConverted (e : Env R) (listeners : ListenerTable (JSValue R)) (ctx : R) (iname : String)
    (w : LuaValue R) : State R :=
  { State.entry listeners (triggerInputArgs ctx iname w) with
    allocs := 1, held := 0 + (created e 0 fun id => .string id iname).refs }

/-- What the listener gets for a value on a wire, and the properties set on it. -/
def received (e : Env R) (s : State R) : LuaValue R → JSValue R × List (PropertySet R)
  | .bool b => (.bool b, [])
  | .number x => (.number x, [])
  | .string text => (created e 1 fun id => .string id text, [])
  | .table id =>
    if hasColor e 0 (.table id) then (secondObject e, colorSets e s (.table id)) else (.null, [])
  | .entity _ =>
    (if Double.isZero (e.luaCall 0).toNumber then .null else .number (e.luaCall 0).toNumber, [])
  | .vector x y z => (secondObject e, tripleSets e xyz x y z)
  | .angle x y z => (secondObject e, tripleSets e pitchYawRoll x y z)
  | _ => (.null, [])

theorem convertArg_received (e : Env R) (listeners : ListenerTable (JSValue R)) (ctx : R)
    (iname : String) (w : LuaValue R) (s : State R)
    (hs : s = nameConverted e listeners ctx iname w) :
    wp (convertArg 4) e (fun v t => ArgsConverted s [v] t ∧ (v, t.sets) = received e s w)
      (fun _ => False) s := by
  have hslot : s.slot 4 = some w := by rw [hs]; rfl
  rw [convertArg, wp_bind, wp_look, hslot]
  cases w with
  | table id =>
    have ht : s.args[(4 : ℤ).toNat - 1]?.getD (e.below (-4 : ℤ).toNat) = .table id := by
      rw [hs]; rfl
    refine wp_mono ?_ (fun _ h => h) (convertTable_spec (by omega) ht)
    rintro v t ⟨hconv, hv⟩
    refine ⟨⟨hconv.held, hconv.listeners, hconv.cStrings, hconv.nullPushed, hconv.jsCalls⟩, ?_⟩
    subst hs
    have hv' : if hasColor e 0 (.table id) then v = secondObject e ∧
        t.sets = colorSets e (nameConverted e listeners ctx iname (.table id)) (.table id)
      else v = .null ∧ t.sets = [] := hv
    simp only [received]
    cases hc : hasColor e 0 (.table id) with
    | true =>
      rw [if_pos hc] at hv'
      rw [if_pos rfl, hv'.1, hv'.2]
    | false =>
      rw [if_neg (by simp [hc])] at hv'
      rw [if_neg (by simp), hv'.1, hv'.2]
  | entity id =>
    subst hs
    simp only [Option.getD_some, convertEntity, wp_bind, wp_getMetaTable, wp_getField, wp_pushSlot,
      wp_look, wp_push, wp_call, wp_getNumber, wp_pop, wp_pure]
    refine ⟨?_, rfl⟩
    constructor <;> simp [apply_ite]
  | string text =>
    subst hs
    simp only [Option.getD_some, wp_newString, wp_readString, Option.some.injEq, forall_eq', id_eq,
      wp_allocate, reduceCtorEq, false_implies, and_true]
    refine ⟨?_, rfl⟩
    constructor <;> simp
  | vector x y z =>
    subst hs
    simp only [Option.getD_some, wp_newTriple]
    refine ⟨?_, rfl⟩
    constructor <;> simp
  | angle x y z =>
    subst hs
    simp only [Option.getD_some, wp_newTriple]
    refine ⟨?_, rfl⟩
    constructor <;> simp
  | nil | bool | number | globals | member | other =>
    subst hs
    simp only [Option.getD_some, wp_pure]
    refine ⟨?_, rfl⟩
    constructor <;> simp

/-- **What the listener of the event "input" gets.** -/
theorem triggerInput_returns (hfound : e.contextFound)
    (hlookup : listeners.lookup "input" = some callback) :
    wp triggerInput e
      (fun _ t => ∃ v, (v, t.sets) = received e (nameConverted e listeners ctx iname w) w ∧
        t.jsCalls = [(callback, [created e 0 fun id => .string id iname, v])])
      (fun _ => False) (State.entry listeners (triggerInputArgs ctx iname w)) := by
  have hargs : (List.range 2).map (· + 3) = [3, 4] := rfl
  have hname : State.slot (State.entry listeners (triggerInputArgs ctx iname w)) ((3 : ℕ) : ℤ) =
      some (.string iname) := rfl
  rw [triggerInput, luaEmitEvent, wp_bind, wp_read]
  simp only [hfound, Bool.not_true, Bool.false_eq_true, if_false, wp_bind, wp_get,
    show (State.entry listeners (triggerInputArgs ctx iname w)).listeners = listeners from rfl,
    hlookup, hargs, convertArgs]
  rw [convertArg, wp_bind, wp_look, hname]
  simp only [Option.getD_some, wp_newString, wp_readString, Option.some.injEq, forall_eq', id_eq,
    wp_allocate, reduceCtorEq, false_implies, and_true]
  refine wp_mono ?_ (fun _ h => h) (convertArg_received e listeners ctx iname w _ rfl)
  rintro v t ⟨hconv, hv⟩
  simp only [wp_pure, wp_modify, wp_acquire, wp_pushResult]
  rw [wp_freeValues (k := e.result.refs)]
  · refine ⟨v, hv, ?_⟩
    simp [hconv.jsCalls, State.entry]
  · rw [hconv.held]
    simp [State.entry, add_comm, add_left_comm]

/-! ## Both ends -/

/-- `v` is an object with these fields and no others. -/
def HasFields (v : JSValue R) (sets : List (PropertySet R)) (fields : List (String × R)) : Prop :=
  (∃ id, v = .object id false) ∧ sets = fields.map fun f => ⟨v, f.1, .number f.2⟩

/-- The three components of a value of the script. -/
def components (e : Env R) (v : JSValue R) (names : String × String × String) : List (String × R) :=
  [(names.1, (e.property 0 v names.1).toFloat e 0),
    (names.2.1, (e.property 1 v names.2.1).toFloat e 0),
    (names.2.2, (e.property 2 v names.2.2).toFloat e 0)]

/-- The alpha of a colour, 255 when it is not a number. -/
def alpha (e : Env R) (v : JSValue R) : R :=
  if (e.property 3 v "a").isNumber then (e.property 3 v "a").toFloat e 0 else Double.ofNat 255

/-- **The value `u` is the one that was sent**, `v`, as far as an output of the type carries it. -/
def SameValue (e : Env R) (outputType : String) (v u : JSValue R) (sets : List (PropertySet R)) :
    Prop :=
  if outputType = "VECTOR" then HasFields u sets (components e v xyz)
  else if outputType = "ANGLE" then HasFields u sets (components e v pitchYawRoll)
  else if outputType = "COLOR" then
    HasFields u sets (components e v ("r", "g", "b") ++ [("a", alpha e v)])
  else if outputType = "STRING" then ∃ id id' text, v = .string id text ∧ u = .string id' text
  else u = v

/-- A wire from an output to an input: a call of `outputs_trigger` with what it finds, the name and
the type of the output, and the call of `lua_emit_event` at the other end with what that finds. -/
structure Wire (R : Type) where
  argv : List (JSValue R)
  sender : Env R
  outputType : String
  senderListeners : ListenerTable (JSValue R)
  iname : String
  ctx : R
  receiver : Env R
  listeners : ListenerTable (JSValue R)
  callback : JSValue R

namespace Wire

/-- The value that is sent. -/
def sent (l : Wire R) : JSValue R := argument l.sender l.argv 1

/-- `Outputs.Trigger` takes the value, and the chip at the other end listens. -/
structure Live (l : Wire R) : Prop where
  arity : 2 ≤ l.argv.length
  name : (argument l.sender l.argv 0).isString
  valid : (l.sender.luaCall 1).toBool
  type : (l.sender.luaCall 2).toText = some l.outputType
  accepts : acceptsOutput l.sender l.outputType l.sent
  found : l.receiver.contextFound
  listens : l.listeners.lookup "input" = some l.callback

/-- What is assumed of Lua: constructors pass on components, a colour is a table with the fields
`r`, `g`, `b` and `a`, and the index of an entity is the one it was made from, which is not 0. A
string of the script has a C string with the same text. -/
structure Lua (l : Wire R) : Prop where
  vector : l.outputType = "VECTOR" → l.sender.luaCall 3 =
    .vector ((l.sender.property 0 l.sent "x").toFloat l.sender 0)
      ((l.sender.property 1 l.sent "y").toFloat l.sender 0)
      ((l.sender.property 2 l.sent "z").toFloat l.sender 0)
  angle : l.outputType = "ANGLE" → l.sender.luaCall 3 =
    .angle ((l.sender.property 0 l.sent "pitch").toFloat l.sender 0)
      ((l.sender.property 1 l.sent "yaw").toFloat l.sender 0)
      ((l.sender.property 2 l.sent "roll").toFloat l.sender 0)
  color : l.outputType = "COLOR" → ∃ id, l.sender.luaCall 3 = .table id ∧ ∀ k,
    l.receiver.luaTable k (.table id) (.string "r") =
        .number ((l.sender.property 0 l.sent "r").toFloat l.sender 0) ∧
      l.receiver.luaTable k (.table id) (.string "g") =
        .number ((l.sender.property 1 l.sent "g").toFloat l.sender 0) ∧
      l.receiver.luaTable k (.table id) (.string "b") =
        .number ((l.sender.property 2 l.sent "b").toFloat l.sender 0) ∧
      l.receiver.luaTable k (.table id) (.string "a") =
        .number ((l.sender.property 3 l.sent "a").toFloat l.sender 0)
  entity : l.outputType = "ENTITY" → ∃ id, l.sender.luaCall 3 = .entity id ∧
    l.receiver.luaCall 0 = .number (l.sent.toFloat l.sender 0) ∧
      Double.isZero (l.sent.toFloat l.sender 0) = false
  string : ∀ id text, l.sent = .string id text → ∃ c, l.sender.cString 1 l.sent = some c ∧ c.text = text

/-- **The value arrives**: `TriggerOutput` is called with a value for which the listener at the
other end is called once, with the name of the input and the value that was sent. -/
def Arrives (l : Wire R) : Prop :=
  wp (outputsTrigger l.argv) l.sender
    (fun _ s => ∃ w, s.luaCalls.getLast? =
        some (triggerCall l.sender (l.sender.cString 0 (argument l.sender l.argv 0)) w) ∧
      wp triggerInput l.receiver
        (fun _ t => ∃ id u, t.jsCalls = [(l.callback, [.string id l.iname, u])] ∧
          SameValue l.sender l.outputType l.sent u t.sets)
        (fun _ => False) (State.entry l.listeners (triggerInputArgs l.ctx l.iname w)))
    (fun _ => False) (State.entry l.senderListeners [])

/-- The receiving context has memory for the strings and the object that are made. -/
def HasMemory (l : Wire R) : Prop :=
  (l.receiver.alloc 0).isSome ∧
    (l.outputType = "NORMAL" ∨ l.outputType = "ENTITY" ∨ (l.receiver.alloc 1).isSome)

/-- What `lua_emit_event` makes of every colour: it reads the name of the event, the name of the
input and the table as numbers. And the alpha has not been converted from something else. -/
def ColorKept (l : Wire R) : Prop :=
  (l.sender.property 0 l.sent "r").toFloat l.sender 0 = Double.ofText "input" ∧
    (l.sender.property 1 l.sent "g").toFloat l.sender 0 = Double.ofText l.iname ∧
    (l.sender.property 2 l.sent "b").toFloat l.sender 0 = Double.ofNat 0 ∧
    (l.sender.property 3 l.sent "a").toFloat l.sender 0 = alpha l.sender l.sent

variable {l : Wire R}

/-- What the listener gets, and the properties set on it. -/
def arrived (l : Wire R) : JSValue R × List (PropertySet R) :=
  received l.receiver (nameConverted l.receiver l.listeners l.ctx l.iname
    (outputValue l.sender l.outputType l.sent)) (outputValue l.sender l.outputType l.sent)

omit [Double R] in
theorem created_string {e : Env R} {k : ℕ} {text : String} {id : ℕ} :
    (created e k fun id => .string id text) = .string id text ↔ e.alloc k = some id := by
  cases h : e.alloc k <;> simp [created, h]

/-- A value arrives when its name does and it is the same. -/
theorem arrives_iff_same (hlive : l.Live) :
    l.Arrives ↔ (l.receiver.alloc 0).isSome ∧
      SameValue l.sender l.outputType l.sent l.arrived.1 l.arrived.2 := by
  refine wp_iff_of (outputsTrigger_returns hlive.arity hlive.name hlive.valid hlive.type) ?_
  intro x s hs
  have hacc : acceptsOutput l.sender l.outputType (argument l.sender l.argv 1) = true := hlive.accepts
  have hlast : s.luaCalls.getLast? = some (triggerCall l.sender
      (l.sender.cString 0 (argument l.sender l.argv 0))
      (outputValue l.sender l.outputType l.sent)) := by
    rw [hs.luaCalls, if_pos hacc, List.getLast?_concat]
    rfl
  rw [hlast]
  -- the call determines the value
  have hvalue (w : LuaValue R) : some (triggerCall l.sender
        (l.sender.cString 0 (argument l.sender l.argv 0)) (outputValue l.sender l.outputType l.sent)) =
      some (triggerCall l.sender (l.sender.cString 0 (argument l.sender l.argv 0)) w) ↔
        outputValue l.sender l.outputType l.sent = w := by
    simp [triggerCall]
  simp only [hvalue, exists_eq_left']
  refine wp_iff_of (triggerInput_returns hlive.found hlive.listens) ?_
  rintro - t ⟨v, hv, hcalls⟩
  have hv' : (v, t.sets) = l.arrived := hv
  rw [← hv', hcalls]
  constructor
  · rintro ⟨id, u, hcall, hsame⟩
    simp only [List.cons.injEq, Prod.mk.injEq, true_and, and_true] at hcall
    obtain ⟨hid, rfl⟩ := hcall
    rw [created_string] at hid
    exact ⟨by rw [hid]; rfl, hsame⟩
  · rintro ⟨hmem, hsame⟩
    obtain ⟨id, hid⟩ := Option.isSome_iff_exists.1 hmem
    exact ⟨id, v, by rw [created_string.2 hid], hsame⟩

omit [Double R] in
theorem secondObject_object {e : Env R} :
    (∃ id, secondObject e = .object id false) ↔ (e.alloc 1).isSome := by
  cases h : e.alloc 1 <;> simp [secondObject, created, h]

omit [Double R] in
theorem same_triple {e e' : Env R} {v : JSValue R} {names : String × String × String} :
    HasFields (secondObject e') (tripleSets e' names ((e.property 0 v names.1).toFloat e 0)
      ((e.property 1 v names.2.1).toFloat e 0) ((e.property 2 v names.2.2).toFloat e 0))
      (components e v names) ↔ (e'.alloc 1).isSome := by
  rw [HasFields, secondObject_object]
  exact and_iff_left rfl

/-- What the decoder makes of a colour. -/
theorem colorSets_wire {e : Env R} {id : ℕ} {x : R}
    (ha : e.luaTable 3 (.table id) (.string "a") = .number x) :
    colorSets e (nameConverted e listeners ctx iname (.table id)) (.table id) =
      [⟨secondObject e, "r", .number (Double.ofText "input")⟩,
        ⟨secondObject e, "g", .number (Double.ofText iname)⟩,
        ⟨secondObject e, "b", .number (Double.ofNat 0)⟩,
        ⟨secondObject e, "a", .number x⟩] := by
  have hx : e.luaTable 3 (.table id) (.string "a") = .number x := ha
  show [_, _, _, PropertySet.mk _ _ (.number (if (e.luaTable 3 (.table id) (.string "a")).isNumber
    then (e.luaTable 3 (.table id) (.string "a")).toNumber else Double.ofNat 255))] = _
  rw [hx]
  rfl

theorem arrives_color (hlua : l.Lua) (htype : l.outputType = "COLOR") :
    SameValue l.sender l.outputType l.sent l.arrived.1 l.arrived.2 ↔
      (l.receiver.alloc 1).isSome ∧ l.ColorKept := by
  obtain ⟨id, hid, htable⟩ := hlua.color htype
  have hvalue : outputValue l.sender l.outputType l.sent = .table id := by
    simp [outputValue, htype, hid]
  have hcolor : hasColor l.receiver 0 (.table id) = true := by
    simp [hasColor, (htable _).1, (htable _).2.1, (htable _).2.2.1, LuaValue.isNumber]
  have harrived : l.arrived = (secondObject l.receiver, colorSets l.receiver
      (nameConverted l.receiver l.listeners l.ctx l.iname (.table id)) (.table id)) := by
    rw [arrived, hvalue, received, if_pos hcolor]
  rw [harrived, colorSets_wire (htable 3).2.2.2, htype]
  simp only [SameValue, String.reduceEq, if_false, if_true, HasFields, secondObject_object]
  refine and_congr_right fun _ => ?_
  simp [components, ColorKept, eq_comm]

/-- The components of an opaque colour, by name, and of a vector. -/
def component (name : String) : ℤ :=
  if name = "r" ∨ name = "x" then 10 else if name = "g" ∨ name = "y" then 20
  else if name = "b" ∨ name = "z" then 30 else 255

theorem oneListener_distinct {F : Type} (l : EventListener F) :
    ([l].map (·.eventName)).Nodup := List.nodup_singleton _

theorem oneListener_bounded {F : Type} (l : EventListener F) : [l].length ≤ maxListeners := by
  rw [List.length_singleton]
  decide

/-- A table with one listener. -/
def oneListener {F : Type} (l : EventListener F) : ListenerTable F :=
  ⟨[l], oneListener_distinct l, oneListener_bounded l⟩

/-- A wire to the input "c" of a chip that has memory. The sender has `made` made of the value. -/
def toInputC (outputType : String) (v : JSValue ℤ) (made : LuaValue ℤ) : Wire ℤ where
  argv := [.string 0 "c", v]
  sender := { Env.silent with
    property := fun _ _ name => .number (component name)
    cString := fun k _ => some ⟨k, if k = 0 then "c" else "hello"⟩
    luaCall := fun k =>
      if k = 1 then .bool true else if k = 2 then .string outputType else made }
  outputType := outputType
  senderListeners := ListenerTable.empty
  iname := "c"
  ctx := 0
  receiver := { Env.silent with
    contextFound := true
    alloc := some
    luaTable := fun _ _ key => .number (component (key.toText.getD "")) }
  listeners := oneListener ⟨"input", .object 0 true⟩
  callback := .object 0 true

/-- The wire is live, when the value is taken. -/
theorem toInputC_live {outputType : String} {v : JSValue ℤ} {made : LuaValue ℤ}
    (h : acceptsOutput (toInputC outputType v made).sender outputType v) :
    (toInputC outputType v made).Live where
  arity := by simp [toInputC]
  name := rfl
  valid := rfl
  type := rfl
  accepts := h
  found := rfl
  listens := rfl

theorem toInputC_memory {outputType : String} {v : JSValue ℤ} {made : LuaValue ℤ} :
    (toInputC outputType v made).HasMemory := ⟨rfl, .inr (.inr rfl)⟩

/-- The number 42. -/
def number : Wire ℤ := toInputC "NORMAL" (.number 42) (.table 0)

theorem number_live : number.Live := toInputC_live rfl

theorem number_lua : number.Lua := by
  constructor <;> simp [number, toInputC, sent, argument]

/-- The vector 10, 20, 30. -/
def vector : Wire ℤ := toInputC "VECTOR" (.object 1 false) (.vector 10 20 30)

theorem vector_live : vector.Live := by
  apply toInputC_live
  simp [acceptsOutput, toInputC, numbers, JSValue.isObject, JSValue.isNumber]

theorem vector_lua : vector.Lua := by
  constructor <;> simp [vector, toInputC, sent, argument, component, JSValue.toFloat]

/-- The string "hello". -/
def greeting : Wire ℤ := toInputC "STRING" (.string 1 "hello") .nil

theorem greeting_live : greeting.Live := toInputC_live rfl

theorem greeting_lua : greeting.Lua := by
  constructor <;> simp [greeting, toInputC, sent, argument]
  rfl

-- From here on a run over the wire is not evaluated.
attribute [irreducible] toInputC

/-- The colour 10, 20, 30, 255. -/
def color : Wire ℤ := toInputC "COLOR" (.object 1 false) (.table 0)

theorem color_live : color.Live := by
  apply toInputC_live
  simp [acceptsOutput, toInputC, numbers, JSValue.isObject, JSValue.isNumber]

theorem color_lua : color.Lua where
  vector := by simp [color, toInputC]
  angle := by simp [color, toInputC]
  color := by
    simp [color, toInputC, component, LuaValue.toText, JSValue.toFloat]
  entity := by simp [color, toInputC]
  string := by simp [color, toInputC, sent, argument]

end Wire

end JSChip.Native
