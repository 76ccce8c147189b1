import Mathlib.Algebra.Order.Group.Multiset
import JSChip.Proof.Api
import JSChip.Spec.Native

/-!
# The loops of the native functions

* `wp_pushStrings`: the argument loop of `console_log`.
* `wp_setPort`, `setPorts_converts`, `setPorts_stops`: the property loop of `inputs_change` and
  `outputs_change`, by one step and two runs.
* `pushOutput_spec`, `outputsTrigger_returns`: what `outputs_trigger` makes of a value, by the
  type of the output.
* `eventOn_returns`, `eventOn_stops`: the two ends of `event_on`.
-/

namespace JSChip.Native

open Machine

variable {R : Type} {e : Env R} {s : State R} {E : Fault → Prop}

/-! ## Arguments -/

/-- The texts of the arguments that have one. `k` counts the conversions before. -/
def texts (e : Env R) : ℕ → List (JSValue R) → List String
  | _, [] => []
  | k, v :: vs => ((e.cString k v).map CString.text).toList ++ texts e (k + 1) vs

/-- Every argument has a text exactly when no conversion fails. -/
theorem length_texts (e : Env R) : ∀ (vs : List (JSValue R)) (k : ℕ),
    (texts e k vs).length ≤ vs.length ∧ ((texts e k vs).length = vs.length ↔
      ∀ i, ∀ h : i < vs.length, e.cString (k + i) (vs.get ⟨i, h⟩) ≠ none) := by
  intro vs
  induction vs with
  | nil => intro k; simp [texts]
  | cons v vs ih =>
    intro k
    obtain ⟨hle, hall⟩ := ih (k + 1)
    cases h : e.cString k v with
    | none =>
      simp only [texts, h, Option.map_none, Option.toList_none, List.nil_append, List.length_cons]
      refine ⟨by omega, by omega, fun hconv => absurd h ?_⟩
      simpa using hconv 0 (by simp)
    | some c =>
      simp only [texts, h, Option.map_some, Option.toList_some, List.cons_append, List.nil_append,
        List.length_cons, Nat.add_le_add_iff_right, Nat.add_right_cancel_iff]
      refine ⟨hle, hall.trans ⟨fun hconv i hi => ?_, fun hconv i hi => ?_⟩⟩
      · cases i with
        | zero => simp [h]
        | succ i => simpa [Nat.add_assoc, Nat.add_comm 1] using hconv i (by simpa using hi)
      · simpa [Nat.add_assoc, Nat.add_comm 1] using hconv (i + 1) (by simpa using hi)

/-- The argument loop of `console_log` pushes the texts, and owns nothing when it ends. -/
theorem wp_pushStrings {Q : Unit → State R → Prop} : ∀ {vs : List (JSValue R)} {s : State R},
    wp (pushStrings vs) e Q E s ↔ Q () { s with
      stack := ((texts e s.cStrings vs).map LuaValue.string).reverse ++ s.stack
      cStrings := s.cStrings + vs.length
      unconverted := s.unconverted || decide ((texts e s.cStrings vs).length < vs.length) } := by
  intro vs
  induction vs with
  | nil => intro s; simp [pushStrings, texts]
  | cons v vs ih =>
    intro s
    rw [pushStrings, wp_bind, wp_toCString]
    cases h : e.cString s.cStrings v with
    | none =>
      have hle := (length_texts e vs (s.cStrings + 1)).1
      have hlt : (texts e (s.cStrings + 1) vs).length < vs.length + 1 := by omega
      simp [ih, texts, h, hlt, cStringRefs, Nat.add_assoc, Nat.add_comm 1]
    | some c =>
      simp only [wp_bind, wp_pushString, wp_freeCString]
      rw [wp_release_of_eq (k := s.held) rfl, ih]
      simp [texts, h, luaString, Nat.add_assoc, Nat.add_comm 1]

/-! ## Ports -/

/-- The properties that have a name convert to strings. `i` and `k` count the names and the
values asked for before. -/
def PortsConvert (e : Env R) (ports : JSValue R) : ℕ → ℕ → List ℕ → Prop
  | _, _, [] => True
  | i, k, atom :: atoms =>
    if e.atomName i atom = none then PortsConvert e ports (i + 1) k atoms
    else e.cString k (e.value k ports atom) ≠ none ∧ PortsConvert e ports (i + 1) (k + 1) atoms

/-- One property of the ports object, with the table on top of the stack. -/
theorem wp_setPort {ports : JSValue R} {atom : ℕ} {table : LuaValue R} {st : List (LuaValue R)}
    {h : Multiset Ref} {Q : Unit → State R → Prop} (hs : s.stack = table :: st)
    (hh : s.held = h + {.atom atom}) :
    wp (setPort ports atom) e Q E s ↔
      match e.atomName s.atomNames atom with
      | none => Q () { s with atomNames := s.atomNames + 1, held := h }
      | some name =>
        match e.cString s.cStrings (e.value s.values ports atom) with
        | none => E .nullString
        | some c => Q () { s with
            atomNames := s.atomNames + 1
            values := s.values + 1
            cStrings := s.cStrings + 1
            fieldSets := s.fieldSets ++ [⟨table, name.text,
              .string (if c.text ∈ portTypes then c.text else "normal")⟩]
            held := h } := by
  rw [setPort, wp_bind, wp_atomToCString]
  cases hname : e.atomName s.atomNames atom with
  | none =>
    simp only [wp_freeAtom]
    rw [wp_release_of_eq (k := h) (by simp [hh, cStringRefs])]
  | some name =>
    generalize hvalue : e.value s.values ports atom = value
    cases hstr : e.cString s.cStrings value with
    | none => simp [hvalue, hstr]
    | some c =>
      simp only [wp_bind, hvalue, wp_getProperty, wp_toCString, hstr, wp_readString, Option.some.injEq,
        forall_eq', reduceCtorEq, false_implies, and_true, wp_pushString, luaString, wp_setField,
        wp_look, wp_pop, State.slot, hs, wp_freeCString, wp_freeValue, wp_freeAtom]
      -- the C strings, the value and the atom are released in this order
      rw [wp_release_of_eq (k := h + {.atom atom} + value.refs + cStringRefs (some c))
          (by simp only [hh]; ac_rfl),
        wp_release_of_eq (k := h + {.atom atom} + value.refs) rfl,
        wp_release_of_eq (k := h + {.atom atom}) rfl, wp_release_of_eq (k := h) rfl]
      simp

theorem refs_cons (h : Multiset Ref) (atom : ℕ) (atoms : List ℕ) :
    h + ((atom :: atoms).map Ref.atom : List Ref) =
      h + (atoms.map Ref.atom : List Ref) + {.atom atom} := by
  rw [List.map_cons, ← Multiset.cons_coe, ← Multiset.singleton_add]
  ac_rfl

/-- What the property loop keeps, and that it owns `h` when it ends. -/
structure Kept (s : State R) (h : Multiset Ref) (s' : State R) : Prop where
  stack : s'.stack = s.stack
  underflow : s'.underflow = s.underflow
  held : s'.held = h
  luaCalls : s'.luaCalls = s.luaCalls
  nullPushed : s'.nullPushed = s.nullPushed
  unconverted : s'.unconverted = s.unconverted

variable {ports : JSValue R} {table : LuaValue R} {st : List (LuaValue R)} {h : Multiset Ref}

/-- **When the values convert**, the loop leaves the stack as it was and gives the atoms up. -/
theorem setPorts_converts : ∀ {atoms : List ℕ} {s : State R}, s.stack = table :: st →
    s.cStrings = s.values → s.held = h + (atoms.map Ref.atom : List Ref) →
    PortsConvert e ports s.atomNames s.values atoms →
      wp (setPorts ports atoms) e (fun _ s' => Kept s h s') (fun _ => False) s := by
  intro atoms
  induction atoms with
  | nil =>
    intro s _ _ hh _
    exact ⟨rfl, rfl, by simpa using hh, rfl, rfl, rfl⟩
  | cons atom atoms ih =>
    intro s hs hk hh hconv
    have hatom := hh.trans (refs_cons h atom atoms)
    rw [setPorts, wp_bind, wp_setPort hs hatom]
    simp only [PortsConvert] at hconv
    cases hname : e.atomName s.atomNames atom with
    | none =>
      rw [if_pos hname] at hconv
      exact wp_mono (fun _ _ ht => ⟨ht.stack, ht.underflow, ht.held, ht.luaCalls, ht.nullPushed,
        ht.unconverted⟩) (fun _ h => h) (ih hs hk rfl hconv)
    | some name =>
      rw [if_neg (by simp [hname])] at hconv
      cases hstr : e.cString s.values (e.value s.values ports atom) with
      | none => exact absurd hstr hconv.1
      | some c =>
        simp only [hk, hstr]
        exact wp_mono (fun _ _ ht => ⟨ht.stack, ht.underflow, ht.held, ht.luaCalls, ht.nullPushed,
          ht.unconverted⟩) (fun _ h => h) (ih hs rfl rfl hconv.2)

/-- **When a value does not convert**, the loop reads a null string. -/
theorem setPorts_stops : ∀ {atoms : List ℕ} {s : State R}, s.stack = table :: st →
    s.cStrings = s.values → s.held = h + (atoms.map Ref.atom : List Ref) →
    ¬ PortsConvert e ports s.atomNames s.values atoms →
      wp (setPorts ports atoms) e (fun _ _ => False) (· = .nullString) s := by
  intro atoms
  induction atoms with
  | nil =>
    intro s _ _ _ hconv
    exact absurd trivial hconv
  | cons atom atoms ih =>
    intro s hs hk hh hconv
    have hatom := hh.trans (refs_cons h atom atoms)
    rw [setPorts, wp_bind, wp_setPort hs hatom]
    simp only [PortsConvert] at hconv
    cases hname : e.atomName s.atomNames atom with
    | none =>
      rw [if_pos hname] at hconv
      exact ih hs hk rfl hconv
    | some name =>
      rw [if_neg (by simp [hname])] at hconv
      cases hstr : e.cString s.values (e.value s.values ports atom) with
      | none => simp only [hk, hstr]
      | some c =>
        simp only [hk, hstr]
        exact ih hs rfl rfl fun h => hconv ⟨by simp [hstr], h⟩

/-! ## Outputs -/

section Outputs

/-- The three properties of `v` are numbers, the first being the one fetched at `k`. -/
def numbers (e : Env R) (k : ℕ) (v : JSValue R) (names : String × String × String) : Bool :=
  (e.property k v names.1).isNumber && (e.property (k + 1) v names.2.1).isNumber &&
    (e.property (k + 2) v names.2.2).isNumber

theorem numbers_eq_false {k : ℕ} {v : JSValue R} {names : String × String × String} :
    numbers e k v names = false ↔ ((e.property k v names.1).isNumber = false ∨
      (e.property (k + 1) v names.2.1).isNumber = false) ∨
        (e.property (k + 2) v names.2.2).isNumber = false := by
  simp only [numbers, Bool.and_eq_false_iff]

theorem numbers_eq_true {k : ℕ} {v : JSValue R} {names : String × String × String} :
    numbers e k v names = true ↔ ((e.property k v names.1).isNumber = true ∧
      (e.property (k + 1) v names.2.1).isNumber = true) ∧
        (e.property (k + 2) v names.2.2).isNumber = true := by
  simp only [numbers, Bool.and_eq_true]

/-- What fetching three properties acquires. -/
def tripleRefs (e : Env R) (k : ℕ) (v : JSValue R) (names : String × String × String) :
    Multiset Ref :=
  (e.property k v names.1).refs + (e.property (k + 1) v names.2.1).refs +
    (e.property (k + 2) v names.2.2).refs

/-- `outputs_trigger` takes the value `v` for an output of the type. -/
def acceptsOutput (e : Env R) (outputType : String) (v : JSValue R) : Bool :=
  if outputType = "NORMAL" then v.isNumber
  else if outputType = "VECTOR" then v.isObject && numbers e 0 v xyz
  else if outputType = "ANGLE" then v.isObject && numbers e 0 v pitchYawRoll
  else if outputType = "COLOR" then v.isObject && numbers e 0 v ("r", "g", "b")
  else if outputType = "ENTITY" then v.isNumber && (e.luaCall 4).toBool
  else if outputType = "STRING" then v.isString
  else false

/-- What fetching the components of `v` acquires. -/
def outputRefs (e : Env R) (outputType : String) (v : JSValue R) : Multiset Ref :=
  if outputType = "VECTOR" ∧ v.isObject then tripleRefs e 0 v xyz
  else if outputType = "ANGLE" ∧ v.isObject then tripleRefs e 0 v pitchYawRoll
  else if outputType = "COLOR" ∧ v.isObject then
    tripleRefs e 0 v ("r", "g", "b") + (e.property 3 v "a").refs
  else 0

/-- What is pushed for the value `v` when it is accepted. -/
def outputValue (e : Env R) (outputType : String) (v : JSValue R) : LuaValue R :=
  if outputType = "NORMAL" then .number (v.toFloat e 0)
  else if outputType = "STRING" then luaString ((e.cString 1 v).map CString.text)
  else e.luaCall 3

/-- The numbers of three properties. -/
def triple (e : Env R) (v : JSValue R) (names : String × String × String) : List (LuaValue R) :=
  [.number ((e.property 0 v names.1).toFloat e 0), .number ((e.property 1 v names.2.1).toFloat e 0),
    .number ((e.property 2 v names.2.2).toFloat e 0)]

/-- The Lua functions that are called to make the value. -/
def outputCalls (e : Env R) (outputType : String) (v : JSValue R) : List (LuaCall R) :=
  if outputType = "VECTOR" ∧ acceptsOutput e outputType v then
    [⟨.member .globals "Vector", triple e v xyz⟩]
  else if outputType = "ANGLE" ∧ acceptsOutput e outputType v then
    [⟨.member .globals "Angle", triple e v pitchYawRoll⟩]
  else if outputType = "COLOR" ∧ acceptsOutput e outputType v then
    [⟨.member .globals "Color",
      triple e v ("r", "g", "b") ++ [.number ((e.property 3 v "a").toFloat e 0)]⟩]
  else if outputType = "ENTITY" ∧ v.isNumber then
    [⟨.member .globals "Entity", [.number (v.toFloat e 0)]⟩,
      ⟨.member (e.luaCall 3) "IsValid", [e.luaCall 3]⟩]
  else []

/-- The error with which a value is rejected. -/
def outputError (outputType : String) (v : JSValue R) : String :=
  if outputType = "NORMAL" then "Second argument is not a valid number"
  else if outputType = "VECTOR" then "Second argument is not a valid vector"
  else if outputType = "ANGLE" then "Second argument is not a valid angle"
  else if outputType = "COLOR" then
    if v.isObject then "Second argument is not a valid angle"
    else "Second argument is not a valid color"
  else if outputType = "ENTITY" then
    if v.isNumber then "Second argument is not a valid entity"
    else "Second argument is not a valid number"
  else if outputType = "STRING" then "Second argument is not a valid string"
  else "First argument is not a valid output"

/-- The string of the value is asked for, and there is none. -/
def outputNull (e : Env R) (outputType : String) (v : JSValue R) : Bool :=
  decide (outputType = "STRING") && v.isString && (e.cString 1 v).isNone

/-- How a value for an output is pushed: on top of what was there, or not at all. -/
structure OutputPushed (e : Env R) (outputType : String) (v : JSValue R) (s : State R)
    (x : Option (JSValue R)) (t : State R) : Prop where
  underflow : t.underflow = s.underflow
  held : t.held = s.held + outputRefs e outputType v
  luaCalls : t.luaCalls = s.luaCalls ++ outputCalls e outputType v
  nullPushed : t.nullPushed = (s.nullPushed || outputNull e outputType v)
  unconverted : t.unconverted = (s.unconverted || outputNull e outputType v)
  listeners : t.listeners = s.listeners
  thrown : t.thrown = if acceptsOutput e outputType v then s.thrown
    else some (.typeError, outputError outputType v)
  pushed : if acceptsOutput e outputType v then
      x = none ∧ t.stack = outputValue e outputType v :: s.stack
    else x = some .exception ∧ t.stack = s.stack.drop 4

@[simp] theorem wp_rejectOutput (message : String) {Q : Option (JSValue R) → State R → Prop} :
    wp (rejectOutput message) e Q E s ↔
      wp (pop 4) e (fun _ s =>
        Q (some .exception) { s with thrown := some (.typeError, message) }) E s := by
  simp [rejectOutput]

variable {v : JSValue R} {ty valid ent : LuaValue R}

theorem pushTriple_spec {outputType : String} (names : String × String × String)
    (invalid constructor : String) (hs : s.stack = [ty, valid, ent, .globals])
    (hp : s.properties = 0) (hc : s.luaCalls.length = 3) (hf : s.floats = 0)
    (hacc : acceptsOutput e outputType v = (v.isObject && numbers e 0 v names))
    (hrefs : outputRefs e outputType v = if v.isObject then tripleRefs e 0 v names else 0)
    (hcalls : outputCalls e outputType v = if acceptsOutput e outputType v then
      [⟨.member .globals constructor, triple e v names⟩] else [])
    (herr : outputError outputType v = invalid)
    (hnull : outputNull e outputType v = false)
    (hvalue : outputValue e outputType v = e.luaCall 3) :
    wp (pushTriple names invalid constructor v) e (OutputPushed e outputType v s)
      (fun _ => False) s := by
  cases hv : v.isObject with
  | false =>
    simp [pushTriple, hs, hv]
    constructor <;> simp [hacc, hrefs, hcalls, herr, hnull, hv, hs]
  | true =>
    cases hn : numbers e 0 v names with
    | false =>
      have hn' := numbers_eq_false.1 hn
      simp [pushTriple, hs, hp, hv, hn']
      constructor <;> simp [hacc, hrefs, hcalls, herr, hnull, hv, hn, hs, tripleRefs, add_assoc]
    | true =>
      have hn' := numbers_eq_true.1 hn
      simp [pushTriple, construct, State.slot, hs, hp, hc, hf, hv, hn']
      constructor <;>
        simp [hacc, hrefs, hcalls, hnull, hvalue, hv, hn, hs, tripleRefs, triple, add_assoc]

theorem pushColor_spec [Double R] (hs : s.stack = [ty, valid, ent, .globals])
    (hp : s.properties = 0) (hc : s.luaCalls.length = 3) (hf : s.floats = 0) :
    wp (pushColor v) e (OutputPushed e "COLOR" v s) (fun _ => False) s := by
  cases hv : v.isObject with
  | false =>
    simp [pushColor, hs, hv]
    constructor <;> simp [acceptsOutput, outputRefs, outputCalls, outputError, outputNull, hv, hs]
  | true =>
    cases hn : numbers e 0 v ("r", "g", "b") with
    | false =>
      have hn' := numbers_eq_false.1 hn
      simp [pushColor, hs, hp, hv, hn']
      constructor <;>
        simp [acceptsOutput, outputRefs, outputCalls, outputError, outputNull, hv, hn, hs, tripleRefs, add_assoc]
    | true =>
      have hn' := numbers_eq_true.1 hn
      simp [pushColor, construct, State.slot, hs, hp, hc, hf, hv, hn']
      constructor <;>
        simp [acceptsOutput, outputRefs, outputCalls, outputNull, outputValue, hv, hn, hs, tripleRefs,
          triple, add_assoc]

theorem pushOutputEntity_spec (hs : s.stack = [ty, valid, ent, .globals])
    (hc : s.luaCalls.length = 3) (hf : s.floats = 0) :
    wp (pushOutputEntity v) e (OutputPushed e "ENTITY" v s) (fun _ => False) s := by
  cases hv : v.isNumber with
  | false =>
    simp [pushOutputEntity, hs, hv]
    constructor <;> simp [acceptsOutput, outputRefs, outputCalls, outputError, outputNull, hv, hs]
  | true =>
    cases hb : (e.luaCall 4).toBool with
    | false =>
      simp [pushOutputEntity, construct, State.slot, hs, hc, hf, hv, hb]
      constructor <;> simp [acceptsOutput, outputRefs, outputCalls, outputError, outputNull, hv, hb, hs]
    | true =>
      simp [pushOutputEntity, construct, State.slot, hs, hc, hf, hv, hb]
      constructor <;>
        simp [acceptsOutput, outputRefs, outputCalls, outputNull, outputValue, hv, hb, hs]

theorem pushNumber_spec [Double R] (hs : s.stack = [ty, valid, ent, .globals]) (hf : s.floats = 0) :
    wp (pushOutput "NORMAL" v) e (OutputPushed e "NORMAL" v s) (fun _ => False) s := by
  cases hv : v.isNumber with
  | false =>
    simp [pushOutput, hs, hv]
    constructor <;> simp [acceptsOutput, outputRefs, outputCalls, outputError, outputNull, hv, hs]
  | true =>
    simp [pushOutput, hs, hv, hf]
    constructor <;>
      simp [acceptsOutput, outputRefs, outputCalls, outputNull, outputValue, hv, hs]

theorem pushOutputString_spec [Double R] (hs : s.stack = [ty, valid, ent, .globals])
    (hk : s.cStrings = 1) :
    wp (pushOutput "STRING" v) e (OutputPushed e "STRING" v s) (fun _ => False) s := by
  cases hv : v.isString with
  | false =>
    simp [pushOutput, hs, hv]
    constructor <;> simp [acceptsOutput, outputRefs, outputCalls, outputError, outputNull, hv, hs]
  | true =>
    simp only [pushOutput, String.reduceEq, if_true, if_false, hv, Bool.not_true,
      Bool.false_eq_true, wp_bind, wp_toCString, wp_pushString, wp_freeCString, wp_pure]
    rw [wp_release_of_eq (k := s.held) rfl]
    constructor <;>
      simp [acceptsOutput, outputRefs, outputCalls, outputNull, outputValue, hv, hs, hk]

/-- **What pushing a value for an output does**, from the call of `OutputType` on. -/
theorem pushOutput_spec [Double R] (outputType : String)
    (hs : s.stack = [ty, valid, ent, .globals]) (hp : s.properties = 0)
    (hc : s.luaCalls.length = 3) (hf : s.floats = 0) (hk : s.cStrings = 1) :
    wp (pushOutput outputType v) e (OutputPushed e outputType v s) (fun _ => False) s := by
  by_cases hnormal : outputType = "NORMAL"
  · rw [hnormal]
    exact pushNumber_spec hs hf
  by_cases hvector : outputType = "VECTOR"
  · have h := @pushTriple_spec R e s v ty valid ent "VECTOR" xyz
      "Second argument is not a valid vector" "Vector" hs hp hc hf
      (by simp [acceptsOutput]) (by simp [outputRefs]) (by simp [outputCalls]) (by simp [outputError])
      (by simp [outputNull])
      (by simp [outputValue])
    simpa [pushOutput, hvector] using h
  by_cases hangle : outputType = "ANGLE"
  · have h := @pushTriple_spec R e s v ty valid ent "ANGLE" pitchYawRoll
      "Second argument is not a valid angle" "Angle" hs hp hc hf
      (by simp [acceptsOutput]) (by simp [outputRefs]) (by simp [outputCalls]) (by simp [outputError])
      (by simp [outputNull])
      (by simp [outputValue])
    simpa [pushOutput, hangle] using h
  by_cases hcolor : outputType = "COLOR"
  · simpa [pushOutput, hcolor] using pushColor_spec hs hp hc hf
  by_cases hentity : outputType = "ENTITY"
  · simpa [pushOutput, hentity] using pushOutputEntity_spec hs hc hf
  by_cases hstring : outputType = "STRING"
  · rw [hstring]
    exact pushOutputString_spec hs hk
  simp [pushOutput, hnormal, hvector, hangle, hcolor, hentity, hstring, hs]
  constructor <;> simp [acceptsOutput, outputRefs, outputCalls, outputError, outputNull, hnormal, hvector,
    hangle, hcolor, hentity, hstring, hs]

variable {argv : List (JSValue R)} {listeners : ListenerTable (JSValue R)}

/-- The Lua functions that are called before the type of the output is known. -/
def askCalls (e : Env R) (outputName : Option CString) : List (LuaCall R) :=
  [⟨.member .globals "Entity", [.number e.entIndex]⟩,
    ⟨.member (e.luaCall 0) "IsValid", [e.luaCall 0]⟩,
    ⟨.member (e.luaCall 0) "OutputType",
      [e.luaCall 0, luaString (outputName.map CString.text)]⟩]

/-- The call of `TriggerOutput`. -/
def triggerCall (e : Env R) (outputName : Option CString) (w : LuaValue R) : LuaCall R :=
  ⟨.member (e.luaCall 0) "TriggerOutput",
    [e.luaCall 0, luaString (outputName.map CString.text), w]⟩

/-- How `outputs_trigger` returns, for an output of a type, a name and a value. -/
structure Triggered (e : Env R) (listeners : ListenerTable (JSValue R)) (outputType : String)
    (outputName : Option CString) (v : JSValue R) (x : JSValue R) (s : State R) : Prop where
  result : x = if acceptsOutput e outputType v then .undefined else .exception
  stack : s.stack = []
  underflow : s.underflow = false
  held : s.held = outputRefs e outputType v +
    if acceptsOutput e outputType v then 0 else cStringRefs outputName
  luaCalls : s.luaCalls = askCalls e outputName ++ outputCalls e outputType v ++
    if acceptsOutput e outputType v then [triggerCall e outputName (outputValue e outputType v)]
    else []
  nullPushed : s.nullPushed = (outputName.isNone || outputNull e outputType v)
  unconverted : s.unconverted = (outputName.isNone || outputNull e outputType v)
  listeners : s.listeners = listeners
  thrown : s.thrown = if acceptsOutput e outputType v then none
    else some (.typeError, outputError outputType v)

/-- **What `outputs_trigger` returns with**, once it knows the type of the output. -/
theorem outputsTrigger_returns [Double R] {outputType : String} (hlen : 2 ≤ argv.length)
    (hname : (argument e argv 0).isString) (hvalid : (e.luaCall 1).toBool)
    (htype : (e.luaCall 2).toText = some outputType) :
    wp (outputsTrigger argv) e (Triggered e listeners outputType
      (e.cString 0 (argument e argv 0)) (argument e argv 1)) (fun _ => False)
      (State.entry listeners []) := by
  have hlen' : ¬ argv.length < 2 := by omega
  simp [outputsTrigger, State.entry, State.slot, hlen', hname, hvalid, htype]
  refine wp_mono ?_ (fun _ h => h) (pushOutput_spec outputType rfl rfl rfl rfl rfl)
  rintro x ⟨⟩ ⟨hunder, hheld, hcalls, hnull, hunconv, hlist, hthrown, h⟩
  split at h <;> rename_i hacc
  · obtain ⟨rfl, hstack⟩ := h
    dsimp only at hunder hheld hstack hcalls hnull hunconv hlist hthrown
    subst hunder hheld hstack hcalls hnull hunconv hlist hthrown
    simp only [wp_bind, wp_getField, wp_pushSlot, wp_look, wp_push, wp_pushString, wp_call, wp_pop,
      wp_map, wp_freeCString]
    rw [wp_release_of_eq (k := outputRefs e outputType (argument e argv 1)) (add_comm _ _)]
    constructor <;> simp [State.slot, hacc, askCalls, triggerCall, Bool.or_comm, Bool.or_left_comm]
  · obtain ⟨rfl, hstack⟩ := h
    dsimp only at hunder hheld hstack hcalls hnull hunconv hlist hthrown
    subst hunder hheld hstack hcalls hnull hunconv hlist hthrown
    simp only [wp_pure]
    constructor <;> simp [hacc, askCalls, add_comm]

/-- Without a type, it reads a null string. -/
theorem outputsTrigger_stops [Double R] (hlen : 2 ≤ argv.length)
    (hname : (argument e argv 0).isString) (hvalid : (e.luaCall 1).toBool)
    (htype : (e.luaCall 2).toText = none) :
    wp (outputsTrigger argv) e (fun _ _ => False) (· = .nullString)
      (State.entry listeners []) := by
  have hlen' : ¬ argv.length < 2 := by omega
  simp [outputsTrigger, State.entry, State.slot, hlen', hname, hvalid, htype]

end Outputs

/-! ## Events -/

variable {argv : List (JSValue R)} {listeners : ListenerTable (JSValue R)}

/-- How `event_on` returns. -/
structure Registered (listeners : ListenerTable (JSValue R)) (x : JSValue R) (s : State R) : Prop where
  stack : s.stack = []
  underflow : s.underflow = false
  held : s.held = 0
  refs : x.refs = 0
  luaCalls : s.luaCalls = []
  nullPushed : s.nullPushed = false
  unconverted : s.unconverted = true → x = .exception ∧ s.listeners = listeners

/-- `event_on` returns with nothing left, unless a function comes with a name that is not a
string. -/
theorem eventOn_returns
    (h : 2 ≤ argv.length → (argument e argv 1).isFunction → e.cString 0 (argument e argv 0) ≠ none) :
    wp (eventOn argv) e (Registered listeners) (fun _ => False) (State.entry listeners []) := by
  unfold eventOn
  by_cases hlen : argv.length < 2
  · simp only [hlen, if_true, wp_throwTypeError, State.entry]
    constructor <;> simp
  rw [if_neg hlen]
  cases hf : (argument e argv 1).isFunction with
  | false =>
    simp only [State.entry, wp_bind, wp_arg, wp_toCString, hf, Bool.not_false, if_true,
      wp_freeCString]
    rw [wp_release_of_eq (k := 0) rfl]
    constructor <;> simp
  | true =>
    obtain ⟨name, hname⟩ := Option.ne_none_iff_exists'.1 (h (by omega) hf)
    simp only [State.entry, wp_bind, wp_arg, wp_toCString, hf, hname, Bool.not_true,
      Bool.false_eq_true, if_false, wp_readString, Option.some.injEq, forall_eq', reduceCtorEq,
      false_implies, and_true, wp_get]
    cases JSChip.eventOn listeners name.text (argument e argv 1) with
    | replaced old listeners' =>
      simp only [wp_bind, wp_acquire, wp_freeValue]
      rw [wp_release_of_eq (k := 0 + cStringRefs (some name)) rfl]
      simp only [wp_dupValue, wp_modify]
      rw [wp_release_of_eq (k := 0 + cStringRefs (some name)) rfl]
      simp only [wp_freeCString]
      rw [wp_release_of_eq (k := 0) rfl]
      constructor <;> simp
    | added listeners' =>
      simp only [wp_bind, wp_dupValue, wp_modify]
      rw [wp_release_of_eq (k := 0 + cStringRefs (some name)) rfl]
      simp only [wp_freeCString]
      rw [wp_release_of_eq (k := 0) rfl]
      constructor <;> simp
    | full =>
      simp only [wp_bind, wp_freeCString]
      rw [wp_release_of_eq (k := 0) rfl]
      constructor <;> simp

/-- Otherwise it reads a null string. -/
theorem eventOn_stops (hlen : 2 ≤ argv.length) (hf : (argument e argv 1).isFunction)
    (h : e.cString 0 (argument e argv 0) = none) :
    wp (eventOn argv) e (fun _ _ => False) (· = .nullString) (State.entry listeners []) := by
  have hlen' : ¬ argv.length < 2 := by omega
  simp [eventOn, State.entry, hlen', hf, h]

end JSChip.Native
