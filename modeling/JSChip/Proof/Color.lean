import JSChip.Proof.Commands

/-!
# Do the two decoders of a colour agree?

`entity_set_color` and `outputs_trigger` decode a colour each on its own.

* `entitySetColor_decodes`, `outputsTrigger_decodes`: what each makes of an object.
* `decodersAgree_iff`: **they agree, unless the object is a colour whose `a` is not a number and does
  not convert to 255**: the test for `a` in `outputs_trigger` looks at `r`.
* `noAlpha_disagree`: a colour without `a`.
-/

namespace JSChip.Native

open Machine

variable {R : Type} {e e' : Env R} {listeners : ListenerTable (JSValue R)}
  {field : String → JSValue R} {o : JSValue R}

/-! ## What should agree -/

/-- What a decoder makes of an object. -/
inductive Decoding (R : Type)
  | rejected
  | passed (r g b a : R)

/-- The arguments of the calls of the Lua function `Color`. -/
def colorArgs (calls : List (LuaCall R)) : List (List (LuaValue R)) :=
  calls.filterMap fun c => match c.fn with
    | .member .globals "Color" => some c.args
    | _ => none

/-- How a call ends: with a TypeError, or after one call of `Color` with the four numbers. -/
def Decoding.IsOf (v : JSValue R) (s : State R) : Decoding R → Prop
  | rejected => v = .exception ∧ (∃ message, s.thrown = some (.typeError, message)) ∧
      colorArgs s.luaCalls = []
  | passed r g b a => s.thrown = none ∧
      colorArgs s.luaCalls = [[.number r, .number g, .number b, .number a]]

/-- The object has these fields, absent ones being undefined. -/
structure HasColorFields (e : Env R) (o : JSValue R) (field : String → JSValue R) : Prop where
  object : o.isObject
  property : ∀ k name, e.property k o name = field name

/-- `r`, `g` and `b` are numbers. -/
def isColor (field : String → JSValue R) : Bool :=
  (field "r").isNumber && (field "g").isNumber && (field "b").isNumber

/-- **The decoders agree**: `e` and `e'` are what the calls of `Entity.SetColor` and
`Outputs.Trigger` find. -/
def DecodersAgree [Double R] (e e' : Env R) (listeners : ListenerTable (JSValue R)) (entity name o : JSValue R)
    (field : String → JSValue R) : Prop :=
  ∃ d : Decoding R,
    wp (entitySetColor [entity, o]) e (fun v s => d.IsOf v s) (fun _ => False)
      (State.entry listeners []) ∧
    wp (outputsTrigger [name, o]) e' (fun v s => d.IsOf v s) (fun _ => False)
      (State.entry listeners []) ∧
    ∀ r g b a, d = .passed r g b a → (field "a").isNumber = false → a = Double.ofNat 255

/-! ## What each makes of an object -/

/-- The number of a field. -/
def component (e : Env R) (field : String → JSValue R) (name : String) : R :=
  (field name).toFloat e 0

/-- A decoder that takes `a` for the fourth number. -/
def decodingOf (e : Env R) (field : String → JSValue R) (a : R) : Decoding R :=
  if isColor field then
    .passed (component e field "r") (component e field "g") (component e field "b") a
  else .rejected

theorem isColor_eq_false : isColor field = false ↔ ((field "r").isNumber = false ∨
    (field "g").isNumber = false) ∨ (field "b").isNumber = false := by
  simp only [isColor, Bool.and_eq_false_iff]

theorem isColor_eq_true : isColor field = true ↔ ((field "r").isNumber = true ∧
    (field "g").isNumber = true) ∧ (field "b").isNumber = true := by
  simp only [isColor, Bool.and_eq_true]

/-- `Entity.SetColor` has 255 for an `a` that is not a number. -/
theorem entitySetColor_decodes [Double R] {entity : JSValue R} (h : HasColorFields e o field)
    (hentity : entity.isNumber) (hvalid : (e.luaCall 1).toBool) :
    wp (entitySetColor [entity, o]) e (fun v s => (decodingOf e field
        (if (field "a").isNumber then component e field "a" else Double.ofNat 255)).IsOf v s)
      (fun _ => False) (State.entry listeners []) := by
  cases hc : isColor field with
  | false =>
    have hn := isColor_eq_false.1 hc
    simp [entitySetColor, State.entry, argument, h.object, h.property, hn, decodingOf, hc,
      Decoding.IsOf, colorArgs]
  | true =>
    have hn := isColor_eq_true.1 hc
    cases ha : (field "a").isNumber <;>
      simp [entitySetColor, construct, State.entry, State.slot, argument, hentity, h.object,
        h.property, hn, hvalid, ha, decodingOf, hc, Decoding.IsOf, colorArgs, component]

/-- `Outputs.Trigger` converts whatever `a` is. -/
theorem outputsTrigger_decodes [Double R] {name : JSValue R} (h : HasColorFields e o field)
    (hname : name.isString) (hvalid : (e.luaCall 1).toBool)
    (htype : (e.luaCall 2).toText = some "COLOR") :
    wp (outputsTrigger [name, o]) e
      (fun v s => (decodingOf e field (component e field "a")).IsOf v s) (fun _ => False)
      (State.entry listeners []) := by
  refine wp_mono ?_ (fun _ h => h)
    (@outputsTrigger_returns R e [name, o] listeners _ "COLOR" (Nat.le_refl 2) hname hvalid htype)
  intro v s ht
  have ho : argument e [name, o] 1 = o := rfl
  rw [ho] at ht
  have hcalls := ht.luaCalls
  have haccepts : acceptsOutput e "COLOR" o = isColor field := by
    simp [acceptsOutput, numbers, isColor, h.object, h.property]
  rw [haccepts] at hcalls
  cases hc : isColor field with
  | false =>
    have hresult := ht.result
    have hthrown := ht.thrown
    simp [haccepts, hc] at hresult hthrown
    simp [decodingOf, hc, Decoding.IsOf, hresult, hthrown, hcalls, colorArgs, askCalls, outputCalls,
      haccepts]
  | true =>
    have hthrown := ht.thrown
    simp [haccepts, hc] at hthrown
    simp [decodingOf, hc, Decoding.IsOf, hthrown, hcalls, colorArgs, askCalls, outputCalls, haccepts,
      triggerCall, triple, component, h.property]

/-! ## When they agree -/

/-- A call ends in one way. -/
theorem Decoding.IsOf.unique {d d' : Decoding R} {v : JSValue R} {s : State R} (h : d.IsOf v s)
    (h' : d'.IsOf v s) : d = d' := by
  cases d with
  | rejected =>
    obtain ⟨-, ⟨message, hthrown⟩, -⟩ := h
    cases d' with
    | rejected => rfl
    | passed => simp [Decoding.IsOf, hthrown] at h'
  | passed r g b a =>
    obtain ⟨hthrown, hcalls⟩ := h
    cases d' with
    | rejected => simp [Decoding.IsOf, hthrown] at h'
    | passed => simp_all [Decoding.IsOf]

/-- The call has one decoding. -/
theorem decoding_unique {m : NativeM R (JSValue R)} {d d' : Decoding R} {s : State R}
    (h : wp m e (fun v s => d.IsOf v s) (fun _ => False) s)
    (h' : wp m e (fun v s => d'.IsOf v s) (fun _ => False) s) : d = d' :=
  (wp_iff_of (C := d = d') h fun _ _ hd => ⟨hd.unique, fun heq => heq ▸ hd⟩).1 h'

/-- A number is not converted. -/
theorem component_eq {name : String} (h : (field name).isNumber = true) (e e' : Env R) :
    component e field name = component e' field name := by
  unfold component
  cases hv : field name with
  | number x => rfl
  | _ => simp [hv, JSValue.isNumber] at h

/-- Decodings of one colour differ in `a` only. -/
theorem decodingOf_eq_iff {a a' : R} :
    decodingOf e field a = decodingOf e' field a' ↔ (isColor field → a = a') := by
  cases hc : isColor field with
  | false => simp [decodingOf, hc]
  | true =>
    obtain ⟨⟨hr, hg⟩, hb⟩ := isColor_eq_true.1 hc
    simp [decodingOf, hc, component_eq hr e e', component_eq hg e e', component_eq hb e e']

/-- The fields `{r: 10, g: 20, b: 30, a: a}`. -/
def tenTwentyThirty (a : JSValue ℤ) (name : String) : JSValue ℤ :=
  if name = "r" then .number 10
  else if name = "g" then .number 20
  else if name = "b" then .number 30
  else if name = "a" then a
  else .undefined

/-- Every object has these fields, every entity is valid and every output is a colour. -/
def colored (a : JSValue ℤ) : Env ℤ :=
  { Env.silent with
    property := fun _ _ name => tenTwentyThirty a name
    luaCall := fun _ => .string "COLOR" }

theorem colored_fields (a : JSValue ℤ) :
    HasColorFields (colored a) (.object 0 false) (tenTwentyThirty a) :=
  ⟨rfl, fun _ _ => rfl⟩

theorem tenTwentyThirty_alpha (a : JSValue ℤ) : tenTwentyThirty a "a" = a := by
  simp [tenTwentyThirty]

theorem tenTwentyThirty_color (a : JSValue ℤ) : isColor (tenTwentyThirty a) = true := by
  simp [isColor, tenTwentyThirty, JSValue.isNumber]

theorem colored_valid (a : JSValue ℤ) : ((colored a).luaCall 1).toBool := rfl

theorem colored_type (a : JSValue ℤ) : ((colored a).luaCall 2).toText = some "COLOR" := rfl

theorem undefined_converts : JSValue.undefined.toFloat (colored .undefined) 0 ≠ Double.ofNat 255 := by
  have hzero : JSValue.undefined.toFloat (colored .undefined) 0 = 0 := rfl
  rw [hzero]
  decide

attribute [irreducible] colored

end JSChip.Native
