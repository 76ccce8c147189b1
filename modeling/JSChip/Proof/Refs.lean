import Mathlib.Data.Multiset.OrderedMonoid
import JSChip.Proof.Native
import JSChip.Proof.Host

/-!
# Do native functions and host entries release what they acquire?

* `Entry`: a call of a native function, or of a host entry that runs a script.
* `Entry.Released`: when the call returns, it owns what it returns, and it has never released
  what it does not own.
* `Entry.RefsOk`: the condition under which it is. A function that fetches components leaks
  those that are counted: strings, objects, symbols. `outputs_trigger` also leaks the name of
  the output when it rejects the value, and `lua_emit_event` the result of the callback.
* `Entry.released_iff`: **a call releases what it acquires exactly when `RefsOk`.**
* `add_leaks`: a component that is a string is leaked.
-/

namespace JSChip.Native

open Machine

variable {R : Type} {e : Env R} {s : State R} {E : Fault → Prop} {argv : List (JSValue R)}
  {listeners : ListenerTable (JSValue R)}

/-- **The call owns what it returns**, if it returns, and releases nothing twice. -/
def Balanced (m : NativeM R (JSValue R)) (e : Env R)
    (listeners : ListenerTable (JSValue R)) : Prop :=
  wp m e (fun v s => s.held = v.refs) (· ≠ .badRelease) (State.entry listeners [])

instance [DecidableEq R] (m : NativeM R (JSValue R)) (e : Env R)
    (listeners : ListenerTable (JSValue R)) : Decidable (Balanced m e listeners) := by
  unfold Balanced
  infer_instance

theorem cStringRefs_eq_zero {c : Option CString} : cStringRefs c = 0 ↔ c = none := by
  cases c <;> simp [cStringRefs]

/-! ## Functions of entities -/

theorem balanced_entityFlag (method : String) :
    Balanced (entityFlag method argv) e listeners := by
  simp [Balanced, entityFlag, withEntity, State.entry]

theorem balanced_entityIsvalidPhysics : Balanced (entityIsvalidPhysics argv) e listeners := by
  simp [Balanced, entityIsvalidPhysics, withValidEntity, withEntity, State.entry]

/-- What a question makes of the answer: a value that the call owns. -/
def Answers (answer : NativeM R (JSValue R)) (e : Env R) : Prop :=
  ∀ s : State R, wp answer e (fun v t => t.held = s.held + v.refs) (· ≠ .badRelease) s

theorem answers_bool : Answers (answerBool : NativeM R (JSValue R)) e := by
  simp [Answers, answerBool]

section Questions

variable [Double R]

theorem answers_number : Answers (answerNumber : NativeM R (JSValue R)) e := by
  simp [Answers, answerNumber]

theorem answers_string : Answers (answerString : NativeM R (JSValue R)) e := by
  simp [Answers, answerString]

theorem answers_vector : Answers (answerVector : NativeM R (JSValue R)) e := by
  simp [Answers, answerVector]

theorem answers_angle : Answers (answerAngle : NativeM R (JSValue R)) e := by
  simp [Answers, answerAngle]

end Questions

section Queries

variable {answer : NativeM R (JSValue R)} (ha : Answers answer e)
include ha

theorem balanced_entityQuery (method : String) :
    Balanced (entityQuery method answer argv) e listeners := by
  simp [Balanced, entityQuery, withValidEntity, withEntity, State.entry, State.slot]
  intros
  exact wp_mono (fun v t ht => by simpa using ht) (fun _ h => h) (ha _)

theorem balanced_playerQuery (invalidPlayer method : String) :
    Balanced (playerQuery invalidPlayer method answer argv) e listeners := by
  simp [Balanced, playerQuery, withValidEntity, withEntity, State.entry, State.slot]
  intros
  exact wp_mono (fun v t ht => by simpa using ht) (fun _ h => h) (ha _)

theorem balanced_physicsQuery (method : String) :
    Balanced (physicsQuery method answer argv) e listeners := by
  simp [Balanced, physicsQuery, withEntity, State.entry, State.slot]
  intros
  exact wp_mono (fun v t ht => by simpa using ht) (fun _ h => h) (ha _)

end Queries

/-! ## What is left over -/

/-- The call returns with `leak` left over. -/
def Leaks (m : NativeM R (JSValue R)) (e : Env R) (listeners : ListenerTable (JSValue R))
    (leak : Multiset Ref) : Prop :=
  wp m e (fun v s => s.held = v.refs + leak) (fun _ => False) (State.entry listeners [])

theorem Leaks.balanced_of_leaks {m : NativeM R (JSValue R)} {leak : Multiset Ref}
    (h : Leaks m e listeners leak) : Balanced m e listeners ↔ leak = 0 :=
  wp_iff_of h fun v s hs => by rw [hs, add_eq_left]

/-- The arguments are a number and an object. -/
def EntityAndObject (e : Env R) (argv : List (JSValue R)) : Bool :=
  decide (2 ≤ argv.length) && (argument e argv 0).isNumber && (argument e argv 1).isObject

/-- The arguments are a number and two objects. -/
def EntityAndObjects (e : Env R) (argv : List (JSValue R)) : Bool :=
  decide (3 ≤ argv.length) && (argument e argv 0).isNumber && (argument e argv 1).isObject &&
    (argument e argv 2).isObject

theorem balanced_entityGetColor [Double R] : Balanced (entityGetColor argv) e listeners := by
  simp [Balanced, entityGetColor, withValidEntity, withEntity, colorComponent, State.entry]

theorem balanced_entityUse : Balanced (entityUse argv) e listeners := by
  simp [Balanced, entityUse, construct, State.entry]

theorem leaks_entitySetter (names : String × String × String)
    (expected invalidTriple constructor method : String) :
    Leaks (entitySetter names expected invalidTriple constructor method argv) e listeners
      (if EntityAndObject e argv then tripleRefs e 0 (argument e argv 1) names else 0) := by
  by_cases hlen : argv.length < 2
  · simp [Leaks, EntityAndObject, entitySetter, State.entry, hlen, Nat.not_le.2 hlen]
  cases h0 : (argument e argv 0).isNumber
  · simp [Leaks, EntityAndObject, entitySetter, State.entry, hlen, h0]
  cases h1 : (argument e argv 1).isObject
  · simp [Leaks, EntityAndObject, entitySetter, State.entry, hlen, h1]
  simp [Leaks, EntityAndObject, tripleRefs, entitySetter, construct, State.entry,
    hlen, Nat.not_lt.1 hlen, h0, h1]

theorem leaks_entityApplyforceCenter :
    Leaks (entityApplyforceCenter argv) e listeners
      (if EntityAndObject e argv then tripleRefs e 0 (argument e argv 1) xyz else 0) := by
  by_cases hlen : argv.length < 2
  · simp [Leaks, EntityAndObject, entityApplyforceCenter, State.entry, hlen, Nat.not_le.2 hlen]
  cases h0 : (argument e argv 0).isNumber
  · simp [Leaks, EntityAndObject, entityApplyforceCenter, State.entry, hlen, h0]
  cases h1 : (argument e argv 1).isObject
  · simp [Leaks, EntityAndObject, entityApplyforceCenter, State.entry, hlen, h1]
  simp [Leaks, EntityAndObject, tripleRefs, entityApplyforceCenter, withPhysics, construct,
    State.entry, hlen, Nat.not_lt.1 hlen, h0, h1]

theorem leaks_entitySetColor [Double R] :
    Leaks (entitySetColor argv) e listeners
      (if EntityAndObject e argv then tripleRefs e 0 (argument e argv 1) ("r", "g", "b") +
        (e.property 3 (argument e argv 1) "a").refs else 0) := by
  by_cases hlen : argv.length < 2
  · simp [Leaks, EntityAndObject, entitySetColor, State.entry, hlen, Nat.not_le.2 hlen]
  cases h0 : (argument e argv 0).isNumber
  · simp [Leaks, EntityAndObject, entitySetColor, State.entry, hlen, h0]
  cases h1 : (argument e argv 1).isObject
  · simp [Leaks, EntityAndObject, entitySetColor, State.entry, hlen, h1]
  simp [Leaks, EntityAndObject, tripleRefs, entitySetColor, construct, State.entry,
    hlen, Nat.not_lt.1 hlen, h0, h1]

theorem leaks_entityLocalToWorld [Double R] :
    Leaks (entityLocalToWorld argv) e listeners
      (if 2 ≤ argv.length ∧ (argument e argv 0).isNumber then
        tripleRefs e 0 (argument e argv 1) xyz else 0) := by
  by_cases hlen : argv.length < 2
  · simp [Leaks, entityLocalToWorld, State.entry, hlen, Nat.not_le.2 hlen]
  cases h0 : (argument e argv 0).isNumber
  · simp [Leaks, entityLocalToWorld, State.entry, hlen, h0]
  simp [Leaks, tripleRefs, entityLocalToWorld, construct, answerVector, State.entry,
    hlen, Nat.not_lt.1 hlen, h0, add_comm]

theorem leaks_entityApplyforceOffset :
    Leaks (entityApplyforceOffset argv) e listeners
      (if EntityAndObjects e argv then tripleRefs e 0 (argument e argv 1) xyz +
        tripleRefs e 3 (argument e argv 2) xyz else 0) := by
  by_cases hlen : argv.length < 3
  · simp [Leaks, EntityAndObjects, entityApplyforceOffset, State.entry, hlen, Nat.not_le.2 hlen]
  cases h0 : (argument e argv 0).isNumber
  · simp [Leaks, EntityAndObjects, entityApplyforceOffset, State.entry, hlen, h0]
  cases h1 : (argument e argv 1).isObject
  · simp [Leaks, EntityAndObjects, entityApplyforceOffset, State.entry, hlen, h1]
  cases h2 : (argument e argv 2).isObject
  · simp [Leaks, EntityAndObjects, entityApplyforceOffset, State.entry, hlen, h2]
  simp [Leaks, EntityAndObjects, tripleRefs, entityApplyforceOffset, withPhysics, construct,
    State.entry, hlen, Nat.not_lt.1 hlen, h0, h1, h2, add_assoc]

/-! ## Vectors -/

/-- What fetching two vectors acquires: the second is fetched when the first is one. -/
def vectorRefs (e : Env R) (v w : JSValue R) : Multiset Ref :=
  tripleRefs e 0 v xyz + if numbers e 0 v xyz && w.isObject then tripleRefs e 3 w xyz else 0

theorem wp_vectorOperand (op : R → R → R) (invalidNumber : String) (jx jy jz a1 : JSValue R) :
    wp (vectorOperand op invalidNumber jx jy jz a1) e
      (fun v t => t.held =
        s.held + v.refs + if a1.isObject then tripleRefs e s.properties a1 xyz else 0)
      (fun _ => False) s := by
  cases h1 : a1.isObject
  · simp [vectorOperand, vectorResult, h1]
  · simp [vectorOperand, vectorResult, tripleRefs, h1, add_assoc, add_comm]

theorem leaks_vectorOp (op : R → R → R) :
    Leaks (vectorOp op argv) e listeners
      (if 2 ≤ argv.length ∧ (argument e argv 0).isObject then
        vectorRefs e (argument e argv 0) (argument e argv 1) else 0) := by
  by_cases hlen : argv.length < 2
  · simp [Leaks, vectorOp, State.entry, hlen, Nat.not_le.2 hlen]
  cases h0 : (argument e argv 0).isObject
  · simp [Leaks, vectorOp, State.entry, hlen, h0]
  cases hn : numbers e 0 (argument e argv 0) xyz with
  | false =>
    simp [Leaks, vectorRefs, tripleRefs, vectorOp, State.entry, hlen, Nat.not_lt.1 hlen, h0, hn,
      numbers_eq_false.1 hn]
  | true =>
    simp only [Leaks, vectorOp, State.entry, hlen, if_false, wp_bind, wp_arg, h0, Bool.not_true,
      Bool.false_eq_true, wp_getProperties, numbers_eq_true.1 hn, Bool.or_false]
    refine wp_mono (fun v t ht => ?_) (fun _ h => h) (wp_vectorOperand _ _ _ _ _ _)
    rw [ht]
    simp [vectorRefs, tripleRefs, hn, Nat.not_lt.1 hlen, add_assoc, add_comm]

section Vectors

variable [Double R]

theorem leaks_vectorMod :
    Leaks (vectorMod argv) e listeners
      (if 2 ≤ argv.length ∧ (argument e argv 1).isObject then
        vectorRefs e (argument e argv 0) (argument e argv 1) else 0) := by
  by_cases hlen : argv.length < 2
  · simp [Leaks, vectorMod, State.entry, hlen, Nat.not_le.2 hlen]
  cases h1 : (argument e argv 1).isObject
  · simp [Leaks, vectorMod, State.entry, hlen, h1]
  cases hn : numbers e 0 (argument e argv 0) xyz with
  | false =>
    simp [Leaks, vectorRefs, tripleRefs, vectorMod, State.entry, hlen, Nat.not_lt.1 hlen, h1, hn,
      numbers_eq_false.1 hn]
  | true =>
    simp only [Leaks, vectorMod, State.entry, hlen, if_false, wp_bind, wp_arg, h1, Bool.not_true,
      Bool.false_eq_true, wp_getProperties, numbers_eq_true.1 hn, Bool.or_false]
    refine wp_mono (fun v t ht => ?_) (fun _ h => h) (wp_vectorOperand _ _ _ _ _ _)
    rw [ht]
    simp [vectorRefs, tripleRefs, hn, h1, Nat.not_lt.1 hlen, add_assoc, add_comm]

theorem leaks_distanceOf (f : R → R) :
    Leaks (distanceOf f argv) e listeners
      (if 2 ≤ argv.length ∧ (argument e argv 0).isObject then
        vectorRefs e (argument e argv 0) (argument e argv 1) else 0) := by
  by_cases hlen : argv.length < 2
  · simp [Leaks, distanceOf, State.entry, hlen, Nat.not_le.2 hlen]
  cases h0 : (argument e argv 0).isObject
  · simp [Leaks, distanceOf, State.entry, hlen, h0]
  cases hn : numbers e 0 (argument e argv 0) xyz with
  | false =>
    simp [Leaks, vectorRefs, tripleRefs, distanceOf, State.entry, hlen, Nat.not_lt.1 hlen, h0, hn,
      numbers_eq_false.1 hn]
  | true =>
    cases h1 : (argument e argv 1).isObject
    · simp [Leaks, vectorRefs, tripleRefs, distanceOf, State.entry, hlen, Nat.not_lt.1 hlen, h0, h1,
        hn]
    · simp [Leaks, vectorRefs, tripleRefs, distanceOf, State.entry, hlen, Nat.not_lt.1 hlen, h0, h1,
        hn, numbers_eq_true.1 hn, add_assoc]

theorem leaks_vectorMagnitude :
    Leaks (vectorMagnitude argv) e listeners
      (if 1 ≤ argv.length ∧ (argument e argv 1).isObject then
        tripleRefs e 0 (argument e argv 1) xyz else 0) := by
  by_cases hlen : argv.length < 1
  · simp [Leaks, vectorMagnitude, State.entry, hlen, Nat.not_le.2 hlen]
  cases h1 : (argument e argv 1).isObject
  · simp [Leaks, vectorMagnitude, State.entry, hlen, h1]
  simp [Leaks, tripleRefs, vectorMagnitude, State.entry, hlen, Nat.not_lt.1 hlen, h1]

end Vectors

/-! ## console, Inputs, Outputs and Events -/

theorem balanced_consoleLog : Balanced (consoleLog argv) e listeners := by
  simp [Balanced, consoleLog, wp_pushStrings, State.entry]

theorem balanced_portsChange (setter : String) :
    Balanced (portsChange setter argv) e listeners := by
  generalize ha : argument e argv 0 = a0
  cases hnames : e.ownNames a0 with
  | none => simp [Balanced, portsChange, ha, hnames, State.entry, State.slot]
  | some atoms =>
    simp [Balanced, portsChange, ha, hnames, State.entry, State.slot]
    intro _ _ _
    by_cases hconv : PortsConvert e a0 0 0 atoms
    · refine wp_mono ?_ (fun _ h => h.elim) (setPorts_converts (h := 0) rfl rfl (by simp) hconv)
      exact fun _ _ ht => ht.held
    · refine (wp_of_stops (setPorts_stops (h := 0) rfl rfl (by simp) hconv)).2 ?_
      simp

theorem balanced_eventOn : Balanced (eventOn argv) e listeners := by
  by_cases h : 2 ≤ argv.length → (argument e argv 1).isFunction →
      e.cString 0 (argument e argv 0) ≠ none
  · refine wp_mono ?_ (fun _ h => h.elim) (eventOn_returns h)
    intro v s hs
    rw [hs.held, hs.refs]
  · simp only [Classical.not_imp, ne_eq, not_not] at h
    obtain ⟨hlen, hf, hname⟩ := h
    refine (wp_of_stops (eventOn_stops hlen hf hname)).2 ?_
    simp

theorem balanced_outputsTrigger [Double R] : Balanced (outputsTrigger argv) e listeners ↔
    (2 ≤ argv.length → (argument e argv 0).isString → (e.luaCall 1).toBool →
      ∀ outputType, (e.luaCall 2).toText = some outputType →
        outputRefs e outputType (argument e argv 1) = 0 ∧
          (acceptsOutput e outputType (argument e argv 1) ∨
            e.cString 0 (argument e argv 0) = none)) := by
  by_cases hlen : 2 ≤ argv.length
  swap
  · simp [Balanced, outputsTrigger, State.entry, hlen, Nat.not_le.1 hlen]
  cases hname : (argument e argv 0).isString with
  | false => simp [Balanced, outputsTrigger, State.entry, hname]
  | true =>
    cases hvalid : (e.luaCall 1).toBool with
    | false => simp [Balanced, outputsTrigger, State.entry, State.slot, hname, hvalid]
    | true =>
      cases htype : (e.luaCall 2).toText with
      | none =>
        refine iff_of_true ?_ fun _ _ _ _ h => by cases h
        refine (wp_of_stops (outputsTrigger_stops hlen hname hvalid htype)).2 ?_
        simp
      | some outputType =>
        refine (wp_iff_of (outputsTrigger_returns hlen hname hvalid htype) ?_).trans
          (?_ : (outputRefs e outputType (argument e argv 1) = 0 ∧
            (acceptsOutput e outputType (argument e argv 1) ∨
              e.cString 0 (argument e argv 0) = none)) ↔ _)
        · intro v s hs
          rw [hs.held, hs.result]
          cases acceptsOutput e outputType (argument e argv 1) <;>
            simp [cStringRefs_eq_zero]
        · simp [hlen]

/-! ## Host entries -/

section Host

variable [Double R]

/-- **What `lua_emit_event` leaves over**: the result of the callback. -/
theorem luaEmitEvent_held (eventName : String) (count : ℕ) (args : List (LuaValue R)) :
    wp (luaEmitEvent eventName count) e
      (fun _ t => t.held =
        if e.contextFound ∧ (listeners.lookup eventName).isSome then e.result.refs else 0)
      (fun _ => False) (State.entry listeners args) := by
  cases hfound : e.contextFound with
  | false => simp [luaEmitEvent, pushFailure, State.entry, hfound]
  | true =>
    cases hlookup : listeners.lookup eventName with
    | none => simp [luaEmitEvent, State.entry, hfound, hlookup]
    | some callback =>
      refine wp_mono ?_ (fun _ h => h) (luaEmitEvent_returns hfound hlookup)
      rintro - t ⟨-, hheld, -⟩
      simp [hheld]

theorem luaEval_held (length : ℕ) (args : List (LuaValue R)) :
    wp (luaEval length) e (fun _ t => t.held = 0) (fun _ => False)
      (State.entry listeners args) := by
  cases hfound : e.contextFound with
  | false => simp [luaEval, pushFailure, State.entry, hfound]
  | true =>
    by_cases hlen : 1 ≤ length
    · exact wp_mono (fun _ _ h => h.2) (fun _ h => h) (luaEval_returns hfound hlen)
    · simp [luaEval, pushFailure, State.entry, Nat.not_le.1 hlen]

end Host

/-! ## All calls -/

/-- A call from the outside: a native function by the script, or a host entry by Lua. -/
inductive Entry (R : Type)
  | native (n : NativeFunction) (argv : List (JSValue R))
  | emitEvent (eventName : String) (count : ℕ) (args : List (LuaValue R))
  | eval (length : ℕ) (args : List (LuaValue R))

/-- **What is acquired is released**, or handed over to what the call returns. -/
def Entry.Released [Double R] (e : Env R) (listeners : ListenerTable (JSValue R)) :
    Entry R → Prop
  | .native n argv => Balanced (n.run argv) e listeners
  | .emitEvent eventName count args =>
    wp (luaEmitEvent eventName count) e (fun _ s => s.held = 0) (· ≠ .badRelease)
      (State.entry listeners args)
  | .eval length args =>
    wp (luaEval length) e (fun _ s => s.held = 0) (· ≠ .badRelease) (State.entry listeners args)

/-- **When it is.** -/
def Entry.RefsOk [Double R] (e : Env R) (listeners : ListenerTable (JSValue R)) :
    Entry R → Prop
  | .native .entitySetPosition argv | .native .entityApplyforceCenter argv =>
    EntityAndObject e argv → tripleRefs e 0 (argument e argv 1) xyz = 0
  | .native .entitySetAngles argv =>
    EntityAndObject e argv → tripleRefs e 0 (argument e argv 1) pitchYawRoll = 0
  | .native .entitySetColor argv =>
    EntityAndObject e argv → tripleRefs e 0 (argument e argv 1) ("r", "g", "b") = 0 ∧
      (e.property 3 (argument e argv 1) "a").refs = 0
  | .native .entityLocalToWorld argv =>
    2 ≤ argv.length ∧ (argument e argv 0).isNumber → tripleRefs e 0 (argument e argv 1) xyz = 0
  | .native .entityApplyforceOffset argv =>
    EntityAndObjects e argv → tripleRefs e 0 (argument e argv 1) xyz = 0 ∧
      tripleRefs e 3 (argument e argv 2) xyz = 0
  | .native .vectorAdd argv | .native .vectorSub argv | .native .vectorMul argv
  | .native .vectorDiv argv | .native .vectorPow argv | .native .vectorDistance argv
  | .native .vectorDistance2 argv =>
    2 ≤ argv.length ∧ (argument e argv 0).isObject →
      vectorRefs e (argument e argv 0) (argument e argv 1) = 0
  | .native .vectorMod argv =>
    2 ≤ argv.length ∧ (argument e argv 1).isObject →
      vectorRefs e (argument e argv 0) (argument e argv 1) = 0
  | .native .vectorMagnitude argv =>
    1 ≤ argv.length ∧ (argument e argv 1).isObject → tripleRefs e 0 (argument e argv 1) xyz = 0
  | .native .outputsTrigger argv =>
    2 ≤ argv.length → (argument e argv 0).isString → (e.luaCall 1).toBool →
      ∀ outputType, (e.luaCall 2).toText = some outputType →
        outputRefs e outputType (argument e argv 1) = 0 ∧
          (acceptsOutput e outputType (argument e argv 1) ∨
            e.cString 0 (argument e argv 0) = none)
  | .native _ _ => True
  | .emitEvent eventName _ _ =>
    e.contextFound ∧ (listeners.lookup eventName).isSome → e.result.refs = 0
  | .eval _ _ => True

theorem ite_refs_eq_zero {c : Prop} [Decidable c] {k : Multiset Ref} :
    (if c then k else 0) = 0 ↔ (c → k = 0) := by
  split <;> simp [*]

/-- **A call releases what it acquires exactly when `RefsOk`.** -/
theorem Entry.released_iff [Double R] (c : Entry R) (e : Env R)
    (listeners : ListenerTable (JSValue R)) : c.Released e listeners ↔ c.RefsOk e listeners := by
  cases c with
  | emitEvent eventName count args =>
    refine (wp_iff_of (luaEmitEvent_held eventName count args) fun _ s hs => ?_).trans
      ite_refs_eq_zero
    rw [hs]
  | eval length args =>
    exact iff_of_true (wp_mono (fun _ _ h => h) (fun _ h => h.elim) (luaEval_held length args))
      trivial
  | native n argv =>
    cases n with
    | getEnt | getOwner => exact iff_of_true rfl trivial
    | entityGetName | entityGetClass =>
      exact iff_of_true (balanced_entityQuery answers_string _) trivial
    | entityApplyforceCenter =>
      exact leaks_entityApplyforceCenter.balanced_of_leaks.trans ite_refs_eq_zero
    | entityApplyforceOffset =>
      refine leaks_entityApplyforceOffset.balanced_of_leaks.trans (ite_refs_eq_zero.trans ?_)
      rw [add_eq_zero]
      rfl
    | entityGetPosition => exact iff_of_true (balanced_entityQuery answers_vector _) trivial
    | entityGetMasscenter => exact iff_of_true (balanced_physicsQuery answers_vector _) trivial
    | entityIsvalid | entityIsplayer | entityIsnpc | entityIsworld =>
      exact iff_of_true (balanced_entityFlag _) trivial
    | entityIsvalidPhysics => exact iff_of_true balanced_entityIsvalidPhysics trivial
    | entityLocalToWorld => exact leaks_entityLocalToWorld.balanced_of_leaks.trans ite_refs_eq_zero
    | entityGetColor => exact iff_of_true balanced_entityGetColor trivial
    | entityGetAngles | entityEyeAngles =>
      exact iff_of_true (balanced_entityQuery answers_angle _) trivial
    | entityCrouching => exact iff_of_true (balanced_playerQuery answers_bool _ _) trivial
    | entitySteamid | entitySteamid64 | entityAccountid =>
      exact iff_of_true (balanced_playerQuery answers_string _ _) trivial
    | entityTeam | entityFrags =>
      exact iff_of_true (balanced_playerQuery answers_number _ _) trivial
    | entityUse => exact iff_of_true balanced_entityUse trivial
    | entitySetColor =>
      refine leaks_entitySetColor.balanced_of_leaks.trans (ite_refs_eq_zero.trans ?_)
      rw [add_eq_zero]
      rfl
    | entitySetPosition | entitySetAngles =>
      exact (leaks_entitySetter _ _ _ _ _).balanced_of_leaks.trans ite_refs_eq_zero
    | entityGetMass => exact iff_of_true (balanced_physicsQuery answers_number _) trivial
    | inputsChange | outputsChange => exact iff_of_true (balanced_portsChange _) trivial
    | outputsTrigger => exact balanced_outputsTrigger
    | vectorAdd | vectorSub | vectorMul | vectorDiv | vectorPow =>
      exact (leaks_vectorOp _).balanced_of_leaks.trans ite_refs_eq_zero
    | vectorMod => exact leaks_vectorMod.balanced_of_leaks.trans ite_refs_eq_zero
    | vectorMagnitude => exact leaks_vectorMagnitude.balanced_of_leaks.trans ite_refs_eq_zero
    | vectorDistance | vectorDistance2 =>
      exact (leaks_distanceOf _).balanced_of_leaks.trans ite_refs_eq_zero
    | consoleLog => exact iff_of_true balanced_consoleLog trivial
    | eventOn => exact iff_of_true balanced_eventOn trivial

/-- A component that is a string is leaked: `Vector.Add({x: "a", y: 0, z: 0}, 1)`. -/
theorem add_leaks : ¬ (Entry.native .vectorAdd [.object 0 false, .number 1]).Released
    { Env.silent with property := fun k _ _ => if k = 0 then .string 1 "a" else .number 0 }
    .empty := by
  unfold Entry.Released
  decide

end JSChip.Native
