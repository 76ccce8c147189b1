import JSChip.Proof.Native
import JSChip.Proof.Host

/-!
# Are failed conversions to strings handled?

`JS_ToCString` answers a null pointer when a value has no string: a symbol, an object whose
`toString` throws, what a getter throws.

* `Converter`: the calls in which a value of the script is converted.
* `Converter.Handles`: no null pointer goes where a string is read, and a failed conversion is
  an error that changes nothing, or is reported.
* `Converter.Converts`: the condition under which it is so. Where the pointer is not looked at,
  the conversion must not fail: the name of an event that comes with a function, the types of
  ports, arguments of `console_log`, the name and the string of an output, what was thrown.
* `Converter.handles_iff`: **failed conversions are handled exactly when `Converts`.**
* `symbol_unhandled`: a symbol as the name of an event.
-/

namespace JSChip.Native

open Machine

variable {R : Type} {e : Env R} {argv : List (JSValue R)} {listeners : ListenerTable (JSValue R)}

/-- A call that converts values of the script to strings. -/
inductive Converter (R : Type)
  | eventOn (argv : List (JSValue R))
  | inputsChange (argv : List (JSValue R))
  | outputsChange (argv : List (JSValue R))
  | outputsTrigger (argv : List (JSValue R))
  | consoleLog (argv : List (JSValue R))
  | emitEvent (eventName : String) (count : ℕ) (args : List (LuaValue R))
  | eval (length : ℕ) (args : List (LuaValue R))
  | compile (length : ℕ) (args : List (LuaValue R))

/-- No port of a chip has been changed. -/
def PortsUntouched (s : State R) : Prop :=
  ∀ c ∈ s.luaCalls, ∀ o, c.fn ≠ .member o "SetInputs" ∧ c.fn ≠ .member o "SetOutputs"

/-- **A native function handles failed conversions**: it returns without having passed on a null
pointer, and if a conversion failed, with an exception and nothing changed. -/
def NativeHandles (m : NativeM R (JSValue R)) (e : Env R)
    (listeners : ListenerTable (JSValue R)) : Prop :=
  wp m e
    (fun v s => s.nullPushed = false ∧ (s.unconverted = true →
      v = .exception ∧ s.listeners = listeners ∧ s.stack = [] ∧ PortsUntouched s))
    (fun _ => False) (State.entry listeners [])

/-- The two results on top of the stack are a status and a string or nil. When the script has
run, the status says if it threw. -/
def Reports [Double R] (ran : Prop) (threw : Bool) (results : List (LuaValue R)) : Prop :=
  ∃ v x, results.take 2 = [v, .number x] ∧ (v = .nil ∨ ∃ text, v = .string text) ∧
    (ran → x = Double.ofNat (if threw then 1 else 0))

/-- **A host entry handles failed conversions**: it returns without having passed on a null
pointer, with a status and a string or nil. -/
def HostHandles [Double R] (m : NativeM R Unit) (ran : Prop) (threw : Bool) (extra : ℕ) (e : Env R)
    (listeners : ListenerTable (JSValue R)) (args : List (LuaValue R)) : Prop :=
  wp m e (fun _ s => s.nullPushed = false ∧ Reports ran threw (s.stack.drop extra))
    (fun _ => False) (State.entry listeners args)

/-- **The call handles failed conversions.** `lua_compile` has a third result when it compiles. -/
def Converter.Handles [Double R] (e : Env R) (listeners : ListenerTable (JSValue R)) :
    Converter R → Prop
  | .eventOn argv => NativeHandles (Native.eventOn argv) e listeners
  | .inputsChange argv => NativeHandles (Native.inputsChange argv) e listeners
  | .outputsChange argv => NativeHandles (Native.outputsChange argv) e listeners
  | .outputsTrigger argv => NativeHandles (Native.outputsTrigger argv) e listeners
  | .consoleLog argv => NativeHandles (Native.consoleLog argv) e listeners
  | .emitEvent eventName count args =>
    HostHandles (luaEmitEvent eventName count)
      (e.contextFound ∧ (listeners.lookup eventName).isSome) e.result.isException 0 e listeners args
  | .eval length args =>
    HostHandles (luaEval length) (e.contextFound ∧ 1 ≤ length) e.result.isException 0 e listeners args
  | .compile length args =>
    HostHandles (luaCompile length) (e.contextFound ∧ 1 ≤ length) e.compiled.isException
      (if e.contextFound ∧ 1 ≤ length then 1 else 0) e listeners args

/-- The types of the ports in the first argument have strings. -/
def TypesConvert (e : Env R) (argv : List (JSValue R)) : Prop :=
  1 ≤ argv.length → (argument e argv 0).isObject → (e.luaCall 1).toBool →
    ∀ atoms, e.ownNames (argument e argv 0) = some atoms →
      PortsConvert e (argument e argv 0) 0 0 atoms

/-- **When failed conversions are handled.** -/
def Converter.Converts [Double R] (e : Env R) (listeners : ListenerTable (JSValue R)) :
    Converter R → Prop
  | .eventOn argv =>
    2 ≤ argv.length → (argument e argv 1).isFunction → e.cString 0 (argument e argv 0) ≠ none
  | .inputsChange argv | .outputsChange argv => TypesConvert e argv
  | .outputsTrigger argv =>
    2 ≤ argv.length → (argument e argv 0).isString → (e.luaCall 1).toBool →
      e.cString 0 (argument e argv 0) ≠ none ∧ ∃ outputType,
        (e.luaCall 2).toText = some outputType ∧ outputNull e outputType (argument e argv 1) = false
  | .consoleLog argv =>
    1 ≤ argv.length → (e.luaCall 1).toBool →
      ∀ k, ∀ h : k < argv.length, e.cString k (argv.get ⟨k, h⟩) ≠ none
  | .emitEvent eventName _ _ =>
    e.contextFound → (listeners.lookup eventName).isSome → e.result.isException →
      e.cString 0 e.exceptionValue ≠ none
  | .eval length _ =>
    e.contextFound → 1 ≤ length → e.result.isException → e.cString 0 e.exceptionValue ≠ none
  | .compile length _ =>
    e.contextFound → 1 ≤ length →
      if e.compiled.isException then e.cString 0 e.exceptionValue ≠ none else e.written ≠ none

/-! ## Native functions -/

theorem eventOn_handles : NativeHandles (eventOn argv) e listeners ↔
    (2 ≤ argv.length → (argument e argv 1).isFunction →
      e.cString 0 (argument e argv 0) ≠ none) := by
  by_cases h : 2 ≤ argv.length → (argument e argv 1).isFunction →
      e.cString 0 (argument e argv 0) ≠ none
  · refine iff_of_true (wp_mono ?_ (fun _ h => h) (eventOn_returns h)) h
    intro v s hs
    refine ⟨hs.nullPushed, fun hu => ⟨(hs.unconverted hu).1, (hs.unconverted hu).2, hs.stack, ?_⟩⟩
    intro c hc
    rw [hs.luaCalls] at hc
    cases hc
  · refine iff_of_false (fun hh => ?_) h
    simp only [Classical.not_imp, ne_eq, not_not] at h
    obtain ⟨hlen, hf, hname⟩ := h
    exact (wp_of_stops (eventOn_stops hlen hf hname)).1 hh

theorem portsChange_handles (setter : String) :
    NativeHandles (portsChange setter argv) e listeners ↔ TypesConvert e argv := by
  unfold TypesConvert
  generalize ha : argument e argv 0 = a0
  cases hnames : e.ownNames a0 with
  | none =>
    simp [NativeHandles, portsChange, ha, hnames, State.entry, State.slot]
  | some atoms =>
    simp [NativeHandles, portsChange, ha, hnames, State.entry, State.slot, Nat.one_le_iff_ne_zero]
    refine imp_congr_right fun _ => imp_congr_right fun _ => imp_congr_right fun _ => ?_
    by_cases hconv : PortsConvert e a0 0 0 atoms
    · refine (wp_iff_of (setPorts_converts (h := 0) rfl rfl (by simp) hconv) ?_).trans
        (iff_of_true trivial hconv)
      intro _ t ht
      simp [ht.nullPushed, ht.unconverted]
    · exact (wp_of_stops (setPorts_stops (h := 0) rfl rfl (by simp) hconv)).trans
        (iff_of_false id hconv)

theorem consoleLog_handles : NativeHandles (consoleLog argv) e listeners ↔
    (1 ≤ argv.length → (e.luaCall 1).toBool →
      ∀ k, ∀ h : k < argv.length, e.cString k (argv.get ⟨k, h⟩) ≠ none) := by
  obtain ⟨hle, hall⟩ := length_texts e argv 0
  simp only [Nat.zero_add] at hall
  rw [← hall]
  simp [NativeHandles, consoleLog, wp_pushStrings, State.entry, State.slot, Nat.one_le_iff_ne_zero]
  refine imp_congr_right fun _ => imp_congr_right fun _ => ?_
  omega

theorem outputsTrigger_handles [Double R] : NativeHandles (outputsTrigger argv) e listeners ↔
    (2 ≤ argv.length → (argument e argv 0).isString → (e.luaCall 1).toBool →
      e.cString 0 (argument e argv 0) ≠ none ∧ ∃ outputType,
        (e.luaCall 2).toText = some outputType ∧
          outputNull e outputType (argument e argv 1) = false) := by
  by_cases hlen : 2 ≤ argv.length
  swap
  · simp [NativeHandles, outputsTrigger, State.entry, hlen, Nat.not_le.1 hlen]
  cases hname : (argument e argv 0).isString with
  | false => simp [NativeHandles, outputsTrigger, State.entry, hname]
  | true =>
    cases hvalid : (e.luaCall 1).toBool with
    | false => simp [NativeHandles, outputsTrigger, State.entry, State.slot, hname, hvalid]
    | true =>
      cases htype : (e.luaCall 2).toText with
      | none =>
        refine iff_of_false (fun hh => ?_) (by simp [hlen])
        exact (wp_of_stops (outputsTrigger_stops hlen hname hvalid htype)).1 hh
      | some outputType =>
        refine (wp_iff_of (outputsTrigger_returns hlen hname hvalid htype)
          (C := e.cString 0 (argument e argv 0) ≠ none ∧
            outputNull e outputType (argument e argv 1) = false) ?_).trans (by simp [hlen])
        intro v s hs
        rw [hs.nullPushed, hs.unconverted]
        cases e.cString 0 (argument e argv 0) <;>
          cases outputNull e outputType (argument e argv 1) <;> simp

/-! ## Host entries -/

theorem luaString_spec (text : Option String) :
    luaString text = (.nil : LuaValue R) ∨ ∃ t, luaString text = (.string t : LuaValue R) := by
  cases text with
  | none => exact Or.inl rfl
  | some t => exact Or.inr ⟨t, rfl⟩

section Host

variable [Double R] {args : List (LuaValue R)}

theorem reports_run (ran : Prop) (threw : Bool) (text : Option String) (st : List (LuaValue R)) :
    Reports ran threw
      (luaString text :: .number (Double.ofNat (if threw then 1 else 0)) :: st) :=
  ⟨_, _, rfl, luaString_spec text, fun _ => rfl⟩

/-- What has run a script reports it well, and passes on a null pointer when what was thrown
has no string. -/
theorem Ran.handles {result : JSValue R} {t : State R} {ran : Prop} (h : Ran e result t) :
    (t.nullPushed = false ∧ Reports ran result.isException (t.stack.drop 0)) ↔
      (result.isException → e.cString 0 e.exceptionValue ≠ none) := by
  obtain ⟨st, hst⟩ := h.stack
  have hreports : Reports ran result.isException (t.stack.drop 0) := by
    rw [hst]
    exact reports_run _ _ _ _
  rw [h.nullPushed, reported, and_iff_left hreports]
  cases result.isException with
  | false => simp
  | true => simp [Option.isSome_iff_ne_none]

theorem reports_failure (message : String) {ran : Prop} {threw : Bool} (hran : ¬ ran)
    (st : List (LuaValue R)) :
    Reports ran threw (.string message :: .number (Double.ofNat 1) :: st) :=
  ⟨_, _, rfl, Or.inr ⟨message, rfl⟩, fun h => absurd h hran⟩

theorem luaEmitEvent_handles (eventName : String) (count : ℕ) :
    (Converter.emitEvent eventName count args).Handles e listeners ↔
      (e.contextFound → (listeners.lookup eventName).isSome → e.result.isException →
        e.cString 0 e.exceptionValue ≠ none) := by
  unfold Converter.Handles HostHandles
  cases hfound : e.contextFound with
  | false =>
    refine iff_of_true ?_ (by simp)
    simp [luaEmitEvent, pushFailure, State.entry, hfound, luaString, reports_failure]
  | true =>
    cases hlookup : listeners.lookup eventName with
    | none =>
      refine iff_of_true ?_ (by simp)
      simp only [luaEmitEvent, State.entry, hfound, hlookup, wp_bind, wp_read, Bool.not_true,
        Bool.false_eq_true, if_false, wp_get, wp_pushNumber, wp_pushNil]
      exact ⟨trivial, _, _, rfl, Or.inl rfl, fun h => by simp at h⟩
    | some callback =>
      refine (wp_iff_of (luaEmitEvent_returns hfound hlookup) fun _ t ht => ht.1.handles).trans ?_
      simp

theorem luaEval_handles (length : ℕ) :
    (Converter.eval length args).Handles e listeners ↔
      (e.contextFound → 1 ≤ length → e.result.isException →
        e.cString 0 e.exceptionValue ≠ none) := by
  unfold Converter.Handles HostHandles
  cases hfound : e.contextFound with
  | false =>
    refine iff_of_true ?_ (by simp)
    simp [luaEval, pushFailure, State.entry, hfound, luaString, reports_failure]
  | true =>
    by_cases hlen : 1 ≤ length
    · refine (wp_iff_of (luaEval_returns hfound hlen) fun _ t ht => ht.1.handles).trans ?_
      simp [hlen]
    · refine iff_of_true ?_ (by simp [hlen])
      have hlen' : length < 1 := by omega
      simp only [luaEval, pushFailure, State.entry, hfound, hlen', wp_bind, wp_read, Bool.not_true,
        Bool.false_eq_true, if_false, if_true, wp_pushNumber, wp_pushString]
      exact ⟨rfl, reports_failure _ (by simp [hlen]) _⟩

theorem luaCompile_handles (length : ℕ) :
    (Converter.compile length args).Handles e listeners ↔
      (e.contextFound → 1 ≤ length →
        if e.compiled.isException then e.cString 0 e.exceptionValue ≠ none
        else e.written ≠ none) := by
  unfold Converter.Handles HostHandles
  cases hfound : e.contextFound with
  | false =>
    refine iff_of_true ?_ (by simp)
    simp [luaCompile, pushFailure, State.entry, hfound, luaString, reports_failure]
  | true =>
    by_cases hlen : 1 ≤ length
    swap
    · refine iff_of_true ?_ (by simp [hlen])
      have hlen' : length < 1 := by omega
      simp only [luaCompile, pushFailure, State.entry, hfound, hlen, hlen', wp_bind, wp_read,
        Bool.not_true, Bool.false_eq_true, if_false, if_true, wp_pushNumber, wp_pushString, and_false]
      exact ⟨rfl, reports_failure _ (by simp) _⟩
    have hlen' : ¬ length < 1 := by omega
    simp only [luaCompile, State.entry, hfound, hlen, hlen', wp_bind, wp_read, Bool.not_true,
      Bool.false_eq_true, if_false, if_true, wp_acquire, and_self, forall_const]
    cases hthrew : e.compiled.isException with
    | true =>
      simp only [if_true, wp_bind, wp_acquire, wp_toCString, wp_pushNumber, wp_pushString,
        wp_pushNil, wp_freeCString, wp_freeValue]
      rw [wp_release_of_eq (k := 0 + e.compiled.refs + e.exceptionValue.refs) rfl,
        wp_release_of_eq (k := 0 + e.compiled.refs) rfl, wp_release_of_eq (k := 0) rfl]
      have hreports := reports_run (R := R) True true
        ((e.cString 0 e.exceptionValue).map CString.text) []
      simpa [Option.isSome_iff_ne_none] using fun _ => hreports
    | false =>
      simp only [Bool.false_eq_true, if_false, wp_bind, wp_pushNumber, wp_pushString, wp_freeValue]
      rw [wp_release_of_eq (k := 0) rfl]
      have hreports := reports_run (R := R) True false e.written []
      simpa [Option.isSome_iff_ne_none] using fun _ => hreports

end Host

/-! ## All calls -/

/-- **Failed conversions are handled exactly when `Converts`.** -/
theorem Converter.handles_iff [Double R] (c : Converter R) (e : Env R)
    (listeners : ListenerTable (JSValue R)) : c.Handles e listeners ↔ c.Converts e listeners := by
  cases c with
  | eventOn argv => exact eventOn_handles
  | inputsChange argv => exact portsChange_handles "SetInputs"
  | outputsChange argv => exact portsChange_handles "SetOutputs"
  | outputsTrigger argv => exact outputsTrigger_handles
  | consoleLog argv => exact consoleLog_handles
  | emitEvent eventName count args => exact luaEmitEvent_handles eventName count
  | eval length args => exact luaEval_handles length
  | compile length args => exact luaCompile_handles length

/-- A symbol as the name of an event: `Events.on(Symbol(), f)`. -/
theorem symbol_unhandled :
    ¬ (Converter.eventOn [.other 0, .object 1 true]).Handles Env.silent .empty := by
  intro h
  have hname := eventOn_handles.1 h (by decide) rfl
  exact hname rfl

end JSChip.Native
