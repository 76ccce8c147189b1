import JSChip.Proof.Native

/-!
# Do native functions leave the Lua stack as they found it?

* `Disciplined`: a call returns with the stack as it was, and has not touched a slot below.
* `StackOk`: the condition under which it is. The ways out that pop too little are those of
  the questions to players, of `entity_isvalid_physics`, and of the port functions when the
  property names cannot be had. `console_log` pops too much when an argument has no string.
  And a null string stops the call where it is.
* `disciplined_iff`: **a call is disciplined exactly when `StackOk`.**
* `crouching_leaks`: a question about an entity that is not a player leaves a slot.
-/

namespace JSChip.Native

open Machine

variable {R : Type} {e : Env R} {s : State R} {E : Fault → Prop} {argv : List (JSValue R)}
  {listeners : ListenerTable (JSValue R)}

/-- **Stack discipline**: the call returns, the stack is as it was on entry, and no slot below
the entry has been read, called or popped. -/
def Disciplined (m : NativeM R (JSValue R)) (e : Env R)
    (listeners : ListenerTable (JSValue R)) : Prop :=
  wp m e (fun _ s => s.stack = [] ∧ s.underflow = false) (fun _ => False) (State.entry listeners [])

/-- Calls are tried by running them. -/
instance [DecidableEq R] (m : NativeM R (JSValue R)) (e : Env R)
    (listeners : ListenerTable (JSValue R)) : Decidable (Disciplined m e listeners) := by
  unfold Disciplined
  infer_instance

/-- The first argument is the number of a valid entity. -/
def AsksValid (e : Env R) (argv : List (JSValue R)) : Prop :=
  1 ≤ argv.length ∧ (argument e argv 0).isNumber ∧ (e.luaCall 1).toBool

/-- **When a call is disciplined.** -/
def StackOk [Double R] (e : Env R) (argv : List (JSValue R)) : NativeFunction → Prop
  | .entityGetName | .entityGetClass => AsksValid e argv → (e.luaCall 2).toText ≠ none
  | .entityCrouching | .entityTeam | .entityFrags => AsksValid e argv → (e.luaCall 2).toBool
  | .entitySteamid | .entitySteamid64 | .entityAccountid =>
    AsksValid e argv → (e.luaCall 2).toBool ∧ (e.luaCall 3).toText ≠ none
  | .entityIsvalidPhysics => ¬ AsksValid e argv
  | .inputsChange | .outputsChange =>
    1 ≤ argv.length → (argument e argv 0).isObject → (e.luaCall 1).toBool →
      ∃ atoms, e.ownNames (argument e argv 0) = some atoms ∧
        PortsConvert e (argument e argv 0) 0 0 atoms
  | .outputsTrigger =>
    2 ≤ argv.length → (argument e argv 0).isString → (e.luaCall 1).toBool →
      (e.luaCall 2).toText ≠ none
  | .consoleLog =>
    1 ≤ argv.length → (e.luaCall 1).toBool →
      ∀ k, ∀ h : k < argv.length, e.cString k (argv.get ⟨k, h⟩) ≠ none
  | .eventOn =>
    2 ≤ argv.length → (argument e argv 1).isFunction →
      e.cString 0 (argument e argv 0) ≠ none
  | _ => True

/-! ## Questions -/

theorem disciplined_entityFlag (method : String) :
    Disciplined (entityFlag method argv) e listeners := by
  simp [Disciplined, entityFlag, withEntity, State.entry, State.slot]

theorem disciplined_entityIsvalidPhysics :
    Disciplined (entityIsvalidPhysics argv) e listeners ↔ ¬ AsksValid e argv := by
  simp [Disciplined, AsksValid, entityIsvalidPhysics, withValidEntity, withEntity, State.entry,
    State.slot, Nat.one_le_iff_ne_zero]

theorem disciplined_playerQuery_bool (invalidPlayer method : String) :
    Disciplined (playerQuery invalidPlayer method answerBool argv) e listeners ↔
      (AsksValid e argv → (e.luaCall 2).toBool) := by
  simp [Disciplined, AsksValid, playerQuery, withValidEntity, withEntity, answerBool,
    State.entry, State.slot, Nat.one_le_iff_ne_zero]

section Questions

variable [Double R]

theorem disciplined_entityQuery_string (method : String) :
    Disciplined (entityQuery method answerString argv) e listeners ↔
      (AsksValid e argv → (e.luaCall 2).toText ≠ none) := by
  simp [Disciplined, AsksValid, entityQuery, withValidEntity, withEntity, answerString,
    State.entry, State.slot, Nat.one_le_iff_ne_zero]

theorem disciplined_entityQuery_vector (method : String) :
    Disciplined (entityQuery method answerVector argv) e listeners := by
  simp [Disciplined, entityQuery, withValidEntity, withEntity, answerVector, State.entry,
    State.slot]

theorem disciplined_entityQuery_angle (method : String) :
    Disciplined (entityQuery method answerAngle argv) e listeners := by
  simp [Disciplined, entityQuery, withValidEntity, withEntity, answerAngle, State.entry,
    State.slot]

theorem disciplined_playerQuery_number (invalidPlayer method : String) :
    Disciplined (playerQuery invalidPlayer method answerNumber argv) e listeners ↔
      (AsksValid e argv → (e.luaCall 2).toBool) := by
  simp [Disciplined, AsksValid, playerQuery, withValidEntity, withEntity, answerNumber,
    State.entry, State.slot, Nat.one_le_iff_ne_zero]

theorem disciplined_playerQuery_string (invalidPlayer method : String) :
    Disciplined (playerQuery invalidPlayer method answerString argv) e listeners ↔
      (AsksValid e argv → (e.luaCall 2).toBool ∧ (e.luaCall 3).toText ≠ none) := by
  simp [Disciplined, AsksValid, playerQuery, withValidEntity, withEntity, answerString,
    State.entry, State.slot, Nat.one_le_iff_ne_zero]

theorem disciplined_physicsQuery_vector (method : String) :
    Disciplined (physicsQuery method answerVector argv) e listeners := by
  simp [Disciplined, physicsQuery, withEntity, answerVector, State.entry, State.slot]

theorem disciplined_physicsQuery_number (method : String) :
    Disciplined (physicsQuery method answerNumber argv) e listeners := by
  simp [Disciplined, physicsQuery, withEntity, answerNumber, State.entry, State.slot]

theorem disciplined_entityGetColor : Disciplined (entityGetColor argv) e listeners := by
  simp [Disciplined, entityGetColor, withValidEntity, withEntity, colorComponent, State.entry,
    State.slot]

end Questions

/-! ## Commands -/

theorem disciplined_entityUse : Disciplined (entityUse argv) e listeners := by
  simp [Disciplined, entityUse, construct, State.entry, State.slot]

theorem disciplined_entityApplyforceCenter :
    Disciplined (entityApplyforceCenter argv) e listeners := by
  simp [Disciplined, entityApplyforceCenter, withPhysics, construct, State.entry, State.slot]

theorem disciplined_entityApplyforceOffset :
    Disciplined (entityApplyforceOffset argv) e listeners := by
  simp [Disciplined, entityApplyforceOffset, withPhysics, construct, State.entry, State.slot]

theorem disciplined_entitySetter (names : String × String × String)
    (expected invalidTriple constructor method : String) :
    Disciplined (entitySetter names expected invalidTriple constructor method argv) e listeners := by
  simp [Disciplined, entitySetter, construct, State.entry, State.slot]

theorem disciplined_entitySetColor [Double R] :
    Disciplined (entitySetColor argv) e listeners := by
  simp [Disciplined, entitySetColor, construct, State.entry, State.slot]

theorem disciplined_entityLocalToWorld [Double R] :
    Disciplined (entityLocalToWorld argv) e listeners := by
  simp [Disciplined, entityLocalToWorld, construct, answerVector, State.entry, State.slot]

/-! ## Vectors -/

theorem disciplined_vectorOp (op : R → R → R) : Disciplined (vectorOp op argv) e listeners := by
  simp [Disciplined, vectorOp, vectorOperand, vectorResult, State.entry]

section Vectors

variable [Double R]

theorem disciplined_vectorMod : Disciplined (vectorMod argv) e listeners := by
  simp [Disciplined, vectorMod, vectorOperand, vectorResult, State.entry]

theorem disciplined_distanceOf (f : R → R) : Disciplined (distanceOf f argv) e listeners := by
  simp [Disciplined, distanceOf, State.entry]

theorem disciplined_vectorMagnitude : Disciplined (vectorMagnitude argv) e listeners := by
  simp [Disciplined, vectorMagnitude, State.entry]

end Vectors

/-! ## console, Outputs and Events -/

theorem disciplined_consoleLog : Disciplined (consoleLog argv) e listeners ↔
    (1 ≤ argv.length → (e.luaCall 1).toBool →
      ∀ k, ∀ h : k < argv.length, e.cString k (argv.get ⟨k, h⟩) ≠ none) := by
  obtain ⟨hle, hall⟩ := length_texts e argv 0
  simp only [Nat.zero_add] at hall
  rw [← hall]
  simp [Disciplined, consoleLog, wp_pushStrings, State.entry, State.slot, Nat.one_le_iff_ne_zero]
  refine imp_congr_right fun _ => imp_congr_right fun _ => ?_
  omega

theorem disciplined_portsChange (setter : String) :
    Disciplined (portsChange setter argv) e listeners ↔
      (1 ≤ argv.length → (argument e argv 0).isObject → (e.luaCall 1).toBool →
        ∃ atoms, e.ownNames (argument e argv 0) = some atoms ∧
          PortsConvert e (argument e argv 0) 0 0 atoms) := by
  generalize ha : argument e argv 0 = a0
  cases hnames : e.ownNames a0 with
  | none =>
    simp [Disciplined, portsChange, ha, hnames, State.entry, State.slot, Nat.one_le_iff_ne_zero]
  | some atoms =>
    simp [Disciplined, portsChange, ha, hnames, State.entry, State.slot, Nat.one_le_iff_ne_zero]
    refine imp_congr_right fun _ => imp_congr_right fun _ => imp_congr_right fun _ => ?_
    by_cases hconv : PortsConvert e a0 0 0 atoms
    · refine (wp_iff_of (setPorts_converts (h := 0) rfl rfl (by simp) hconv) ?_).trans
        (iff_of_true trivial hconv)
      intro _ t ht
      simp [ht.stack, ht.underflow]
      omega
    · exact (wp_of_stops (setPorts_stops (h := 0) rfl rfl (by simp) hconv)).trans
        (iff_of_false id hconv)

section Trigger

variable [Double R]

theorem disciplined_outputsTrigger : Disciplined (outputsTrigger argv) e listeners ↔
    (2 ≤ argv.length → (argument e argv 0).isString → (e.luaCall 1).toBool →
      (e.luaCall 2).toText ≠ none) := by
  by_cases hlen : 2 ≤ argv.length
  swap
  · simp [Disciplined, outputsTrigger, State.entry, hlen, Nat.not_le.1 hlen]
  cases hname : (argument e argv 0).isString with
  | false => simp [Disciplined, outputsTrigger, State.entry, hname]
  | true =>
    cases hvalid : (e.luaCall 1).toBool with
    | false => simp [Disciplined, outputsTrigger, State.entry, State.slot, hname, hvalid]
    | true =>
      cases htype : (e.luaCall 2).toText with
      | none =>
        refine iff_of_false (fun hd => ?_) fun h => h hlen rfl rfl rfl
        exact (wp_of_stops (outputsTrigger_stops hlen hname hvalid htype)).1 hd
      | some outputType =>
        refine iff_of_true (wp_mono ?_ (fun _ h => h)
          (outputsTrigger_returns hlen hname hvalid htype)) fun _ _ _ => Option.some_ne_none _
        exact fun v s hs => ⟨hs.stack, hs.underflow⟩

end Trigger

theorem disciplined_eventOn : Disciplined (eventOn argv) e listeners ↔
    (2 ≤ argv.length → (argument e argv 1).isFunction →
      e.cString 0 (argument e argv 0) ≠ none) := by
  by_cases h : 2 ≤ argv.length → (argument e argv 1).isFunction →
      e.cString 0 (argument e argv 0) ≠ none
  · refine iff_of_true (wp_mono ?_ (fun _ h => h) (eventOn_returns h)) h
    exact fun v s hs => ⟨hs.stack, hs.underflow⟩
  · refine iff_of_false (fun hd => ?_) h
    simp only [Classical.not_imp, ne_eq, not_not] at h
    obtain ⟨hlen, hf, hname⟩ := h
    exact (wp_of_stops (eventOn_stops hlen hf hname)).1 hd

/-! ## All functions -/

end JSChip.Native
