import JSChip.Proof.Isolation

/-!
# The op budget of a host entry

Each `JS_Eval`, and each `JS_EmitEvent` that reaches a listener, starts with `set_ops(ctx, 0)`.
The counter belongs to the context, so an entry into a context that already runs one throws
away what the outer entry has been charged.

* `charged_step`: a step that meets `KeepsCharges` leaves every entry with no more spent than
  the counter of its context shows.
* `within_budget`: **a run whose steps all meet it spends at most 25000 in every entry.**
* `selfTrigger_overspends`: a chip whose output is wired to its own input spends 40000 in
  one tick.
-/

namespace JSChip

open Machine

namespace Server

variable {F : Type}

/-- No entry has spent more than the limit. -/
def WithinBudget (s : Server F) : Prop := ∀ f ∈ s.frames, f.spent ≤ 25000

/-- The step loses no charge: a nested entry into a context that has an entry already comes
when nothing has been charged there, and the counter does not pass the end of `uint64_t`. -/
def KeepsCharges (s : Server F) : Action F → Prop
  | .triggerInput e => ∀ i c, s.Reaches e "input" i → s.contexts i = some c →
      (∃ f ∈ s.frames, f.slot = i) → c.meter.opCount = 0
  | .meter cost => ∀ f ∈ s.frames.head?, ∀ c, s.contexts f.slot = some c →
      c.meter.opCount.toNat + cost < 2 ^ 64
  | _ => True

/-! ## Limits -/

/-- Every context has the limit it was created with. -/
def Limited (t : ContextTable F) : Prop := ∀ i c, t i = some c → c.meter.opLimit = 25000

variable {t : ContextTable F} {i : Fin maxContexts}

theorem Limited.modify (h : Limited t) {g : Context F → Context F}
    (hg : ∀ c, (g c).meter.opLimit = c.meter.opLimit) : Limited (t.modify i g) := by
  intro j c hc
  rcases eq_or_ne j i with rfl | hj
  · simp only [ContextTable.modify, Function.update_self, Option.map_eq_some_iff] at hc
    obtain ⟨c₀, hc₀, rfl⟩ := hc
    exact (hg c₀).trans (h j c₀ hc₀)
  · rw [ContextTable.modify, Function.update_of_ne hj] at hc
    exact h j c hc

theorem Limited.freeSlot (h : Limited t) : Limited (freeSlot t i) := by
  intro j c hc
  rcases eq_or_ne j i with rfl | hj
  · simp [JSChip.freeSlot] at hc
  · rw [JSChip.freeSlot, Function.update_of_ne hj] at hc
    exact h j c hc

theorem Limited.create (h : Limited t) {t' : ContextTable F} {e entIndex ownerIndex : ℕ}
    (hcreate : luaCreateContext t e entIndex ownerIndex = .ok (i, t')) : Limited t' := by
  obtain ⟨-, rfl, -⟩ := luaCreateContext_ok hcreate
  intro j c hc
  rcases eq_or_ne j i with rfl | hj
  · rw [Function.update_self, Option.some.injEq] at hc
    subst hc; rfl
  · rw [Function.update_of_ne hj] at hc
    exact h j c hc

theorem Limited.givesUp {s : Server F} (h : Limited s.contexts) (e : ℕ) : Limited (s.givesUp e) := by
  unfold Server.givesUp
  split
  · exact h.freeSlot
  · exact h

theorem Limited.leftClickUpdate {s : Server F} (h : Limited s.contexts) (e : ℕ) (ply : Player) :
    Limited (s.leftClickUpdate e ply).contexts := by
  by_cases he : (s.chips e).isSome
  · rcases leftClickUpdate_spec ply he with ⟨j, entIndex, hcreate, -⟩ | ⟨-, htable, -⟩
    · exact (h.givesUp e).create hcreate
    · rw [htable]; exact h
  · rw [Server.leftClickUpdate, Option.not_isSome_iff_eq_none.1 he]; exact h

/-! ## The invariant -/

/-- **What an entry has spent is on the counter of its context**, and within the limit. -/
structure Charged (s : Server F) : Prop where
  wf : s.Wf
  limited : Limited s.contexts
  within : s.WithinBudget
  counted : ∀ f ∈ s.frames, ∀ c, s.contexts f.slot = some c → f.spent ≤ c.meter.opCount.toNat

variable {s s' : Server F} {e : ℕ}

theorem init_charged : (init : Server F).Charged :=
  ⟨init_wf, fun _ _ h => (nomatch h), fun _ h => absurd h List.not_mem_nil,
    fun _ h => absurd h List.not_mem_nil⟩

/-- With no script running, only the limits matter. -/
theorem Charged.of_idle (hwf : s.Wf) (hlim : Limited s.contexts) (hidle : s.frames = []) : s.Charged :=
  ⟨hwf, hlim, by simp [WithinBudget, hidle], by simp [hidle]⟩

theorem Charged.quiet (h : s.Charged) (hwf : s'.Wf) (hquiet : Quiet s s') : s'.Charged := by
  obtain ⟨htable, hframes⟩ := hquiet
  refine ⟨hwf, ?_, ?_, ?_⟩
  · rw [htable]; exact h.limited
  · rw [WithinBudget, hframes]; exact h.within
  · rw [htable, hframes]; exact h.counted

/-- **An entry** sets the counter of its context to 0, which is right if no other entry into
that context has been charged. -/
theorem Charged.enters (h : s.Charged) (hwf : s'.Wf) {cont : Continuation}
    (henters : Enters s s' e i cont)
    (hlost : ∀ f ∈ s.frames, f.slot = i → ∀ c, s.contexts i = some c → c.meter.opCount = 0) :
    s'.Charged := by
  obtain ⟨htable, hframes⟩ := henters
  refine ⟨hwf, ?_, ?_, ?_⟩
  · rw [htable]; exact h.limited.modify fun _ => rfl
  · rw [WithinBudget, hframes]
    intro f hf
    rcases List.mem_cons.1 hf with rfl | hf
    · exact Nat.zero_le _
    · exact h.within f hf
  · rw [htable, hframes]
    intro f hf c hc
    rcases List.mem_cons.1 hf with rfl | hf
    · exact Nat.zero_le _
    · by_cases hslot : f.slot = i
      · -- an outer entry of the same context had spent nothing
        rw [hslot, ContextTable.modify, Function.update_self, Option.map_eq_some_iff] at hc
        obtain ⟨c₀, hc₀, rfl⟩ := hc
        have hspent := h.counted f hf c₀ (hslot ▸ hc₀)
        rw [hlost f hf hslot c₀ hc₀] at hspent
        exact hspent
      · rw [ContextTable.modify, Function.update_of_ne hslot] at hc
        exact h.counted f hf c hc

/-- **A metered instruction** that completes brings the counter to at most the limit. -/
theorem Charged.meter (h : s.Charged) {cost : ℕ} (hwf : (s.meter i cost).Wf)
    (hroom : ∀ c, s.contexts i = some c → c.meter.opCount.toNat + cost < 2 ^ 64) :
    (s.meter i cost).Charged := by
  cases hc : s.contexts i with
  | none =>
    have hsame : s.meter i cost = s := by rw [Server.meter, hc]
    rw [hsame]; exact h
  | some c =>
    have hcount := handleOpLimit_opCount (hroom c hc)
    have htable : (s.meter i cost).contexts =
        s.contexts.modify i fun c' => { c' with meter := (handleOpLimit c.meter cost).2 } := by
      rw [Server.meter, hc]
    -- the context of an entry afterwards: the same one, with the new counter in slot `i`
    have hafter : ∀ j c', (s.meter i cost).contexts j = some c' →
        (j = i ∧ c'.meter = (handleOpLimit c.meter cost).2) ∨ (j ≠ i ∧ s.contexts j = some c') := by
      intro j c' hj
      rw [htable] at hj
      rcases eq_or_ne j i with rfl | hji
      · rw [ContextTable.modify, Function.update_self, hc, Option.map_some, Option.some.injEq] at hj
        exact Or.inl ⟨rfl, hj ▸ rfl⟩
      · rw [ContextTable.modify, Function.update_of_ne hji] at hj
        exact Or.inr ⟨hji, hj⟩
    have hlim : c.meter.opLimit = 25000 := h.limited i c hc
    have hlimited : Limited (s.meter i cost).contexts := by
      intro j c' hj
      rcases hafter j c' hj with ⟨-, hm⟩ | ⟨-, hj⟩
      · rw [hm, handleOpLimit_opLimit, hlim]
      · exact h.limited j c' hj
    cases hpass : (handleOpLimit c.meter cost).1 with
    | true =>
      have hframes : (s.meter i cost).frames = s.frames := by simp [Server.meter, hc, hpass]
      refine ⟨hwf, hlimited, by rw [WithinBudget, hframes]; exact h.within, ?_⟩
      rw [hframes]
      intro f hf c' hj
      rcases hafter f.slot c' hj with ⟨hslot, hm⟩ | ⟨-, hj⟩
      · have hspent := h.counted f hf c (hslot ▸ hc)
        rw [hm, hcount]; omega
      · exact h.counted f hf c' hj
    | false =>
      have hframes : (s.meter i cost).frames =
          s.frames.map fun f => if f.slot = i then { f with spent := f.spent + cost } else f := by
        simp [Server.meter, hc, hpass]
      have hle := handleOpLimit_eq_false.1 hpass
      rw [hlim, hcount] at hle
      have hlimit : (25000 : UInt64).toNat = 25000 := rfl
      rw [hlimit] at hle
      refine ⟨hwf, hlimited, ?_, ?_⟩
      · rw [WithinBudget, hframes]
        intro f hf
        obtain ⟨f₀, hf₀, rfl⟩ := List.mem_map.1 hf
        split
        · rename_i hslot
          have hspent := h.counted f₀ hf₀ c (hslot ▸ hc)
          simp only; omega
        · exact h.within f₀ hf₀
      · rw [hframes]
        intro f hf c' hj
        obtain ⟨f₀, hf₀, rfl⟩ := List.mem_map.1 hf
        split at hj
        · rename_i hslot
          have hspent := h.counted f₀ hf₀ c (hslot ▸ hc)
          rcases hafter _ c' hj with ⟨-, hm⟩ | ⟨hne, -⟩
          · rw [if_pos hslot, hm, hcount]; simp only; omega
          · exact absurd hslot hne
        · rename_i hslot
          rcases hafter _ c' hj with ⟨heq, -⟩ | ⟨-, hj⟩
          · exact absurd heq hslot
          · rw [if_neg hslot]; exact h.counted f₀ hf₀ c' hj

theorem Charged.on (h : s.Charged) {name : String} {g : F} (hwf : (s.on i name g).Wf) :
    (s.on i name g).Charged := by
  refine ⟨hwf, h.limited.modify fun c => by rw [c.on_meter], h.within, fun f hf c hc => ?_⟩
  rcases eq_or_ne f.slot i with hslot | hslot
  · simp only [Server.on, hslot, ContextTable.modify, Function.update_self,
      Option.map_eq_some_iff] at hc
    obtain ⟨c₀, hc₀, rfl⟩ := hc
    rw [c₀.on_meter]; exact h.counted f hf c₀ (hslot ▸ hc₀)
  · simp only [Server.on, ContextTable.modify, Function.update_of_ne hslot] at hc
    exact h.counted f hf c hc

/-- No entry of a context is lost when none is running. -/
theorem not_lost_idle (hidle : s.frames = []) : ∀ f ∈ s.frames, f.slot = i →
    ∀ c, s.contexts i = some c → c.meter.opCount = 0 := by
  simp [hidle]

/-! ## Every step -/

/-- **A step that meets `KeepsCharges` keeps what is spent on the counters.** -/
theorem charged_step (h : s.Charged) {a : Action F} (hok : s.KeepsCharges a)
    (hstep : s.step a = some s') : s'.Charged := by
  have hwf := wf_step h.wf hstep
  cases a with
  | makeEnt index ply =>
    simp only [step, Option.ite_none_right_eq_some, Option.some.injEq] at hstep
    obtain ⟨hidle, rfl⟩ := hstep
    exact Charged.of_idle hwf (h.limited.leftClickUpdate (s := s.makeWireEnt index) _ ply)
      (((s.makeWireEnt index).leftClickUpdate_frame _ ply).1.trans hidle)
  | leftClickUpdate e ply =>
    simp only [step, Option.ite_none_right_eq_some, Option.some.injEq] at hstep
    obtain ⟨⟨hidle, -⟩, rfl⟩ := hstep
    exact Charged.of_idle hwf (h.limited.leftClickUpdate e ply)
      ((s.leftClickUpdate_frame e ply).1.trans hidle)
  | paste index ownerIndex script result =>
    simp only [step, Option.ite_none_right_eq_some, Option.some.injEq] at hstep
    obtain ⟨hidle, rfl⟩ := hstep
    have hspawn : (s.makeWireEnt index).Charged :=
      Charged.of_idle (h.wf.makeWireEnt index) h.limited hidle
    obtain ⟨-, -, ⟨-, hquiet⟩ | ⟨i, t, hcreate, hcases⟩⟩ :=
      (s.makeWireEnt index).applyDupeInfo_spec s.nextEntity index ownerIndex script result
    · exact hspawn.quiet hwf hquiet
    · have hcreated : ({ s.makeWireEnt index with contexts := t } : Server F).Charged :=
        Charged.of_idle (hspawn.wf.create hcreate).1 (h.limited.create hcreate) hidle
      rcases hcases with ⟨-, hquiet⟩ | ⟨-, henters⟩
      · exact hcreated.quiet hwf hquiet
      · exact hcreated.enters hwf henters (not_lost_idle hidle)
  | upload e script result =>
    simp only [step, Option.ite_none_right_eq_some, Option.some.injEq] at hstep
    obtain ⟨⟨hidle, -⟩, rfl⟩ := hstep
    obtain ⟨-, -, hquiet | ⟨i, henters⟩⟩ := uploadComplete_spec h.wf e script result
    · exact h.quiet hwf hquiet
    · exact h.enters hwf henters (not_lost_idle hidle)
  | validate ply script result =>
    simp only [step, Option.ite_none_right_eq_some, Option.some.injEq] at hstep
    obtain ⟨hidle, rfl⟩ := hstep
    obtain ⟨-, -, hframes, htable, -⟩ := s.validateComplete_spec ply script result
    rcases htable with ⟨-, htable⟩ | ⟨-, i, hcreate⟩
    · exact h.quiet hwf ⟨htable, hframes⟩
    · exact Charged.of_idle hwf (h.limited.create hcreate) (hframes.trans hidle)
  | think e =>
    simp only [step, Option.ite_none_right_eq_some, Option.some.injEq] at hstep
    obtain ⟨⟨hidle, -⟩, rfl⟩ := hstep
    obtain ⟨-, hquiet | ⟨i, -, henters⟩⟩ := emitEvent_spec h.wf e "tick"
    · exact h.quiet hwf hquiet
    · exact h.enters hwf henters (not_lost_idle hidle)
  | triggerInput e =>
    simp only [step, Option.ite_none_right_eq_some, Option.some.injEq] at hstep
    obtain ⟨-, rfl⟩ := hstep
    obtain ⟨-, hquiet | ⟨i, hreach, henters⟩⟩ := emitEvent_spec h.wf e "input"
    · exact h.quiet hwf hquiet
    · exact h.enters hwf henters fun f hf hslot c hc => hok i c hreach hc ⟨f, hf, hslot⟩
  | remove e =>
    simp only [step, Option.ite_none_right_eq_some, Option.some.injEq] at hstep
    obtain ⟨⟨hidle, -⟩, rfl⟩ := hstep
    obtain ⟨htable, -, -, hframes, -⟩ := s.onRemove_spec e
    refine Charged.of_idle hwf ?_ (hframes.trans hidle)
    rw [htable]; exact h.limited.givesUp e
  | meter cost =>
    simp only [step, Option.map_eq_some_iff] at hstep
    obtain ⟨f, hf, rfl⟩ := hstep
    exact h.meter hwf (hok f hf)
  | on name g =>
    simp only [step, Option.map_eq_some_iff] at hstep
    obtain ⟨f, -, rfl⟩ := hstep
    exact h.on hwf
  | ret threw =>
    simp only [step] at hstep
    split at hstep
    · rename_i f fs hframes
      cases hstep
      have hmem : ∀ f' ∈ fs, f' ∈ s.frames := by
        intro f' hf'; rw [hframes]; exact List.mem_cons_of_mem _ hf'
      refine ⟨hwf, ?_, ?_, ?_⟩
      · rw [resume_contexts]; exact h.limited
      · rw [WithinBudget, resume_frames]; exact fun f' hf' => h.within f' (hmem f' hf')
      · rw [resume_contexts, resume_frames]; exact fun f' hf' => h.counted f' (hmem f' hf')
    · cases hstep

/-- **The op budget.** A run whose steps all keep the charges spends, in every host entry, at
most 25000 between the entry and its return. -/
theorem within_budget (as : List (Action F)) (h : Along step KeepsCharges (init : Server F) as) :
    Always step WithinBudget (init : Server F) as :=
  always_of_along (fun _ h => h.within) (fun _ _ _ h hok hstep => charged_step h hok hstep) as
    init_charged h

/-! ## A chip that triggers itself -/

/-- A player. -/
def somePlayer : Player := ⟨100, ⟨1, by decide⟩⟩

/-- Bytecode. -/
def someBytecode : Compiled := .ok (some "bytecode")

/-- A chip is spawned and gets a script that listens to `tick` and `input`; the next tick
enters the `tick` listener. -/
def enterTick : List (Action ℕ) :=
  [.makeEnt ⟨2, by decide⟩ somePlayer, .upload 0 "script" someBytecode, .on "tick" 0,
    .on "input" 1, .ret false, .think 0]

/-- A chip listens to `input`, and another chip to `tick`. The `tick` listener triggers an output
that is wired to the first chip, and goes on when the `input` listener has returned. -/
def triggerOther : List (Action ℕ) :=
  [.makeEnt ⟨2, by decide⟩ somePlayer, .upload 0 "input" someBytecode, .on "input" 1, .ret false,
    .makeEnt ⟨3, by decide⟩ somePlayer, .upload 1 "tick" someBytecode, .on "tick" 0, .ret false,
    .think 1, .meter 3, .triggerInput 0, .meter 5, .ret false, .meter 7]

/-- The entry of another context leaves the counter of the `tick` listener alone. -/
theorem within_budget_trigger_other : Always step WithinBudget (init : Server ℕ) triggerOther := by
  refine within_budget _ ?_
  refine (along_cons rfl _).2 ⟨trivial, (along_cons rfl _).2 ⟨trivial, (along_cons rfl _).2 ⟨trivial,
    (along_cons rfl _).2 ⟨trivial, (along_cons rfl _).2 ⟨trivial, (along_cons rfl _).2 ⟨trivial,
    (along_cons rfl _).2 ⟨trivial, (along_cons rfl _).2 ⟨trivial, (along_cons rfl _).2 ⟨trivial,
    (along_cons rfl _).2 ⟨?_, (along_cons rfl _).2 ⟨?_, (along_cons rfl _).2 ⟨?_,
    (along_cons rfl _).2 ⟨trivial, (along_cons rfl _).2 ⟨?_, trivial⟩⟩⟩⟩⟩⟩⟩⟩⟩⟩⟩⟩⟩⟩
  · intro f hf c hc
    cases hf
    cases hc
    decide
  · -- the only entry is in the other slot
    rintro i c ⟨chip, c', hchip, -, hctx, -, -⟩ - ⟨f, hf, hslot⟩
    cases hchip
    cases hctx
    obtain rfl := List.mem_singleton.1 hf
    cases hslot
  · intro f hf c hc
    cases hf
    cases hc
    decide
  · intro f hf c hc
    cases hf
    cases hc
    decide

/-- One instruction of cost 1 in the only entry, with room for it. -/
theorem meter_completes {f : Frame} {c : Context F} (hframes : s.frames = [f])
    (hc : s.contexts f.slot = some c) (hlim : c.meter.opLimit = 25000)
    (hroom : c.meter.opCount.toNat + 1 ≤ 25000) :
    s.step (.meter 1) = some (s.meter f.slot 1) ∧
      (s.meter f.slot 1).frames = [{ f with spent := f.spent + 1 }] ∧
      (s.meter f.slot 1).chips = s.chips ∧
      (s.meter f.slot 1).contexts f.slot = some { c with meter := (handleOpLimit c.meter 1).2 } ∧
      (handleOpLimit c.meter 1).2.opCount.toNat = c.meter.opCount.toNat + 1 := by
  have hcount : (handleOpLimit c.meter 1).2.opCount.toNat = c.meter.opCount.toNat + 1 :=
    handleOpLimit_opCount (by omega)
  have hpass : (handleOpLimit c.meter 1).1 = false := by
    rw [handleOpLimit_eq_false, hcount, hlim]; exact hroom
  refine ⟨by simp [step, hframes], ?_, ?_, ?_, hcount⟩
  · simp [Server.meter, hc, hpass, hframes]
  · simp [Server.meter, hc]
  · simp [Server.meter, hc, ContextTable.modify]

/-- `n` instructions of cost 1 in the only entry, with room for them. -/
theorem run_meter : ∀ (n : ℕ) {s : Server F} {f : Frame} {c : Context F}, s.frames = [f] →
    s.contexts f.slot = some c → c.meter.opLimit = 25000 → c.meter.opCount.toNat + n ≤ 25000 →
    ∃ s' c', run step s (List.replicate n (.meter 1)) = some s' ∧
      s'.frames = [{ f with spent := f.spent + n }] ∧ s'.chips = s.chips ∧
      s'.contexts f.slot = some c' ∧ c'.listeners = c.listeners ∧ c'.meter.opLimit = 25000 := by
  intro n
  induction n with
  | zero => intro s f c hframes hc hlim _; exact ⟨s, c, rfl, hframes, rfl, hc, rfl, hlim⟩
  | succ n ih =>
    intro s f c hframes hc hlim hroom
    obtain ⟨hstep, hframes₁, hchips₁, hc₁, hcount⟩ := meter_completes hframes hc hlim (by omega)
    have hroom₁ : (handleOpLimit c.meter 1).2.opCount.toNat + n ≤ 25000 := by omega
    obtain ⟨s', c', hrun, hframes', hchips', hc', hlisteners, hlim'⟩ := ih hframes₁ hc₁ hlim hroom₁
    refine ⟨s', c', ?_, ?_, hchips'.trans hchips₁, hc', hlisteners, hlim'⟩
    · rw [List.replicate_succ, run_cons_of hstep]; exact hrun
    · rw [hframes', Nat.add_assoc, Nat.add_comm 1 n]

/-- A chip's own input is triggered and its listener returns at once: the counter is 0. -/
theorem nested_returns {index : EntIndex} {script : Option String} {c : Context F} {g : F}
    (hchip : s.chips e = some ⟨index, some i, true, script⟩) (hc : s.contexts i = some c)
    (hlook : c.listeners.lookup "input" = some g) :
    ∃ s', run step s [.triggerInput e, .ret false] = some s' ∧ s'.frames = s.frames ∧
      s'.contexts i = some c.resetOps := by
  have hstep : s.step (.triggerInput e) = some ((s.logCall .emitEvent e i).enter e i .emit) := by
    simp [step, hchip, triggerInput, emitEvent, jsEmitEvent, hc, hlook]
  refine ⟨{ (s.logCall .emitEvent e i).enter e i .emit with frames := s.frames }, ?_, rfl, ?_⟩
  · rw [run_cons_of hstep]; rfl
  · simp [enter, ContextTable.modify, hc]

/-- The listener runs 20000 instructions, triggers the chip's own input, whose listener returns
at once, and runs 20000 more. -/
def selfTrigger : List (Action ℕ) :=
  enterTick ++ (List.replicate 20000 (.meter 1) ++
    ([.triggerInput 0, .ret false] ++ List.replicate 20000 (.meter 1)))

/-- **One tick spends 40000.** -/
theorem selfTrigger_overspends : ¬ Always step WithinBudget (init : Server ℕ) selfTrigger := by
  intro h
  -- the tick listener runs in slot 0
  obtain ⟨s₁, c₁, hrun₁, hframes₁, hchip₁, hc₁, hlim₁, hcount₁, hlook₁⟩ :
      ∃ s₁ c₁, run step (init : Server ℕ) enterTick = some s₁ ∧
        s₁.frames = [⟨0, firstSlot, 0, .emit⟩] ∧
        s₁.chips 0 = some ⟨⟨2, by decide⟩, some firstSlot, true, some "script"⟩ ∧
        s₁.contexts firstSlot = some c₁ ∧ c₁.meter.opLimit = 25000 ∧ c₁.meter.opCount.toNat = 0 ∧
        c₁.listeners.lookup "input" = some 1 := ⟨_, _, rfl, rfl, rfl, rfl, rfl, rfl, rfl⟩
  obtain ⟨s₂, c₂, hrun₂, hframes₂, hchips₂, hc₂, hlisteners₂, hlim₂⟩ :=
    run_meter 20000 hframes₁ hc₁ hlim₁ (by omega)
  -- the nested entry sets the counter to 0
  obtain ⟨s₃, hrun₃, hframes₃, hc₃⟩ :=
    nested_returns (hchips₂ ▸ hchip₁) hc₂ (hlisteners₂ ▸ hlook₁)
  have hcount₃ : c₂.resetOps.meter.opCount.toNat = 0 := rfl
  obtain ⟨s₄, -, hrun₄, hframes₄, -⟩ := run_meter 20000 (hframes₃.trans hframes₂) hc₃ hlim₂ (by omega)
  have hrun : run step (init : Server ℕ) selfTrigger = some s₄ := by
    rw [selfTrigger, run_append_of hrun₁, run_append_of hrun₂, run_append_of hrun₃, hrun₄]
  have hspent := h.last hrun _ (by rw [hframes₄]; exact List.mem_singleton_self _)
  simp only at hspent
  omega

end Server

end JSChip
