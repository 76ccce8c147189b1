import JSChip.Proof.Leak
import JSChip.Spec.Program

/-!
# Are the ids the handlers use of live contexts?

* `UsesLive`: each call the step makes with `self.ctx` of a chip is with the number of a slot
  that holds a context. `PassesCheckType`: its other arguments are not nil.
* `Supplied`: every chip has such a number, or is being pasted and does not run yet.
* `liveCalls_iff`: **all calls of all handlers are live, exactly when every chip that is spawned
  gets a context**: there is a free slot, and a pasted script result and does not throw. An upload
  that compiles must have bytecode.
* `pasteBroken_thinks`: `ENT:Think` of a pasted chip whose script does not compile.
-/

namespace JSChip.Server

open Machine

variable {F : Type} {s s' : Server F} {e : ℕ} {i : Fin maxContexts}

/-! ## What is used -/

/-- `self.ctx` is the number of an occupied slot. -/
def LiveCtx (s : Server F) (e : ℕ) : Prop := ∃ i, s.ctxOf e = some i ∧ (s.contexts i).isSome

/-- **The calls of a step with a chip's `ctx`.** -/
def UsesLive (s : Server F) : Action F → Prop
  -- `if chip.ctx then JS_FreeContext(chip.ctx)`
  | .leftClickUpdate e _ => s.ctxOf e ≠ none → s.LiveCtx e
  -- `JS_Compile` and `JS_Eval`
  | .upload e _ _ => s.LiveCtx e
  -- `JS_EmitEvent` if it runs, and `JS_GetOps` in any case
  | .think e => s.LiveCtx e
  | .triggerInput e => s.Runs e → s.LiveCtx e
  | .remove e => s.LiveCtx e
  -- the `JS_GetOps` of a `Think` that was in a script
  | .ret threw => ∀ f fs, s.frames = f :: fs → f.cont = .emit →
      (({ s with frames := fs } : Server F).resume f.chip f.slot threw f.cont).LiveCtx f.chip
  | _ => True

/-- Whatever happens next, its calls are live. -/
def LiveCalls (s : Server F) : Prop := ∀ a, (s.step a).isSome → s.UsesLive a

/-- **No `CheckType` fails on another argument.** The upload handler gives `JS_Eval` what
`JS_Compile` returned, which is nil when the bytecode could not be written. -/
def PassesCheckType (s : Server F) : Action F → Prop
  | .upload e script (.ok none) => s.ctxOf e ≠ none → script = ""
  | _ => True

/-- The step leaves no chip without a context: a free slot is there for a new chip, and a
pasted script compiles to bytecode and returns. An uploaded script that compiles has bytecode. -/
def GetsContext (s : Server F) : Action F → Prop
  | .makeEnt _ _ => ∃ i, s.contexts i = none
  | .paste _ ownerIndex script result =>
    ownerIndex ≠ 0 ∧ (∃ i, s.contexts i = none) ∧ Compiles script result
  | .upload _ script (.ok none) => script = ""
  | .ret threw => ∀ f ∈ s.frames.head?, f.cont = .dupeEval → threw = false
  | _ => True

/-! ## A chip that runs has a context -/

/-- No chip runs without an id. -/
def Sound (s : Server F) : Prop := ∀ e chip, s.chips e = some chip → chip.run = true → chip.ctx ≠ none

theorem Sound.of_chips (h : s.Sound) (hchips : s'.chips = s.chips) : s'.Sound := by
  unfold Sound
  rw [hchips]
  exact h

theorem Sound.logCall (h : s.Sound) (n : ApiFunction) (e : ℕ) (i : Fin maxContexts) :
    (s.logCall n e i).Sound := h.of_chips rfl

/-- Assigning fields of a chip, so that it has an id if it runs. -/
theorem Sound.setChip (h : s.Sound) {g : Chip → Chip}
    (hg : ∀ chip, s.chips e = some chip → (g chip).run = true → (g chip).ctx ≠ none) :
    (s.setChip e g).Sound := by
  intro e' chip' hchip'
  rcases eq_or_ne e' e with rfl | hne
  · simp only [Server.setChip, Function.update_self, Option.map_eq_some_iff] at hchip'
    obtain ⟨chip, hchip, rfl⟩ := hchip'
    exact hg chip hchip
  · simp only [Server.setChip, Function.update_of_ne hne] at hchip'
    exact h e' chip' hchip'

theorem Sound.chipError (h : s.Sound) (e : ℕ) : (s.chipError e).Sound :=
  h.setChip fun _ _ hrun => by cases hrun

theorem Sound.resume (h : s.Sound) (e : ℕ) (i : Fin maxContexts) (threw : Bool)
    (cont : Continuation) : (s.resume e i threw cont).Sound := by
  cases cont with
  | dupeEval =>
    cases threw with
    | true => exact h.chipError e
    | false => exact h.setChip fun _ _ _ => by simp
  | uploadEval script =>
    have hscript : ∀ t : Server F, t.Sound →
        (t.setChip e fun chip => { chip with script := some script }).Sound :=
      fun t ht => ht.setChip fun chip hchip hrun => ht e chip hchip hrun
    cases threw with
    | true => exact hscript _ (h.chipError e)
    | false => exact hscript s h
  | emit =>
    cases threw with
    | true => exact h.chipError e
    | false => exact h

theorem Sound.jsEval (h : s.Sound) (e : ℕ) (i : Fin maxContexts) (cont : Continuation) :
    (s.jsEval e i cont).Sound := by
  have hlog := h.logCall .eval e i
  unfold Server.jsEval
  split
  · exact hlog.of_chips rfl
  · exact hlog.resume e i true cont

theorem Sound.jsEmitEvent (h : s.Sound) (e : ℕ) (i : Fin maxContexts) (eventName : String) :
    (s.jsEmitEvent e i eventName).Sound := by
  have hlog := h.logCall .emitEvent e i
  unfold Server.jsEmitEvent
  split
  · split
    · exact hlog.of_chips rfl
    · exact hlog.resume e i false .emit
  · exact hlog.resume e i true .emit

theorem Sound.emitEvent (h : s.Sound) (e : ℕ) (eventName : String) :
    (s.emitEvent e eventName).Sound := by
  unfold Server.emitEvent
  split
  · exact h.jsEmitEvent e _ eventName
  · exact h

theorem Sound.leftClickUpdate (h : s.Sound) (e : ℕ) (ply : Player) :
    (s.leftClickUpdate e ply).Sound := by
  cases hchip : s.chips e with
  | none =>
    unfold Server.leftClickUpdate
    rw [hchip]
    exact h
  | some chip =>
    rw [leftClickUpdate_eq ply hchip]
    have hfreed : (s.freed e chip.ctx).Sound := h.of_chips (freed_chips chip.ctx)
    cases luaCreateContext (s.freed e chip.ctx).contexts e chip.index ply.index with
    | error message => exact hfreed.chipError e
    | ok p =>
      obtain ⟨i, t⟩ := p
      have ht : ({ s.freed e chip.ctx with contexts := t } : Server F).Sound := hfreed.of_chips rfl
      exact ht.setChip fun _ _ _ => by simp

theorem Sound.makeWireEnt (h : s.Sound) (index : EntIndex) : (s.makeWireEnt index).Sound := by
  intro e chip hchip hrun
  rcases eq_or_ne e s.nextEntity with rfl | hne
  · simp only [Server.makeWireEnt, Function.update_self, Option.some.injEq] at hchip
    subst hchip
    cases hrun
  · simp only [Server.makeWireEnt, Function.update_of_ne hne] at hchip
    exact h e chip hchip hrun

theorem Sound.applyDupeInfo (h : s.Sound) (e : ℕ) (index : EntIndex) (ownerIndex : ℕ)
    (script : Option String) (result : Compiled) :
    (s.applyDupeInfo e index ownerIndex script result).Sound := by
  have hscript : (s.setChip e fun chip => { chip with script := script }).Sound :=
    h.setChip fun chip hchip hrun => h e chip hchip hrun
  unfold Server.applyDupeInfo
  simp only
  split
  · exact hscript.chipError e
  · rename_i i t _
    have ht : ({ s.setChip e fun chip => { chip with script := script } with contexts := t } :
        Server F).Sound := hscript.of_chips rfl
    cases script with
    | none => exact ht
    | some script =>
      have hlog := ht.logCall .compile e i
      simp only
      split
      · rename_i message s₁ hcompile
        obtain rfl := jsCompile_state hcompile
        exact hlog.chipError e
      · rename_i bytecode s₁ hcompile
        obtain rfl := jsCompile_state hcompile
        exact hlog.jsEval e i .dupeEval
      · rename_i s₁ hcompile
        obtain rfl := jsCompile_state hcompile
        exact hlog.logCall .eval e i

theorem Sound.uploadComplete (h : s.Sound) (e : ℕ) (script : String) (result : Compiled) :
    (s.uploadComplete e script result).Sound := by
  unfold Server.uploadComplete
  split
  · exact h
  · rename_i i hi
    have hlog := h.logCall .compile e i
    have hrun : ((s.logCall .compile e i).setChip e fun chip => { chip with run := true }).Sound := by
      refine hlog.setChip fun chip hchip _ => ?_
      have hchip' : s.chips e = some chip := hchip
      have hctx : chip.ctx = some i := by simpa [ctxOf, hchip'] using hi
      simp [hctx]
    split
    · rename_i message s₁ hcompile
      obtain rfl := jsCompile_state hcompile
      exact hlog.chipError e
    · rename_i bytecode s₁ hcompile
      obtain rfl := jsCompile_state hcompile
      exact hrun.jsEval e i (.uploadEval script)
    · rename_i s₁ hcompile
      obtain rfl := jsCompile_state hcompile
      exact hrun.logCall .eval e i

theorem Sound.onRemove (h : s.Sound) (e : ℕ) : (s.onRemove e).Sound := by
  intro e' chip hchip
  rw [(s.onRemove_spec e).2.1] at hchip
  rcases eq_or_ne e' e with rfl | hne
  · rw [Function.update_self] at hchip
    cases hchip
  · rw [Function.update_of_ne hne] at hchip
    exact h e' chip hchip

/-- No step lets a chip run without an id. -/
theorem sound_step (h : s.Sound) {a : Action F} (hstep : s.step a = some s') : s'.Sound := by
  cases a with
  | makeEnt index ply =>
    simp only [step, Option.ite_none_right_eq_some, Option.some.injEq] at hstep
    obtain ⟨-, rfl⟩ := hstep
    exact (h.makeWireEnt index).leftClickUpdate s.nextEntity ply
  | leftClickUpdate e ply =>
    simp only [step, Option.ite_none_right_eq_some, Option.some.injEq] at hstep
    obtain ⟨-, rfl⟩ := hstep
    exact h.leftClickUpdate e ply
  | paste index ownerIndex script result =>
    simp only [step, Option.ite_none_right_eq_some, Option.some.injEq] at hstep
    obtain ⟨-, rfl⟩ := hstep
    exact (h.makeWireEnt index).applyDupeInfo s.nextEntity index ownerIndex script result
  | upload e script result =>
    simp only [step, Option.ite_none_right_eq_some, Option.some.injEq] at hstep
    obtain ⟨-, rfl⟩ := hstep
    exact h.uploadComplete e script result
  | validate ply script result =>
    simp only [step, Option.ite_none_right_eq_some, Option.some.injEq] at hstep
    obtain ⟨-, rfl⟩ := hstep
    exact h.of_chips (s.validateComplete_spec ply script result).1
  | think e =>
    simp only [step, Option.ite_none_right_eq_some, Option.some.injEq] at hstep
    obtain ⟨-, rfl⟩ := hstep
    exact h.emitEvent e "tick"
  | triggerInput e =>
    simp only [step, Option.ite_none_right_eq_some, Option.some.injEq] at hstep
    obtain ⟨-, rfl⟩ := hstep
    exact h.emitEvent e "input"
  | remove e =>
    simp only [step, Option.ite_none_right_eq_some, Option.some.injEq] at hstep
    obtain ⟨-, rfl⟩ := hstep
    exact h.onRemove e
  | meter cost =>
    simp only [step, Option.map_eq_some_iff] at hstep
    obtain ⟨f, -, rfl⟩ := hstep
    refine h.of_chips ?_
    unfold Server.meter
    split <;> rfl
  | on name g =>
    simp only [step, Option.map_eq_some_iff] at hstep
    obtain ⟨f, -, rfl⟩ := hstep
    exact h.of_chips rfl
  | ret threw =>
    simp only [step] at hstep
    split at hstep
    · rename_i f fs hframes
      cases hstep
      have hpop : ({ s with frames := fs } : Server F).Sound := h.of_chips rfl
      exact hpop.resume f.chip f.slot threw f.cont
    · cases hstep

/-! ## Every chip has a context -/

/-- **Every chip has an id, or it waits for one** from the paste that is evaluating its script.
A chip that is handling an event has one. -/
structure Supplied (s : Server F) : Prop where
  chips : ∀ e, (s.chips e).isSome → s.ctxOf e ≠ none ∨ ∃ i, (e, i, .dupeEval) ∈ s.entries
  events : ∀ e i, (e, i, .emit) ∈ s.entries → s.ctxOf e ≠ none

theorem init_supplied : (init : Server F).Supplied :=
  ⟨fun _ h => (nomatch h), fun _ _ h => absurd h List.not_mem_nil⟩

/-- With no script running, every chip has an id. -/
theorem Supplied.idle (h : s.Supplied) (hidle : s.frames = []) (he : (s.chips e).isSome) :
    s.ctxOf e ≠ none :=
  (h.chips e he).resolve_right (by simp [entries_idle hidle])

theorem Supplied.of_idle (hidle : s.frames = []) (h : ∀ e, (s.chips e).isSome → s.ctxOf e ≠ none) :
    s.Supplied :=
  ⟨fun e he => Or.inl (h e he), by simp [entries_idle hidle]⟩

/-- A step that spawns no chip and takes no id, and returns from nothing. -/
theorem Supplied.keep (h : s.Supplied) (hctx : s'.ctxOf = s.ctxOf)
    (hsome : ∀ e, (s'.chips e).isSome = (s.chips e).isSome)
    (hent : s'.entries = s.entries ∨
      ∃ e i cont, s'.entries = (e, i, cont) :: s.entries ∧ (cont = .emit → s.ctxOf e ≠ none)) :
    s'.Supplied := by
  rcases hent with hent | ⟨e₀, i₀, cont, hent, hemit⟩
  · refine ⟨fun e he => ?_, fun e i hi => ?_⟩
    · rw [hctx, hent]
      exact h.chips e (by rw [← hsome]; exact he)
    · rw [hctx]
      exact h.events e i (by rw [← hent]; exact hi)
  · refine ⟨fun e he => ?_, fun e i hi => ?_⟩
    · rw [hctx, hent]
      refine (h.chips e (by rw [← hsome]; exact he)).imp_right fun ⟨i, hi⟩ => ⟨i, ?_⟩
      exact List.mem_cons_of_mem _ hi
    · rw [hctx]
      rw [hent, List.mem_cons] at hi
      rcases hi with heq | hi
      · cases heq
        exact hemit rfl
      · exact h.events e i hi

/-- An id names an occupied slot. -/
theorem Wf.liveCtx (h : s.Wf) (hctx : s.ctxOf e ≠ none) : s.LiveCtx e := by
  obtain ⟨i, hi⟩ := Option.ne_none_iff_exists'.1 hctx
  have hown := h.chips e i hi
  refine ⟨i, hi, ?_⟩
  cases hc : s.contexts i with
  | none =>
    rw [creator_eq_none.2 hc] at hown
    cases hown
  | some c => rfl

/-- **A click** gives the chip an id if it had one, or if a slot is free. -/
theorem leftClickUpdate_assigns (ply : Player) (he : (s.chips e).isSome)
    (hfree : s.ctxOf e ≠ none ∨ ∃ i, s.contexts i = none) :
    ∃ j, (s.leftClickUpdate e ply).ctxOf = Function.update s.ctxOf e (some j) := by
  rcases leftClickUpdate_spec ply he with ⟨j, entIndex, -, hctx⟩ | ⟨hnone, -, -⟩
  · exact ⟨j, hctx⟩
  · obtain ⟨chip, hchip⟩ := Option.isSome_iff_exists.1 he
    have hchipctx : chip.ctx = none := by simpa [ctxOf, hchip] using hnone
    cases hcreate : luaCreateContext s.contexts e chip.index ply.index with
    | error message =>
      obtain ⟨i, hi⟩ := hfree.resolve_left (fun hne => hne hnone)
      exact absurd hi (luaCreateContext_error hcreate chip.index.2 ply.index.2 i)
    | ok p =>
      obtain ⟨j, t⟩ := p
      refine ⟨j, ?_⟩
      have hrun : s.leftClickUpdate e ply =
          ({ s with contexts := t } : Server F).setChip e fun chip => { chip with ctx := some j } := by
        simp [leftClickUpdate, hchip, hchipctx, hcreate]
      rw [hrun]
      exact setChip_ctxOf_assign { s with contexts := t } e j (fun _ => rfl) he

theorem leftClickUpdate_ne_none (h : ∀ e', e' ≠ e → (s.chips e').isSome → s.ctxOf e' ≠ none)
    (ply : Player) (he : (s.chips e).isSome) (hfree : s.ctxOf e ≠ none ∨ ∃ i, s.contexts i = none)
    (e' : ℕ) (he' : ((s.leftClickUpdate e ply).chips e').isSome) :
    (s.leftClickUpdate e ply).ctxOf e' ≠ none := by
  obtain ⟨j, hctx⟩ := leftClickUpdate_assigns ply he hfree
  rw [hctx]
  rcases eq_or_ne e' e with rfl | hne
  · simp
  · rw [Function.update_of_ne hne]
    rw [(s.leftClickUpdate_frame e ply).2.2.1] at he'
    exact h e' hne he'

theorem Supplied.emitEvent (h : s.Supplied) (hwf : s.Wf) (e : ℕ) (eventName : String) :
    (s.emitEvent e eventName).Supplied := by
  obtain ⟨hchips, hcases⟩ := emitEvent_spec hwf e eventName
  have hctx : (s.emitEvent e eventName).ctxOf = s.ctxOf := by
    unfold ctxOf
    rw [hchips]
  refine h.keep hctx (fun e => by rw [hchips]) ?_
  rcases hcases with hquiet | ⟨i, ⟨chip, c, hchip, -, hi, -⟩, henters⟩
  · exact Or.inl hquiet.entries
  · exact Or.inr ⟨e, i, _, henters.entries, fun _ => by simp [ctxOf, hchip, hi]⟩

/-- A return takes no id, and may give one. -/
theorem resume_ctxOf_ne_none {threw : Bool} {cont : Continuation} (h : s.ctxOf e ≠ none) (e₀ : ℕ) :
    (s.resume e₀ i threw cont).ctxOf e ≠ none := by
  rcases s.resume_ctxOf e₀ i threw cont with hsame | ⟨-, -, hassign⟩
  · rw [hsame]
    exact h
  · rw [hassign]
    split
    · rcases eq_or_ne e e₀ with rfl | hne
      · simp
      · rw [Function.update_of_ne hne]
        exact h
    · exact h

/-- **A return** leaves every chip with an id, unless it is the paste's own and it throws. -/
theorem Supplied.resume (h : s.Supplied) {f : Frame} {fs : List Frame}
    (hframes : s.frames = f :: fs) {threw : Bool} (hok : f.cont = .dupeEval → threw = false) :
    (({ s with frames := fs } : Server F).resume f.chip f.slot threw f.cont).Supplied := by
  set s₀ : Server F := { s with frames := fs } with hs₀
  have hent : s.entries = f.entry :: s₀.entries := by simp [entries, hframes, hs₀]
  have hent' : (s₀.resume f.chip f.slot threw f.cont).entries = s₀.entries := by
    simp only [entries, resume_frames]
  refine ⟨fun e he => ?_, fun e i hi => ?_⟩
  · rw [resume_isSome] at he
    rw [hent']
    rcases h.chips e he with hctx | ⟨i, hi⟩
    · exact Or.inl (resume_ctxOf_ne_none (s := s₀) hctx f.chip)
    · rw [hent, List.mem_cons] at hi
      rcases hi with heq | hi
      · -- the paste's own evaluation: it assigns the id
        left
        obtain ⟨rfl, rfl, hcont⟩ : e = f.chip ∧ i = f.slot ∧ .dupeEval = f.cont := by
          simpa [Frame.entry] using heq
        obtain rfl := hok hcont.symm
        rw [← hcont]
        change (s₀.setChip f.chip fun chip => { chip with run := true, ctx := some f.slot }).ctxOf
          f.chip ≠ none
        rw [setChip_ctxOf_assign s₀ f.chip f.slot (fun _ => rfl) he]
        simp
      · exact Or.inr ⟨i, hi⟩
  · rw [hent'] at hi
    refine resume_ctxOf_ne_none (s := s₀) ?_ f.chip
    exact h.events e i (by rw [hent]; exact List.mem_cons_of_mem _ hi)

/-- The invariant of a run. -/
structure Ready (s : Server F) : Prop where
  pasting : s.Pasting
  sound : s.Sound
  supplied : s.Supplied

theorem init_ready : (init : Server F).Ready :=
  ⟨init_pasting, fun _ _ h => (nomatch h), init_supplied⟩

theorem supplied_step (h : s.Supplied) (hwf : s.Wf) {a : Action F} (hok : s.GetsContext a)
    (hstep : s.step a = some s') : s'.Supplied := by
  cases a with
  | makeEnt index ply =>
    simp only [step, Option.ite_none_right_eq_some, Option.some.injEq] at hstep
    obtain ⟨hidle, rfl⟩ := hstep
    have hidle' := ((s.makeWireEnt index).leftClickUpdate_frame s.nextEntity ply).1.trans hidle
    refine Supplied.of_idle hidle' fun e he => ?_
    refine leftClickUpdate_ne_none ?_ ply (s.makeWireEnt_isSome index) (Or.inr hok) e he
    intro e' hne he'
    rw [makeWireEnt_chips_of_ne hne] at he'
    rw [makeWireEnt_ctxOf hwf]
    exact h.idle hidle he'
  | leftClickUpdate e ply =>
    simp only [step, Option.ite_none_right_eq_some, Option.some.injEq] at hstep
    obtain ⟨⟨hidle, he⟩, rfl⟩ := hstep
    refine Supplied.of_idle ((s.leftClickUpdate_frame e ply).1.trans hidle) fun e' he' => ?_
    exact leftClickUpdate_ne_none (fun _ _ he => h.idle hidle he) ply he
      (Or.inl (h.idle hidle he)) e' he'
  | paste index ownerIndex script result =>
    simp only [step, Option.ite_none_right_eq_some, Option.some.injEq] at hstep
    obtain ⟨hidle, rfl⟩ := hstep
    obtain ⟨howner, ⟨i, hi⟩, hcompiles⟩ := hok
    obtain ⟨hctx, hsome, hcases⟩ :=
      (s.makeWireEnt index).applyDupeInfo_spec s.nextEntity index ownerIndex script result
    rcases hcases with ⟨hnone | hfull, -⟩ | ⟨j, t, -, ⟨hfail, -⟩ | ⟨-, henters⟩⟩
    · exact absurd hnone howner
    · exact absurd hi (hfull i)
    · exact absurd hcompiles hfail
    · have hent : ((s.makeWireEnt index).applyDupeInfo s.nextEntity index ownerIndex script
          result).entries = [(s.nextEntity, j, .dupeEval)] := by
        rw [henters.entries]
        exact congrArg _ (entries_idle hidle)
      refine ⟨fun e he => ?_, fun e k hk => by simp [hent] at hk⟩
      rw [hsome] at he
      rw [hctx, makeWireEnt_ctxOf hwf, hent]
      rcases eq_or_ne e s.nextEntity with rfl | hne
      · exact Or.inr ⟨j, List.mem_singleton_self _⟩
      · rw [makeWireEnt_chips_of_ne hne] at he
        exact Or.inl (h.idle hidle he)
  | upload e script result =>
    simp only [step, Option.ite_none_right_eq_some, Option.some.injEq] at hstep
    obtain ⟨-, rfl⟩ := hstep
    obtain ⟨hctx, hsome, hquiet | ⟨i, henters⟩⟩ := uploadComplete_spec hwf e script result
    · exact h.keep hctx hsome (Or.inl hquiet.entries)
    · exact h.keep hctx hsome (Or.inr ⟨e, i, _, henters.entries, fun h => by cases h⟩)
  | validate ply script result =>
    simp only [step, Option.ite_none_right_eq_some, Option.some.injEq] at hstep
    obtain ⟨-, rfl⟩ := hstep
    obtain ⟨hchips, -, hframes, -, -⟩ := s.validateComplete_spec ply script result
    refine h.keep ?_ (fun e => by rw [hchips]) (Or.inl (by rw [entries, hframes]; rfl))
    unfold ctxOf
    rw [hchips]
  | think e =>
    simp only [step, Option.ite_none_right_eq_some, Option.some.injEq] at hstep
    obtain ⟨-, rfl⟩ := hstep
    exact h.emitEvent hwf e "tick"
  | triggerInput e =>
    simp only [step, Option.ite_none_right_eq_some, Option.some.injEq] at hstep
    obtain ⟨-, rfl⟩ := hstep
    exact h.emitEvent hwf e "input"
  | remove e =>
    simp only [step, Option.ite_none_right_eq_some, Option.some.injEq] at hstep
    obtain ⟨⟨hidle, -⟩, rfl⟩ := hstep
    obtain ⟨-, hchips, -, hframes, -⟩ := s.onRemove_spec e
    refine Supplied.of_idle (hframes.trans hidle) fun e' he' => ?_
    rw [hchips] at he'
    rw [onRemove_ctxOf]
    rcases eq_or_ne e' e with rfl | hne
    · simp at he'
    · rw [Function.update_of_ne hne] at he' ⊢
      exact h.idle hidle he'
  | meter cost =>
    simp only [step, Option.map_eq_some_iff] at hstep
    obtain ⟨f, -, rfl⟩ := hstep
    have hchips : (s.meter f.slot cost).chips = s.chips := by unfold Server.meter; split <;> rfl
    refine h.keep ?_ (fun e => by rw [hchips]) (Or.inl (s.meter_entries f.slot cost))
    unfold ctxOf
    rw [hchips]
  | on name g =>
    simp only [step, Option.map_eq_some_iff] at hstep
    obtain ⟨f, -, rfl⟩ := hstep
    exact h.keep rfl (fun _ => rfl) (Or.inl rfl)
  | ret threw =>
    simp only [step] at hstep
    split at hstep
    · rename_i f fs hframes
      cases hstep
      exact h.resume hframes (hok f (by rw [hframes]; rfl))
    · cases hstep

theorem ready_step (h : s.Ready) {a : Action F} (hok : s.GetsContext a)
    (hstep : s.step a = some s') : s'.Ready :=
  ⟨pasting_step h.pasting hstep, sound_step h.sound hstep,
    supplied_step h.supplied h.pasting.wf hok hstep⟩

/-! ## Every call -/

/-- **All calls are live** where every chip is supplied. -/
theorem Ready.liveCalls (h : s.Ready) : s.LiveCalls := by
  intro a ha
  obtain ⟨s', hstep⟩ := Option.isSome_iff_exists.1 ha
  have hidle : ∀ e, s.frames = [] ∧ (s.chips e).isSome → s.LiveCtx e :=
    fun e he => h.pasting.wf.liveCtx (h.supplied.idle he.1 he.2)
  cases a with
  | leftClickUpdate e ply => exact fun hne => h.pasting.wf.liveCtx hne
  | upload e script result =>
    simp only [step, Option.ite_none_right_eq_some] at hstep
    exact hidle e hstep.1
  | think e =>
    simp only [step, Option.ite_none_right_eq_some] at hstep
    exact hidle e hstep.1
  | triggerInput e =>
    rintro ⟨chip, hchip, hrun⟩
    refine h.pasting.wf.liveCtx ?_
    rw [ctxOf, hchip]
    exact h.sound e chip hchip hrun
  | remove e =>
    simp only [step, Option.ite_none_right_eq_some] at hstep
    exact hidle e hstep.1
  | ret threw =>
    intro f fs hframes hcont
    have hmem : (f.chip, f.slot, .emit) ∈ s.entries := by
      rw [entries, hframes, ← hcont]
      exact List.mem_cons_self
    obtain ⟨i, hi, hlive⟩ := h.pasting.wf.liveCtx (h.supplied.events f.chip f.slot hmem)
    refine ⟨i, ?_, by rw [resume_contexts]; exact hlive⟩
    rcases ({ s with frames := fs } : Server F).resume_ctxOf f.chip f.slot threw f.cont with
      hsame | ⟨hdupe, -⟩
    · rw [hsame]
      exact hi
    · rw [hcont] at hdupe
      cases hdupe
  | _ => trivial

/-- Removing a chip without a context is a call that is not live. -/
theorem LiveCalls.ctxOf_ne_none (h : s.LiveCalls) (hidle : s.frames = []) (he : (s.chips e).isSome) :
    s.ctxOf e ≠ none := by
  obtain ⟨i, hi, -⟩ := h (.remove e) (by simp [step, hidle, he])
  simp [hi]

/-- What `GetsContext` says of an upload. -/
theorem GetsContext.passesCheckType {a : Action F} (h : s.GetsContext a) : s.PassesCheckType a := by
  unfold PassesCheckType
  split
  · exact fun _ => h
  · trivial

/-- **A step that does not meet `GetsContext` leaves a chip without a context**, whose next
`ENT:Think` or `ENT:OnRemove` passes nil, or is an upload whose `JS_Eval` gets nil. -/
theorem getsContext_of_liveCalls (h : s.Ready) {a : Action F} (hstep : s.step a = some s')
    (hlive : s'.LiveCalls) (hpasses : s.PassesCheckType a) : s.GetsContext a := by
  have hwf := h.pasting.wf
  cases a with
  | makeEnt index ply =>
    simp only [step, Option.ite_none_right_eq_some, Option.some.injEq] at hstep
    obtain ⟨hidle, rfl⟩ := hstep
    have hnone : (s.makeWireEnt index).ctxOf s.nextEntity = none := makeWireEnt_ctxOf_new hwf index
    have hframes := ((s.makeWireEnt index).leftClickUpdate_frame s.nextEntity ply).1.trans hidle
    have hsome := s.makeWireEnt_isSome index
    rcases leftClickUpdate_spec ply hsome with ⟨j, entIndex, hcreate, -⟩ | ⟨-, -, hctx⟩
    · have hfree := (luaCreateContext_ok hcreate).1
      rw [givesUp, hnone] at hfree
      exact ⟨j, hfree⟩
    · have hsome' := hsome
      rw [← ((s.makeWireEnt index).leftClickUpdate_frame s.nextEntity ply).2.2.1] at hsome'
      have hne := hlive.ctxOf_ne_none hframes hsome'
      exact absurd ((congrFun hctx _).trans hnone) hne
  | paste index ownerIndex script result =>
    simp only [step, Option.ite_none_right_eq_some, Option.some.injEq] at hstep
    obtain ⟨hidle, rfl⟩ := hstep
    have hnone : (s.makeWireEnt index).ctxOf s.nextEntity = none := makeWireEnt_ctxOf_new hwf index
    obtain ⟨hctx, hsome, hcases⟩ :=
      (s.makeWireEnt index).applyDupeInfo_spec s.nextEntity index ownerIndex script result
    -- the handler cannot be over
    have hbusy : ((s.makeWireEnt index).applyDupeInfo s.nextEntity index ownerIndex script
        result).frames ≠ [] := by
      intro hframes
      refine hlive.ctxOf_ne_none hframes ?_ (by rw [hctx]; exact hnone)
      rw [hsome]
      exact s.makeWireEnt_isSome index
    rcases hcases with ⟨-, hquiet⟩ | ⟨i, t, hcreate, ⟨-, hquiet⟩ | ⟨hok, -⟩⟩
    · exact absurd (hquiet.2.trans hidle) hbusy
    · exact absurd (hquiet.2.trans hidle) hbusy
    · refine ⟨?_, ⟨i, (luaCreateContext_ok hcreate).1⟩, hok⟩
      rintro rfl
      simp [luaCreateContext] at hcreate
  | upload e script result =>
    simp only [step, Option.ite_none_right_eq_some] at hstep
    obtain ⟨⟨hidle, he⟩, -⟩ := hstep
    rcases result with message | _ | bytecode
    · trivial
    · -- `JS_Eval` gets nil, and fails its `CheckType`
      exact hpasses (h.supplied.idle hidle he)
    · trivial
  | ret threw =>
    intro f hf hcont
    simp only [step] at hstep
    split at hstep
    · -- a paste's own evaluation that throws is over, and its chip has no id
      rename_i f' fs hframes
      cases hstep
      rw [hframes] at hf
      obtain rfl : f' = f := Option.some.inj hf
      by_contra hthrew
      rw [Bool.not_eq_false] at hthrew
      subst hthrew
      obtain ⟨hsome, hnone⟩ := h.pasting.waiting_head hframes hcont
      have hidle : (({ s with frames := fs } : Server F).resume f'.chip f'.slot true
          f'.cont).frames = [] := by
        rw [resume_frames]
        exact h.pasting.outermost_eq_nil hframes hcont
      refine hlive.ctxOf_ne_none hidle (e := f'.chip) ?_ ?_
      · rw [resume_isSome]
        exact hsome
      · rw [hcont]
        exact (congrFun (chipError_ctxOf ({ s with frames := fs } : Server F) f'.chip) _).trans hnone
    · cases hstep
  | _ => trivial

/-- **All calls of all handlers are live, and no `CheckType` fails, exactly in the runs in which
every chip that is spawned gets a context and every upload that compiles has bytecode.** -/
theorem liveCalls_iff (as : List (Action F)) :
    Always step LiveCalls (init : Server F) as ∧ Along step PassesCheckType (init : Server F) as ↔
      Along step GetsContext (init : Server F) as :=
  always_and_along_iff (fun _ h => h.liveCalls) (fun _ _ _ h hok hstep => ready_step h hok hstep)
    (fun _ _ _ h => h.passesCheckType)
    (fun _ _ _ h hstep hlive hpasses => getsContext_of_liveCalls h hstep hlive hpasses) as init_ready

/-- The state after `pasteBroken`. -/
def afterPasteBroken : Server ℕ :=
  ((init : Server ℕ).makeWireEnt ⟨1, Nat.one_ne_zero⟩).applyDupeInfo 0 ⟨1, Nat.one_ne_zero⟩ 2 (some "(")
    syntaxError

/-- **`JS_GetOps(nil)`**: a chip is pasted whose script does not compile, and thinks. -/
theorem pasteBroken_thinks :
    run step (init : Server ℕ) pasteBroken = some afterPasteBroken ∧
      (afterPasteBroken.step (.think 0)).isSome ∧ ¬ afterPasteBroken.UsesLive (.think 0) ∧
      ¬ Always step LiveCalls (init : Server ℕ) pasteBroken := by
  have hrun : run step (init : Server ℕ) pasteBroken = some afterPasteBroken := rfl
  have hthinks : (afterPasteBroken.step (.think 0)).isSome := rfl
  have hdead : ¬ afterPasteBroken.UsesLive (.think 0) := by
    rintro ⟨i, hi, -⟩
    cases hi
  exact ⟨hrun, hthinks, hdead, fun h => hdead (h.last hrun (.think 0) hthinks)⟩

end JSChip.Server
