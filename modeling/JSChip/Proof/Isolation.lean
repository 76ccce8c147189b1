import JSChip.Proof.Handle
import JSChip.Spec.Server

/-!
# Chips do not share contexts

The ids in `self.ctx` are slot numbers, which are reused; `creator` says whose context is in
a slot now. This module says once what each handler does to the creators, to the chips' ids
and to the frames.

* `Wf`: every chip's id, every running script and every recorded call is on a slot whose
  context was created for that same chip.
* `wf_step`: every step keeps it, whatever runs in the scripts.
* `always_isolated`: **in every run, valid chips have different ids, and every `JS_Compile`,
  `JS_Eval`, `JS_EmitEvent` and `JS_FreeContext` with an id is on the context that was
  created for the entity it is called for.**
-/

namespace JSChip

open Machine

variable {F : Type}

/-- The entity the context of a slot was created for. -/
def ContextTable.creator (t : ContextTable F) (i : Fin maxContexts) : Option ℕ :=
  (t i).map (·.entity)

/-! ## Creators and the operations on the table -/

theorem creator_modify (t : ContextTable F) (i : Fin maxContexts) {g : Context F → Context F}
    (hg : ∀ c, (g c).entity = c.entity) : (t.modify i g).creator = t.creator := by
  funext j
  rcases eq_or_ne j i with rfl | h
  · simp only [ContextTable.creator, ContextTable.modify, Function.update_self, Option.map_map]
    exact congrArg (Option.map · (t j)) (funext hg)
  · simp only [ContextTable.creator, ContextTable.modify, Function.update_of_ne h]

theorem creator_freeSlot (t : ContextTable F) (i : Fin maxContexts) :
    (freeSlot t i).creator = Function.update t.creator i none := by
  funext j
  rcases eq_or_ne j i with rfl | h
  · simp [ContextTable.creator, freeSlot]
  · simp [ContextTable.creator, freeSlot, Function.update_of_ne h]

theorem creator_eq_none {t : ContextTable F} {i : Fin maxContexts} : t.creator i = none ↔ t i = none := by
  simp [ContextTable.creator]

/-- **A new context** goes into an empty slot, belongs to its entity, and is as good as new. -/
theorem luaCreateContext_ok {t t' : ContextTable F} {e entIndex ownerIndex : ℕ} {i : Fin maxContexts}
    (h : luaCreateContext t e entIndex ownerIndex = .ok (i, t')) :
    t i = none ∧ t' = Function.update t i (some ⟨e, entIndex, ownerIndex, .new, .empty⟩) ∧
      t'.creator = Function.update t.creator i (some e) := by
  unfold luaCreateContext at h
  split at h
  · cases h
  · split at h
    · rename_i j hj
      cases h
      refine ⟨firstFree_spec hj, rfl, ?_⟩
      funext k
      rcases eq_or_ne k i with rfl | hk
      · simp [ContextTable.creator]
      · simp [ContextTable.creator, Function.update_of_ne hk]
    · cases h

/-- Creating a context for valid entities fails only when no slot is free. -/
theorem luaCreateContext_error {t : ContextTable F} {e entIndex ownerIndex : ℕ} {message : String}
    (h : luaCreateContext t e entIndex ownerIndex = .error message) (he : entIndex ≠ 0)
    (ho : ownerIndex ≠ 0) : ∀ i, t i ≠ none := by
  unfold luaCreateContext at h
  rw [if_neg (by tauto)] at h
  cases hfree : firstFree t with
  | some i => rw [hfree] at h; cases h
  | none => exact firstFree_eq_none.1 hfree

namespace Server

/-! ## Chips and frames under the small operations -/

section Fields

variable (s : Server F) (e : ℕ) (i : Fin maxContexts)

@[simp] theorem setChip_contexts (g : Chip → Chip) : (s.setChip e g).contexts = s.contexts := rfl
@[simp] theorem setChip_frames (g : Chip → Chip) : (s.setChip e g).frames = s.frames := rfl
@[simp] theorem setChip_calls (g : Chip → Chip) : (s.setChip e g).calls = s.calls := rfl
@[simp] theorem setChip_nextEntity (g : Chip → Chip) : (s.setChip e g).nextEntity = s.nextEntity := rfl
@[simp] theorem chipError_contexts : (s.chipError e).contexts = s.contexts := rfl
@[simp] theorem chipError_frames : (s.chipError e).frames = s.frames := rfl
@[simp] theorem chipError_calls : (s.chipError e).calls = s.calls := rfl
@[simp] theorem chipError_nextEntity : (s.chipError e).nextEntity = s.nextEntity := rfl
@[simp] theorem logCall_contexts (n : ApiFunction) : (s.logCall n e i).contexts = s.contexts := rfl
@[simp] theorem logCall_chips (n : ApiFunction) : (s.logCall n e i).chips = s.chips := rfl
@[simp] theorem logCall_frames (n : ApiFunction) : (s.logCall n e i).frames = s.frames := rfl
@[simp] theorem logCall_nextEntity (n : ApiFunction) : (s.logCall n e i).nextEntity = s.nextEntity := rfl
@[simp] theorem logCall_ctxOf (n : ApiFunction) : (s.logCall n e i).ctxOf = s.ctxOf := rfl

theorem setChip_chips (g : Chip → Chip) : (s.setChip e g).chips e = (s.chips e).map g :=
  Function.update_self ..

theorem setChip_chips_of_ne {e' : ℕ} (hne : e' ≠ e) (g : Chip → Chip) :
    (s.setChip e g).chips e' = s.chips e' := Function.update_of_ne hne _ _

theorem setChip_isSome (g : Chip → Chip) (e' : ℕ) :
    ((s.setChip e g).chips e').isSome = (s.chips e').isSome := by
  rcases eq_or_ne e' e with rfl | h
  · simp [setChip]
  · simp [setChip, Function.update_of_ne h]

/-- Assigning other fields leaves the ids. -/
theorem setChip_ctxOf {g : Chip → Chip} (hg : ∀ chip, (g chip).ctx = chip.ctx) :
    (s.setChip e g).ctxOf = s.ctxOf := by
  funext e'
  rcases eq_or_ne e' e with rfl | h
  · cases hc : s.chips e' <;> simp [ctxOf, setChip, hc, hg]
  · simp [ctxOf, setChip, Function.update_of_ne h]

@[simp] theorem chipError_ctxOf : (s.chipError e).ctxOf = s.ctxOf := setChip_ctxOf s e fun _ => rfl

/-- Assigning the id of a valid chip. -/
theorem setChip_ctxOf_assign {g : Chip → Chip} (hg : ∀ chip, (g chip).ctx = some i)
    (he : (s.chips e).isSome) : (s.setChip e g).ctxOf = Function.update s.ctxOf e (some i) := by
  obtain ⟨chip, hchip⟩ := Option.isSome_iff_exists.1 he
  funext e'
  rcases eq_or_ne e' e with rfl | h
  · simp [ctxOf, setChip, hchip, hg]
  · simp [ctxOf, setChip, Function.update_of_ne h]

@[simp] theorem resume_contexts (threw : Bool) (cont : Continuation) :
    (s.resume e i threw cont).contexts = s.contexts := by
  cases cont <;> cases threw <;> rfl

@[simp] theorem resume_frames (threw : Bool) (cont : Continuation) :
    (s.resume e i threw cont).frames = s.frames := by
  cases cont <;> cases threw <;> rfl

@[simp] theorem resume_calls (threw : Bool) (cont : Continuation) :
    (s.resume e i threw cont).calls = s.calls := by
  cases cont <;> cases threw <;> rfl

@[simp] theorem resume_nextEntity (threw : Bool) (cont : Continuation) :
    (s.resume e i threw cont).nextEntity = s.nextEntity := by
  cases cont <;> cases threw <;> rfl

theorem resume_isSome (threw : Bool) (cont : Continuation) (e' : ℕ) :
    ((s.resume e i threw cont).chips e').isSome = (s.chips e').isSome := by
  cases cont <;> cases threw <;> simp [resume, chipError, setChip_isSome]

/-- Only a paste that ends well assigns an id. -/
theorem resume_ctxOf (threw : Bool) (cont : Continuation) :
    (s.resume e i threw cont).ctxOf = s.ctxOf ∨
      cont = .dupeEval ∧ threw = false ∧
        (s.resume e i threw cont).ctxOf = if (s.chips e).isSome then
          Function.update s.ctxOf e (some i) else s.ctxOf := by
  cases cont with
  | dupeEval =>
    cases threw with
    | true => exact Or.inl (chipError_ctxOf s e)
    | false =>
      refine Or.inr ⟨rfl, rfl, ?_⟩
      split
      · rename_i he
        exact setChip_ctxOf_assign s e i (fun _ => rfl) he
      · rename_i he
        rw [Option.not_isSome_iff_eq_none] at he
        funext e'
        rcases eq_or_ne e' e with rfl | h
        · simp [resume, ctxOf, setChip, he]
        · simp [resume, ctxOf, setChip, Function.update_of_ne h]
  | uploadEval script =>
    left
    cases threw
    · exact setChip_ctxOf s e fun _ => rfl
    · have hset : ∀ chip : Chip, ({ chip with script := some script } : Chip).ctx = chip.ctx :=
        fun _ => rfl
      exact (setChip_ctxOf (s.chipError e) e hset).trans (chipError_ctxOf s e)
  | emit =>
    left
    cases threw
    · rfl
    · exact chipError_ctxOf s e

@[simp] theorem enter_ctxOf (cont : Continuation) : (s.enter e i cont).ctxOf = s.ctxOf := rfl

theorem enter_creator (cont : Continuation) :
    (s.enter e i cont).contexts.creator = s.contexts.creator :=
  creator_modify _ _ fun _ => rfl

theorem meter_creator (cost : ℕ) : (s.meter i cost).contexts.creator = s.contexts.creator := by
  unfold meter
  split
  · rfl
  · exact creator_modify _ _ fun _ => rfl

theorem on_creator (name : String) (f : F) : (s.on i name f).contexts.creator = s.contexts.creator :=
  creator_modify _ _ fun c => c.on_entity name f

end Fields

section Compile

variable {s s' : Server F} {e e' : ℕ} {i : Fin maxContexts} {script : String} {result answer : Compiled}

/-- Compiling changes nothing, whatever comes of it. -/
theorem jsCompile_state (h : s.jsCompile e i script result = (answer, s')) :
    s' = s.logCall .compile e i :=
  (congrArg Prod.snd h).symm

theorem isNone_of_creator (hi : s.contexts.creator i = some e') : (s.contexts i).isNone = false := by
  rw [ContextTable.creator, Option.map_eq_some_iff] at hi
  obtain ⟨c, hc, -⟩ := hi
  rw [hc]; rfl

/-- An empty script is an error. -/
theorem jsCompile_empty (hi : s.contexts.creator i = some e') :
    s.jsCompile e i "" result =
      (.error (some "Your script has to have at least 1 character!"), s.logCall .compile e i) := by
  simp [jsCompile, isNone_of_creator hi]

/-- Any other script is compiled. -/
theorem jsCompile_eq (hi : s.contexts.creator i = some e') (hne : script ≠ "") :
    s.jsCompile e i script result = (result, s.logCall .compile e i) := by
  simp [jsCompile, isNone_of_creator hi, hne]

end Compile

/-! ## The invariant -/

/-- **Every id is of a context of its own chip**: the ids in chips, the contexts of running
scripts, and the slots of all recorded calls. -/
structure Wf (s : Server F) : Prop where
  /-- Entities not spawned yet are not valid. -/
  fresh : ∀ e, s.nextEntity ≤ e → s.chips e = none
  chips : ∀ e i, s.ctxOf e = some i → s.contexts.creator i = some e
  frames : ∀ f ∈ s.frames, s.contexts.creator f.slot = some f.chip
  calls : ∀ call ∈ s.calls, call.creator = some call.caller

variable {s s' : Server F} {e : ℕ} {i : Fin maxContexts}

theorem init_wf : (init : Server F).Wf :=
  ⟨fun _ _ => rfl, fun _ _ h => (nomatch h), fun _ h => absurd h List.not_mem_nil,
    fun _ h => absurd h List.not_mem_nil⟩

/-- Handlers that touch none of it. -/
theorem Wf.congr (h : s.Wf) (hnext : s'.nextEntity = s.nextEntity)
    (hsome : ∀ e, (s'.chips e).isSome = (s.chips e).isSome) (hctx : s'.ctxOf = s.ctxOf)
    (hcre : s'.contexts.creator = s.contexts.creator) (hframes : s'.frames = s.frames)
    (hcalls : s'.calls = s.calls) : s'.Wf := by
  refine ⟨fun e he => ?_, ?_, ?_, ?_⟩
  · have := h.fresh e (hnext ▸ he)
    rw [← Option.not_isSome_iff_eq_none, hsome, this]; simp
  · rw [hctx, hcre]; exact h.chips
  · rw [hframes, hcre]; exact h.frames
  · rw [hcalls]; exact h.calls

theorem Wf.setChip (h : s.Wf) (e : ℕ) {g : Chip → Chip} (hg : ∀ chip, (g chip).ctx = chip.ctx) :
    (s.setChip e g).Wf :=
  h.congr rfl (s.setChip_isSome e g) (s.setChip_ctxOf e hg) rfl rfl rfl

theorem Wf.chipError (h : s.Wf) (e : ℕ) : (s.chipError e).Wf := h.setChip e fun _ => rfl

theorem Wf.logCall (h : s.Wf) (hi : s.contexts.creator i = some e) (n : ApiFunction) :
    (s.logCall n e i).Wf := by
  refine ⟨h.fresh, h.chips, h.frames, fun call hcall => ?_⟩
  rcases List.mem_cons.1 hcall with rfl | hcall
  · exact hi
  · exact h.calls call hcall

theorem Wf.resume (h : s.Wf) (hi : s.contexts.creator i = some e) (threw : Bool) (cont : Continuation) :
    (s.resume e i threw cont).Wf := by
  have hsome := s.resume_isSome e i threw cont
  rcases s.resume_ctxOf e i threw cont with hctx | ⟨-, -, hctx⟩
  · exact h.congr (by simp) hsome hctx (by simp) (by simp) (by simp)
  · refine ⟨fun e' he' => ?_, fun e' j hj => ?_, by simpa using h.frames, by simpa using h.calls⟩
    · have := h.fresh e' (by simpa using he')
      rw [← Option.not_isSome_iff_eq_none, hsome, this]; simp
    · rw [hctx] at hj
      rw [resume_contexts]
      split at hj
      · rcases eq_or_ne e' e with rfl | hne
        · simp only [Function.update_self, Option.some.injEq] at hj
          rw [← hj]; exact hi
        · rw [Function.update_of_ne hne] at hj; exact h.chips e' j hj
      · exact h.chips e' j hj

theorem Wf.enter (h : s.Wf) (hi : s.contexts.creator i = some e) (cont : Continuation) :
    (s.enter e i cont).Wf := by
  refine ⟨h.fresh, ?_, ?_, h.calls⟩
  · rw [enter_creator]; exact h.chips
  · rw [enter_creator]
    intro f hf
    rcases List.mem_cons.1 hf with rfl | hf
    · exact hi
    · exact h.frames f hf

theorem Wf.jsEval (h : s.Wf) (hi : s.contexts.creator i = some e) (cont : Continuation) :
    (s.jsEval e i cont).Wf := by
  have hlog := h.logCall hi .eval
  unfold Server.jsEval
  split
  · exact hlog.enter hi cont
  · exact hlog.resume hi true cont

theorem Wf.jsEmitEvent (h : s.Wf) (hi : s.contexts.creator i = some e) (eventName : String) :
    (s.jsEmitEvent e i eventName).Wf := by
  have hlog := h.logCall hi .emitEvent
  unfold Server.jsEmitEvent
  split
  · split
    · exact hlog.enter hi .emit
    · exact hlog.resume hi false .emit
  · exact hlog.resume hi true .emit

theorem Wf.jsEvalNil (h : s.Wf) (hi : s.contexts.creator i = some e) : (s.jsEvalNil e i).Wf :=
  h.logCall hi .eval

/-! ## Handlers -/

/-- The slot a chip gives up when it is clicked or removed. -/
def givesUp (s : Server F) (e : ℕ) : ContextTable F :=
  match s.ctxOf e with
  | some i => freeSlot s.contexts i
  | none => s.contexts

/-- Giving up its slot, a chip takes nothing from others. -/
theorem givesUp_creator (s : Server F) (e : ℕ) {j : Fin maxContexts} {e' : ℕ} :
    (s.givesUp e).creator j = some e' ↔ s.contexts.creator j = some e' ∧ s.ctxOf e ≠ some j := by
  unfold givesUp
  cases hctx : s.ctxOf e with
  | none => simp
  | some i =>
    simp only [creator_freeSlot, Function.update_apply]
    by_cases hji : j = i
    · simp [hji]
    · simp [hji, Ne.symm hji]

/-- The server when the chip has freed its context, if it has one. -/
def freed (s : Server F) (e : ℕ) : Option (Fin maxContexts) → Server F
  | some i => s.jsFreeContext e i
  | none => s

/-- The chip is given the context that was created, or is put in the error state. -/
def assigned (s : Server F) (e : ℕ) :
    Except String (Fin maxContexts × ContextTable F) → Server F
  | .error _ => s.chipError e
  | .ok (i, t) => { s with contexts := t }.setChip e fun chip => { chip with ctx := some i }

/-- A click frees the old context first. -/
theorem leftClickUpdate_eq {chip : Chip} (ply : Player) (hchip : s.chips e = some chip) :
    s.leftClickUpdate e ply = (s.freed e chip.ctx).assigned e
      (luaCreateContext (s.freed e chip.ctx).contexts e chip.index ply.index) := by
  unfold leftClickUpdate
  rw [hchip]
  obtain ⟨index, ctx, run, script⟩ := chip
  cases ctx with
  | some i => rfl
  | none => rfl

theorem freed_contexts {chip : Chip} (hchip : s.chips e = some chip) :
    (s.freed e chip.ctx).contexts = s.givesUp e := by
  have hctx : s.ctxOf e = chip.ctx := by simp [ctxOf, hchip]
  rw [givesUp, hctx]
  cases chip.ctx <;> rfl

theorem freed_chips (ctx : Option (Fin maxContexts)) : (s.freed e ctx).chips = s.chips := by
  cases ctx <;> rfl

theorem freed_ctxOf (ctx : Option (Fin maxContexts)) : (s.freed e ctx).ctxOf = s.ctxOf := by
  unfold ctxOf
  rw [freed_chips]

/-- **What `TOOL:LeftClick_Update` does.** The chip gives up its slot and gets a context in a
free one; only a chip without a context can fail to get one. -/
theorem leftClickUpdate_spec (ply : Player) (he : (s.chips e).isSome) :
    (∃ j entIndex, luaCreateContext (s.givesUp e) e entIndex ply.index =
        .ok (j, (s.leftClickUpdate e ply).contexts) ∧
      (s.leftClickUpdate e ply).ctxOf = Function.update s.ctxOf e (some j)) ∨
    (s.ctxOf e = none ∧ (s.leftClickUpdate e ply).contexts = s.contexts ∧
      (s.leftClickUpdate e ply).ctxOf = s.ctxOf) := by
  obtain ⟨chip, hchip⟩ := Option.isSome_iff_exists.1 he
  rw [leftClickUpdate_eq ply hchip, freed_contexts hchip]
  have htable := freed_contexts hchip
  have hctx₁ : (s.freed e chip.ctx).ctxOf = s.ctxOf := freed_ctxOf chip.ctx
  cases hcreate : luaCreateContext (s.givesUp e) e chip.index ply.index with
  | error message =>
    right
    have hfull := luaCreateContext_error hcreate chip.index.2 ply.index.2
    have hnone : s.ctxOf e = none := by
      by_contra hne
      obtain ⟨i, hi⟩ := Option.ne_none_iff_exists'.1 hne
      -- the slot just freed is free
      exact hfull i (by simp [givesUp, hi, freeSlot])
    refine ⟨hnone, ?_, ?_⟩
    · rw [assigned, chipError_contexts, htable, givesUp, hnone]
    · rw [assigned, chipError_ctxOf, hctx₁]
  | ok p =>
    obtain ⟨j, t⟩ := p
    left
    refine ⟨j, chip.index, hcreate, ?_⟩
    have hsome₁ : ((s.freed e chip.ctx).chips e).isSome := by
      rw [freed_chips]
      exact he
    rw [← hctx₁]
    exact setChip_ctxOf_assign { s.freed e chip.ctx with contexts := t } e j (fun _ => rfl) hsome₁

/-- What `TOOL:LeftClick_Update` leaves alone, and the one call it may make. -/
theorem leftClickUpdate_frame (s : Server F) (e : ℕ) (ply : Player) :
    (s.leftClickUpdate e ply).frames = s.frames ∧
      (s.leftClickUpdate e ply).nextEntity = s.nextEntity ∧
      (∀ e', ((s.leftClickUpdate e ply).chips e').isSome = (s.chips e').isSome) ∧
      ∀ call ∈ (s.leftClickUpdate e ply).calls, call ∈ s.calls ∨
        ∃ i, s.ctxOf e = some i ∧ call = ⟨.freeContext, e, i, s.contexts.creator i⟩ := by
  unfold leftClickUpdate
  cases hchip : s.chips e with
  | none => exact ⟨rfl, rfl, fun _ => rfl, fun _ h => Or.inl h⟩
  | some chip =>
    have hctx : s.ctxOf e = chip.ctx := by simp [ctxOf, hchip]
    simp only
    cases hi : chip.ctx with
    | none =>
      split
      · exact ⟨rfl, rfl, setChip_isSome _ e _, fun _ h => Or.inl h⟩
      · exact ⟨rfl, rfl, setChip_isSome _ e _, fun _ h => Or.inl h⟩
    | some i =>
      have hcalls : ∀ call ∈ (s.jsFreeContext e i).calls, call ∈ s.calls ∨
          ∃ i, s.ctxOf e = some i ∧ call = ⟨.freeContext, e, i, s.contexts.creator i⟩ := by
        intro call hcall
        rcases List.mem_cons.1 hcall with rfl | hcall
        · exact Or.inr ⟨i, hctx.trans hi, rfl⟩
        · exact Or.inl hcall
      split
      · exact ⟨rfl, rfl, setChip_isSome (s.jsFreeContext e i) e _, hcalls⟩
      · rename_i j t _
        exact ⟨rfl, rfl, setChip_isSome { s.jsFreeContext e i with contexts := t } e _, hcalls⟩

theorem Wf.leftClickUpdate (h : s.Wf) (hidle : s.frames = []) (ply : Player)
    (he : (s.chips e).isSome) : (s.leftClickUpdate e ply).Wf := by
  obtain ⟨hframes, hnext, hsome, hcalls⟩ := s.leftClickUpdate_frame e ply
  refine ⟨fun e' he' => ?_, ?_, by simp [hframes, hidle], fun call hcall => ?_⟩
  · have := h.fresh e' (hnext ▸ he')
    rw [← Option.not_isSome_iff_eq_none, hsome, this]; simp
  · rcases leftClickUpdate_spec ply he with ⟨j, entIndex, hcreate, hctx⟩ | ⟨-, htable, hctx⟩
    · obtain ⟨hfree, -, hcre⟩ := luaCreateContext_ok hcreate
      rw [hcre, hctx]
      intro e' k hk
      rcases eq_or_ne e' e with rfl | hne
      · simp only [Function.update_self, Option.some.injEq] at hk
        rw [hk, Function.update_self]
      · rw [Function.update_of_ne hne] at hk
        have hown := h.chips e' k hk
        -- another chip's slot is neither the one given up nor the free one
        have hkeep : (s.givesUp e).creator k = some e' := by
          refine (s.givesUp_creator e).2 ⟨hown, fun hek => hne ?_⟩
          exact Option.some.inj (hown.symm.trans (h.chips e k hek))
        have hkj : k ≠ j := by
          rintro rfl
          rw [creator_eq_none.2 hfree] at hkeep; cases hkeep
        rw [Function.update_of_ne hkj]; exact hkeep
    · rw [htable, hctx]; exact h.chips
  · rcases hcalls call hcall with hcall | ⟨i, hi, rfl⟩
    · exact h.calls call hcall
    · exact h.chips e i hi

/-- A new entity has no context, and changes nobody else's. -/
theorem makeWireEnt_ctxOf (h : s.Wf) (index : EntIndex) : (s.makeWireEnt index).ctxOf = s.ctxOf := by
  funext e
  rcases eq_or_ne e s.nextEntity with rfl | hne
  · simp [ctxOf, makeWireEnt, h.fresh _ le_rfl]
  · simp [ctxOf, makeWireEnt, Function.update_of_ne hne]

theorem makeWireEnt_ctxOf_new (h : s.Wf) (index : EntIndex) :
    (s.makeWireEnt index).ctxOf s.nextEntity = none := by
  rw [makeWireEnt_ctxOf h]
  simp [ctxOf, h.fresh _ le_rfl]

/-- The chips that were there before. -/
theorem makeWireEnt_chips_of_ne {index : EntIndex} (hne : e ≠ s.nextEntity) :
    (s.makeWireEnt index).chips e = s.chips e := Function.update_of_ne hne _ _

theorem makeWireEnt_isSome (s : Server F) (index : EntIndex) :
    ((s.makeWireEnt index).chips s.nextEntity).isSome := by
  simp [makeWireEnt]

theorem Wf.makeWireEnt (h : s.Wf) (index : EntIndex) : (s.makeWireEnt index).Wf := by
  refine ⟨fun e he => ?_, ?_, h.frames, h.calls⟩
  · have hlt : s.nextEntity + 1 ≤ e := he
    have hne : e ≠ s.nextEntity := by omega
    simp only [Server.makeWireEnt, Function.update_of_ne hne]
    exact h.fresh e (by omega)
  · rw [makeWireEnt_ctxOf h]; exact h.chips

/-- Creating a context takes no slot from anybody. -/
theorem Wf.create (h : s.Wf) {entIndex ownerIndex : ℕ} {t : ContextTable F}
    (hcreate : luaCreateContext s.contexts e entIndex ownerIndex = .ok (i, t)) :
    ({ s with contexts := t } : Server F).Wf ∧ t.creator i = some e := by
  obtain ⟨hfree, -, hcre⟩ := luaCreateContext_ok hcreate
  have hkeep : ∀ j e', s.contexts.creator j = some e' → t.creator j = some e' := by
    intro j e' hj
    have hji : j ≠ i := by
      rintro rfl
      rw [creator_eq_none.2 hfree] at hj; cases hj
    rw [hcre, Function.update_of_ne hji]; exact hj
  exact ⟨⟨h.fresh, fun e' j hj => hkeep j e' (h.chips e' j hj),
    fun f hf => hkeep _ _ (h.frames f hf), h.calls⟩, by rw [hcre, Function.update_self]⟩

theorem Wf.applyDupeInfo (h : s.Wf) (e : ℕ) (index : EntIndex) (ownerIndex : ℕ)
    (script : Option String) (result : Compiled) :
    (s.applyDupeInfo e index ownerIndex script result).Wf := by
  have hscript : (s.setChip e fun chip => { chip with script := script }).Wf := h.setChip e fun _ => rfl
  unfold Server.applyDupeInfo
  simp only
  split
  · exact hscript.chipError e
  · rename_i i t hcreate
    obtain ⟨hwf, hown⟩ := hscript.create hcreate
    cases script with
    | none => exact hwf
    | some script =>
      have hlog := hwf.logCall hown .compile
      simp only
      split
      · rename_i message s' hcompile
        obtain rfl := jsCompile_state hcompile
        exact hlog.chipError e
      · rename_i bytecode s' hcompile
        obtain rfl := jsCompile_state hcompile
        exact hlog.jsEval hown .dupeEval
      · rename_i s' hcompile
        obtain rfl := jsCompile_state hcompile
        exact hlog.jsEvalNil hown

theorem Wf.uploadComplete (h : s.Wf) (e : ℕ) (script : String) (result : Compiled) :
    (s.uploadComplete e script result).Wf := by
  unfold Server.uploadComplete
  split
  · exact h
  · rename_i i hi
    have hown := h.chips e i hi
    have hlog := h.logCall hown .compile
    have hrun := hlog.setChip e (g := fun chip => { chip with run := true }) fun _ => rfl
    split
    · rename_i message s' hcompile
      obtain rfl := jsCompile_state hcompile
      exact hlog.chipError e
    · rename_i bytecode s' hcompile
      obtain rfl := jsCompile_state hcompile
      exact hrun.jsEval hown (.uploadEval script)
    · rename_i s' hcompile
      obtain rfl := jsCompile_state hcompile
      exact hrun.jsEvalNil hown

/-- The player who validates a script gets an answer, after which the context is freed. -/
def Answers (script : String) (result : Compiled) : Prop := script = "" ∨ hasText result

/-- **A validation** that is answered leaves the table as it was. One that is not leaves the
context it has created. Its own calls are on that slot. -/
theorem validateComplete_spec (s : Server F) (ply : Player) (script : String) (result : Compiled) :
    (s.validateComplete ply script result).chips = s.chips ∧
      (s.validateComplete ply script result).nextEntity = s.nextEntity ∧
      (s.validateComplete ply script result).frames = s.frames ∧
      ((Answers script result ∨ ∀ i, s.contexts i ≠ none) ∧
          (s.validateComplete ply script result).contexts = s.contexts ∨
        ¬ Answers script result ∧ ∃ i, luaCreateContext s.contexts ply.entity ply.index ply.index =
          .ok (i, (s.validateComplete ply script result).contexts)) ∧
      ∀ call ∈ (s.validateComplete ply script result).calls,
        call ∈ s.calls ∨ call.creator = some call.caller := by
  unfold validateComplete
  split
  · rename_i message hcreate
    have hfull := luaCreateContext_error hcreate ply.index.2 ply.index.2
    exact ⟨rfl, rfl, rfl, Or.inl ⟨Or.inr hfull, rfl⟩, fun _ h => Or.inl h⟩
  · rename_i i t hcreate
    obtain ⟨hfree, ht, hcre⟩ := luaCreateContext_ok hcreate
    have hown : t.creator i = some ply.entity := by rw [hcre, Function.update_self]
    have hanswers : hasText (({ s with contexts := t } : Server F).jsCompile ply.entity i script
        result).1 = true ↔ Answers script result := by
      rcases eq_or_ne script "" with rfl | hne
      · rw [jsCompile_empty hown]
        exact iff_of_true rfl (Or.inl rfl)
      · rw [jsCompile_eq hown hne]
        exact (or_iff_right hne).symm
    simp only
    split
    · rename_i htext
      refine ⟨rfl, rfl, rfl, Or.inl ⟨Or.inl (hanswers.1 htext), ?_⟩, fun call hcall => ?_⟩
      · simp only [jsFreeContext, jsCompile, logCall_contexts, freeSlot, ht, Function.update_idem]
        rw [← hfree, Function.update_eq_self]
      · simp only [jsFreeContext, jsCompile, logCall] at hcall
        rcases List.mem_cons.1 hcall with rfl | hcall
        · exact Or.inr hown
        rcases List.mem_cons.1 hcall with rfl | hcall
        · exact Or.inr hown
        · exact Or.inl hcall
    · rename_i htext
      refine ⟨rfl, rfl, rfl, Or.inr ⟨fun h => htext (hanswers.2 h), i, hcreate⟩, fun call hcall => ?_⟩
      simp only [jsCompile, logCall] at hcall
      rcases List.mem_cons.1 hcall with rfl | hcall
      · exact Or.inr hown
      · exact Or.inl hcall

theorem Wf.validateComplete (h : s.Wf) (ply : Player) (script : String) (result : Compiled) :
    (s.validateComplete ply script result).Wf := by
  obtain ⟨hchips, hnext, hframes, htable, hcalls⟩ := s.validateComplete_spec ply script result
  -- the other slots belong to whom they belonged
  have hkeep : ∀ j e, s.contexts.creator j = some e →
      (s.validateComplete ply script result).contexts.creator j = some e := by
    intro j e hj
    rcases htable with ⟨-, htable⟩ | ⟨-, i, hcreate⟩
    · rw [htable]; exact hj
    · obtain ⟨hfree, -, hcre⟩ := luaCreateContext_ok hcreate
      have hne : j ≠ i := by
        rintro rfl
        rw [creator_eq_none.2 hfree] at hj
        cases hj
      rw [hcre, Function.update_of_ne hne]; exact hj
  refine ⟨?_, ?_, ?_, fun call hcall => ?_⟩
  · rw [hchips, hnext]; exact h.fresh
  · unfold ctxOf; rw [hchips]; exact fun e i hi => hkeep i e (h.chips e i hi)
  · rw [hframes]; exact fun f hf => hkeep f.slot f.chip (h.frames f hf)
  · exact (hcalls call hcall).elim (h.calls call) id

theorem Wf.emitEvent (h : s.Wf) (e : ℕ) (eventName : String) : (s.emitEvent e eventName).Wf := by
  unfold Server.emitEvent
  split
  · rename_i index i script hchip
    exact h.jsEmitEvent (h.chips e i (by simp [ctxOf, hchip])) eventName
  · exact h

/-- **What `ENT:OnRemove` does.** The slot is given up and the chip is gone. -/
theorem onRemove_spec (s : Server F) (e : ℕ) :
    (s.onRemove e).contexts = s.givesUp e ∧
      (s.onRemove e).chips = Function.update s.chips e none ∧
      (s.onRemove e).nextEntity = s.nextEntity ∧ (s.onRemove e).frames = s.frames ∧
      ∀ call ∈ (s.onRemove e).calls, call ∈ s.calls ∨
        ∃ i, s.ctxOf e = some i ∧ call = ⟨.freeContext, e, i, s.contexts.creator i⟩ := by
  unfold onRemove givesUp
  cases hctx : s.ctxOf e with
  | none => exact ⟨rfl, rfl, rfl, rfl, fun _ h => Or.inl h⟩
  | some i =>
    refine ⟨rfl, rfl, rfl, rfl, fun call hcall => ?_⟩
    rcases List.mem_cons.1 hcall with rfl | hcall
    · exact Or.inr ⟨i, rfl, rfl⟩
    · exact Or.inl hcall

theorem onRemove_ctxOf (s : Server F) (e : ℕ) :
    (s.onRemove e).ctxOf = Function.update s.ctxOf e none := by
  obtain ⟨-, hchips, -⟩ := s.onRemove_spec e
  funext e'
  rcases eq_or_ne e' e with rfl | hne
  · simp [ctxOf, hchips]
  · simp [ctxOf, hchips, Function.update_of_ne hne]

theorem Wf.onRemove (h : s.Wf) (hidle : s.frames = []) (e : ℕ) : (s.onRemove e).Wf := by
  obtain ⟨htable, hchips, hnext, hframes, hcalls⟩ := s.onRemove_spec e
  refine ⟨fun e' he' => ?_, fun e' k hk => ?_, by simp [hframes, hidle], fun call hcall => ?_⟩
  · rw [hchips]
    rcases eq_or_ne e' e with rfl | hne
    · exact Function.update_self ..
    · rw [Function.update_of_ne hne]; exact h.fresh e' (hnext ▸ he')
  · rw [onRemove_ctxOf] at hk
    rcases eq_or_ne e' e with rfl | hne
    · simp at hk
    · rw [Function.update_of_ne hne] at hk
      have hown := h.chips e' k hk
      rw [htable]
      refine (s.givesUp_creator e).2 ⟨hown, fun hek => hne ?_⟩
      exact Option.some.inj (hown.symm.trans (h.chips e k hek))
  · rcases hcalls call hcall with hcall | ⟨i, hi, rfl⟩
    · exact h.calls call hcall
    · exact h.chips e i hi

/-- A metered instruction keeps the entries, except for what they have spent. -/
theorem meter_frames (s : Server F) (i : Fin maxContexts) (cost : ℕ) {f : Frame}
    (hf : f ∈ (s.meter i cost).frames) : ∃ f' ∈ s.frames, f.slot = f'.slot ∧ f.chip = f'.chip := by
  unfold meter at hf
  split at hf
  · exact ⟨f, hf, rfl, rfl⟩
  · simp only at hf
    split at hf
    · exact ⟨f, hf, rfl, rfl⟩
    · obtain ⟨f', hf', rfl⟩ := List.mem_map.1 hf
      refine ⟨f', hf', ?_⟩
      split <;> exact ⟨rfl, rfl⟩

theorem Wf.meter (h : s.Wf) (i : Fin maxContexts) (cost : ℕ) : (s.meter i cost).Wf := by
  have hchips : (s.meter i cost).chips = s.chips := by unfold Server.meter; split <;> rfl
  have hnext : (s.meter i cost).nextEntity = s.nextEntity := by unfold Server.meter; split <;> rfl
  have hcalls : (s.meter i cost).calls = s.calls := by unfold Server.meter; split <;> rfl
  refine ⟨?_, ?_, fun f hf => ?_, ?_⟩
  · rw [hchips, hnext]; exact h.fresh
  · rw [meter_creator]; unfold ctxOf; rw [hchips]; exact h.chips
  · obtain ⟨f', hf', hslot, hchip⟩ := s.meter_frames i cost hf
    rw [meter_creator, hslot, hchip]; exact h.frames f' hf'
  · rw [hcalls]; exact h.calls

theorem Wf.on (h : s.Wf) (i : Fin maxContexts) (name : String) (f : F) : (s.on i name f).Wf := by
  refine ⟨h.fresh, ?_, ?_, h.calls⟩
  · rw [on_creator]; exact h.chips
  · rw [on_creator]; exact h.frames

/-! ## Entering a script -/

/-- The step started no script and changed no context. -/
def Quiet (s s' : Server F) : Prop := s'.contexts = s.contexts ∧ s'.frames = s.frames

/-- The step entered the context of slot `i`, whose counter now is 0. -/
def Enters (s s' : Server F) (e : ℕ) (i : Fin maxContexts) (cont : Continuation) : Prop :=
  s'.contexts = s.contexts.modify i Context.resetOps ∧ s'.frames = ⟨e, i, 0, cont⟩ :: s.frames

/-- An event for the chip reaches a listener, in the context of slot `i`. -/
def Reaches (s : Server F) (e : ℕ) (eventName : String) (i : Fin maxContexts) : Prop :=
  ∃ chip c, s.chips e = some chip ∧ chip.run = true ∧ chip.ctx = some i ∧ s.contexts i = some c ∧
    c.listeners.lookup eventName ≠ none

/-- With a context in the slot, `JS_Eval` enters the script. -/
theorem jsEval_enters {e' : ℕ} (hi : s.contexts.creator i = some e') (e : ℕ) (cont : Continuation) :
    s.jsEval e i cont = (s.logCall .eval e i).enter e i cont := by
  unfold jsEval
  cases hc : s.contexts i with
  | none => rw [creator_eq_none.2 hc] at hi; cases hi
  | some c => rfl

/-- **`ENT:Think` and `ENT:TriggerInput`** do nothing until they reach a listener. -/
theorem emitEvent_spec (h : s.Wf) (e : ℕ) (eventName : String) :
    (s.emitEvent e eventName).chips = s.chips ∧
      (Quiet s (s.emitEvent e eventName) ∨
        ∃ i, s.Reaches e eventName i ∧ Enters s (s.emitEvent e eventName) e i .emit) := by
  unfold emitEvent
  split
  · rename_i index i script hchip
    have hown := h.chips e i (by simp [ctxOf, hchip])
    unfold jsEmitEvent
    cases hc : s.contexts i with
    | none => rw [creator_eq_none.2 hc] at hown; cases hown
    | some c =>
      simp only
      cases hlook : c.listeners.lookup eventName with
      | none => exact ⟨rfl, Or.inl ⟨rfl, rfl⟩⟩
      | some f =>
        have hreach : s.Reaches e eventName i := ⟨_, c, hchip, rfl, rfl, hc, by simp [hlook]⟩
        exact ⟨rfl, Or.inr ⟨i, hreach, rfl, rfl⟩⟩
  · exact ⟨rfl, Or.inl ⟨rfl, rfl⟩⟩

/-- **The upload handler** enters the chip's own context, if it has one and there is bytecode. -/
theorem uploadComplete_spec (h : s.Wf) (e : ℕ) (script : String) (result : Compiled) :
    (s.uploadComplete e script result).ctxOf = s.ctxOf ∧
      (∀ e', ((s.uploadComplete e script result).chips e').isSome = (s.chips e').isSome) ∧
      (Quiet s (s.uploadComplete e script result) ∨
        ∃ i, Enters s (s.uploadComplete e script result) e i (.uploadEval script)) := by
  unfold uploadComplete
  split
  · exact ⟨rfl, fun _ => rfl, Or.inl ⟨rfl, rfl⟩⟩
  · rename_i i hi
    have hown := h.chips e i hi
    split
    · rename_i message s' hcompile
      obtain rfl := jsCompile_state hcompile
      exact ⟨chipError_ctxOf (s.logCall .compile e i) e,
        setChip_isSome (s.logCall .compile e i) e _, Or.inl ⟨rfl, rfl⟩⟩
    · rename_i bytecode s' hcompile
      obtain rfl := jsCompile_state hcompile
      rw [jsEval_enters (s := (s.logCall .compile e i).setChip e _) hown]
      exact ⟨setChip_ctxOf (s.logCall .compile e i) e fun _ => rfl,
        setChip_isSome (s.logCall .compile e i) e _, Or.inr ⟨i, rfl, rfl⟩⟩
    · rename_i s' hcompile
      obtain rfl := jsCompile_state hcompile
      exact ⟨setChip_ctxOf (s.logCall .compile e i) e fun _ => rfl,
        setChip_isSome (s.logCall .compile e i) e _, Or.inl ⟨rfl, rfl⟩⟩

/-- The dupe has a script, which compiles to bytecode. -/
def Compiles (script : Option String) (result : Compiled) : Prop :=
  ∃ text bytecode, script = some text ∧ text ≠ "" ∧ result = .ok (some bytecode)

/-- **What `ENT:ApplyDupeInfo` does before its script runs.** Without a free slot (or with a
null owner) nothing; otherwise a context is created, and only a script with bytecode is
evaluated in it. The chip's `ctx` is not assigned yet. -/
theorem applyDupeInfo_spec (s : Server F) (e : ℕ) (index : EntIndex) (ownerIndex : ℕ)
    (script : Option String) (result : Compiled) :
    (s.applyDupeInfo e index ownerIndex script result).ctxOf = s.ctxOf ∧
      (∀ e', ((s.applyDupeInfo e index ownerIndex script result).chips e').isSome =
        (s.chips e').isSome) ∧
      ((ownerIndex = 0 ∨ ∀ i, s.contexts i ≠ none) ∧
          Quiet s (s.applyDupeInfo e index ownerIndex script result) ∨
        ∃ i t, luaCreateContext s.contexts e index ownerIndex = .ok (i, t) ∧
          (¬ Compiles script result ∧
              Quiet { s with contexts := t } (s.applyDupeInfo e index ownerIndex script result) ∨
            Compiles script result ∧
              Enters { s with contexts := t } (s.applyDupeInfo e index ownerIndex script result)
                e i .dupeEval)) := by
  set s₁ := s.setChip e fun chip => { chip with script := script } with hs₁
  have hctx₁ : s₁.ctxOf = s.ctxOf := setChip_ctxOf s e fun _ => rfl
  have hsome₁ : ∀ e', (s₁.chips e').isSome = (s.chips e').isSome := setChip_isSome s e _
  unfold applyDupeInfo
  simp only [← hs₁]
  split
  · rename_i message hcreate
    refine ⟨(s₁.chipError_ctxOf e).trans hctx₁, fun e' => (s₁.setChip_isSome e _ e').trans (hsome₁ e'),
      Or.inl ⟨?_, rfl, rfl⟩⟩
    by_contra hne
    rw [not_or] at hne
    exact hne.2 (luaCreateContext_error hcreate index.2 hne.1)
  · rename_i i t hcreate
    have hown : t.creator i = some e := by rw [(luaCreateContext_ok hcreate).2.2, Function.update_self]
    cases script with
    | none =>
      exact ⟨hctx₁, hsome₁, Or.inr ⟨i, t, hcreate, Or.inl ⟨fun ⟨_, _, h, _⟩ => (nomatch h), rfl, rfl⟩⟩⟩
    | some text =>
      set s₂ : Server F := { s₁ with contexts := t } with hs₂
      have hown₂ : s₂.contexts.creator i = some e := hown
      have herror : ((s₂.logCall .compile e i).chipError e).ctxOf = s.ctxOf ∧
          ∀ e', (((s₂.logCall .compile e i).chipError e).chips e').isSome = (s.chips e').isSome :=
        ⟨((s₂.logCall .compile e i).chipError_ctxOf e).trans hctx₁,
          fun e' => ((s₂.logCall .compile e i).setChip_isSome e _ e').trans (hsome₁ e')⟩
      rcases eq_or_ne text "" with rfl | hne
      · have hfail : ¬ Compiles (some "") result := by
          rintro ⟨text, _, htext, hne, -⟩
          exact hne (Option.some.inj htext).symm
        simp only [jsCompile_empty hown₂]
        exact ⟨herror.1, herror.2, Or.inr ⟨i, t, hcreate, Or.inl ⟨hfail, rfl, rfl⟩⟩⟩
      simp only [jsCompile_eq hown₂ hne]
      rcases result with message | _ | bytecode
      · have hfail : ¬ Compiles (some text) (.error message) := by
          rintro ⟨_, _, -, -, hok⟩
          cases hok
        exact ⟨herror.1, herror.2, Or.inr ⟨i, t, hcreate, Or.inl ⟨hfail, rfl, rfl⟩⟩⟩
      · have hfail : ¬ Compiles (some text) (.ok none) := by
          rintro ⟨_, _, -, -, hok⟩
          cases hok
        exact ⟨hctx₁, hsome₁, Or.inr ⟨i, t, hcreate, Or.inl ⟨hfail, rfl, rfl⟩⟩⟩
      · simp only [jsEval_enters (s := s₂.logCall .compile e i) hown₂]
        exact ⟨hctx₁, hsome₁,
          Or.inr ⟨i, t, hcreate, Or.inr ⟨⟨text, bytecode, rfl, hne, rfl⟩, rfl, rfl⟩⟩⟩

/-! ## Every step -/

/-- **Every step keeps the invariant**, whatever the scripts do. -/
theorem wf_step (h : s.Wf) {a : Action F} (hstep : s.step a = some s') : s'.Wf := by
  cases a with
  | makeEnt index ply =>
    simp only [step, Option.ite_none_right_eq_some, Option.some.injEq] at hstep
    obtain ⟨hidle, rfl⟩ := hstep
    exact (h.makeWireEnt index).leftClickUpdate hidle ply (s.makeWireEnt_isSome index)
  | leftClickUpdate e ply =>
    simp only [step, Option.ite_none_right_eq_some, Option.some.injEq] at hstep
    obtain ⟨⟨hidle, he⟩, rfl⟩ := hstep
    exact h.leftClickUpdate hidle ply he
  | paste index ownerIndex script result =>
    simp only [step, Option.ite_none_right_eq_some, Option.some.injEq] at hstep
    obtain ⟨-, rfl⟩ := hstep
    exact (h.makeWireEnt index).applyDupeInfo _ index ownerIndex script result
  | upload e script result =>
    simp only [step, Option.ite_none_right_eq_some, Option.some.injEq] at hstep
    obtain ⟨-, rfl⟩ := hstep
    exact h.uploadComplete e script result
  | validate ply script result =>
    simp only [step, Option.ite_none_right_eq_some, Option.some.injEq] at hstep
    obtain ⟨-, rfl⟩ := hstep
    exact h.validateComplete ply script result
  | think e =>
    simp only [step, Option.ite_none_right_eq_some, Option.some.injEq] at hstep
    obtain ⟨-, rfl⟩ := hstep
    exact h.emitEvent e "tick"
  | triggerInput e =>
    simp only [step, Option.ite_none_right_eq_some, Option.some.injEq] at hstep
    obtain ⟨-, rfl⟩ := hstep
    exact h.emitEvent e "input"
  | remove e =>
    simp only [step, Option.ite_none_right_eq_some, Option.some.injEq] at hstep
    obtain ⟨⟨hidle, -⟩, rfl⟩ := hstep
    exact h.onRemove hidle e
  | meter cost =>
    simp only [step, Option.map_eq_some_iff] at hstep
    obtain ⟨f, -, rfl⟩ := hstep
    exact h.meter f.slot cost
  | on name g =>
    simp only [step, Option.map_eq_some_iff] at hstep
    obtain ⟨f, -, rfl⟩ := hstep
    exact h.on f.slot name g
  | ret threw =>
    simp only [step] at hstep
    split at hstep
    · rename_i f fs hframes
      cases hstep
      have hpop : ({ s with frames := fs } : Server F).Wf :=
        ⟨h.fresh, h.chips, fun f' hf' => h.frames f' (by rw [hframes]; exact List.mem_cons_of_mem _ hf'),
          h.calls⟩
      exact hpop.resume (h.frames f (by rw [hframes]; exact List.mem_cons_self)) threw f.cont
    · cases hstep

/-! ## Isolation -/

/-- No two valid chips have the same id, and every call reached its own chip's context. -/
def Isolated (s : Server F) : Prop :=
  (∀ e e' i, s.ctxOf e = some i → s.ctxOf e' = some i → e = e') ∧
    ∀ call ∈ s.calls, call.creator = some call.caller

/-- The creator of a slot is one entity, so the ids of two chips differ. -/
theorem Wf.isolated (h : s.Wf) : s.Isolated :=
  ⟨fun e e' i he he' => Option.some.inj ((h.chips e i he).symm.trans (h.chips e' i he')), h.calls⟩

/-- **Chips are isolated** in every state of every run. -/
theorem always_isolated (as : List (Action F)) : Always step Isolated (init : Server F) as :=
  always_of_inv (fun _ h => h.isolated) (fun _ _ _ h hstep => wf_step h hstep) as init_wf

end Server

end JSChip
