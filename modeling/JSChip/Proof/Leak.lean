import Mathlib.Data.Finset.Card
import Mathlib.Data.Fintype.Card
import JSChip.Proof.Isolation

/-!
# Which runs leak contexts

A context that is neither in a chip's `ctx` nor on its way there can never be freed again.

* `occupied_eq_iff`: the slots and the chips with a context are equally many exactly when
  every context is in its chip.
* `pasting_step`: the evaluation of a paste is the outermost entry, of a chip without an id.
* `tidy_step`: a step that meets `NoLeak` keeps every context in its chip, or in the
  evaluation of the paste that will put it there.
* `balanced_iff`: **a run never leaks exactly when every paste that gets a context has a
  script that compiles to bytecode and evaluates without an error, and every validation that gets
  one is answered.**
* `paste_leaks`: pasting a chip whose script does not compile loses a slot.
-/

namespace JSChip

open Machine

/-- What an entry is, whatever it has spent. -/
def Frame.entry (f : Frame) : ℕ × Fin maxContexts × Continuation := (f.chip, f.slot, f.cont)

namespace Server

variable {F : Type}

/-- How many slots hold a context. -/
def occupied (s : Server F) : ℕ := (Finset.univ.filter fun i => (s.contexts i).isSome).card

/-- How many valid chips have a context. -/
def withContext (s : Server F) : ℕ :=
  ((Finset.range s.nextEntity).filter fun e => (s.ctxOf e).isSome).card

/-- Between handlers, every context belongs to a chip. -/
def Balanced (s : Server F) : Prop := s.frames = [] → s.occupied = s.withContext

/-- The step leaks nothing: a pasted chip that gets a context has a script that compiles to
bytecode, the evaluation of a pasted script does not throw, and a validation that gets a context
is answered. -/
def NoLeak (s : Server F) : Action F → Prop
  | .paste _ ownerIndex script result =>
    ownerIndex ≠ 0 → (∃ i, s.contexts i = none) → Compiles script result
  | .validate _ script result => (∃ i, s.contexts i = none) → Answers script result
  | .ret threw => ∀ f ∈ s.frames.head?, f.cont = .dupeEval → threw = false
  | _ => True

/-! ## Counting -/

/-- **Counting contexts.** As each chip's id is of a context of its own, there are as many
slots taken as chips with a context exactly when each context is in its chip. -/
theorem occupied_eq_iff {s : Server F} (h : s.Wf) :
    s.occupied = s.withContext ↔ ∀ e i, s.contexts.creator i = some e → s.ctxOf e = some i := by
  set chips := (Finset.range s.nextEntity).filter fun e => (s.ctxOf e).isSome with hchips
  set slots := Finset.univ.filter fun i => (s.contexts i).isSome with hslots
  let slotOf : ℕ → Fin maxContexts := fun e => (s.ctxOf e).getD firstSlot
  have hslotOf : ∀ e ∈ chips, s.ctxOf e = some (slotOf e) := by
    intro e he
    obtain ⟨i, hi⟩ := Option.isSome_iff_exists.1 (Finset.mem_filter.1 he).2
    simp [slotOf, hi]
  have hinj : Set.InjOn slotOf chips := by
    intro e he e' he' heq
    have h1 := h.chips e _ (hslotOf e he)
    have h2 := h.chips e' _ (hslotOf e' he')
    rw [heq] at h1
    exact Option.some.inj (h1.symm.trans h2)
  have hsub : chips.image slotOf ⊆ slots := by
    intro i hi
    obtain ⟨e, he, rfl⟩ := Finset.mem_image.1 hi
    have hown := h.chips e _ (hslotOf e he)
    refine Finset.mem_filter.2 ⟨Finset.mem_univ _, ?_⟩
    cases hc : s.contexts (slotOf e) with
    | none => rw [creator_eq_none.2 hc] at hown; cases hown
    | some c => rfl
  have hcard : (chips.image slotOf).card = s.withContext := Finset.card_image_of_injOn hinj
  constructor
  · intro heq e i hi
    have himage : chips.image slotOf = slots :=
      Finset.eq_of_subset_of_card_le hsub (by rw [hcard]; exact heq.le)
    have hmem : i ∈ chips.image slotOf := by
      rw [himage]
      refine Finset.mem_filter.2 ⟨Finset.mem_univ _, ?_⟩
      cases hc : s.contexts i with
      | none => rw [creator_eq_none.2 hc] at hi; cases hi
      | some c => rfl
    obtain ⟨e', he', rfl⟩ := Finset.mem_image.1 hmem
    have hown := h.chips e' _ (hslotOf e' he')
    obtain rfl : e' = e := Option.some.inj (hown.symm.trans hi)
    exact hslotOf e' he'
  · intro hall
    have himage : slots ⊆ chips.image slotOf := by
      intro i hi
      obtain ⟨c, hc⟩ := Option.isSome_iff_exists.1 (Finset.mem_filter.1 hi).2
      have hctx : s.ctxOf c.entity = some i := hall c.entity i (by simp [ContextTable.creator, hc])
      have hvalid : c.entity < s.nextEntity := by
        by_contra hge
        simp [ctxOf, h.fresh c.entity (by omega)] at hctx
      refine Finset.mem_image.2 ⟨c.entity, Finset.mem_filter.2 ⟨Finset.mem_range.2 hvalid, ?_⟩, ?_⟩
      · simp [hctx]
      · simp [slotOf, hctx]
    exact (Finset.Subset.antisymm himage hsub ▸ hcard : slots.card = s.withContext)

/-! ## Pastes in progress -/

/-- The entries that have not returned. -/
def entries (s : Server F) : List (ℕ × Fin maxContexts × Continuation) := s.frames.map Frame.entry

/-- **A paste in progress**: the evaluation of its script is the outermost entry, of a valid chip
that has no context yet. -/
structure Pasting (s : Server F) : Prop where
  wf : s.Wf
  outermost : s.entries.Pairwise fun x _ => x.2.2 ≠ .dupeEval
  waiting : ∀ e i, (e, i, .dupeEval) ∈ s.entries → (s.chips e).isSome ∧ s.ctxOf e = none

variable {s s' : Server F} {e : ℕ} {i : Fin maxContexts}

theorem init_pasting : (init : Server F).Pasting :=
  ⟨init_wf, List.Pairwise.nil, fun _ _ h => absurd h List.not_mem_nil⟩

/-- Entries and creators after a handler that at most enters a script. -/
theorem Quiet.entries (h : Quiet s s') : s'.entries = s.entries := by
  rw [Server.entries, Server.entries, h.2]

theorem Enters.entries {cont : Continuation} (h : Enters s s' e i cont) :
    s'.entries = (e, i, cont) :: s.entries := by
  rw [Server.entries, h.2]; rfl

theorem Quiet.creator (h : Quiet s s') : s'.contexts.creator = s.contexts.creator := by rw [h.1]

theorem Enters.creator {cont : Continuation} (h : Enters s s' e i cont) :
    s'.contexts.creator = s.contexts.creator := by
  rw [h.1]; exact creator_modify _ _ fun _ => rfl

/-- Between handlers nothing is being pasted. -/
theorem entries_idle (hidle : s.frames = []) : s.entries = [] := by simp [entries, hidle]

theorem Pasting.of_idle (hwf : s.Wf) (hidle : s.frames = []) : s.Pasting :=
  ⟨hwf, by simp [entries_idle hidle], by simp [entries_idle hidle]⟩

/-- The step enters at most a script that is not a pasted one. -/
def EntersOther (s s' : Server F) : Prop :=
  s'.entries = s.entries ∨ ∃ x, x.2.2 ≠ .dupeEval ∧ s'.entries = x :: s.entries

theorem EntersOther.mem_iff (h : EntersOther s s') :
    (e, i, Continuation.dupeEval) ∈ s'.entries ↔ (e, i, .dupeEval) ∈ s.entries := by
  rcases h with hent | ⟨x, hx, hent⟩
  · rw [hent]
  · rw [hent, List.mem_cons]
    exact or_iff_right fun heq => hx (heq ▸ rfl)

theorem Pasting.congr (h : s.Pasting) (hwf : s'.Wf) (hctx : s'.ctxOf = s.ctxOf)
    (hsome : ∀ e, (s'.chips e).isSome = (s.chips e).isSome) (hent : EntersOther s s') :
    s'.Pasting := by
  refine ⟨hwf, ?_, fun e i hi => ?_⟩
  · rcases hent with hent | ⟨x, hx, hent⟩
    · rw [hent]; exact h.outermost
    · rw [hent]; exact List.Pairwise.cons (fun _ _ => hx) h.outermost
  · rw [hsome, hctx]; exact h.waiting e i (hent.mem_iff.1 hi)

/-- The evaluation of a paste is the outermost entry. -/
theorem Pasting.outermost_eq_nil (h : s.Pasting) {f : Frame} {fs : List Frame}
    (hframes : s.frames = f :: fs) (hcont : f.cont = .dupeEval) : fs = [] := by
  have hout := h.outermost
  rw [entries, hframes, List.map_cons, List.pairwise_cons] at hout
  cases fs with
  | nil => rfl
  | cons g gs => exact absurd hcont (hout.1 g.entry List.mem_cons_self)

/-- Its chip has no id yet. -/
theorem Pasting.waiting_head (h : s.Pasting) {f : Frame} {fs : List Frame}
    (hframes : s.frames = f :: fs) (hcont : f.cont = .dupeEval) :
    (s.chips f.chip).isSome ∧ s.ctxOf f.chip = none := by
  refine h.waiting f.chip f.slot ?_
  rw [entries, hframes, ← hcont]
  exact List.mem_cons_self

theorem Pasting.applyDupeInfo (h : s.Pasting) (hidle : s.frames = []) (he : (s.chips e).isSome)
    (hctx : s.ctxOf e = none) (index : EntIndex) (ownerIndex : ℕ) (script : Option String)
    (result : Compiled) : (s.applyDupeInfo e index ownerIndex script result).Pasting := by
  have hwf := h.wf.applyDupeInfo e index ownerIndex script result
  obtain ⟨hctx', hsome', hcases⟩ := s.applyDupeInfo_spec e index ownerIndex script result
  rcases hcases with ⟨-, hquiet⟩ | ⟨i, t, -, ⟨-, hquiet⟩ | ⟨-, henters⟩⟩
  · exact Pasting.of_idle hwf (hquiet.2.trans hidle)
  · exact Pasting.of_idle hwf (hquiet.2.trans hidle)
  · have hent : (s.applyDupeInfo e index ownerIndex script result).entries = [(e, i, .dupeEval)] := by
      rw [henters.entries]; exact congrArg _ (entries_idle hidle)
    refine ⟨hwf, by rw [hent]; exact List.pairwise_singleton _ _, fun e' k hk => ?_⟩
    rw [hent, List.mem_singleton, Prod.mk.injEq, Prod.mk.injEq] at hk
    obtain ⟨rfl, -, -⟩ := hk
    rw [hsome', hctx']; exact ⟨he, hctx⟩

/-- **A return.** The paste's own is of the outermost entry; any other leaves the ids alone. -/
theorem Pasting.resume (h : s.Pasting) {f : Frame} {fs : List Frame} (hframes : s.frames = f :: fs)
    {threw : Bool}
    (hwf : (({ s with frames := fs } : Server F).resume f.chip f.slot threw f.cont).Wf) :
    (({ s with frames := fs } : Server F).resume f.chip f.slot threw f.cont).Pasting := by
  set s₀ : Server F := { s with frames := fs } with hs₀
  have hent : s.entries = f.entry :: s₀.entries := by simp [entries, hframes, hs₀]
  have hent' : (s₀.resume f.chip f.slot threw f.cont).entries = s₀.entries := by
    simp only [entries, resume_frames]
  by_cases hcont : f.cont = .dupeEval
  · -- no script is running any more
    refine Pasting.of_idle hwf ?_
    rw [resume_frames]
    exact h.outermost_eq_nil hframes hcont
  · have hctx : (s₀.resume f.chip f.slot threw f.cont).ctxOf = s.ctxOf := by
      rcases s₀.resume_ctxOf f.chip f.slot threw f.cont with hctx | ⟨hd, -⟩
      · exact hctx
      · exact absurd hd hcont
    have hout := h.outermost
    rw [hent, List.pairwise_cons] at hout
    refine ⟨hwf, by rw [hent']; exact hout.2, fun e i hi => ?_⟩
    rw [resume_isSome, hctx]
    rw [hent'] at hi
    exact h.waiting e i (by rw [hent]; exact List.mem_cons_of_mem _ hi)

/-- Emitting an event enters no pasted script. -/
theorem emitEvent_entersOther (hwf : s.Wf) (e : ℕ) (eventName : String) :
    EntersOther s (s.emitEvent e eventName) := by
  rcases (emitEvent_spec hwf e eventName).2 with hquiet | ⟨i, -, henters⟩
  · exact Or.inl hquiet.entries
  · exact Or.inr ⟨(e, i, .emit), by simp, henters.entries⟩

theorem uploadComplete_entersOther (hwf : s.Wf) (e : ℕ) (script : String) (result : Compiled) :
    EntersOther s (s.uploadComplete e script result) := by
  rcases (uploadComplete_spec hwf e script result).2.2 with hquiet | ⟨i, henters⟩
  · exact Or.inl hquiet.entries
  · exact Or.inr ⟨(e, i, .uploadEval script), by simp, henters.entries⟩

/-- A metered instruction changes no entry but what it has spent. -/
theorem meter_entries (s : Server F) (i : Fin maxContexts) (cost : ℕ) :
    (s.meter i cost).entries = s.entries := by
  unfold meter entries
  split
  · rfl
  · simp only
    split
    · rfl
    · rw [List.map_map]
      refine List.map_congr_left fun f _ => ?_
      simp only [Function.comp_apply]
      split <;> rfl

theorem meter_chips (s : Server F) (i : Fin maxContexts) (cost : ℕ) :
    (s.meter i cost).chips = s.chips := by
  unfold Server.meter
  split <;> rfl

theorem ctxOf_of_chips (h : s'.chips = s.chips) : s'.ctxOf = s.ctxOf := by
  unfold ctxOf; rw [h]

/-- **Every step** leaves a paste in progress where it is, or ends it. -/
theorem pasting_step (h : s.Pasting) {a : Action F} (hstep : s.step a = some s') : s'.Pasting := by
  have hwf := wf_step h.wf hstep
  cases a with
  | makeEnt index ply =>
    simp only [step, Option.ite_none_right_eq_some, Option.some.injEq] at hstep
    obtain ⟨hidle, rfl⟩ := hstep
    exact Pasting.of_idle hwf (((s.makeWireEnt index).leftClickUpdate_frame s.nextEntity ply).1.trans hidle)
  | leftClickUpdate e ply =>
    simp only [step, Option.ite_none_right_eq_some, Option.some.injEq] at hstep
    obtain ⟨⟨hidle, -⟩, rfl⟩ := hstep
    exact Pasting.of_idle hwf ((s.leftClickUpdate_frame e ply).1.trans hidle)
  | paste index ownerIndex script result =>
    simp only [step, Option.ite_none_right_eq_some, Option.some.injEq] at hstep
    obtain ⟨hidle, rfl⟩ := hstep
    have hspawn : (s.makeWireEnt index).Pasting := Pasting.of_idle (h.wf.makeWireEnt index) hidle
    exact hspawn.applyDupeInfo hidle (s.makeWireEnt_isSome index)
      (makeWireEnt_ctxOf_new h.wf index) index ownerIndex script result
  | upload e script result =>
    simp only [step, Option.ite_none_right_eq_some, Option.some.injEq] at hstep
    obtain ⟨-, rfl⟩ := hstep
    obtain ⟨hctx, hsome, -⟩ := uploadComplete_spec h.wf e script result
    exact h.congr hwf hctx hsome (uploadComplete_entersOther h.wf e script result)
  | validate ply script result =>
    simp only [step, Option.ite_none_right_eq_some, Option.some.injEq] at hstep
    obtain ⟨hidle, rfl⟩ := hstep
    exact Pasting.of_idle hwf ((s.validateComplete_spec ply script result).2.2.1.trans hidle)
  | think e =>
    simp only [step, Option.ite_none_right_eq_some, Option.some.injEq] at hstep
    obtain ⟨-, rfl⟩ := hstep
    have hchips := (emitEvent_spec h.wf e "tick").1
    exact h.congr hwf (ctxOf_of_chips hchips) (fun _ => congrArg _ (congrFun hchips _))
      (emitEvent_entersOther h.wf e "tick")
  | triggerInput e =>
    simp only [step, Option.ite_none_right_eq_some, Option.some.injEq] at hstep
    obtain ⟨-, rfl⟩ := hstep
    have hchips := (emitEvent_spec h.wf e "input").1
    exact h.congr hwf (ctxOf_of_chips hchips) (fun _ => congrArg _ (congrFun hchips _))
      (emitEvent_entersOther h.wf e "input")
  | remove e =>
    simp only [step, Option.ite_none_right_eq_some, Option.some.injEq] at hstep
    obtain ⟨⟨hidle, -⟩, rfl⟩ := hstep
    obtain ⟨-, -, -, hframes, -⟩ := s.onRemove_spec e
    exact Pasting.of_idle hwf (hframes.trans hidle)
  | meter cost =>
    simp only [step, Option.map_eq_some_iff] at hstep
    obtain ⟨f, -, rfl⟩ := hstep
    have hchips := s.meter_chips f.slot cost
    exact h.congr hwf (ctxOf_of_chips hchips) (fun _ => congrArg _ (congrFun hchips _))
      (Or.inl (s.meter_entries f.slot cost))
  | on name g =>
    simp only [step, Option.map_eq_some_iff] at hstep
    obtain ⟨f, -, rfl⟩ := hstep
    exact h.congr hwf rfl (fun _ => rfl) (Or.inl rfl)
  | ret threw =>
    simp only [step] at hstep
    split at hstep
    · rename_i f fs hframes
      cases hstep
      exact h.resume hframes hwf
    · cases hstep

/-! ## Contexts in chips -/

/-- **Nothing is lost.** Every context is in its chip, or is being evaluated for the paste
that will put it there. -/
structure Tidy (s : Server F) : Prop extends Pasting s where
  held : ∀ e i, s.contexts.creator i = some e →
    s.ctxOf e = some i ∨ (e, i, .dupeEval) ∈ s.entries

theorem Tidy.balanced (h : s.Tidy) : s.Balanced := by
  intro hidle
  rw [occupied_eq_iff h.wf]
  intro e i hi
  have hnot : (e, i, .dupeEval) ∉ s.entries := by simp [entries, hidle]
  exact (h.held e i hi).resolve_right hnot

theorem init_tidy : (init : Server F).Tidy := ⟨init_pasting, fun _ _ h => (nomatch h)⟩

theorem Tidy.held_idle (h : s.Tidy) (hidle : s.frames = []) (hi : s.contexts.creator i = some e) :
    s.ctxOf e = some i :=
  (h.held e i hi).resolve_right (by simp [entries_idle hidle])

/-- A step that moves no context, and enters at most a script that is not a pasted one. -/
theorem Tidy.congr (h : s.Tidy) (hp : s'.Pasting) (hcre : s'.contexts.creator = s.contexts.creator)
    (hctx : s'.ctxOf = s.ctxOf) (hent : EntersOther s s') : s'.Tidy := by
  refine ⟨hp, fun e i hi => ?_⟩
  rw [hctx, hent.mem_iff]; exact h.held e i (hcre ▸ hi)

/-- **A click** moves the chip from the slot it gives up to the one it gets. -/
theorem Tidy.leftClickUpdate (h : s.Tidy) (hidle : s.frames = []) (ply : Player)
    (he : (s.chips e).isSome) (hp : (s.leftClickUpdate e ply).Pasting) :
    (s.leftClickUpdate e ply).Tidy := by
  refine ⟨hp, fun e' k hk => Or.inl ?_⟩
  rcases leftClickUpdate_spec ply he with ⟨j, entIndex, hcreate, hctx⟩ | ⟨-, htable, hctx⟩
  · rw [(luaCreateContext_ok hcreate).2.2] at hk
    rw [hctx]
    rcases eq_or_ne k j with rfl | hkj
    · rw [Function.update_self, Option.some.injEq] at hk
      rw [hk, Function.update_self]
    · rw [Function.update_of_ne hkj] at hk
      obtain ⟨hown, hgiven⟩ := (s.givesUp_creator e).1 hk
      have hheld := h.held_idle hidle hown
      have hne : e' ≠ e := by rintro rfl; exact hgiven hheld
      rw [Function.update_of_ne hne]; exact hheld
  · rw [htable] at hk
    rw [hctx]; exact h.held_idle hidle hk

theorem Tidy.makeWireEnt (h : s.Tidy) (hidle : s.frames = []) (index : EntIndex) :
    (s.makeWireEnt index).Tidy := by
  refine ⟨Pasting.of_idle (h.wf.makeWireEnt index) hidle, fun e i hi => Or.inl ?_⟩
  rw [makeWireEnt_ctxOf h.wf]
  exact h.held_idle hidle hi

theorem Tidy.onRemove (h : s.Tidy) (hidle : s.frames = []) (hp : (s.onRemove e).Pasting) :
    (s.onRemove e).Tidy := by
  obtain ⟨htable, -, -, -, -⟩ := s.onRemove_spec e
  refine ⟨hp, fun e' k hk => Or.inl ?_⟩
  rw [htable] at hk
  obtain ⟨hown, hgiven⟩ := (s.givesUp_creator e).1 hk
  have hheld := h.held_idle hidle hown
  have hne : e' ≠ e := by rintro rfl; exact hgiven hheld
  rw [onRemove_ctxOf, Function.update_of_ne hne]; exact hheld

/-- **A paste whose script has bytecode** (or that gets no context) loses nothing. -/
theorem Tidy.applyDupeInfo (h : s.Tidy) (hidle : s.frames = []) {index : EntIndex} {ownerIndex : ℕ}
    {script : Option String} {result : Compiled}
    (hok : ownerIndex ≠ 0 → (∃ i, s.contexts i = none) → Compiles script result)
    (hp : (s.applyDupeInfo e index ownerIndex script result).Pasting) :
    (s.applyDupeInfo e index ownerIndex script result).Tidy := by
  obtain ⟨hctx', -, hcases⟩ := s.applyDupeInfo_spec e index ownerIndex script result
  rcases hcases with ⟨-, hquiet⟩ | ⟨i, t, hcreate, ⟨hfail, -⟩ | ⟨-, henters⟩⟩
  · exact h.congr hp hquiet.creator hctx' (Or.inl hquiet.entries)
  · exfalso
    refine hfail (hok ?_ ⟨i, (luaCreateContext_ok hcreate).1⟩)
    rintro rfl
    simp [luaCreateContext] at hcreate
  · obtain ⟨-, -, hcre⟩ := luaCreateContext_ok hcreate
    refine ⟨hp, fun e' k hk => ?_⟩
    rw [henters.creator] at hk
    simp only [hcre] at hk
    rcases eq_or_ne k i with rfl | hki
    · rw [Function.update_self, Option.some.injEq] at hk
      right; rw [henters.entries, hk]; exact List.mem_cons_self
    · rw [Function.update_of_ne hki] at hk
      left; rw [hctx']; exact h.held_idle hidle hk

/-- **A return.** The paste's own evaluation assigns the id unless it throws; any other
return leaves contexts and ids alone. -/
theorem Tidy.resume (h : s.Tidy) {f : Frame} {fs : List Frame} (hframes : s.frames = f :: fs)
    {threw : Bool} (hok : f.cont = .dupeEval → threw = false)
    (hp : (({ s with frames := fs } : Server F).resume f.chip f.slot threw f.cont).Pasting) :
    (({ s with frames := fs } : Server F).resume f.chip f.slot threw f.cont).Tidy := by
  set s₀ : Server F := { s with frames := fs } with hs₀
  have hent : s.entries = f.entry :: s₀.entries := by simp [entries, hframes, hs₀]
  have hent' : (s₀.resume f.chip f.slot threw f.cont).entries = s₀.entries := by
    simp only [entries, resume_frames]
  refine ⟨hp, fun e i hi => ?_⟩
  rw [resume_contexts] at hi
  by_cases hcont : f.cont = .dupeEval
  · -- the outermost entry: no script is running any more
    left
    have hnil : s₀.entries = [] := entries_idle (h.outermost_eq_nil hframes hcont)
    obtain ⟨hsome, hnone⟩ := h.waiting_head hframes hcont
    obtain rfl := hok hcont
    have hctx : (s₀.resume f.chip f.slot false f.cont).ctxOf =
        Function.update s.ctxOf f.chip (some f.slot) := by
      rw [hcont]
      exact setChip_ctxOf_assign s₀ f.chip f.slot (fun _ => rfl) hsome
    rw [hctx]
    rcases h.held e i hi with hheld | hpaste
    · have hne : e ≠ f.chip := by rintro rfl; rw [hnone] at hheld; cases hheld
      rw [Function.update_of_ne hne]; exact hheld
    · rw [hent, hnil, List.mem_singleton, Frame.entry, Prod.mk.injEq, Prod.mk.injEq] at hpaste
      obtain ⟨rfl, rfl, -⟩ := hpaste
      exact Function.update_self ..
  · have hctx : (s₀.resume f.chip f.slot threw f.cont).ctxOf = s.ctxOf := by
      rcases s₀.resume_ctxOf f.chip f.slot threw f.cont with hctx | ⟨hd, -⟩
      · exact hctx
      · exact absurd hd hcont
    rw [hctx, hent']
    refine (h.held e i hi).imp_right fun hmem => ?_
    rw [hent] at hmem
    refine (List.mem_cons.1 hmem).resolve_left fun heq => hcont ?_
    exact (congrArg (fun x => x.2.2) heq).symm

theorem Tidy.emitEvent (h : s.Tidy) {eventName : String} (hp : (s.emitEvent e eventName).Pasting) :
    (s.emitEvent e eventName).Tidy := by
  obtain ⟨hchips, hcases⟩ := emitEvent_spec h.wf e eventName
  refine h.congr hp ?_ (ctxOf_of_chips hchips) (emitEvent_entersOther h.wf e eventName)
  rcases hcases with hquiet | ⟨i, -, henters⟩
  · exact hquiet.creator
  · exact henters.creator

/-! ## Every step -/

/-- **A step that meets `NoLeak` loses no context.** -/
theorem tidy_step (h : s.Tidy) {a : Action F} (hok : s.NoLeak a) (hstep : s.step a = some s') :
    s'.Tidy := by
  have hp := pasting_step h.toPasting hstep
  cases a with
  | makeEnt index ply =>
    simp only [step, Option.ite_none_right_eq_some, Option.some.injEq] at hstep
    obtain ⟨hidle, rfl⟩ := hstep
    exact (h.makeWireEnt hidle index).leftClickUpdate hidle ply (s.makeWireEnt_isSome index) hp
  | leftClickUpdate e ply =>
    simp only [step, Option.ite_none_right_eq_some, Option.some.injEq] at hstep
    obtain ⟨⟨hidle, he⟩, rfl⟩ := hstep
    exact h.leftClickUpdate hidle ply he hp
  | paste index ownerIndex script result =>
    simp only [step, Option.ite_none_right_eq_some, Option.some.injEq] at hstep
    obtain ⟨hidle, rfl⟩ := hstep
    exact (h.makeWireEnt hidle index).applyDupeInfo hidle hok hp
  | upload e script result =>
    simp only [step, Option.ite_none_right_eq_some, Option.some.injEq] at hstep
    obtain ⟨-, rfl⟩ := hstep
    obtain ⟨hctx, -, hcases⟩ := uploadComplete_spec h.wf e script result
    refine h.congr hp ?_ hctx (uploadComplete_entersOther h.wf e script result)
    rcases hcases with hquiet | ⟨i, henters⟩
    · exact hquiet.creator
    · exact henters.creator
  | validate ply script result =>
    simp only [step, Option.ite_none_right_eq_some, Option.some.injEq] at hstep
    obtain ⟨-, rfl⟩ := hstep
    obtain ⟨hchips, -, hframes, htable, -⟩ := s.validateComplete_spec ply script result
    rcases htable with ⟨-, htable⟩ | ⟨hnone, i, hcreate⟩
    · refine h.congr hp (by rw [htable]) (ctxOf_of_chips hchips) (Or.inl ?_)
      rw [entries, hframes]; rfl
    · exact absurd (hok ⟨i, (luaCreateContext_ok hcreate).1⟩) hnone
  | think e =>
    simp only [step, Option.ite_none_right_eq_some, Option.some.injEq] at hstep
    obtain ⟨-, rfl⟩ := hstep
    exact h.emitEvent hp
  | triggerInput e =>
    simp only [step, Option.ite_none_right_eq_some, Option.some.injEq] at hstep
    obtain ⟨-, rfl⟩ := hstep
    exact h.emitEvent hp
  | remove e =>
    simp only [step, Option.ite_none_right_eq_some, Option.some.injEq] at hstep
    obtain ⟨⟨hidle, -⟩, rfl⟩ := hstep
    exact h.onRemove hidle hp
  | meter cost =>
    simp only [step, Option.map_eq_some_iff] at hstep
    obtain ⟨f, -, rfl⟩ := hstep
    exact h.congr hp (s.meter_creator f.slot cost) (ctxOf_of_chips (s.meter_chips f.slot cost))
      (Or.inl (s.meter_entries f.slot cost))
  | on name g =>
    simp only [step, Option.map_eq_some_iff] at hstep
    obtain ⟨f, -, rfl⟩ := hstep
    exact h.congr hp (s.on_creator f.slot name g) rfl (Or.inl rfl)
  | ret threw =>
    simp only [step] at hstep
    split at hstep
    · rename_i f fs hframes
      cases hstep
      exact h.resume hframes (hok f (by rw [hframes]; rfl)) hp
    · cases hstep

/-- With no script running, a context in a chip is the one that it was created for. -/
theorem Balanced.held (hbal : s.Balanced) (hwf : s.Wf) (hidle : s.frames = [])
    (hi : s.contexts.creator i = some e) : s.ctxOf e = some i :=
  (occupied_eq_iff hwf).1 (hbal hidle) e i hi

/-- **A step that does not meet `NoLeak` loses a context**, and no handler is left that could
still put it into its chip. -/
theorem noLeak_of_balanced (h : s.Tidy) {a : Action F} (hstep : s.step a = some s')
    (hbal : s'.Balanced) : s.NoLeak a := by
  have hwf := wf_step h.wf hstep
  cases a with
  | paste index ownerIndex script result =>
    intro howner hfree
    simp only [step, Option.ite_none_right_eq_some, Option.some.injEq] at hstep
    obtain ⟨hidle, rfl⟩ := hstep
    obtain ⟨hctx, -, hcases⟩ :=
      (s.makeWireEnt index).applyDupeInfo_spec s.nextEntity index ownerIndex script result
    rcases hcases with ⟨hnone | hfull, -⟩ | ⟨i, t, hcreate, ⟨-, hquiet⟩ | ⟨hok, -⟩⟩
    · exact absurd hnone howner
    · obtain ⟨i, hi⟩ := hfree
      exact absurd hi (hfull i)
    · -- the new context is in no chip, and the handler is over
      have hown : ((s.makeWireEnt index).applyDupeInfo s.nextEntity index ownerIndex script
          result).contexts.creator i = some s.nextEntity := by
        rw [hquiet.1, (luaCreateContext_ok hcreate).2.2, Function.update_self]
      have hheld := hbal.held hwf (hquiet.2.trans hidle) hown
      rw [hctx, makeWireEnt_ctxOf_new h.wf] at hheld
      cases hheld
    · exact hok
  | validate ply script result =>
    intro hfree
    simp only [step, Option.ite_none_right_eq_some, Option.some.injEq] at hstep
    obtain ⟨hidle, rfl⟩ := hstep
    obtain ⟨hchips, -, hframes, htable, -⟩ := s.validateComplete_spec ply script result
    rcases htable with ⟨hanswers | hfull, -⟩ | ⟨-, i, hcreate⟩
    · exact hanswers
    · obtain ⟨i, hi⟩ := hfree
      exact absurd hi (hfull i)
    · -- the new context is in no chip, for its slot was free
      obtain ⟨hnone, -, hcre⟩ := luaCreateContext_ok hcreate
      have hown : (s.validateComplete ply script result).contexts.creator i = some ply.entity := by
        rw [hcre, Function.update_self]
      have hheld := hbal.held hwf (hframes.trans hidle) hown
      rw [ctxOf_of_chips hchips] at hheld
      have hold := h.wf.chips ply.entity i hheld
      rw [creator_eq_none.2 hnone] at hold
      cases hold
  | ret threw =>
    intro f hf hcont
    simp only [step] at hstep
    split at hstep
    · rename_i f' fs hframes
      cases hstep
      rw [hframes] at hf
      obtain rfl : f' = f := Option.some.inj hf
      by_contra hthrew
      rw [Bool.not_eq_false] at hthrew
      subst hthrew
      have hnil : fs = [] := h.outermost_eq_nil hframes hcont
      have hidle' : (({ s with frames := fs } : Server F).resume f'.chip f'.slot true
          f'.cont).frames = [] := by rw [resume_frames, hnil]
      have hown : (({ s with frames := fs } : Server F).resume f'.chip f'.slot true
          f'.cont).contexts.creator f'.slot = some f'.chip := by
        rw [resume_contexts]
        exact h.wf.frames f' (by rw [hframes]; exact List.mem_cons_self)
      have hheld := hbal.held hwf hidle' hown
      rw [hcont] at hheld
      have hctx : (({ s with frames := fs } : Server F).chipError f'.chip).ctxOf = s.ctxOf :=
        chipError_ctxOf _ _
      rw [show (({ s with frames := fs } : Server F).resume f'.chip f'.slot true .dupeEval) =
        ({ s with frames := fs } : Server F).chipError f'.chip from rfl, hctx,
        (h.waiting_head hframes hcont).2] at hheld
      cases hheld
    · cases hstep
  | _ => trivial

/-- **Exactly the runs leak nothing in which every paste that gets a context has a script that
compiles to bytecode and evaluates without an error, and every validation that gets one is
answered.** -/
theorem balanced_iff (as : List (Action F)) :
    Always step Balanced (init : Server F) as ↔ Along step NoLeak (init : Server F) as :=
  always_iff_along (fun _ h => h.balanced) (fun _ _ _ h hok hstep => tidy_step h hok hstep)
    (fun _ _ _ h hstep hbal => noLeak_of_balanced h hstep hbal) as init_tidy

/-- What the compiler says of "(". -/
def syntaxError : Compiled := .error (some "SyntaxError: unexpected token in expression: ''")

/-- A dupe whose script does not compile is pasted on a fresh server. -/
def pasteBroken : List (Action ℕ) := [.paste ⟨1, Nat.one_ne_zero⟩ 2 (some "(") syntaxError]

/-- **A slot is lost**: after the paste a context is there, but in no chip. -/
theorem paste_leaks : ¬ Always step Balanced (init : Server ℕ) pasteBroken := by
  rintro ⟨-, hnext⟩
  have hstep : step (init : Server ℕ) (.paste ⟨1, by decide⟩ 2 (some "(") syntaxError) = some _ := rfl
  have hleak := noLeak_of_balanced init_tidy hstep (hnext _ hstep)
  obtain ⟨_, _, -, -, hcomp⟩ := hleak (by decide) ⟨firstSlot, rfl⟩
  cases hcomp

end Server

end JSChip
