import JSChip.Proof.Leak
import JSChip.Spec.Program

/-!
# Does a running chip run its recorded script?

* `Recorded`: the program of a running chip is its script, or an upload is evaluating it.
* `runsScript_iff`: **running chips run their scripts, and keep them, exactly in the runs in which
  no running chip is clicked, and an upload whose bytecode cannot be written comes to a chip that
  has its script loaded.**
* `clicked_runs_nothing`: after a click a chip still runs, in a context that is empty.
-/

namespace JSChip.Programs

open Machine Server

variable {F : Type} {s s' : Server F} {e : ℕ} {i : Fin maxContexts}
  {loaded loaded' : Fin maxContexts → Option String}

/-- The last source evaluated in the context of the chip is its script. -/
def HasLoaded (p : Programs F) (e : ℕ) : Prop :=
  ∃ i script, p.server.ctxOf e = some i ∧ p.server.buildDupeInfo e = some script ∧
    p.loaded i = some script

/-- No running chip is clicked. An upload whose bytecode cannot be written, which starts the chip
and evaluates nothing, comes to a chip that has its script loaded. -/
def KeepsLoaded (p : Programs F) : Action F → Prop
  | .leftClickUpdate e _ => ¬ p.server.Runs e
  | .upload e script (.ok none) => script ≠ "" → p.server.ctxOf e ≠ none → p.HasLoaded e
  | _ => True

/-- The program of a chip is its script. -/
def ChipLoaded (loaded : Fin maxContexts → Option String) (chip : Chip) : Prop :=
  ∃ i script, chip.ctx = some i ∧ chip.script = some script ∧ loaded i = some script

/-- **What is loaded is recorded, or about to be.** An upload or a paste that is evaluating its
script is the outermost entry. -/
structure Recorded (s : Server F) (loaded : Fin maxContexts → Option String) : Prop where
  running : ∀ e chip, s.chips e = some chip → chip.run = true →
    ChipLoaded loaded chip ∨ ∃ i script, (e, i, .uploadEval script) ∈ s.entries
  upload : ∀ e i script, (e, i, .uploadEval script) ∈ s.entries →
    s.ctxOf e = some i ∧ loaded i = some script
  paste : ∀ e i, (e, i, .dupeEval) ∈ s.entries →
    ∃ chip script, s.chips e = some chip ∧ chip.run = false ∧ chip.script = some script ∧
      loaded i = some script
  outermost : s.entries.Pairwise fun x _ => x.2.2 = .emit

/-! ## Steps that evaluate nothing -/

/-- With no script running, only the running chips count. -/
theorem Recorded.of_idle (hidle : s.frames = [])
    (h : ∀ e chip, s.chips e = some chip → chip.run = true → ChipLoaded loaded chip) :
    Recorded s loaded :=
  ⟨fun e chip hchip hrun => Or.inl (h e chip hchip hrun), by simp [entries_idle hidle],
    by simp [entries_idle hidle], by simp [entries_idle hidle]⟩

theorem Recorded.idle (h : Recorded s loaded) (hidle : s.frames = []) {chip : Chip}
    (hchip : s.chips e = some chip) (hrun : chip.run = true) : ChipLoaded loaded chip :=
  (h.running e chip hchip hrun).resolve_right (by simp [entries_idle hidle])

/-- A step that leaves the chips alone, and all entries but those of events. -/
theorem Recorded.congr (h : Recorded s loaded) (hchips : s'.chips = s.chips)
    (hmem : ∀ e i cont, cont ≠ .emit → ((e, i, cont) ∈ s'.entries ↔ (e, i, cont) ∈ s.entries))
    (hout : s'.entries.Pairwise fun x _ => x.2.2 = .emit) : Recorded s' loaded := by
  have hctx : s'.ctxOf = s.ctxOf := by
    unfold ctxOf
    rw [hchips]
  refine ⟨fun e chip hchip hrun => ?_, fun e i script hi => ?_, fun e i hi => ?_, hout⟩
  · rw [hchips] at hchip
    refine (h.running e chip hchip hrun).imp_right fun ⟨i, script, hi⟩ => ⟨i, script, ?_⟩
    exact (hmem e i (.uploadEval script) nofun).2 hi
  · rw [hctx]
    exact h.upload e i script ((hmem e i (.uploadEval script) nofun).1 hi)
  · rw [hchips]
    exact h.paste e i ((hmem e i .dupeEval nofun).1 hi)

theorem mem_cons_emit {l : List (ℕ × Fin maxContexts × Continuation)} {e₀ e : ℕ}
    {i₀ i : Fin maxContexts} {cont : Continuation} (hcont : cont ≠ .emit) :
    (e, i, cont) ∈ (e₀, i₀, .emit) :: l ↔ (e, i, cont) ∈ l := by
  rw [List.mem_cons]
  exact or_iff_right fun heq => hcont (by cases heq; rfl)

/-- A step that leaves the chips alone and enters at most an event. -/
theorem Recorded.keep (h : Recorded s loaded) (hchips : s'.chips = s.chips)
    (hent : s'.entries = s.entries ∨ ∃ e i, s'.entries = (e, i, .emit) :: s.entries) :
    Recorded s' loaded := by
  rcases hent with hent | ⟨e₀, i₀, hent⟩
  · refine h.congr hchips (fun _ _ _ _ => by rw [hent]) ?_
    rw [hent]
    exact h.outermost
  · refine h.congr hchips (fun _ _ _ hcont => by rw [hent]; exact mem_cons_emit hcont) ?_
    rw [hent]
    exact List.Pairwise.cons (fun _ _ => rfl) h.outermost

/-- An event returns. -/
theorem Recorded.pop (h : Recorded s loaded) (hchips : s'.chips = s.chips)
    (hent : s.entries = (e, i, .emit) :: s'.entries) : Recorded s' loaded := by
  refine h.congr hchips (fun _ _ _ hcont => by rw [hent]; exact (mem_cons_emit hcont).symm) ?_
  have hout := h.outermost
  rw [hent] at hout
  exact (List.pairwise_cons.1 hout).2

/-- An upload or a paste is the outermost entry. -/
theorem Recorded.outermost_eq_nil (h : Recorded s loaded) {f : Frame} {fs : List Frame}
    (hframes : s.frames = f :: fs) (hcont : f.cont ≠ .emit) : fs = [] := by
  have hout := h.outermost
  rw [entries, hframes, List.map_cons, List.pairwise_cons] at hout
  cases fs with
  | nil => rfl
  | cons g gs => exact absurd (hout.1 g.entry List.mem_cons_self) hcont

/-- Putting a chip in the error state. -/
theorem Recorded.chipError (h : Recorded s loaded) (e : ℕ) : Recorded (s.chipError e) loaded := by
  refine ⟨fun e' chip' hchip' hrun => ?_, fun e' i script hi => ?_, fun e' i hi => ?_, h.outermost⟩
  · rcases eq_or_ne e' e with rfl | hne
    · simp only [Server.chipError, setChip, Function.update_self, Option.map_eq_some_iff] at hchip'
      obtain ⟨chip, -, rfl⟩ := hchip'
      cases hrun
    · simp only [Server.chipError, setChip, Function.update_of_ne hne] at hchip'
      exact h.running e' chip' hchip' hrun
  · rw [chipError_ctxOf]
    exact h.upload e' i script hi
  · obtain ⟨chip, script, hchip, hrun, hscript, hloaded⟩ := h.paste e' i hi
    rcases eq_or_ne e' e with rfl | hne
    · refine ⟨{ chip with run := false }, script, ?_, rfl, hscript, hloaded⟩
      simp [Server.chipError, setChip, hchip]
    · refine ⟨chip, script, ?_, hrun, hscript, hloaded⟩
      simpa [Server.chipError, setChip, Function.update_of_ne hne] using hchip

theorem Recorded.emitEvent (h : Recorded s loaded) (hwf : s.Wf) (e : ℕ) (eventName : String) :
    Recorded (s.emitEvent e eventName) loaded := by
  obtain ⟨hchips, hquiet | ⟨i, -, henters⟩⟩ := emitEvent_spec hwf e eventName
  · exact h.keep hchips (Or.inl hquiet.entries)
  · exact h.keep hchips (Or.inr ⟨e, i, henters.entries⟩)

/-! ## Other slots -/

/-- Writing the slot of another context leaves a chip its program. -/
theorem ChipLoaded.update {chip : Chip} (h : ChipLoaded loaded chip) {j : Fin maxContexts}
    (hj : chip.ctx ≠ some j) (source : Option String) :
    ChipLoaded (Function.update loaded j source) chip := by
  obtain ⟨i, script, hi, hscript, hloaded⟩ := h
  have hij : i ≠ j := by
    rintro rfl
    exact hj hi
  exact ⟨i, script, hi, hscript, by rw [Function.update_of_ne hij]; exact hloaded⟩

theorem ctxOf_eq {chip : Chip} (hchip : s.chips e = some chip) : s.ctxOf e = chip.ctx := by
  simp [ctxOf, hchip]

/-- A free slot is in no chip. -/
theorem ctx_ne_of_free (hwf : s.Wf) {chip : Chip} (hchip : s.chips e = some chip)
    {j : Fin maxContexts} (hj : s.contexts j = none) : chip.ctx ≠ some j := by
  intro hctx
  have hown := hwf.chips e j ((ctxOf_eq hchip).trans hctx)
  rw [creator_eq_none.2 hj] at hown
  cases hown

/-! ## Clicks and pastes -/

/-- Creating a context for a valid entity and owner. -/
theorem luaCreateContext_eq (t : ContextTable F) (e : ℕ) (index : EntIndex) {ownerIndex : ℕ}
    (howner : ownerIndex ≠ 0) :
    luaCreateContext t e index ownerIndex = match firstFree t with
      | some i => .ok (i, Function.update t i (some ⟨e, index, ownerIndex, .new, .empty⟩))
      | none => .error "You've hit the max number of javascript contexts!" := by
  unfold luaCreateContext
  have hvalid : ¬ ((index : ℕ) = 0 ∨ ownerIndex = 0) := not_or.2 ⟨index.2, howner⟩
  refine (if_neg hvalid).trans ?_
  cases firstFree t <;> rfl

theorem createdSlot_click (ply : Player) :
    s.createdSlot (.leftClickUpdate e ply) = firstFree (s.givesUp e) := by
  simp only [createdSlot, givesUp]
  cases s.ctxOf e <;> rfl

/-- **A click** assigns the id of the new context, or puts a chip without one in the error state. -/
theorem leftClickUpdate_chips (ply : Player) (he : (s.chips e).isSome) :
    (∃ j, s.createdSlot (.leftClickUpdate e ply) = some j ∧ s.givesUp e j = none ∧
        (s.leftClickUpdate e ply).chips =
          (s.setChip e fun chip => { chip with ctx := some j }).chips) ∨
      s.ctxOf e = none ∧ s.createdSlot (.leftClickUpdate e ply) = none ∧
        (s.leftClickUpdate e ply).chips = (s.chipError e).chips := by
  obtain ⟨chip, hchip⟩ := Option.isSome_iff_exists.1 he
  have hset : ∀ g, ((s.freed e chip.ctx).setChip e g).chips = (s.setChip e g).chips := by
    intro g
    simp only [setChip, freed_chips]
  rw [createdSlot_click, leftClickUpdate_eq ply hchip, freed_contexts hchip,
    luaCreateContext_eq _ _ _ ply.index.2]
  cases hfree : firstFree (s.givesUp e) with
  | some j => exact Or.inl ⟨j, rfl, firstFree_spec hfree, hset _⟩
  | none =>
    refine Or.inr ⟨?_, rfl, hset _⟩
    by_contra hne
    obtain ⟨i, hi⟩ := Option.ne_none_iff_exists'.1 hne
    -- the slot just given up is free
    exact firstFree_eq_none.1 hfree i (by simp [givesUp, hi, freeSlot])

/-- The slot of a context that was created. -/
theorem luaCreateContext_slot {t t' : ContextTable F} {entIndex ownerIndex : ℕ}
    (h : luaCreateContext t e entIndex ownerIndex = .ok (i, t')) :
    ownerIndex ≠ 0 ∧ firstFree t = some i := by
  unfold luaCreateContext at h
  split at h
  · cases h
  · rename_i hvalid
    rw [not_or] at hvalid
    refine ⟨hvalid.2, ?_⟩
    split at h
    · rename_i j hj
      cases h
      exact hj
    · cases h

/-- A paste records the script, and does not start the chip. -/
theorem applyDupeInfo_chips (s : Server F) (e : ℕ) (index : EntIndex) (ownerIndex : ℕ)
    (script : Option String) (result : Compiled) :
    ∃ g : Chip → Chip, (s.applyDupeInfo e index ownerIndex script result).chips =
        (s.setChip e g).chips ∧
      ∀ chip, (g chip).script = script ∧ (chip.run = false → (g chip).run = false) := by
  set g₁ : Chip → Chip := fun chip => { chip with script := script } with hg₁
  set g₂ : Chip → Chip := fun chip => { chip with script := script, run := false } with hg₂
  have herror : ∀ t : Server F, t.chips = (s.setChip e g₁).chips →
      (t.chipError e).chips = (s.setChip e g₂).chips := by
    intro t ht
    simp only [Server.chipError, setChip, ht, Function.update_idem, Function.update_self,
      Option.map_map]
    rfl
  have h₁ : ∀ chip, (g₁ chip).script = script ∧ (chip.run = false → (g₁ chip).run = false) :=
    fun _ => ⟨rfl, id⟩
  have h₂ : ∀ chip, (g₂ chip).script = script ∧ (chip.run = false → (g₂ chip).run = false) :=
    fun _ => ⟨rfl, fun _ => rfl⟩
  unfold Server.applyDupeInfo
  simp only
  split
  · exact ⟨g₂, herror _ rfl, h₂⟩
  · rename_i i t _
    cases script with
    | none => exact ⟨g₁, rfl, h₁⟩
    | some text =>
      simp only
      split
      · rename_i message s₁ hcompile
        obtain rfl := jsCompile_state hcompile
        exact ⟨g₂, herror _ rfl, h₂⟩
      · rename_i bytecode s₁ hcompile
        obtain rfl := jsCompile_state hcompile
        unfold jsEval
        split
        · exact ⟨g₁, rfl, h₁⟩
        · exact ⟨g₂, herror _ rfl, h₂⟩
      · rename_i s₁ hcompile
        obtain rfl := jsCompile_state hcompile
        exact ⟨g₁, rfl, h₁⟩

/-- An upload whose bytecode cannot be written starts the chip, and evaluates nothing. -/
theorem uploadComplete_noBytecode (hwf : s.Wf) {script : String} (hctx : s.ctxOf e ≠ none)
    (hne : script ≠ "") :
    Quiet s (s.uploadComplete e script (.ok none)) ∧
      (s.uploadComplete e script (.ok none)).chips =
        (s.setChip e fun chip => { chip with run := true }).chips := by
  obtain ⟨i, hi⟩ := Option.ne_none_iff_exists'.1 hctx
  simp only [Server.uploadComplete, hi, jsCompile_eq (hwf.chips e i hi) hne]
  exact ⟨⟨rfl, rfl⟩, rfl⟩

/-- **An upload** puts the chip in the error state if its script does not compile. If it does, it
starts the chip, and evaluates the script in its context if there is bytecode. -/
theorem uploadComplete_cases (hwf : s.Wf) (e : ℕ) (script : String) (result : Compiled) :
    (s.evaluatedSource (.upload e script result) = none ∧
        Quiet s (s.uploadComplete e script result) ∧
        ((s.uploadComplete e script result).chips = s.chips ∨
          (s.uploadComplete e script result).chips = (s.chipError e).chips)) ∨
      (s.ctxOf e ≠ none ∧ script ≠ "" ∧ result = .ok none) ∨
      ∃ i bytecode, s.ctxOf e = some i ∧ result = .ok (some bytecode) ∧
        s.evaluatedSource (.upload e script result) = some (i, script) ∧
        Enters s (s.uploadComplete e script result) e i (.uploadEval script) ∧
        (s.uploadComplete e script result).chips =
          (s.setChip e fun chip => { chip with run := true }).chips := by
  cases hctx : s.ctxOf e with
  | none =>
    have hkept : s.uploadComplete e script result = s := by simp [Server.uploadComplete, hctx]
    rw [hkept]
    refine Or.inl ⟨?_, ⟨rfl, rfl⟩, Or.inl rfl⟩
    rcases result with message | _ | bytecode <;> simp [evaluatedSource, hctx]
  | some i =>
    have hown := hwf.chips e i hctx
    rcases eq_or_ne script "" with rfl | hne
    · simp only [Server.uploadComplete, hctx, jsCompile_empty hown]
      refine Or.inl ⟨?_, ⟨rfl, rfl⟩, Or.inr rfl⟩
      rcases result with message | _ | bytecode <;> simp [evaluatedSource]
    simp only [Server.uploadComplete, hctx, jsCompile_eq hown hne]
    rcases result with message | _ | bytecode
    · exact Or.inl ⟨rfl, ⟨rfl, rfl⟩, Or.inr rfl⟩
    · exact Or.inr (Or.inl ⟨by simp, hne, rfl⟩)
    · simp only [jsEval_enters (s := (s.logCall .compile e i).setChip e _) hown]
      exact Or.inr (Or.inr ⟨i, bytecode, rfl, rfl, by simp [evaluatedSource, hctx, hne],
        ⟨rfl, rfl⟩, rfl⟩)

/-! ## Every step -/

variable {p p' : Programs F} {a : Action F}

/-- A step that creates and evaluates nothing. -/
theorem loadedAfter_of_none (hcreated : p.server.createdSlot a = none)
    (hevaluated : p.server.evaluatedSource a = none) : p.loadedAfter a = p.loaded := by
  simp [loadedAfter, hcreated, hevaluated]

theorem loadedAfter_of_evaluated {script : String} (hcreated : p.server.createdSlot a = none)
    (hevaluated : p.server.evaluatedSource a = some (i, script)) :
    p.loadedAfter a = Function.update p.loaded i (some script) := by
  simp [loadedAfter, hcreated, hevaluated]

/-- Creating a context forgets what was loaded in its slot. -/
theorem loadedAfter_of_created (hcreated : p.server.createdSlot a = some i)
    (hevaluated : p.server.evaluatedSource a = none) :
    p.loadedAfter a = Function.update p.loaded i none := by
  simp [loadedAfter, hcreated, hevaluated]

/-- **A chip that does not run** is clicked, spawned or removed: the running chips keep their slots,
as a context is created in a slot that is free, or was only that chip's. -/
theorem recorded_click (h : Recorded p.server p.loaded) (hwf : p.server.Wf)
    (hidle : p.server.frames = []) (hframes : s'.frames = [])
    (hself : ∀ chip, s'.chips e = some chip → chip.run = false)
    (hother : ∀ e', e' ≠ e → s'.chips e' = p.server.chips e')
    (hcreated : ∀ j, p.server.createdSlot a = some j → p.server.givesUp e j = none)
    (hevaluated : p.server.evaluatedSource a = none) : Recorded s' (p.loadedAfter a) := by
  refine Recorded.of_idle hframes fun e' chip hchip hrun => ?_
  rcases eq_or_ne e' e with rfl | hne
  · rw [hself chip hchip] at hrun
    cases hrun
  · rw [hother e' hne] at hchip
    have hloaded := h.idle hidle hchip hrun
    cases hslot : p.server.createdSlot a with
    | none =>
      rw [loadedAfter_of_none hslot hevaluated]
      exact hloaded
    | some j =>
      rw [loadedAfter_of_created hslot hevaluated]
      refine hloaded.update (fun hctx => ?_) none
      have hown := hwf.chips e' j ((ctxOf_eq hchip).trans hctx)
      have hgiven : (p.server.givesUp e).creator j = some e' := by
        refine (p.server.givesUp_creator e).2 ⟨hown, fun hej => hne ?_⟩
        exact Option.some.inj (hown.symm.trans (hwf.chips e j hej))
      rw [creator_eq_none.2 (hcreated j hslot)] at hgiven
      cases hgiven

theorem run_eq_false {chip : Chip} (hchip : s.chips e = some chip) (hstopped : ¬ s.Runs e) :
    chip.run = false := by
  cases hrun : chip.run with
  | false => rfl
  | true => exact absurd ⟨chip, hchip, hrun⟩ hstopped

/-- After a click a chip runs only if it did before. -/
theorem leftClickUpdate_stopped (ply : Player) (he : (s.chips e).isSome) (hstopped : ¬ s.Runs e) :
    (∀ chip, (s.leftClickUpdate e ply).chips e = some chip → chip.run = false) ∧
      ∀ e', e' ≠ e → (s.leftClickUpdate e ply).chips e' = s.chips e' := by
  rcases leftClickUpdate_chips ply he with ⟨j, -, -, hchips⟩ | ⟨-, -, hchips⟩
  · refine ⟨fun chip' hchip' => ?_, fun e' hne => ?_⟩
    · rw [hchips, setChip_chips, Option.map_eq_some_iff] at hchip'
      obtain ⟨chip, hchip, rfl⟩ := hchip'
      have hrun : chip.run = false := run_eq_false hchip hstopped
      exact hrun
    · rw [hchips, setChip_chips_of_ne s e hne]
  · refine ⟨fun chip' hchip' => ?_, fun e' hne => ?_⟩
    · rw [hchips, Server.chipError, setChip_chips, Option.map_eq_some_iff] at hchip'
      obtain ⟨chip, hchip, rfl⟩ := hchip'
      rfl
    · rw [hchips, Server.chipError, setChip_chips_of_ne s e hne]

/-- A new chip does not run. -/
theorem makeWireEnt_stopped (s : Server F) (index : EntIndex) :
    ¬ (s.makeWireEnt index).Runs s.nextEntity := by
  rintro ⟨chip, hchip, hrun⟩
  simp only [Server.makeWireEnt, Function.update_self, Option.some.injEq] at hchip
  subst hchip
  cases hrun

/-- The slot for a new chip is free. -/
theorem givesUp_fresh (hwf : s.Wf) (hi : firstFree s.contexts = some i) :
    s.givesUp s.nextEntity i = none := by
  have hnone : s.ctxOf s.nextEntity = none := by simp [ctxOf, hwf.fresh _ le_rfl]
  rw [givesUp, hnone]
  exact firstFree_spec hi

theorem recorded_makeEnt (h : Recorded p.server p.loaded) (hwf : p.server.Wf)
    (hidle : p.server.frames = []) (index : EntIndex) (ply : Player) :
    Recorded (p.server.makeEnt index ply) (p.loadedAfter (.makeEnt index ply)) := by
  obtain ⟨hself, hother⟩ := leftClickUpdate_stopped ply (p.server.makeWireEnt_isSome index)
    (makeWireEnt_stopped p.server index)
  have hframes := ((p.server.makeWireEnt index).leftClickUpdate_frame p.server.nextEntity ply).1
  refine recorded_click h hwf hidle (hframes.trans hidle) hself (fun e' hne => ?_)
    (fun j hj => givesUp_fresh hwf hj) rfl
  exact (hother e' hne).trans (makeWireEnt_chips_of_ne hne)

theorem recorded_leftClickUpdate (h : Recorded p.server p.loaded) (hwf : p.server.Wf)
    (hidle : p.server.frames = []) (ply : Player) (he : (p.server.chips e).isSome)
    (hstopped : ¬ p.server.Runs e) :
    Recorded (p.server.leftClickUpdate e ply) (p.loadedAfter (.leftClickUpdate e ply)) := by
  obtain ⟨hself, hother⟩ := leftClickUpdate_stopped ply he hstopped
  refine recorded_click h hwf hidle ((p.server.leftClickUpdate_frame e ply).1.trans hidle) hself
    hother (fun j hj => ?_) rfl
  rw [createdSlot_click] at hj
  exact firstFree_spec hj

theorem recorded_onRemove (h : Recorded p.server p.loaded) (hwf : p.server.Wf)
    (hidle : p.server.frames = []) (e : ℕ) :
    Recorded (p.server.onRemove e) (p.loadedAfter (.remove e)) := by
  obtain ⟨-, hchips, -, hframes, -⟩ := p.server.onRemove_spec e
  have hself : ∀ chip, (p.server.onRemove e).chips e = some chip → chip.run = false := by
    intro chip hchip
    rw [hchips, Function.update_self] at hchip
    cases hchip
  refine recorded_click h hwf hidle (hframes.trans hidle) hself (fun e' hne => ?_)
    (fun j hj => by cases hj) rfl
  rw [hchips, Function.update_of_ne hne]

theorem evaluatedSource_paste {index : EntIndex} {ownerIndex : ℕ} {script : Option String}
    {result : Compiled}
    (h : s.createdSlot (.paste index ownerIndex script result) = none ∨ ¬ Compiles script result) :
    s.evaluatedSource (.paste index ownerIndex script result) = none := by
  rcases script with _ | text
  · rfl
  rcases result with message | _ | bytecode
  · rfl
  · rfl
  simp only [evaluatedSource, ite_eq_right_iff]
  intro hne
  rw [h.resolve_right (fun hfail => hfail ⟨text, bytecode, rfl, hne, rfl⟩)]
  rfl

/-- **A paste** that evaluates its script has recorded it. -/
theorem recorded_paste (h : Recorded p.server p.loaded) (hwf : p.server.Wf)
    (hidle : p.server.frames = []) (index : EntIndex) (ownerIndex : ℕ) (script : Option String)
    (result : Compiled) (hs' : s' = (p.server.makeWireEnt index).applyDupeInfo p.server.nextEntity index
      ownerIndex script result) :
    Recorded s' (p.loadedAfter (.paste index ownerIndex script result)) := by
  set s := p.server with hs
  obtain ⟨g, hchips, hg⟩ := applyDupeInfo_chips (s.makeWireEnt index) s.nextEntity index ownerIndex
    script result
  obtain ⟨hctx, -, hcases⟩ :=
    (s.makeWireEnt index).applyDupeInfo_spec s.nextEntity index ownerIndex script result
  rw [← hs'] at hchips hctx hcases
  have hstopped : ∀ chip, s'.chips s.nextEntity = some chip → chip.run = false ∧ chip.script = script := by
    intro chip' hchip'
    rw [hchips, setChip_chips, Option.map_eq_some_iff] at hchip'
    obtain ⟨chip, hchip, rfl⟩ := hchip'
    exact ⟨(hg chip).2 (run_eq_false hchip (makeWireEnt_stopped s index)), (hg chip).1⟩
  have hother : ∀ e', e' ≠ s.nextEntity → s'.chips e' = s.chips e' := by
    intro e' hne
    rw [hchips, setChip_chips_of_ne _ _ hne, makeWireEnt_chips_of_ne hne]
  have hcreated : ∀ j, s.createdSlot (.paste index ownerIndex script result) = some j →
      s.givesUp s.nextEntity j = none := by
    intro j hj
    simp only [createdSlot, Option.ite_none_left_eq_some] at hj
    exact givesUp_fresh hwf hj.2
  rcases hcases with ⟨hnone, hquiet⟩ | ⟨i, t, hcreate, ⟨hfail, hquiet⟩ | ⟨hok, henters⟩⟩
  · have hslot : s.createdSlot (.paste index ownerIndex script result) = none := by
      rcases hnone with hnone | hfull
      · simp [createdSlot, hnone]
      · have hfull : firstFree s.contexts = none := firstFree_eq_none.2 hfull
        simp [createdSlot, hfull]
    exact recorded_click h hwf hidle (hquiet.2.trans hidle) (fun chip hchip => (hstopped chip hchip).1)
      hother hcreated (evaluatedSource_paste (Or.inl hslot))
  · exact recorded_click h hwf hidle (hquiet.2.trans hidle) (fun chip hchip => (hstopped chip hchip).1)
      hother hcreated (evaluatedSource_paste (Or.inr hfail))
  · -- the script compiled, and is being evaluated
    obtain ⟨text, bytecode, rfl, hne, rfl⟩ := hok
    obtain ⟨howner, hfree⟩ := luaCreateContext_slot hcreate
    have hslot : s.createdSlot (.paste index ownerIndex (some text) (.ok (some bytecode))) = some i := by
      simp only [createdSlot, if_neg howner]
      exact hfree
    have hloaded : p.loadedAfter (.paste index ownerIndex (some text) (.ok (some bytecode))) =
        Function.update (Function.update p.loaded i none) i (some text) := by
      simp [loadedAfter, ← hs, hslot, evaluatedSource, hne]
    have hent : s'.entries = [(s.nextEntity, i, .dupeEval)] := by
      rw [henters.entries]
      exact congrArg _ (entries_idle hidle)
    rw [hloaded, Function.update_idem]
    refine ⟨fun e chip hchip hrun => ?_, by simp [hent], fun e k hk => ?_, by simp [hent]⟩
    · left
      rcases eq_or_ne e s.nextEntity with rfl | hne
      · rw [(hstopped chip hchip).1] at hrun
        cases hrun
      · rw [hother e hne] at hchip
        refine (h.idle hidle hchip hrun).update ?_ (some text)
        exact ctx_ne_of_free hwf hchip (firstFree_spec hfree)
    · rw [hent, List.mem_singleton] at hk
      cases hk
      have hsome : (s'.chips s.nextEntity).isSome := by
        rw [hchips, setChip_isSome]
        exact s.makeWireEnt_isSome index
      obtain ⟨chip, hchip⟩ := Option.isSome_iff_exists.1 hsome
      obtain ⟨hrun, hscript⟩ := hstopped chip hchip
      exact ⟨chip, text, hchip, hrun, hscript, Function.update_self ..⟩

/-- The chip is started. -/
theorem Recorded.start (h : Recorded s loaded) (hidle : s.frames = []) (hframes : s'.frames = [])
    (hchips : s'.chips = (s.setChip e fun chip => { chip with run := true }).chips)
    (hself : ∀ chip, s.chips e = some chip → ChipLoaded loaded chip) : Recorded s' loaded := by
  refine Recorded.of_idle hframes fun e' chip' hchip' hrun => ?_
  rw [hchips] at hchip'
  rcases eq_or_ne e' e with rfl | hne
  · rw [setChip_chips, Option.map_eq_some_iff] at hchip'
    obtain ⟨chip, hchip, rfl⟩ := hchip'
    exact hself chip hchip
  · rw [setChip_chips_of_ne _ _ hne] at hchip'
    exact h.idle hidle hchip' hrun

/-- The script of a chip, and what is loaded in its context. -/
theorem HasLoaded.chipLoaded (h : p.HasLoaded e) {chip : Chip}
    (hchip : p.server.chips e = some chip) : ChipLoaded p.loaded chip := by
  obtain ⟨i, script, hi, hscript, hloaded⟩ := h
  rw [ctxOf_eq hchip] at hi
  have hscript' : chip.script = some script := by simpa [buildDupeInfo, hchip] using hscript
  exact ⟨i, script, hi, hscript', hloaded⟩

/-- **An upload** that evaluates its script will record it. -/
theorem recorded_upload (h : Recorded p.server p.loaded) (hwf : p.server.Wf)
    (hidle : p.server.frames = []) (e : ℕ) (script : String) (result : Compiled)
    (hok : p.KeepsLoaded (.upload e script result)) :
    Recorded (p.server.uploadComplete e script result)
      (p.loadedAfter (.upload e script result)) := by
  have hcreated : p.server.createdSlot (.upload e script result) = none := rfl
  rcases uploadComplete_cases hwf e script result with
    ⟨hevaluated, hquiet, hchips⟩ | ⟨hctx, hne, rfl⟩ | ⟨i, bytecode, hctx, -, hevaluated, henters, hchips⟩
  · rw [loadedAfter_of_none hcreated hevaluated]
    rcases hchips with hchips | hchips
    · exact h.keep hchips (Or.inl hquiet.entries)
    · refine (h.chipError e).keep hchips (Or.inl ?_)
      rw [hquiet.entries]
      rfl
  · -- the chip is started, and what it has loaded is its script
    obtain ⟨hquiet, hchips⟩ := uploadComplete_noBytecode hwf hctx hne
    rw [loadedAfter_of_none hcreated rfl]
    exact h.start hidle (hquiet.2.trans hidle) hchips fun chip hchip => (hok hne hctx).chipLoaded hchip
  · rw [loadedAfter_of_evaluated hcreated hevaluated]
    have hent : (p.server.uploadComplete e script result).entries = [(e, i, .uploadEval script)] := by
      rw [henters.entries, entries_idle hidle]
    refine ⟨fun e' chip' hchip' hrun => ?_, fun e' k text hk => ?_, by simp [hent], by simp [hent]⟩
    · rw [hchips] at hchip'
      rcases eq_or_ne e' e with rfl | hne
      · exact Or.inr ⟨i, script, by rw [hent]; exact List.mem_singleton_self _⟩
      · left
        rw [setChip_chips_of_ne _ _ hne] at hchip'
        refine (h.idle hidle hchip' hrun).update (fun hctx' => hne ?_) (some script)
        have hown := hwf.chips e' i ((ctxOf_eq hchip').trans hctx')
        exact Option.some.inj (hown.symm.trans (hwf.chips e i hctx))
    · rw [hent, List.mem_singleton] at hk
      cases hk
      refine ⟨?_, Function.update_self ..⟩
      have hset := setChip_ctxOf p.server e (g := fun chip => { chip with run := true }) fun _ => rfl
      rw [← hctx, ← hset]
      unfold ctxOf
      rw [hchips]

/-- **A validation** creates its context in a slot that is free. -/
theorem recorded_validate (h : Recorded p.server p.loaded) (hwf : p.server.Wf)
    (hidle : p.server.frames = []) (ply : Player) (script : String) (result : Compiled) :
    Recorded (p.server.validateComplete ply script result)
      (p.loadedAfter (.validate ply script result)) := by
  obtain ⟨hchips, -, hframes, -, -⟩ := p.server.validateComplete_spec ply script result
  refine Recorded.of_idle (hframes.trans hidle) fun e chip hchip hrun => ?_
  rw [hchips] at hchip
  have hloaded := h.idle hidle hchip hrun
  cases hslot : p.server.createdSlot (.validate ply script result) with
  | none =>
    rw [loadedAfter_of_none hslot rfl]
    exact hloaded
  | some j =>
    rw [loadedAfter_of_created hslot rfl]
    exact hloaded.update (ctx_ne_of_free hwf hchip (firstFree_spec hslot)) none

/-- **A return.** The outermost evaluation records its script, or the chip already has it. -/
theorem recorded_resume (h : Recorded s loaded) {f : Frame} {fs : List Frame}
    (hframes : s.frames = f :: fs) (threw : Bool) :
    Recorded (({ s with frames := fs } : Server F).resume f.chip f.slot threw f.cont) loaded := by
  set s₀ : Server F := { s with frames := fs } with hs₀
  have hent : s.entries = f.entry :: s₀.entries := by simp [entries, hframes, hs₀]
  obtain ⟨e, i, spent, cont⟩ := f
  cases cont with
  | emit =>
    have hpop : Recorded s₀ loaded := h.pop rfl hent
    cases threw with
    | true => exact hpop.chipError e
    | false => exact hpop
  | uploadEval script =>
    have hnil : fs = [] := h.outermost_eq_nil hframes fun h => by cases h
    obtain ⟨hctx, hloaded⟩ := h.upload e i script (by rw [hent]; exact List.mem_cons_self)
    refine Recorded.of_idle ((s₀.resume_frames e i threw _).trans hnil) fun e' chip' hchip' hrun => ?_
    rcases eq_or_ne e' e with rfl | hne
    · -- the chip, with its id and its new script
      have hscript : ∀ t : Server F, t.ctxOf = s.ctxOf →
          (t.setChip e' fun chip => { chip with script := some script }).chips e' = some chip' →
          ChipLoaded loaded chip' := by
        intro t ht hchip
        rw [setChip_chips, Option.map_eq_some_iff] at hchip
        obtain ⟨chip, hchip, rfl⟩ := hchip
        have hid : chip.ctx = some i := by
          rw [← ctxOf_eq hchip, ht]
          exact hctx
        exact ⟨i, script, hid, rfl, hloaded⟩
      cases threw with
      | true => exact hscript (s₀.chipError e') (chipError_ctxOf s₀ e') hchip'
      | false => exact hscript s₀ rfl hchip'
    · have hsame : (s₀.resume e i threw (.uploadEval script)).chips e' = s.chips e' := by
        cases threw with
        | true =>
          change ((s₀.chipError e).setChip e _).chips e' = _
          rw [setChip_chips_of_ne _ _ hne, Server.chipError, setChip_chips_of_ne _ _ hne]
        | false => exact setChip_chips_of_ne s₀ e hne _
      rw [hsame] at hchip'
      refine (h.running e' chip' hchip' hrun).resolve_right ?_
      rintro ⟨j, text, hj⟩
      rw [hent] at hj
      simp [entries, Frame.entry, hs₀, hnil, hne] at hj
  | dupeEval =>
    have hnil : fs = [] := h.outermost_eq_nil hframes fun h => by cases h
    obtain ⟨chip, script, hchip, -, hscript, hloaded⟩ :=
      h.paste e i (by rw [hent]; exact List.mem_cons_self)
    refine Recorded.of_idle ((s₀.resume_frames e i threw _).trans hnil) fun e' chip' hchip' hrun => ?_
    rcases eq_or_ne e' e with rfl | hne
    · cases threw with
      | true =>
        change (s₀.setChip e' _).chips e' = _ at hchip'
        rw [setChip_chips, Option.map_eq_some_iff] at hchip'
        obtain ⟨_, -, rfl⟩ := hchip'
        cases hrun
      | false =>
        change (s₀.setChip e' _).chips e' = _ at hchip'
        rw [setChip_chips, Option.map_eq_some_iff] at hchip'
        obtain ⟨chip₀, hchip₀, rfl⟩ := hchip'
        obtain rfl : chip₀ = chip := Option.some.inj (hchip₀.symm.trans hchip)
        exact ⟨i, script, rfl, hscript, hloaded⟩
    · have hsame : (s₀.resume e i threw .dupeEval).chips e' = s.chips e' := by
        cases threw with
        | true => exact setChip_chips_of_ne s₀ e hne _
        | false => exact setChip_chips_of_ne s₀ e hne _
      rw [hsame] at hchip'
      refine (h.running e' chip' hchip' hrun).resolve_right ?_
      rintro ⟨j, text, hj⟩
      rw [hent] at hj
      simp [entries, Frame.entry, hs₀, hnil] at hj

/-- **A step that clicks no running chip** keeps what is recorded. -/
theorem recorded_step (h : Recorded p.server p.loaded) (hwf : p.server.Wf)
    (hok : p.KeepsLoaded a) (hstep : p.server.step a = some s') :
    Recorded s' (p.loadedAfter a) := by
  cases a with
  | makeEnt index ply =>
    simp only [Server.step, Option.ite_none_right_eq_some, Option.some.injEq] at hstep
    obtain ⟨hidle, rfl⟩ := hstep
    exact recorded_makeEnt h hwf hidle index ply
  | leftClickUpdate e ply =>
    simp only [Server.step, Option.ite_none_right_eq_some, Option.some.injEq] at hstep
    obtain ⟨⟨hidle, he⟩, rfl⟩ := hstep
    exact recorded_leftClickUpdate h hwf hidle ply he hok
  | paste index ownerIndex script result =>
    simp only [Server.step, Option.ite_none_right_eq_some, Option.some.injEq] at hstep
    obtain ⟨hidle, rfl⟩ := hstep
    exact recorded_paste h hwf hidle index ownerIndex script result rfl
  | upload e script result =>
    simp only [Server.step, Option.ite_none_right_eq_some, Option.some.injEq] at hstep
    obtain ⟨⟨hidle, -⟩, rfl⟩ := hstep
    exact recorded_upload h hwf hidle e script result hok
  | validate ply script result =>
    simp only [Server.step, Option.ite_none_right_eq_some, Option.some.injEq] at hstep
    obtain ⟨hidle, rfl⟩ := hstep
    exact recorded_validate h hwf hidle ply script result
  | think e =>
    simp only [Server.step, Option.ite_none_right_eq_some, Option.some.injEq] at hstep
    obtain ⟨-, rfl⟩ := hstep
    exact h.emitEvent hwf e "tick"
  | triggerInput e =>
    simp only [Server.step, Option.ite_none_right_eq_some, Option.some.injEq] at hstep
    obtain ⟨-, rfl⟩ := hstep
    exact h.emitEvent hwf e "input"
  | remove e =>
    simp only [Server.step, Option.ite_none_right_eq_some, Option.some.injEq] at hstep
    obtain ⟨⟨hidle, -⟩, rfl⟩ := hstep
    exact recorded_onRemove h hwf hidle e
  | meter cost =>
    simp only [Server.step, Option.map_eq_some_iff] at hstep
    obtain ⟨f, -, rfl⟩ := hstep
    refine h.keep ?_ (Or.inl (p.server.meter_entries f.slot cost))
    unfold Server.meter
    split <;> rfl
  | on name g =>
    simp only [Server.step, Option.map_eq_some_iff] at hstep
    obtain ⟨f, -, rfl⟩ := hstep
    exact h.keep rfl (Or.inl rfl)
  | ret threw =>
    simp only [Server.step] at hstep
    split at hstep
    · rename_i f fs hframes
      cases hstep
      exact recorded_resume h hframes threw
    · cases hstep

/-! ## Running programs are kept -/

theorem ctxOf_congr (h : s'.chips e = s.chips e) : s'.ctxOf e = s.ctxOf e := by
  unfold ctxOf
  rw [h]

/-- A step other than its removal leaves a running chip its id. -/
theorem ctxOf_step (h : Recorded p.server p.loaded) (hwf : p.server.Wf) (hok : p.KeepsLoaded a)
    (hstep : p.server.step a = some s') (hruns : p.server.Runs e) (ha : a ≠ .remove e) :
    s'.ctxOf e = p.server.ctxOf e := by
  obtain ⟨chip, hchip, hrun⟩ := hruns
  have hold : e ≠ p.server.nextEntity := by
    rintro rfl
    rw [hwf.fresh _ le_rfl] at hchip
    cases hchip
  cases a with
  | makeEnt index ply =>
    simp only [Server.step, Option.ite_none_right_eq_some, Option.some.injEq] at hstep
    obtain ⟨-, rfl⟩ := hstep
    obtain ⟨-, hother⟩ := leftClickUpdate_stopped ply (p.server.makeWireEnt_isSome index)
      (makeWireEnt_stopped p.server index)
    exact ctxOf_congr ((hother e hold).trans (makeWireEnt_chips_of_ne hold))
  | leftClickUpdate e₀ ply =>
    simp only [Server.step, Option.ite_none_right_eq_some, Option.some.injEq] at hstep
    obtain ⟨⟨-, he⟩, rfl⟩ := hstep
    have hne : e ≠ e₀ := by
      rintro rfl
      exact hok ⟨chip, hchip, hrun⟩
    exact ctxOf_congr ((leftClickUpdate_stopped ply he hok).2 e hne)
  | paste index ownerIndex script result =>
    simp only [Server.step, Option.ite_none_right_eq_some, Option.some.injEq] at hstep
    obtain ⟨-, rfl⟩ := hstep
    obtain ⟨hctx, -⟩ := (p.server.makeWireEnt index).applyDupeInfo_spec p.server.nextEntity index
      ownerIndex script result
    rw [hctx, makeWireEnt_ctxOf hwf]
  | upload e₀ script result =>
    simp only [Server.step, Option.ite_none_right_eq_some, Option.some.injEq] at hstep
    obtain ⟨-, rfl⟩ := hstep
    rw [(uploadComplete_spec hwf e₀ script result).1]
  | validate ply script result =>
    simp only [Server.step, Option.ite_none_right_eq_some, Option.some.injEq] at hstep
    obtain ⟨-, rfl⟩ := hstep
    exact ctxOf_congr (by rw [(p.server.validateComplete_spec ply script result).1])
  | think e₀ =>
    simp only [Server.step, Option.ite_none_right_eq_some, Option.some.injEq] at hstep
    obtain ⟨-, rfl⟩ := hstep
    exact ctxOf_congr (by rw [Server.think, (emitEvent_spec hwf e₀ _).1])
  | triggerInput e₀ =>
    simp only [Server.step, Option.ite_none_right_eq_some, Option.some.injEq] at hstep
    obtain ⟨-, rfl⟩ := hstep
    exact ctxOf_congr (by rw [Server.triggerInput, (emitEvent_spec hwf e₀ _).1])
  | remove e₀ =>
    simp only [Server.step, Option.ite_none_right_eq_some, Option.some.injEq] at hstep
    obtain ⟨-, rfl⟩ := hstep
    have hne : e ≠ e₀ := by
      rintro rfl
      exact ha rfl
    rw [onRemove_ctxOf, Function.update_of_ne hne]
  | meter cost =>
    simp only [Server.step, Option.map_eq_some_iff] at hstep
    obtain ⟨f, -, rfl⟩ := hstep
    refine ctxOf_congr ?_
    unfold Server.meter
    split <;> rfl
  | on name g =>
    simp only [Server.step, Option.map_eq_some_iff] at hstep
    obtain ⟨f, -, rfl⟩ := hstep
    rfl
  | ret threw =>
    simp only [Server.step] at hstep
    split at hstep
    · rename_i f fs hframes
      cases hstep
      rcases ({ p.server with frames := fs } : Server F).resume_ctxOf f.chip f.slot threw f.cont with
        hsame | ⟨hdupe, -, hassign⟩
      · rw [hsame]
        rfl
      · -- the chip that gets its id does not run yet
        have hmem : (f.chip, f.slot, .dupeEval) ∈ p.server.entries := by
          rw [entries, hframes, ← hdupe]
          exact List.mem_cons_self
        obtain ⟨pasted, _, hpasted, hstopped, -⟩ := h.paste f.chip f.slot hmem
        have hne : e ≠ f.chip := by
          rintro rfl
          rw [hchip] at hpasted
          cases hpasted
          rw [hrun] at hstopped
          cases hstopped
        rw [hassign]
        split
        · rw [Function.update_of_ne hne]
          rfl
        · rfl
    · cases hstep

/-- No context is created in the slot of a running chip. -/
theorem createdSlot_ne (hwf : p.server.Wf) (hok : p.KeepsLoaded a) (hruns : p.server.Runs e)
    (hctx : p.server.ctxOf e = some i) : p.server.createdSlot a ≠ some i := by
  have hown := hwf.chips e i hctx
  have hfree : firstFree p.server.contexts ≠ some i := by
    intro hi
    rw [creator_eq_none.2 (firstFree_spec hi)] at hown
    cases hown
  cases a with
  | makeEnt index ply => exact hfree
  | leftClickUpdate e₀ ply =>
    intro hi
    rw [createdSlot_click] at hi
    have hgiven : (p.server.givesUp e₀).creator i = some e := by
      refine (p.server.givesUp_creator e₀).2 ⟨hown, fun hctx₀ => hok ?_⟩
      obtain rfl : e = e₀ := Option.some.inj (hown.symm.trans (hwf.chips e₀ i hctx₀))
      exact hruns
    rw [creator_eq_none.2 (firstFree_spec hi)] at hgiven
    cases hgiven
  | paste index ownerIndex script result =>
    intro hi
    simp only [createdSlot, Option.ite_none_left_eq_some] at hi
    exact hfree hi.2
  | validate ply script result => exact hfree
  | _ => nofun

/-- What is evaluated in the slot of a running chip is an upload for it. -/
theorem evaluatedSource_of_runs {script : String} (hwf : p.server.Wf) (hok : p.KeepsLoaded a)
    (hruns : p.server.Runs e) (hctx : p.server.ctxOf e = some i)
    (h : p.server.evaluatedSource a = some (i, script)) :
    ∃ bytecode, a = .upload e script (.ok (some bytecode)) := by
  cases a with
  | paste index ownerIndex text result =>
    rcases text with _ | text
    · cases h
    rcases result with message | _ | bytecode
    · cases h
    · cases h
    simp only [evaluatedSource, Option.ite_none_right_eq_some, Option.map_eq_some_iff] at h
    obtain ⟨-, j, hj, heq⟩ := h
    cases heq
    exact absurd hj (createdSlot_ne hwf hok hruns hctx)
  | upload e₀ text result =>
    rcases result with message | _ | bytecode
    · cases h
    · cases h
    simp only [evaluatedSource, Option.ite_none_right_eq_some, Option.map_eq_some_iff] at h
    obtain ⟨-, j, hj, heq⟩ := h
    cases heq
    obtain rfl : e = e₀ :=
      Option.some.inj ((hwf.chips e i hctx).symm.trans (hwf.chips e₀ i hj))
    exact ⟨bytecode, rfl⟩
  | _ => cases h

/-- What is loaded changes only where a context is created or a source evaluated. -/
theorem loadedAfter_apply (hcreated : p.server.createdSlot a ≠ some i) :
    (∃ script, p.server.evaluatedSource a = some (i, script) ∧ p.loadedAfter a i = some script) ∨
      p.loadedAfter a i = p.loaded i := by
  have hbefore : (match p.server.createdSlot a with
      | some j => Function.update p.loaded j none
      | none => p.loaded) i = p.loaded i := by
    cases hslot : p.server.createdSlot a with
    | none => rfl
    | some j =>
      have hij : i ≠ j := by
        rintro rfl
        exact hcreated hslot
      exact Function.update_of_ne hij _ _
  unfold loadedAfter
  cases hsource : p.server.evaluatedSource a with
  | none => exact Or.inr hbefore
  | some q =>
    obtain ⟨k, script⟩ := q
    rcases eq_or_ne i k with rfl | hne
    · exact Or.inl ⟨script, rfl, Function.update_self ..⟩
    · exact Or.inr ((Function.update_of_ne hne _ _).trans hbefore)

/-- **A step that clicks no running chip** takes no running program away. -/
theorem keepsProgram (h : Recorded p.server p.loaded) (hwf : p.server.Wf) (hok : p.KeepsLoaded a) :
    p.KeepsProgram a := by
  intro p' hstep e i hruns hctx
  obtain ⟨s', hserver, rfl⟩ := Option.map_eq_some_iff.1 hstep
  by_cases hremove : a = .remove e
  · exact Or.inl hremove
  have hctx' := (ctxOf_step h hwf hok hserver hruns hremove).trans hctx
  have hlive : (s'.contexts i).isSome := by
    have hown := (wf_step hwf hserver).chips e i hctx'
    cases hc : s'.contexts i with
    | none =>
      rw [creator_eq_none.2 hc] at hown
      cases hown
    | some c => rfl
  rcases loadedAfter_apply (createdSlot_ne hwf hok hruns hctx) with ⟨script, hsource, hloaded⟩ | hsame
  · obtain ⟨bytecode, ha⟩ := evaluatedSource_of_runs hwf hok hruns hctx hsource
    exact Or.inr (Or.inl ⟨script, bytecode, ha, hloaded⟩)
  · exact Or.inr (Or.inr (Or.inr ⟨hctx', hlive, hsame⟩))

/-! ## Every run -/

/-- The invariant of a run. -/
def Consistent (p : Programs F) : Prop := p.server.Wf ∧ Recorded p.server p.loaded

theorem init_consistent : (init : Programs F).Consistent :=
  ⟨init_wf, Recorded.of_idle rfl fun _ _ h => (nomatch h)⟩

theorem consistent_step (h : p.Consistent) (hok : p.KeepsLoaded a) (hstep : p.step a = some p') :
    p'.Consistent := by
  obtain ⟨s', hserver, rfl⟩ := Option.map_eq_some_iff.1 hstep
  exact ⟨wf_step h.1 hserver, recorded_step h.2 h.1 hok hserver⟩

theorem Consistent.runsScript (h : p.Consistent) : p.RunsScript := by
  rintro hidle e ⟨chip, hchip, hrun⟩
  obtain ⟨i, script, hi, hscript, hloaded⟩ := h.2.idle hidle hchip hrun
  have hctx : p.server.ctxOf e = some i := (ctxOf_eq hchip).trans hi
  refine ⟨i, script, hctx, ?_, by simp [buildDupeInfo, hchip, hscript], hloaded⟩
  have hown := h.1.chips e i hctx
  cases hc : p.server.contexts i with
  | none =>
    rw [creator_eq_none.2 hc] at hown
    cases hown
  | some c => rfl

/-- **A click on a running chip** leaves it running in a context with nothing in it, and an upload
that is not evaluated starts the chip with what was there. -/
theorem keepsLoaded_of_runsScript (h : p.Consistent) (hstep : p.step a = some p')
    (hruns' : p'.RunsScript) : p.KeepsLoaded a := by
  obtain ⟨s', hserver, rfl⟩ := Option.map_eq_some_iff.1 hstep
  cases a with
  | leftClickUpdate e ply =>
    rintro ⟨chip, hchip, hrun⟩
    simp only [Server.step, Option.ite_none_right_eq_some, Option.some.injEq] at hserver
    obtain ⟨⟨hidle, he⟩, rfl⟩ := hserver
    obtain ⟨i, -, hi, -⟩ := h.2.idle hidle hchip hrun
    rcases leftClickUpdate_chips ply he with ⟨j, hslot, -, hchips⟩ | ⟨hnone, -, -⟩
    · have hchip' : (p.server.leftClickUpdate e ply).chips e = some { chip with ctx := some j } := by
        rw [hchips, setChip_chips, hchip]
        rfl
      have hidle' := (p.server.leftClickUpdate_frame e ply).1.trans hidle
      obtain ⟨k, script, hk, -, -, hloaded⟩ := hruns' hidle' e ⟨_, hchip', hrun⟩
      have hkj : (p.server.leftClickUpdate e ply).ctxOf e = some k := hk
      rw [ctxOf_eq hchip', Option.some.injEq] at hkj
      subst hkj
      have hempty : p.loadedAfter (.leftClickUpdate e ply) j = none := by
        rw [loadedAfter_of_created hslot rfl, Function.update_self]
      rw [show p.loadedAfter (.leftClickUpdate e ply) j = some script from hloaded] at hempty
      cases hempty
    · -- its own slot was given up, so there is one to get
      rw [ctxOf_eq hchip, hi] at hnone
      cases hnone
  | upload e script result =>
    rcases result with message | _ | bytecode
    · trivial
    · -- the chip says that it runs, and nothing has been evaluated
      intro hne hctx
      simp only [Server.step, Option.ite_none_right_eq_some, Option.some.injEq] at hserver
      obtain ⟨⟨hidle, he⟩, rfl⟩ := hserver
      obtain ⟨chip, hchip⟩ := Option.isSome_iff_exists.1 he
      obtain ⟨hquiet, hchips⟩ := uploadComplete_noBytecode h.1 hctx hne
      have hchip' : (p.server.uploadComplete e script (.ok none)).chips e =
          some { chip with run := true } := by
        rw [hchips, setChip_chips, hchip]
        rfl
      obtain ⟨i, text, hi, -, hscript, hloaded⟩ := hruns' (hquiet.2.trans hidle) e ⟨_, hchip', rfl⟩
      have hload : p.loadedAfter (.upload e script (.ok none)) = p.loaded := loadedAfter_of_none rfl rfl
      refine ⟨i, text, ?_, ?_, (congrFun hload i).symm.trans hloaded⟩
      · rw [← hi, (uploadComplete_spec h.1 e script (.ok none)).1]
      · simpa [buildDupeInfo, hchip, hchip'] using hscript
    · trivial
  | _ => trivial

/-- **Running chips run their scripts, and keep their programs, exactly in the runs in which no
running chip is clicked, and an upload whose bytecode cannot be written comes to a chip that has its
script loaded.** -/
theorem runsScript_iff (as : List (Action F)) :
    Always step RunsScript (init : Programs F) as ∧ Along step KeepsProgram (init : Programs F) as ↔
      Along step KeepsLoaded (init : Programs F) as :=
  always_and_along_iff (fun _ h => h.runsScript) (fun _ _ _ h hok hstep => consistent_step h hok hstep)
    (fun _ _ h hok => keepsProgram h.2 h.1 hok)
    (fun _ _ _ h hstep hruns _ => keepsLoaded_of_runsScript h hstep hruns) as init_consistent

theorem two_ne_zero_index : (2 : ℕ) ≠ 0 := by decide

/-- A chip is spawned, runs the script that is uploaded, and is clicked again. -/
def clickRunning : List (Action ℕ) :=
  [.makeEnt ⟨1, Nat.one_ne_zero⟩ ⟨2, ⟨2, two_ne_zero_index⟩⟩, .upload 0 "1" (.ok (some "bytecode")), .ret false,
    .leftClickUpdate 0 ⟨2, ⟨2, two_ne_zero_index⟩⟩]

/-- The state after that. -/
def afterClickRunning : Programs ℕ := (run step init clickRunning).getD init

/-- **It runs nothing**, and still says that it runs. -/
theorem clicked_runs_nothing :
    run step (init : Programs ℕ) clickRunning = some afterClickRunning ∧
      ¬ afterClickRunning.RunsScript ∧ ¬ Always step RunsScript (init : Programs ℕ) clickRunning := by
  have hrun : run step (init : Programs ℕ) clickRunning = some afterClickRunning := rfl
  have hctx : afterClickRunning.server.ctxOf 0 = some firstSlot := rfl
  have hempty : afterClickRunning.loaded firstSlot = none := rfl
  have hbroken : ¬ afterClickRunning.RunsScript := by
    intro h
    obtain ⟨i, script, hi, -, -, hloaded⟩ := h rfl 0 ⟨_, rfl, rfl⟩
    rw [hctx, Option.some.injEq] at hi
    subst hi
    rw [hempty] at hloaded
    cases hloaded
  exact ⟨hrun, hbroken, fun h => hbroken (h.last hrun)⟩

end JSChip.Programs
