import Mathlib.Order.Bounds.Basic
import JSChip.Proof.Handle
import JSChip.Spec.Registry

/-!
# Are the arrays a finite map?

* `Paired`: a slot holds a context exactly when it holds a runtime.
* `refines_map`: **in every run, a new context takes the least free slot or nothing changes, a
  context that is freed leaves its slot, and no step touches another slot.**
* `closes_iff`: closing the module releases what freeing each context releases **exactly when the
  callbacks are those of one listener in slot 0**.
-/

namespace JSChip

open Machine

variable {F : Type}

/-! ## The least free slot -/

theorem firstFree_isLeast {t : ContextTable F} {i : Fin maxContexts} (h : firstFree t = some i) :
    IsLeast {j | t j = none} i := by
  refine ⟨firstFree_spec h, fun j hj => ?_⟩
  unfold firstFree at h
  obtain ⟨-, k, hk, hi, hbefore⟩ := List.find?_eq_some_iff_getElem.1 h
  by_contra hlt
  have hik : (i : ℕ) = k := by rw [← hi]; simp
  have hjk : (j : ℕ) < k := by omega
  have hfree := hbefore j hjk
  simp at hfree
  rw [hj] at hfree
  cases hfree

namespace Registry

/-! ## Both arrays -/

/-- A slot holds a context exactly when it holds a runtime. -/
def Paired (s : Registry F) : Prop := ∀ i, (s.contexts i).isSome ↔ (s.runtimes i).isSome

theorem paired_init : Paired (init : Registry F) := fun _ => Iff.rfl

theorem isSome_modify (t : ContextTable F) (i j : Fin maxContexts) (g : Context F → Context F) :
    (t.modify i g j).isSome ↔ (t j).isSome := by
  rcases eq_or_ne j i with rfl | h
  · simp [ContextTable.modify]
  · simp [ContextTable.modify, Function.update_of_ne h]

theorem modify_of_ne {t : ContextTable F} {i j : Fin maxContexts} (h : j ≠ i)
    (g : Context F → Context F) : t.modify i g j = t j := Function.update_of_ne h _ _

variable {s s' : Registry F} {answer : List LuaValue}

/-- Writing through pointers keeps the arrays paired. -/
theorem Paired.modify (h : Paired s) (i : Fin maxContexts) (g : Context F → Context F)
    (frames : List (Fin maxContexts)) : Paired ⟨s.contexts.modify i g, s.runtimes, frames⟩ :=
  fun j => (isSome_modify s.contexts i j g).trans (h j)

/-- Writing a slot of both arrays keeps them paired. -/
theorem Paired.update (h : Paired s) (i : Fin maxContexts) {c : Option (Context F)}
    {rt : Option Runtime} (hc : c.isSome ↔ rt.isSome) :
    Paired ⟨Function.update s.contexts i c, Function.update s.runtimes i rt, s.frames⟩ := by
  intro j
  rcases eq_or_ne j i with rfl | hj
  · simpa using hc
  · simpa [Function.update_of_ne hj] using h j

/-! ## What each step does -/

/-- What `JS_CreateContext` should do: fail without a trace, or fill the least free slot. -/
def Creates (s : Registry F) (entIndex ownerIndex : ℕ) (answer : List LuaValue)
    (s' : Registry F) : Prop :=
  if entIndex = 0 ∨ ownerIndex = 0 ∨ ∀ i, s.contexts i ≠ none then
    (∃ message, answer = failure message) ∧ s' = s
  else ∃ i c, IsLeast {j | s.contexts j = none} i ∧
    answer = [.number (.ofNat 0), .number (.ofNat i)] ∧ s'.contexts i = some c ∧
      c.listeners = .empty ∧ c.meter.opCount = 0 ∧ c.entIndex = entIndex ∧ c.ownerIndex = ownerIndex

/-- **What a step should do.** -/
structure Meets (s : Registry F) (a : Act F) (answer : List LuaValue) (s' : Registry F) : Prop where
  paired : Paired s'
  creates : ∀ entity entIndex ownerIndex, a = .createContext entity entIndex ownerIndex →
    Creates s entIndex ownerIndex answer s'
  frees : ∀ i, a = .freeContext i → s'.contexts i = none
  frame : ∀ j, a.slot s ≠ some j → s'.contexts j = s.contexts j

theorem createContext_meets (h : Paired s) (entity entIndex ownerIndex : ℕ) :
    Meets s (.createContext entity entIndex ownerIndex)
      (s.createContext entity entIndex ownerIndex).1
      (s.createContext entity entIndex ownerIndex).2 := by
  unfold createContext luaCreateContext
  by_cases hindex : entIndex = 0 ∨ ownerIndex = 0
  · rw [if_pos hindex]
    refine ⟨h, ?_, nofun, fun _ _ => rfl⟩
    rintro _ _ _ ⟨⟩
    have hfails : entIndex = 0 ∨ ownerIndex = 0 ∨ ∀ i, s.contexts i ≠ none := by tauto
    rw [Creates, if_pos hfails]
    exact ⟨⟨_, rfl⟩, rfl⟩
  rw [if_neg hindex]
  cases hfree : firstFree s.contexts with
  | none =>
    refine ⟨h, ?_, nofun, fun _ _ => rfl⟩
    rintro _ _ _ ⟨⟩
    rw [Creates, if_pos (.inr (.inr (firstFree_eq_none.1 hfree)))]
    exact ⟨⟨_, rfl⟩, rfl⟩
  | some i =>
    refine ⟨h.update i (by simp), ?_, nofun, fun j hj => ?_⟩
    · rintro _ _ _ ⟨⟩
      have hsucceeds : ¬ (entIndex = 0 ∨ ownerIndex = 0 ∨ ∀ i, s.contexts i ≠ none) := by
        rintro (h0 | h0 | hfull)
        · exact hindex (.inl h0)
        · exact hindex (.inr h0)
        · exact hfull i (firstFree_spec hfree)
      rw [Creates, if_neg hsucceeds]
      exact ⟨i, _, firstFree_isLeast hfree, rfl, Function.update_self .., rfl, rfl, rfl, rfl⟩
    · have hji : j ≠ i := by
        rintro rfl
        exact hj hfree
      exact Function.update_of_ne hji _ _

theorem freeContext_meets (h : Paired s) (i : Fin maxContexts) :
    Meets s (.freeContext i) (s.freeContext i).1 (s.freeContext i).2 := by
  unfold freeContext
  cases hc : s.contexts i with
  | none =>
    refine ⟨h, nofun, ?_, fun _ _ => rfl⟩
    rintro _ ⟨⟩
    exact hc
  | some c =>
    refine ⟨h.update i (by simp), nofun, ?_, fun j hj => ?_⟩
    · rintro _ ⟨⟩
      exact Function.update_self ..
    · exact Function.update_of_ne (fun hji => hj (by rw [hji]; rfl)) _ _

/-- A step that only answers. -/
theorem meets_self (h : Paired s) {a : Act F} (hcreate : ∀ e i o, a ≠ .createContext e i o)
    (hfree : ∀ i, a ≠ .freeContext i) : Meets s a answer s :=
  ⟨h, fun e i o ha => absurd ha (hcreate e i o), fun i ha => absurd ha (hfree i), fun _ _ => rfl⟩

/-- A step that writes through the pointer in the slot it is about. -/
theorem meets_modify (h : Paired s) {a : Act F} {i : Fin maxContexts} {g : Context F → Context F}
    {frames : List (Fin maxContexts)} (ha : a.slot s = some i)
    (hcreate : ∀ e i o, a ≠ .createContext e i o) (hfree : ∀ i, a ≠ .freeContext i) :
    Meets s a answer ⟨s.contexts.modify i g, s.runtimes, frames⟩ := by
  refine ⟨h.modify i g frames, fun e i o ha => absurd ha (hcreate e i o),
    fun i ha => absurd ha (hfree i), fun j hj => modify_of_ne ?_ g⟩
  rintro rfl
  exact hj ha

theorem eval_meets (h : Paired s) (i : Fin maxContexts) (length : ℕ) :
    Meets s (.eval i length) (s.eval i length).1 (s.eval i length).2 := by
  unfold eval
  split
  · exact meets_self h nofun nofun
  · split
    · exact meets_self h nofun nofun
    · exact meets_modify h rfl nofun nofun

theorem emitEvent_meets (h : Paired s) (i : Fin maxContexts) (eventName : String) :
    Meets s (.emitEvent i eventName) (s.emitEvent i eventName).1 (s.emitEvent i eventName).2 := by
  unfold emitEvent
  split
  · exact meets_self h nofun nofun
  · split
    · exact meets_modify h rfl nofun nofun
    · exact meets_self h nofun nofun

theorem getOps_meets (h : Paired s) (i : Fin maxContexts) :
    Meets s (.getOps i) (s.getOps i).1 (s.getOps i).2 := by
  unfold getOps
  split <;> exact meets_self h nofun nofun

theorem meets_of_eq {a : Act F} {p : List LuaValue × Registry F} (hp : some p = some (answer, s'))
    (h : Meets s a p.1 p.2) : Meets s a answer s' := by
  cases hp
  exact h

/-- **Every step does what it should.** -/
theorem perform_meets (h : Paired s) {a : Act F} (hstep : s.perform a = some (answer, s')) :
    Meets s a answer s' := by
  cases a with
  | createContext entity entIndex ownerIndex =>
    exact meets_of_eq hstep (createContext_meets h entity entIndex ownerIndex)
  | freeContext i =>
    simp only [perform] at hstep
    split at hstep
    · cases hstep
    · exact meets_of_eq hstep (freeContext_meets h i)
  | eval i length => exact meets_of_eq hstep (eval_meets h i length)
  | emitEvent i eventName => exact meets_of_eq hstep (emitEvent_meets h i eventName)
  | getOps i => exact meets_of_eq hstep (getOps_meets h i)
  | on name f =>
    obtain ⟨i, hi, heq⟩ := Option.map_eq_some_iff.1 hstep
    cases heq
    exact meets_modify h hi nofun nofun
  | charge cost =>
    obtain ⟨i, hi, heq⟩ := Option.map_eq_some_iff.1 hstep
    cases heq
    exact meets_modify h hi nofun nofun
  | ret outcome =>
    simp only [perform] at hstep
    split at hstep
    · cases hstep
      exact ⟨h, nofun, nofun, fun _ _ => rfl⟩
    · cases hstep

theorem paired_step {a : Act F} (h : Paired s) (hstep : s.step a = some s') : Paired s' := by
  obtain ⟨⟨answer, t⟩, hperform, rfl⟩ := Option.map_eq_some_iff.1 hstep
  exact (perform_meets h hperform).paired

/-- The arrays are paired in every state that is reached. -/
theorem paired_run {acts : List (Act F)} (hrun : run step init acts = some s) : Paired s :=
  run_inv (fun _ _ _ h hstep => paired_step h hstep) acts paired_init hrun

/-- A script runs in the first of two contexts, which is freed then, and its slot is taken again. -/
def reuse : List (Act ℕ) :=
  [.createContext 0 5 6, .createContext 1 7 8, .eval firstSlot 1, .on "tick" 1, .charge 3,
    .ret (.ok none), .freeContext firstSlot, .createContext 2 9 6]

/-- The arrays after that. -/
def afterReuse : Registry ℕ := (run step init reuse).getD init

end Registry

/-! ## Closing the module -/

theorem freeListeners_slot {i : Fin maxContexts} {context : ℕ → Option (Fin maxContexts)} :
    ∀ {ls : List (EventListener F)} {j : ℕ}, ∀ r ∈ freeListeners i context j ls, r.slot = i := by
  intro ls
  induction ls with
  | nil => simp [freeListeners]
  | cons l ls ih =>
    intro j r hr
    simp only [freeListeners, List.mem_cons] at hr
    rcases hr with rfl | rfl | hr
    · rfl
    · rfl
    · exact ih r hr

/-- The same releases are the same pointers. -/
theorem freeListeners_inj {i : Fin maxContexts} {context context' : ℕ → Option (Fin maxContexts)} :
    ∀ {ls : List (EventListener F)} {k : ℕ},
      freeListeners i context k ls = freeListeners i context' k ls ↔
        ∀ j < ls.length, context (k + j) = context' (k + j) := by
  intro ls
  induction ls with
  | nil => simp [freeListeners]
  | cons l ls ih =>
    intro k
    simp only [freeListeners, List.cons.injEq, Release.callback.injEq, true_and, and_true, ih,
      List.length_cons]
    constructor
    · rintro ⟨hk, hrest⟩ j hj
      cases j with
      | zero => exact hk
      | succ j => simpa [Nat.add_assoc, Nat.add_comm 1] using hrest j (by omega)
    · intro h
      refine ⟨by simpa using h 0 (by omega), fun j hj => ?_⟩
      simpa [Nat.add_assoc, Nat.add_comm 1] using h (j + 1) (by omega)

theorem closeContext_slot {s : Registry F} {i : Fin maxContexts} :
    ∀ r ∈ closeContext s i, r.slot = i := by
  intro r hr
  unfold closeContext at hr
  split at hr
  · cases hr
  · rcases List.mem_append.1 hr with hr | hr
    · exact freeListeners_slot r hr
    · simp only [List.mem_cons, List.not_mem_nil, or_false] at hr
      rcases hr with rfl | rfl <;> rfl

theorem closeRuntime_slot {s : Registry F} {i : Fin maxContexts} :
    ∀ r ∈ closeRuntime s i, r.slot = i := by
  intro r hr
  unfold closeRuntime at hr
  split at hr
  · rw [List.mem_singleton.1 hr]
    rfl
  · cases hr

/-- The part of a loop over all slots that concerns one slot. -/
theorem filter_slot {g : Fin maxContexts → List (Release F)} (hg : ∀ i, ∀ r ∈ g i, r.slot = i)
    (i : Fin maxContexts) :
    ((List.finRange maxContexts).flatMap g).filter (fun r => r.slot = i) = g i := by
  have hloop : ∀ is : List (Fin maxContexts), is.Nodup →
      (is.flatMap g).filter (fun r => r.slot = i) = if i ∈ is then g i else [] := by
    intro is
    induction is with
    | nil => simp
    | cons j is ih =>
      intro hnd
      obtain ⟨hj, hnd⟩ := List.nodup_cons.1 hnd
      rw [List.flatMap_cons, List.filter_append, ih hnd]
      by_cases hji : j = i
      · subst hji
        have hall : (g j).filter (fun r => r.slot = j) = g j :=
          List.filter_eq_self.2 fun r hr => by simpa using hg j r hr
        simp [hall, hj]
      · have hnone : (g j).filter (fun r => r.slot = i) = [] :=
          List.filter_eq_nil_iff.2 fun r hr => by simpa [hg j r hr] using hji
        simp [hnone, Ne.symm hji]
  rw [hloop _ (List.nodup_finRange _), if_pos (List.mem_finRange i)]

/-- What closing the module releases of a slot. -/
theorem filter_closeModule (s : Registry F) (i : Fin maxContexts) :
    (closeModule s).filter (fun r => r.slot = i) = closeContext s i ++ closeRuntime s i := by
  rw [closeModule, List.filter_append, filter_slot (fun _ => closeContext_slot),
    filter_slot (fun _ => closeRuntime_slot)]

/-- **Closing is freeing**: of each slot, `GMOD_MODULE_CLOSE` releases what `lua_free_context`
would, in the same order and through the same context, and nothing else. -/
def Closes (s : Registry F) : Prop :=
  ∀ i, (closeModule s).filter (fun r => r.slot = i) = match s.contexts i with
    | some c => freeReleases s i c
    | none => []

theorem pointer_eq_iff {t : ContextTable F} {i : Fin maxContexts} {c : Context F}
    (hc : t i = some c) (j : ℕ) : t.pointer j = t.pointer i ↔ j = i := by
  have hi : t.pointer i = some i := by
    rw [ContextTable.pointer, dif_pos i.isLt, Fin.eta, hc]
    rfl
  constructor
  · intro h
    rw [hi, ContextTable.pointer] at h
    split at h
    · obtain ⟨-, -, heq⟩ := Option.map_eq_some_iff.1 h
      rw [← heq]
    · cases h
  · rintro rfl
    rfl

theorem closes_of_paired {s : Registry F} (hpaired : Registry.Paired s) :
    Closes s ↔ ∀ i c, s.contexts i = some c → ∀ j < c.listeners.entries.length, j = i := by
  refine forall_congr' fun i => ?_
  rw [filter_closeModule, closeContext, closeRuntime]
  cases hc : s.contexts i with
  | none =>
    have hnone : ¬ (s.runtimes i).isSome := fun h => by
      have hsome := (hpaired i).2 h
      rw [hc] at hsome
      cases hsome
    simp [hnone]
  | some c =>
    have hsome : (s.runtimes i).isSome := (hpaired i).1 (by rw [hc]; rfl)
    simp only [hsome, if_true, freeReleases, List.append_assoc, List.cons_append, List.nil_append,
      List.append_cancel_right_eq, freeListeners_inj, Nat.zero_add, pointer_eq_iff hc,
      Option.some.injEq, forall_eq']

/-- **When closing the module is freeing every context**: the index of each listener is the one of
its slot, so that there is at most one, in slot 0. -/
theorem closes_iff (acts : List (Registry.Act F)) (s : Registry F)
    (hrun : run Registry.step .init acts = some s) :
    Closes s ↔ ∀ i c, s.contexts i = some c → ∀ j < c.listeners.entries.length, j = i :=
  closes_of_paired (Registry.paired_run hrun)

/-- A script in slot 0 registers listeners. -/
def listening (names : List String) : List (Registry.Act ℕ) :=
  [.createContext 0 5 6, .eval firstSlot 1] ++ names.map (.on · 1)

/-- The state after that. -/
def afterListening (names : List String) : Registry ℕ :=
  (run Registry.step .init (listening names)).getD .init

theorem oneListener_closes : Closes (afterListening ["tick"]) := by
  refine (closes_iff (listening ["tick"]) (afterListening ["tick"]) rfl).2 fun i c hc j hj => ?_
  rcases eq_or_ne i firstSlot with rfl | hi
  · cases hc
    have hj' : j < 1 := hj
    rw [show j = 0 by omega]
    rfl
  · change ((ContextTable.modify _ firstSlot _).modify firstSlot _) i = some c at hc
    rw [Registry.modify_of_ne hi, Registry.modify_of_ne hi] at hc
    change (Function.update _ firstSlot _ : ContextTable ℕ) i = some c at hc
    rw [Function.update_of_ne hi] at hc
    cases hc

/-- **Two listeners are enough**: the second callback is released through `contexts[1]`. -/
theorem twoListeners_differ :
    run Registry.step .init (listening ["tick", "input"]) = some (afterListening ["tick", "input"]) ∧
      ¬ Closes (afterListening ["tick", "input"]) := by
  refine ⟨rfl, fun h => ?_⟩
  have hpaired : Registry.Paired (afterListening ["tick", "input"]) :=
    @Registry.paired_run ℕ _ (listening ["tick", "input"]) rfl
  have hindex := (closes_of_paired hpaired).1 h firstSlot _ rfl 1 (by decide)
  cases hindex

end JSChip
