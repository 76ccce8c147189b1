import JSChip.Spec.Listener

/-!
# Is the running listener alive?

`lua_emit_event` hands `JS_Call` a callback it holds no reference to. It stays alive
as long as something else owns it: the table entry it came from, another entry, or the
script.

* `owned_step`: every action keeps the reference counts equal to what is owned.
* `alive_step`: an action keeps the running callbacks alive exactly when it leaves each
  of them an owner (`KeepsOwner`).
* `alive_iff`: **a run keeps the running callbacks alive exactly when all its steps do.**
* `reRegister_destroys_running`: a script that re-registers the event being delivered,
  holding no other reference to the running callback, destroys it.
-/

namespace JSChip

open Machine

variable {F : Type}

/-! ## Replacing a callback -/

/-- The callback that is replaced is the one an emit of that name would run. -/
theorem replaceFirst_find : ∀ {ls : List (EventListener F)} {name : String} {f old : F}
    {ls' : List (EventListener F)}, replaceFirst ls name f = some (old, ls') →
      (ls.find? fun l => l.eventName = name).map (·.callback) = some old := by
  intro ls
  induction ls with
  | nil => intro name f old ls' h; cases h
  | cons l ls ih =>
    intro name f old ls' h
    unfold replaceFirst at h
    split at h
    · rename_i hl
      cases h
      simp [hl]
    · rename_i hl
      simp only [Option.map_eq_some_iff, Prod.mk.injEq, Prod.exists] at h
      obtain ⟨old', ls'', hr, rfl, -⟩ := h
      rw [List.find?_cons_of_neg (by simpa using hl)]
      exact ih hr

/-- Replacing exchanges one occurrence of the old callback for one of the new. -/
theorem replaceFirst_count [DecidableEq F] (g : F) : ∀ {ls : List (EventListener F)} {name : String} {f old : F}
    {ls' : List (EventListener F)}, replaceFirst ls name f = some (old, ls') →
      (ls'.map (·.callback)).count g + (if old = g then 1 else 0) =
        (ls.map (·.callback)).count g + (if f = g then 1 else 0) := by
  intro ls
  induction ls with
  | nil => intro name f old ls' h; cases h
  | cons l ls ih =>
    intro name f old ls' h
    unfold replaceFirst at h
    split at h
    · cases h
      simp only [List.map_cons, List.count_cons, beq_iff_eq]
      omega
    · simp only [Option.map_eq_some_iff, Prod.mk.injEq, Prod.exists] at h
      obtain ⟨old', ls'', hr, rfl, rfl⟩ := h
      have := ih hr
      simp only [List.map_cons, List.count_cons]
      omega

theorem eventOn_replaced [DecidableEq F] {t t' : ListenerTable F} {name : String} {f old : F}
    (h : eventOn t name f = .replaced old t') :
    t.lookup name = some old ∧ ∀ g, t'.callbacks.count g + (if old = g then 1 else 0) =
      t.callbacks.count g + (if f = g then 1 else 0) := by
  unfold eventOn at h
  split at h
  · rename_i hr
    cases h
    exact ⟨replaceFirst_find hr, fun g => replaceFirst_count g hr⟩
  · split at h <;> cases h

theorem eventOn_added {t t' : ListenerTable F} {name : String} {f : F}
    (h : eventOn t name f = .added t') :
    t.lookup name = none ∧ t'.callbacks = t.callbacks ++ [f] := by
  unfold eventOn at h
  split at h
  · cases h
  · rename_i hr
    split at h
    · cases h
      refine ⟨?_, by simp [ListenerTable.callbacks]⟩
      have hn := replaceFirst_eq_none.1 hr
      simp only [ListenerTable.lookup, Option.map_eq_none_iff, List.find?_eq_none,
        decide_eq_true_eq]
      exact fun l hl he => hn (List.mem_map.2 ⟨l, hl, he⟩)
    · cases h

theorem eventOn_full {t : ListenerTable F} {name : String} {f : F}
    (h : eventOn t name f = .full) : t.lookup name = none := by
  unfold eventOn at h
  split at h
  · cases h
  · rename_i hr
    have hn := replaceFirst_eq_none.1 hr
    simp only [ListenerTable.lookup, Option.map_eq_none_iff, List.find?_eq_none,
      decide_eq_true_eq]
    exact fun l hl he => hn (List.mem_map.2 ⟨l, hl, he⟩)

variable [DecidableEq F]

@[simp] theorem dupValue_apply (rc : F → ℕ) (f g : F) :
    dupValue rc f g = rc g + (if f = g then 1 else 0) := by
  unfold dupValue
  rcases eq_or_ne f g with rfl | h
  · simp
  · simp [Function.update_of_ne h.symm, h]

@[simp] theorem freeValue_apply (rc : F → ℕ) (f g : F) :
    freeValue rc f g = rc g - (if f = g then 1 else 0) := by
  unfold freeValue
  rcases eq_or_ne f g with rfl | h
  · simp
  · simp [Function.update_of_ne h.symm, h]

namespace Emitter

/-! ## Ownership along a run -/

/-- **Reference counts count owners**, whatever the script does. -/
theorem owned_step {s s' : Emitter F} {a : EmitterAct F} (hs : s.Owned) (h : s.step a = some s') :
    s'.Owned := by
  intro g
  have hg := hs g
  cases a with
  | create f =>
    simp only [step, Option.ite_none_right_eq_some, Option.some.injEq] at h
    obtain ⟨-, rfl⟩ := h
    simp only [dupValue_apply]
    omega
  | dup f =>
    simp only [step, Option.ite_none_right_eq_some, Option.some.injEq] at h
    obtain ⟨-, rfl⟩ := h
    simp only [dupValue_apply]
    omega
  | drop f =>
    simp only [step, Option.ite_none_right_eq_some, Option.some.injEq] at h
    obtain ⟨hf, rfl⟩ := h
    simp only [freeValue_apply]
    by_cases hfg : f = g
    · subst hfg; simp only [if_true]; omega
    · simp only [hfg, if_false]; omega
  | on name f =>
    simp only [step, Option.ite_none_right_eq_some] at h
    obtain ⟨hf, h⟩ := h
    split at h
    · rename_i old t hon
      cases h
      obtain ⟨hlook, hcount⟩ := eventOn_replaced hon
      have hold : 0 < s.table.callbacks.count old := List.count_pos_iff.2 (ListenerTable.lookup_mem hlook)
      have hc := hcount g
      simp only [dupValue_apply, freeValue_apply]
      by_cases ho : old = g
      · subst ho; simp only [if_true] at hc ⊢; omega
      · simp only [ho, if_false] at hc ⊢; omega
    · rename_i t hon
      cases h
      have hc := congrArg (List.count g) (eventOn_added hon).2
      simp only [List.count_append, List.count_singleton, beq_iff_eq] at hc
      simp only [dupValue_apply]
      omega
    · cases h; exact hg
  | emit name =>
    simp only [step] at h
    split at h <;> cases h <;> exact hg
  | ret =>
    simp only [step] at h
    split at h
    · cases h; exact hg
    · cases h

/-- The action leaves every running callback an owner: a dropped reference was not the last
one, and a callback replaced under its event's name is also owned by the script or by an
entry of another name (or is registered again). -/
def KeepsOwner (s : Emitter F) : EmitterAct F → Prop
  | .drop f => f ∈ s.running → 2 ≤ s.held f ∨ f ∈ s.table.callbacks
  | .on name f => ∀ old, s.table.lookup name = some old → old ∈ s.running →
      old = f ∨ 0 < s.held old ∨ 2 ≤ s.table.callbacks.count old
  | _ => True

/-- Replacing the callback of a name leaves the running callbacks alive exactly when the
old one, if it is running, has another owner. -/
theorem alive_replaced {s : Emitter F} {name : String} {f old : F} {t : ListenerTable F}
    (hs : s.Owned) (ha : s.Alive) (hf : 0 < s.held f) (hon : eventOn s.table name f = .replaced old t) :
    Alive { s with table := t, refCount := dupValue (freeValue s.refCount old) f } ↔
      s.KeepsOwner (.on name f) := by
  obtain ⟨hlook, -⟩ := eventOn_replaced hon
  have hown := hs old
  constructor
  · intro h old' hlook' hrun
    obtain rfl : old = old' := Option.some.inj (hlook.symm.trans hlook')
    have h1 := h old hrun
    simp only [dupValue_apply, freeValue_apply, if_true] at h1
    by_cases hfo : f = old
    · exact Or.inl hfo.symm
    · simp only [hfo, if_false] at h1
      right; omega
  · intro h g hg
    have hgr := ha g hg
    simp only [dupValue_apply, freeValue_apply]
    by_cases ho : old = g
    · subst ho
      rcases h old hlook hg with rfl | hheld | hcount
      · simp only [if_true]; omega
      · have hmem : 0 < s.table.callbacks.count old :=
          List.count_pos_iff.2 (ListenerTable.lookup_mem hlook)
        simp only [if_true]; omega
      · simp only [if_true]; omega
    · simp only [ho, if_false]; omega

/-- **One step.** From a state whose running callbacks are alive, an action ends in such a
state exactly when it leaves each of them an owner. -/
theorem alive_step {s s' : Emitter F} {a : EmitterAct F} (hs : s.Owned) (ha : s.Alive)
    (h : s.step a = some s') : s'.Alive ↔ s.KeepsOwner a := by
  cases a with
  | create f =>
    simp only [step, Option.ite_none_right_eq_some, Option.some.injEq] at h
    obtain ⟨-, rfl⟩ := h
    refine iff_of_true (fun g hg => ?_) trivial
    simp only [dupValue_apply]
    have := ha g hg
    omega
  | dup f =>
    simp only [step, Option.ite_none_right_eq_some, Option.some.injEq] at h
    obtain ⟨-, rfl⟩ := h
    refine iff_of_true (fun g hg => ?_) trivial
    simp only [dupValue_apply]
    have := ha g hg
    omega
  | drop f =>
    simp only [step, Option.ite_none_right_eq_some, Option.some.injEq] at h
    obtain ⟨hf, rfl⟩ := h
    have hown := hs f
    rw [KeepsOwner, ← List.count_pos_iff (l := s.table.callbacks)]
    constructor
    · intro hlive hrun
      have h1 := hlive f hrun
      simp only [freeValue_apply, if_true] at h1
      omega
    · intro hk g hg
      have hgr := ha g hg
      simp only [freeValue_apply]
      by_cases hfg : f = g
      · subst hfg
        have := hk hg
        simp only [if_true]; omega
      · simp only [hfg, if_false]; omega
  | on name f =>
    simp only [step, Option.ite_none_right_eq_some] at h
    obtain ⟨hf, h⟩ := h
    split at h
    · rename_i old t hon
      cases h
      exact alive_replaced hs ha hf hon
    · rename_i t hon
      cases h
      have hnone := (eventOn_added hon).1
      refine iff_of_true (fun g hg => ?_) (fun old hold => by rw [hnone] at hold; cases hold)
      simp only [dupValue_apply]
      have := ha g hg
      omega
    · rename_i hon
      cases h
      have hnone := eventOn_full hon
      exact iff_of_true ha (fun old hold => by rw [hnone] at hold; cases hold)
  | emit name =>
    simp only [step] at h
    split at h
    · rename_i f hlook
      cases h
      refine iff_of_true (fun g hg => ?_) trivial
      rcases List.mem_cons.1 hg with rfl | hg
      · -- the callback just found is owned by the table
        have hmem := List.count_pos_iff.2 (ListenerTable.lookup_mem hlook)
        have := hs g
        simp only
        omega
      · exact ha g hg
    · cases h; exact iff_of_true ha trivial
  | ret =>
    simp only [step] at h
    split at h
    · rename_i g fs hrun
      cases h
      refine iff_of_true (fun g' hg' => ha g' ?_) trivial
      rw [hrun]; exact List.mem_cons_of_mem _ hg'
    · cases h

/-- **Exactly the runs that leave the running callbacks an owner keep them alive.** -/
theorem alive_iff {s : Emitter F} (hs : s.Owned) (ha : s.Alive) (as : List (EmitterAct F)) :
    Always step Alive s as ↔ Along step KeepsOwner s as := by
  have hkeep : ∀ (s : Emitter F) (a : EmitterAct F) (s' : Emitter F), s.Owned ∧ s.Alive →
      s.KeepsOwner a → step s a = some s' → s'.Owned ∧ s'.Alive :=
    fun s a s' h hk hstep => ⟨owned_step h.1 hstep, (alive_step h.1 h.2 hstep).2 hk⟩
  have hlose : ∀ (s : Emitter F) (a : EmitterAct F) (s' : Emitter F), s.Owned ∧ s.Alive →
      step s a = some s' → s'.Alive → s.KeepsOwner a :=
    fun s a s' h hstep => (alive_step h.1 h.2 hstep).1
  exact always_iff_along (fun _ h => h.2) hkeep hlose as ⟨hs, ha⟩

/-! ## A script that re-registers its own event -/

/-- A new context: no listeners, no functions. -/
def new : Emitter F := ⟨.empty, fun _ => 0, fun _ => 0, []⟩

theorem new_owned : (new : Emitter ℕ).Owned := fun _ => rfl

theorem new_alive : (new : Emitter ℕ).Alive := fun _ h => absurd h List.not_mem_nil

/-- `Events.on("tick", function () { Events.on("tick", g) })` and one tick; `0` is the
outer function and `1` is `g`. -/
def reRegister : List (EmitterAct ℕ) :=
  [.create 0, .on "tick" 0, .drop 0, .emit "tick", .create 1, .on "tick" 1]

theorem alive_iff_keeping_reference :
    Always step Alive (new : Emitter ℕ) [.create 0, .on "tick" 0, .emit "tick", .create 1, .on "tick" 1] ↔
      Along step KeepsOwner (new : Emitter ℕ)
        [.create 0, .on "tick" 0, .emit "tick", .create 1, .on "tick" 1] :=
  alive_iff new_owned new_alive _

/-- **The running callback is destroyed** by re-registering its event. -/
theorem reRegister_destroys_running : ¬ Always step Alive (new : Emitter ℕ) reRegister := by
  intro h
  have hend : ∃ s', run step (new : Emitter ℕ) reRegister = some s' ∧ s'.running = [0] ∧
      s'.refCount 0 = 0 := ⟨_, rfl, rfl, rfl⟩
  obtain ⟨s', hrun, hrunning, hcount⟩ := hend
  have := h.last hrun 0 (by rw [hrunning]; exact List.mem_singleton_self 0)
  omega

end Emitter

end JSChip
