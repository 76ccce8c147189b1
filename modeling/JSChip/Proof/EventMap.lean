import Mathlib.Data.Finmap
import JSChip.Proof.Alive

/-!
# Is the listener table a bounded map?

* `EventMap`: what the table is for, a finite map from names to functions with at most
  `MAX_LISTENERS` names.
* `register_represents`: `Events.on` on the table is `EventMap.on` on the map.
* `listeners_refine`: **in every run the table is the map of the last successful registrations**,
  an emit calls the function of its name once, and the table owns a reference for each entry.
-/

namespace JSChip

open Machine

variable {F : Type}

/-! ## The map -/

/-- The functions by name. -/
abbrev EventMap (F : Type) := Finmap fun _ : String => F

/-- **A registration**: with a function, and a name that is there or for which there is room. -/
def EventMap.on (m : EventMap F) (name : String) : Emitter.Argument F → Option (EventMap F)
  | .function f => if name ∈ m ∨ m.keys.card < maxListeners then some (m.insert name f) else none
  | .other => none

/-! ## The table as a map -/

theorem replaceFirst_lookup : ∀ {ls ls' : List (EventListener F)} {name : String} {f old : F},
    replaceFirst ls name f = some (old, ls') → ∀ n,
      (ls'.find? fun l => l.eventName = n).map (·.callback) =
        if n = name then some f else (ls.find? fun l => l.eventName = n).map (·.callback) := by
  intro ls
  induction ls with
  | nil => intro _ _ _ _ h; cases h
  | cons l ls ih =>
    intro ls' name f old h n
    unfold replaceFirst at h
    split at h
    · rename_i hl
      cases h
      by_cases hn : n = name
      · subst hn
        simp [hl]
      · have hln : l.eventName ≠ n := by
          rw [hl]
          exact Ne.symm hn
        simp [hn, hln]
    · rename_i hl
      simp only [Option.map_eq_some_iff, Prod.mk.injEq, Prod.exists] at h
      obtain ⟨old', ls'', hr, rfl, rfl⟩ := h
      by_cases hln : l.eventName = n
      · have hn : n ≠ name := by
          rintro rfl
          exact hl hln
        simp [hln, hn]
      · rw [List.find?_cons_of_neg (by simpa using hln), List.find?_cons_of_neg (by simpa using hln)]
        exact ih hr n

namespace ListenerTable

variable {t t' : ListenerTable F} {name : String} {f old : F}

theorem lookup_replaced (h : eventOn t name f = .replaced old t') (n : String) :
    t'.lookup n = if n = name then some f else t.lookup n := by
  unfold eventOn at h
  split at h
  · rename_i hr
    cases h
    exact replaceFirst_lookup hr n
  · split at h <;> cases h

theorem lookup_added (h : eventOn t name f = .added t') (n : String) :
    t.entries.length < maxListeners ∧ t'.lookup n = if n = name then some f else t.lookup n := by
  have hfresh := (eventOn_added h).1
  unfold eventOn at h
  split at h
  · cases h
  · split at h
    · rename_i hroom
      cases h
      refine ⟨hroom, ?_⟩
      rw [lookup, Option.map_eq_none_iff] at hfresh
      by_cases hn : n = name
      · subst hn
        simp [lookup, List.find?_append, hfresh]
      · simp only [lookup, List.find?_append, hn, if_false]
        cases t.entries.find? fun l => l.eventName = n <;> simp [Ne.symm hn]
    · cases h

theorem length_full (h : eventOn t name f = .full) : ¬ t.entries.length < maxListeners := by
  unfold eventOn at h
  split at h
  · cases h
  · split at h
    · cases h
    · assumption

/-- The table represents the map. -/
def Represents (t : ListenerTable F) (m : EventMap F) : Prop := ∀ name, t.lookup name = m.lookup name

theorem isSome_lookup : (t.lookup name).isSome ↔ name ∈ t.entries.map (·.eventName) := by
  simp [lookup]

theorem Represents.mem_iff {m : EventMap F} (h : t.Represents m) :
    name ∈ m ↔ (t.lookup name).isSome := by
  rw [← Finmap.lookup_isSome, h name]

/-- Names are distinct, so that there are as many keys as entries. -/
theorem Represents.card_keys {m : EventMap F} (h : t.Represents m) :
    m.keys.card = t.entries.length := by
  have hkeys : m.keys = (t.entries.map (·.eventName)).toFinset := by
    ext name
    rw [Finmap.mem_keys, h.mem_iff, isSome_lookup, List.mem_toFinset]
  rw [hkeys, List.toFinset_card_of_nodup t.distinct, List.length_map]

theorem represents_empty : (empty : ListenerTable F).Represents ∅ := fun name => by
  rw [Finmap.lookup_empty]
  rfl

theorem Represents.insert {m : EventMap F} (h : t.Represents m)
    (hlookup : ∀ n, t'.lookup n = if n = name then some f else t.lookup n) :
    t'.Represents (m.insert name f) := by
  intro n
  rw [hlookup]
  split
  · rename_i hn
    rw [hn, Finmap.lookup_insert]
  · rename_i hn
    rw [Finmap.lookup_insert_of_ne _ hn, h n]

end ListenerTable

namespace Emitter

variable [DecidableEq F] {s : Emitter F} {m : EventMap F}

/-- `Events.on` does what a registration does, or throws and changes nothing when that fails. -/
def OnAgrees (s : Emitter F) (m : EventMap F) (name : String) (arg : Argument F) : Prop :=
  match m.on name arg with
  | some m' => (s.register name arg).1 = .undefined ∧ (s.register name arg).2.table.Represents m'
  | none => (s.register name arg).1 ≠ .undefined ∧ (s.register name arg).2 = s

/-- **`Events.on` is a registration in the map.** -/
theorem register_represents (h : s.table.Represents m) (name : String) (arg : Argument F) :
    s.OnAgrees m name arg := by
  unfold OnAgrees
  cases arg with
  | other => exact ⟨fun h => (by cases h), rfl⟩
  | function f =>
    simp only [EventMap.on, register]
    cases hon : eventOn s.table name f with
    | replaced old t =>
      have hmem : name ∈ m := h.mem_iff.2 (by rw [(eventOn_replaced hon).1]; rfl)
      rw [if_pos (.inl hmem)]
      exact ⟨rfl, h.insert (ListenerTable.lookup_replaced hon)⟩
    | added t =>
      have hroom := (ListenerTable.lookup_added hon name).1
      rw [← h.card_keys] at hroom
      rw [if_pos (.inr hroom)]
      exact ⟨rfl, h.insert fun n => (ListenerTable.lookup_added hon n).2⟩
    | full =>
      have hmem : name ∉ m := fun hmem => by
        have hsome := h.mem_iff.1 hmem
        rw [eventOn_full hon] at hsome
        cases hsome
      have hroom := ListenerTable.length_full hon
      rw [← h.card_keys] at hroom
      rw [if_neg (by tauto)]
      exact ⟨fun h => (by cases h), rfl⟩

omit [DecidableEq F] in
/-- An emit calls what the map has. -/
theorem emitEvent_represents (h : s.table.Represents m) (name : String) :
    (s.emitEvent name).1 = (m.lookup name).toList := by
  rw [← h name, emitEvent]
  cases s.table.lookup name <;> rfl

/-! ## Runs -/

/-- What happens to the table: registrations and emits, and what a script does with references in
between. -/
inductive EventsAct (F : Type)
  | on (name : String) (arg : Argument F)
  | emit (name : String)
  | create (f : F)
  | dup (f : F)
  | drop (f : F)
  | ret

/-- The caller of `Events.on` holds its argument. -/
def Argument.Held (s : Emitter F) : Argument F → Prop
  | .function f => 0 < s.held f
  | .other => True

instance (s : Emitter F) (arg : Argument F) : Decidable (arg.Held s) := by
  cases arg
  · exact inferInstanceAs (Decidable (0 < _))
  · exact inferInstanceAs (Decidable True)

/-- One step. -/
def eventsStep (s : Emitter F) : EventsAct F → Option (Emitter F)
  | .on name arg => if arg.Held s then some (s.register name arg).2 else none
  | .emit name => some (s.emitEvent name).2
  | .create f => s.step (.create f)
  | .dup f => s.step (.dup f)
  | .drop f => s.step (.drop f)
  | .ret => s.step .ret

/-- The map of the last successful registrations. -/
def registered (m : EventMap F) : List (EventsAct F) → EventMap F
  | [] => m
  | .on name arg :: acts => registered ((m.on name arg).getD m) acts
  | _ :: acts => registered m acts

variable {s' : Emitter F}

/-- A registration is the one whose ownership is known. -/
theorem owned_register (hs : s.Owned) {name : String} {arg : Argument F} (harg : arg.Held s) :
    (s.register name arg).2.Owned := by
  cases arg with
  | other => exact hs
  | function f =>
    have hheld : 0 < s.held f := harg
    refine owned_step (a := .on name f) hs ?_
    rw [step, if_pos hheld, register]
    cases eventOn s.table name f <;> rfl

/-- **One step keeps the table and the map together**, and every reference owned. -/
theorem represents_step {a : EventsAct F} (hs : s.Owned) (h : s.table.Represents m)
    (hstep : s.eventsStep a = some s') : s'.Owned ∧ s'.table.Represents (registered m [a]) := by
  cases a with
  | on name arg =>
    simp only [eventsStep, Option.ite_none_right_eq_some, Option.some.injEq] at hstep
    obtain ⟨harg, rfl⟩ := hstep
    refine ⟨owned_register hs harg, ?_⟩
    have hreg := register_represents h name arg
    unfold OnAgrees at hreg
    cases hon : m.on name arg with
    | some m' =>
      rw [hon] at hreg
      simpa [registered, hon] using hreg.2
    | none =>
      rw [hon] at hreg
      rw [hreg.2]
      simpa [registered, hon] using h
  | emit name =>
    cases hstep
    have htable : (s.emitEvent name).2.table = s.table := by
      unfold emitEvent
      split <;> rfl
    have howned : (s.emitEvent name).2.Owned := by
      unfold emitEvent
      split <;> exact hs
    exact ⟨howned, by rw [htable]; exact h⟩
  | create f =>
    refine ⟨owned_step (a := .create f) hs hstep, ?_⟩
    simp only [eventsStep, step, Option.ite_none_right_eq_some, Option.some.injEq] at hstep
    obtain ⟨-, rfl⟩ := hstep
    exact h
  | dup f =>
    refine ⟨owned_step (a := .dup f) hs hstep, ?_⟩
    simp only [eventsStep, step, Option.ite_none_right_eq_some, Option.some.injEq] at hstep
    obtain ⟨-, rfl⟩ := hstep
    exact h
  | drop f =>
    refine ⟨owned_step (a := .drop f) hs hstep, ?_⟩
    simp only [eventsStep, step, Option.ite_none_right_eq_some, Option.some.injEq] at hstep
    obtain ⟨-, rfl⟩ := hstep
    exact h
  | ret =>
    refine ⟨owned_step (a := .ret) hs hstep, ?_⟩
    simp only [eventsStep, step] at hstep
    split at hstep
    · cases hstep
      exact h
    · cases hstep

theorem represents_run : ∀ {acts : List (EventsAct F)} {s : Emitter F} {m : EventMap F}, s.Owned →
    s.table.Represents m → run eventsStep s acts = some s' →
      s'.Owned ∧ s'.table.Represents (registered m acts) := by
  intro acts
  induction acts with
  | nil =>
    intro s m hs h hrun
    cases hrun
    exact ⟨hs, h⟩
  | cons a acts ih =>
    intro s m hs h hrun
    rw [run_cons] at hrun
    obtain ⟨t, hstep, hrest⟩ := Option.bind_eq_some_iff.1 hrun
    obtain ⟨ht, hrep⟩ := represents_step hs h hstep
    have hcons : registered m (a :: acts) = registered (registered m [a]) acts := by cases a <;> rfl
    rw [hcons]
    exact ih ht hrep hrest

/-- **The table is the map.** Each entry owns one reference to its function. -/
structure Refines (s : Emitter F) (m : EventMap F) : Prop where
  distinct : (s.table.entries.map (·.eventName)).Nodup
  bounded : s.table.entries.length ≤ maxListeners
  lookup : ∀ name, s.table.lookup name = m.lookup name
  owned : ∀ f, s.refCount f = s.table.callbacks.count f + s.held f
  on : ∀ name arg, s.OnAgrees m name arg
  emit : ∀ name, (s.emitEvent name).1 = (m.lookup name).toList

/-- **The table refines a bounded map**, in every run from an empty table. -/
theorem listeners_refine (s₀ : Emitter F) (hempty : s₀.table = .empty) (howned : s₀.Owned)
    (acts : List (EventsAct F)) (s : Emitter F) (hrun : run eventsStep s₀ acts = some s) :
    s.Refines (registered ∅ acts) := by
  have hstart : s₀.table.Represents ∅ := hempty ▸ ListenerTable.represents_empty
  obtain ⟨hs, hrep⟩ := represents_run howned hstart hrun
  exact ⟨s.table.distinct, s.table.bounded, hrep, hs, register_represents hrep,
    emitEvent_represents hrep⟩

/-- A script with nothing yet. -/
def fresh : Emitter ℕ := ⟨.empty, fun _ => 0, fun _ => 0, []⟩

/-- It registers functions for "tick" and "input", is emitted, and registers another function for
"tick", then something that is no function. -/
def twoNames : List (EventsAct ℕ) :=
  [.create 7, .create 8, .on "tick" (.function 7), .on "input" (.function 8), .emit "tick",
    .on "tick" (.function 8), .ret, .on "tick" .other, .emit "tick"]

/-- What has become of the script. -/
def afterTwoNames : Emitter ℕ := (run eventsStep fresh twoNames).getD fresh

theorem twoNames_refine : afterTwoNames.Refines (registered ∅ twoNames) :=
  listeners_refine fresh rfl (fun _ => rfl) twoNames afterTwoNames rfl

end Emitter

end JSChip
