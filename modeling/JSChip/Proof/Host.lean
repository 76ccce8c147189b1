import Mathlib.Algebra.Order.Group.Multiset
import JSChip.Proof.Api
import JSChip.Spec.Host

/-!
# What the host entries report

* `wp_pushResult`: the two results of an entry, as an equation.
* `convertArgs_spec`, `wp_freeValues`: the loops over the arguments of an event.
* `luaEmitEvent_returns`, `luaEval_returns`: what the entries return with, once they have found
  what to run.
-/

namespace JSChip.Native

open Machine

variable {R : Type} [Double R] {e : Env R} {s : State R} {E : Fault → Prop}

/-- The value whose string is reported: what was thrown, or the result. -/
def reported (e : Env R) (result : JSValue R) : JSValue R :=
  if result.isException then e.exceptionValue else result

/-- The status, and the string of what is reported. Only what was thrown is given to
`PushString` without a look at the pointer. -/
theorem wp_pushResult (result : JSValue R) {Q : Unit → State R → Prop} :
    wp (pushResult result) e Q E s ↔ Q () { s with
      stack := luaString ((e.cString s.cStrings (reported e result)).map CString.text) ::
        .number (Double.ofNat (if result.isException then 1 else 0)) :: s.stack
      cStrings := s.cStrings + 1
      unconverted := s.unconverted || (e.cString s.cStrings (reported e result)).isNone
      nullPushed := s.nullPushed ||
        (result.isException && (e.cString s.cStrings (reported e result)).isNone) } := by
  unfold pushResult reported
  rw [wp_bind, wp_read]
  cases result.isException with
  | true =>
    simp only [if_true, wp_bind, wp_acquire, wp_toCString, wp_pushNumber, wp_pushString,
      wp_freeCString, wp_freeValue]
    rw [wp_release_of_eq (k := s.held + e.exceptionValue.refs) rfl,
      wp_release_of_eq (k := s.held) rfl]
    simp
  | false =>
    simp only [Bool.false_eq_true, if_false, wp_bind, wp_toCString, wp_pushNumber]
    cases hstr : e.cString s.cStrings result with
    | none => simp [luaString, cStringRefs]
    | some c =>
      simp only [wp_bind, wp_pushString, wp_freeCString]
      rw [wp_release_of_eq (k := s.held) rfl]
      simp

/-! ## The arguments of an event -/

/-- What converting arguments to values acquires, and what it leaves alone. -/
structure ArgsConverted (s : State R) (vs : List (JSValue R)) (t : State R) : Prop where
  held : t.held = s.held + (vs.map JSValue.refs).sum
  listeners : t.listeners = s.listeners
  cStrings : t.cStrings = s.cStrings
  nullPushed : t.nullPushed = s.nullPushed
  jsCalls : t.jsCalls = s.jsCalls

omit [Double R] in
/-- The field of an argument. -/
theorem wp_hasNumber {k : ℤ} (hk : 0 < k) (name : String) {Q : Bool → State R → Prop} :
    wp (hasNumber k name) e Q E s ↔
      Q (e.luaTable s.luaTables (s.args[k.toNat - 1]?.getD (e.below (-k).toNat))
          (.string name)).isNumber
        { s with
          luaTables := s.luaTables + 1
          underflow := s.underflow || s.args[k.toNat - 1]?.isNone } := by
  simp [hasNumber, State.slot, hk, luaString]

/-- The table has the numbers `r`, `g` and `b`. `k` counts the fields read before. -/
def hasColor (e : Env R) (k : ℕ) (table : LuaValue R) : Bool :=
  (e.luaTable k table (.string "r")).isNumber && (e.luaTable (k + 1) table (.string "g")).isNumber &&
    (e.luaTable (k + 2) table (.string "b")).isNumber

/-- The properties that a colour gets: three slots from the top of the stack, whatever they are, and
the alpha of the table. -/
def colorSets (e : Env R) (s : State R) (table : LuaValue R) : List (PropertySet R) :=
  let v := created e s.allocs fun id => .object id false
  let alpha := e.luaTable (s.luaTables + 3) table (.string "a")
  [⟨v, "r", .number ((s.slot (-3)).getD (e.below 3)).toNumber⟩,
    ⟨v, "g", .number ((s.slot (-2)).getD (e.below 2)).toNumber⟩,
    ⟨v, "b", .number ((s.slot (-1)).getD (e.below 1)).toNumber⟩,
    ⟨v, "a", .number (if alpha.isNumber then alpha.toNumber else Double.ofNat 255)⟩]

/-- What a table becomes. -/
theorem convertTable_spec {k : ℤ} (hk : 0 < k) {table : LuaValue R}
    (ht : s.args[k.toNat - 1]?.getD (e.below (-k).toNat) = table) :
    wp (convertTable k) e
      (fun v t => ArgsConverted s [v] t ∧ if hasColor e s.luaTables table then
          v = (created e s.allocs fun id => .object id false) ∧ t.sets = s.sets ++ colorSets e s table
        else v = .null ∧ t.sets = s.sets)
      (fun _ => False) s := by
  unfold convertTable
  simp only [wp_bind, wp_hasNumber hk, ht]
  cases hc : hasColor e s.luaTables table with
  | false =>
    simp only [hasColor] at hc
    simp only [hc, Bool.false_eq_true, if_false, wp_pure, and_self, and_true]
    constructor <;> simp
  | true =>
    simp only [hasColor] at hc
    simp only [hc, if_true, wp_bind, wp_newObject, wp_allocate, wp_getNumber, wp_look,
      wp_setPropertyStr_number, wp_pushString, wp_getTable, wp_pop, wp_pure]
    refine ⟨?_, trivial, ?_⟩
    · constructor <;> simp
    · simp [colorSets, State.slot, hk, ht, luaString]

theorem convertArg_spec {k : ℤ} (hk : 0 < k) :
    wp (convertArg k) e (fun v t => ArgsConverted s [v] t) (fun _ => False) s := by
  rw [convertArg, wp_bind, wp_look]
  cases (s.slot k).getD (e.below (-k).toNat) with
  | table =>
    refine wp_mono (fun v t ht => ?_) (fun _ h => h) (convertTable_spec hk rfl)
    exact ⟨ht.1.held, ht.1.listeners, ht.1.cStrings, ht.1.nullPushed, ht.1.jsCalls⟩
  | entity =>
    simp only [convertEntity, wp_bind, wp_getMetaTable, wp_getField, wp_pushSlot, wp_look, wp_push,
      wp_call, wp_getNumber, wp_pop, wp_pure]
    constructor <;> simp [apply_ite]
  | _ =>
    simp
    constructor <;> simp

theorem convertArgs_spec : ∀ {ks : List ℕ} {s : State R}, (∀ k ∈ ks, 0 < k) →
    wp (convertArgs ks) e (fun vs t => vs.length = ks.length ∧ ArgsConverted s vs t)
      (fun _ => False) s := by
  intro ks
  induction ks with
  | nil =>
    intro s _
    simp only [convertArgs, wp_pure]
    exact ⟨rfl, by constructor <;> simp⟩
  | cons k ks ih =>
    intro s hks
    have hk : (0 : ℤ) < k := by exact_mod_cast hks k List.mem_cons_self
    rw [convertArgs, wp_bind]
    refine wp_mono ?_ (fun _ h => h) (convertArg_spec hk)
    intro v t ht
    rw [wp_bind]
    refine wp_mono ?_ (fun _ h => h) (ih fun k hk => hks k (List.mem_cons_of_mem _ hk))
    rintro vs u ⟨hlen, hu⟩
    refine ⟨by simp [hlen], ?_⟩
    constructor
    · rw [hu.held, ht.held]
      simp [add_assoc]
    · rw [hu.listeners, ht.listeners]
    · rw [hu.cStrings, ht.cStrings]
    · rw [hu.nullPushed, ht.nullPushed]
    · rw [hu.jsCalls, ht.jsCalls]

omit [Double R] in
/-- Freeing the arguments again. -/
theorem wp_freeValues {Q : Unit → State R → Prop} : ∀ {vs : List (JSValue R)} {s : State R}
    {k : Multiset Ref}, s.held = k + (vs.map JSValue.refs).sum →
      (wp (freeValues vs) e Q E s ↔ Q () { s with held := k }) := by
  intro vs
  induction vs with
  | nil =>
    intro s k h
    obtain rfl : s.held = k := by simpa using h
    exact Iff.rfl
  | cons v vs ih =>
    intro s k h
    rw [freeValues, wp_bind, wp_freeValue, wp_release_of_eq (k := k + (vs.map JSValue.refs).sum)]
    · exact ih rfl
    · rw [h, List.map_cons, List.sum_cons]
      ac_rfl

/-! ## Running -/

variable {listeners : ListenerTable (JSValue R)} {args : List (LuaValue R)}

/-- What is on the stack, and what a host entry has done, when it has run a script with the given
result. -/
structure Ran (e : Env R) (result : JSValue R) (t : State R) : Prop where
  stack : ∃ st, t.stack = luaString ((e.cString 0 (reported e result)).map CString.text) ::
    .number (Double.ofNat (if result.isException then 1 else 0)) :: st
  nullPushed : t.nullPushed =
    (result.isException && (e.cString 0 (reported e result)).isNone)

/-- **What `lua_emit_event` returns with** when there is a listener: the callback has been called
once, with as many arguments as were given, and its result is left over. -/
theorem luaEmitEvent_returns {eventName : String} {count : ℕ} {callback : JSValue R}
    (hfound : e.contextFound) (hlookup : listeners.lookup eventName = some callback) :
    wp (luaEmitEvent eventName count) e
      (fun _ t => Ran e e.result t ∧ t.held = e.result.refs ∧
        ∃ vs : List (JSValue R), vs.length = count ∧ t.jsCalls = [(callback, vs)])
      (fun _ => False) (State.entry listeners args) := by
  rw [luaEmitEvent, wp_bind, wp_read]
  simp only [hfound, Bool.not_true, Bool.false_eq_true, if_false, wp_bind, wp_get, State.entry,
    hlookup]
  refine wp_mono ?_ (fun _ h => h) (convertArgs_spec (by simp))
  rintro vs t ⟨hlen, ht⟩
  simp only [wp_modify, wp_acquire, wp_pushResult]
  rw [wp_freeValues (k := e.result.refs)]
  · refine ⟨⟨⟨t.stack, ?_⟩, ?_⟩, rfl, vs, by simpa using hlen, ?_⟩
    · simp [ht.cStrings]
    · simp [ht.cStrings, ht.nullPushed]
    · simp [ht.jsCalls]
  · rw [ht.held]
    simp [add_comm]

/-- **What `lua_eval` returns with** when it runs the script. -/
theorem luaEval_returns {length : ℕ} (hfound : e.contextFound) (hlen : 1 ≤ length) :
    wp (luaEval length) e (fun _ t => Ran e e.result t ∧ t.held = 0) (fun _ => False)
      (State.entry listeners args) := by
  have hlen' : ¬ length < 1 := by omega
  rw [luaEval, wp_bind, wp_read]
  simp only [hfound, Bool.not_true, Bool.false_eq_true, if_false, hlen', wp_bind, wp_acquire,
    State.entry]
  rw [wp_release_of_eq (k := 0) rfl]
  simp only [wp_pushResult, wp_freeValue]
  rw [wp_release_of_eq (k := 0) rfl]
  exact ⟨⟨⟨_, rfl⟩, by simp⟩, rfl⟩

end JSChip.Native
