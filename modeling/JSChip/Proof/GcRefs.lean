import JSChip.Spec.Gc

/-!
# What a block refers to

* `Memory.refs`: the references of a block, in the order in which they are dropped when it is freed.
* `markChildren_eq`: what is marked is what is dropped, but for the variables on the stack.
* `freeGcObject_eq`, `freeRef_eq` and the like: to free a block is to drop each of its references by
  `freeRef`.
* `inPhase_freeRef`: `__JS_FreeValueRT` is `zeroRefCount` while there is a phase.
-/

namespace JSChip.Gc

open RefCount

/-! ## References -/

/-- The block is of a type that a `JSValue` may point to. -/
def GCPtr.isValue : GCPtr → Bool
  | .object _ | .functionBytecode _ => true
  | .shape _ | .varRef _ | .context _ => false

/-- A variable that is on the stack: no list of the collector has it. -/
def Memory.isOpen (mem : Memory) : GCPtr → Bool
  | .varRef n => !(mem.varRef n).isDetached
  | .object _ | .functionBytecode _ | .shape _ | .context _ => false

def varRefRefs (v : Option ℕ) : List GCPtr := v.toList.map .varRef

def propertyRefs : JSProperty → List GCPtr
  | .deleted => []
  | .normal value => jsMarkValue value
  | .getset getter setter => getter.toList.map .object ++ setter.toList.map .object
  | .varref n => [.varRef n]
  | .autoinit realm => [.context realm]

def classRefs : ClassData → List GCPtr
  | .none => []
  | .array values => values.flatMap jsMarkValue
  | .objectData objectData => jsMarkValue objectData
  | .cfunc realm => realm.toList.map .context
  | .func functionBytecode varRefs homeObject =>
    homeObject.toList.map .object ++
      match functionBytecode with
      | some b => varRefs.flatMap varRefRefs ++ [.functionBytecode b]
      | none => []
  | .boundFunction funcObj thisVal argv =>
    jsMarkValue funcObj ++ jsMarkValue thisVal ++ argv.flatMap jsMarkValue
  | .forInIterator obj => jsMarkValue obj

/-- What a block refers to. The value of a variable on the stack is the stack's. -/
def Memory.refs (mem : Memory) : GCPtr → List GCPtr
  | .object n =>
    (mem.object n).prop.flatMap propertyRefs ++ .shape (mem.object n).shape :: classRefs (mem.object n).u
  | .functionBytecode n =>
    (mem.functionBytecode n).cpool.flatMap jsMarkValue ++
      (mem.functionBytecode n).realm.toList.map .context
  | .shape n => (mem.shape n).proto.toList.map .object
  | .varRef n => if (mem.varRef n).isDetached then jsMarkValue (mem.varRef n).value else []
  | .context n => jsMarkContext (mem.context n)

theorem Memory.refs_of_isOpen {mem : Memory} {p : GCPtr} (h : mem.isOpen p = true) : mem.refs p = [] := by
  cases p with
  | varRef n =>
    have hdet : (mem.varRef n).isDetached = false := by
      rwa [Memory.isOpen, Bool.not_eq_true'] at h
    rw [Memory.refs, hdet]
    rfl
  | _ => cases h

theorem Memory.isOpen_of_isValue {mem : Memory} {p : GCPtr} (h : p.isValue = true) :
    mem.isOpen p = false := by
  cases p with
  | object | functionBytecode => rfl
  | _ => cases h

/-! ## What is marked -/

/-- The exports of the modules of a context are detached, as `js_create_module_var` makes them. -/
def Memory.ExportsDetached (mem : Memory) (n : ℕ) : Prop :=
  ∀ m ∈ (mem.context n).loadedModules, ∀ v, some v ∈ m.exportVarRefs → (mem.varRef v).isDetached = true

section Marking

variable {mem : Memory}

/-- The collector has lists for the block. -/
abbrev Memory.listed (mem : Memory) (p : GCPtr) : Bool := !mem.isOpen p

theorem listed_of_mem_values {vs : List JSValue} {p : GCPtr} (hp : p ∈ vs.flatMap jsMarkValue) :
    mem.listed p = true := by
  obtain ⟨v, -, hv⟩ := List.mem_flatMap.mp hp
  cases v with
  | object n | functionBytecode n =>
    rw [List.mem_singleton.mp hv]
    rfl
  | other => cases hv

theorem filter_listed_values (vs : List JSValue) :
    (vs.flatMap jsMarkValue).filter mem.listed = vs.flatMap jsMarkValue :=
  List.filter_eq_self.mpr fun _ hp => listed_of_mem_values hp

theorem filter_listed_value (v : JSValue) : (jsMarkValue v).filter mem.listed = jsMarkValue v := by
  have h : ([v].flatMap jsMarkValue).filter mem.listed = [v].flatMap jsMarkValue := filter_listed_values [v]
  rwa [List.flatMap_singleton] at h

theorem filter_listed_objects (o : Option ℕ) :
    (o.toList.map GCPtr.object).filter mem.listed = o.toList.map GCPtr.object := by
  cases o <;> rfl

theorem filter_listed_contexts (o : Option ℕ) :
    (o.toList.map GCPtr.context).filter mem.listed = o.toList.map GCPtr.context := by
  cases o <;> rfl

theorem filter_listed_varRef (v : Option ℕ) : (varRefRefs v).filter mem.listed = markVarRef mem v := by
  cases v with
  | none => rfl
  | some n =>
    show List.filter mem.listed [.varRef n] = if (mem.varRef n).isDetached = true then _ else _
    rw [List.filter_singleton]
    cases hdet : (mem.varRef n).isDetached with
    | false => simp [Memory.isOpen, hdet]
    | true => simp [Memory.isOpen, hdet]

theorem filter_listed_property (pr : JSProperty) :
    (propertyRefs pr).filter mem.listed = markProperty mem pr := by
  cases pr with
  | deleted => rfl
  | normal value => exact filter_listed_value value
  | getset getter setter =>
    rw [propertyRefs, List.filter_append, filter_listed_objects, filter_listed_objects]
    rfl
  | varref n => exact filter_listed_varRef (some n)
  | autoinit realm => rfl

theorem filter_listed_class (u : ClassData) : (classRefs u).filter mem.listed = gcMark mem u := by
  cases u with
  | none => rfl
  | array values => exact filter_listed_values values
  | objectData objectData => exact filter_listed_value objectData
  | cfunc realm => exact filter_listed_contexts realm
  | func functionBytecode varRefs homeObject =>
    cases functionBytecode with
    | none =>
      show List.filter mem.listed (homeObject.toList.map .object ++ []) = _
      rw [List.filter_append, filter_listed_objects]
      rfl
    | some b =>
      show List.filter mem.listed
        (homeObject.toList.map .object ++ (varRefs.flatMap varRefRefs ++ [.functionBytecode b])) = _
      rw [List.filter_append, List.filter_append, filter_listed_objects, List.filter_flatMap]
      simp only [filter_listed_varRef]
      rfl
  | boundFunction funcObj thisVal argv =>
    rw [classRefs, List.filter_append, List.filter_append, filter_listed_value, filter_listed_value,
      filter_listed_values]
    rfl
  | forInIterator obj => exact filter_listed_value obj

theorem filter_listed_context {n : ℕ} (h : mem.ExportsDetached n) :
    (jsMarkContext (mem.context n)).filter mem.listed = jsMarkContext (mem.context n) := by
  apply List.filter_eq_self.mpr
  intro p hp
  rcases List.mem_append.mp hp with hp | hp
  · rcases List.mem_append.mp hp with hp | hp
    · obtain ⟨m, hm, hp⟩ := List.mem_flatMap.mp hp
      rcases List.mem_append.mp hp with hp | hp
      · obtain ⟨v, hv, hp⟩ := List.mem_flatMap.mp hp
        cases v with
        | none => cases hp
        | some v =>
          rw [List.mem_singleton.mp hp, Memory.listed, Memory.isOpen, h m hm v hv]
          rfl
      · exact listed_of_mem_values hp
    · exact listed_of_mem_values hp
  · obtain ⟨s, -, rfl⟩ := List.mem_map.mp hp
    rfl

/-- **What is marked is what is dropped**, but for the variables on the stack. -/
theorem markChildren_eq {p : GCPtr} (hopen : mem.isOpen p = false)
    (hexports : ∀ n, p = .context n → mem.ExportsDetached n) :
    ∃ children, markChildren mem p = some children ∧
      children.Perm ((mem.refs p).filter mem.listed) := by
  cases p with
  | object n =>
    refine ⟨_, rfl, ?_⟩
    have hshape : mem.listed (.shape (mem.object n).shape) = true := rfl
    rw [Memory.refs, List.filter_append, List.filter_flatMap, List.filter_cons_of_pos hshape,
      filter_listed_class]
    simp only [filter_listed_property]
    exact List.perm_middle.symm
  | functionBytecode n =>
    refine ⟨_, rfl, ?_⟩
    rw [Memory.refs, List.filter_append, filter_listed_values, filter_listed_contexts]
  | shape n =>
    refine ⟨_, rfl, ?_⟩
    rw [Memory.refs, filter_listed_objects]
  | varRef n =>
    have hdet : (mem.varRef n).isDetached = true := by
      rwa [Memory.isOpen, Bool.not_eq_false'] at hopen
    refine ⟨jsMarkValue (mem.varRef n).value, ?_, ?_⟩
    · rw [markChildren, if_pos hdet]
    · rw [Memory.refs, if_pos hdet, filter_listed_value]
  | context n =>
    refine ⟨_, rfl, ?_⟩
    rw [Memory.refs, filter_listed_context (hexports n rfl)]

end Marking

/-! ## What is dropped -/

section Freeing

variable {α : Type} {freeZero : GCPtr → JSRuntime → Option JSRuntime}

theorem forEach_nil (f : α → JSRuntime → Option JSRuntime) : forEach f [] = some := rfl

theorem forEach_cons (f : α → JSRuntime → Option JSRuntime) (a : α) (l : List α) (rt : JSRuntime) :
    forEach f (a :: l) rt = (f a rt).bind (forEach f l) := List.foldlM_cons

theorem forEach_append (f : α → JSRuntime → Option JSRuntime) (l l' : List α) (rt : JSRuntime) :
    forEach f (l ++ l') rt = (forEach f l rt).bind (forEach f l') := List.foldlM_append

theorem forEach_singleton (f : α → JSRuntime → Option JSRuntime) (a : α) : forEach f [a] = f a := by
  funext rt
  rw [forEach_cons, forEach_nil]
  exact Option.bind_fun_some (f a rt)

/-- To do each of the members that `g` has. -/
theorem forEach_flatMap {β : Type} {f : β → JSRuntime → Option JSRuntime}
    {f' : α → JSRuntime → Option JSRuntime} {g : α → List β} (h : ∀ a, f' a = forEach f (g a))
    (l : List α) : forEach f (l.flatMap g) = forEach f' l := by
  induction l with
  | nil => rfl
  | cons a l ih =>
    funext rt
    rw [List.flatMap_cons, forEach_append, forEach_cons, ih, h]

theorem freeValue_eq (v : JSValue) : freeValue freeZero v = forEach (freeRef freeZero) (jsMarkValue v) := by
  cases v with
  | object n => exact (forEach_singleton (freeRef freeZero) (.object n)).symm
  | functionBytecode n => exact (forEach_singleton (freeRef freeZero) (.functionBytecode n)).symm
  | other => rfl

theorem freeValues_eq (vs : List JSValue) :
    forEach (freeRef freeZero) (vs.flatMap jsMarkValue) = forEach (freeValue freeZero) vs :=
  forEach_flatMap freeValue_eq vs

theorem freeObjectPtr_eq (o : Option ℕ) :
    freeObjectPtr freeZero o = forEach (freeRef freeZero) (o.toList.map .object) := by
  cases o with
  | none => rfl
  | some n => exact (forEach_singleton (freeRef freeZero) (.object n)).symm

theorem freeRealm_eq (o : Option ℕ) :
    freeRealm freeZero o = forEach (freeRef freeZero) (o.toList.map .context) := by
  cases o with
  | none => rfl
  | some n => exact (forEach_singleton (freeRef freeZero) (.context n)).symm

theorem jsFreeShapeNull_eq (o : Option ℕ) :
    jsFreeShapeNull freeZero o = forEach (freeRef freeZero) (o.toList.map .shape) := by
  cases o with
  | none => rfl
  | some n => exact (forEach_singleton (freeRef freeZero) (.shape n)).symm

theorem freeVarRef_eq (v : Option ℕ) : freeVarRef freeZero v = forEach (freeRef freeZero) (varRefRefs v) := by
  cases v with
  | none => rfl
  | some n => exact (forEach_singleton (freeRef freeZero) (.varRef n)).symm

theorem freeProperty_eq (pr : JSProperty) :
    freeProperty freeZero pr = forEach (freeRef freeZero) (propertyRefs pr) := by
  cases pr with
  | deleted => rfl
  | normal value => exact freeValue_eq value
  | getset getter setter =>
    funext rt
    rw [propertyRefs, forEach_append, ← freeObjectPtr_eq, ← freeObjectPtr_eq]
    rfl
  | varref n => exact freeVarRef_eq (some n)
  | autoinit realm => exact freeRealm_eq (some realm)

theorem finalizer_eq (u : ClassData) : finalizer freeZero u = forEach (freeRef freeZero) (classRefs u) := by
  cases u with
  | none => rfl
  | array values => exact (freeValues_eq values).symm
  | objectData objectData => exact freeValue_eq objectData
  | cfunc realm => exact freeRealm_eq realm
  | func functionBytecode varRefs homeObject =>
    funext rt
    cases functionBytecode with
    | none =>
      show _ = forEach (freeRef freeZero) (homeObject.toList.map .object ++ []) rt
      rw [forEach_append, ← freeObjectPtr_eq]
      rfl
    | some b =>
      show _ = forEach (freeRef freeZero)
        (homeObject.toList.map .object ++ (varRefs.flatMap varRefRefs ++ [.functionBytecode b])) rt
      rw [forEach_append, ← freeObjectPtr_eq]
      show (freeObjectPtr freeZero homeObject rt).bind _ = _
      congr 1
      funext rt
      rw [forEach_append, forEach_flatMap freeVarRef_eq, forEach_singleton]
      rfl
  | boundFunction funcObj thisVal argv =>
    funext rt
    rw [classRefs, forEach_append, forEach_append, freeValues_eq, ← freeValue_eq, ← freeValue_eq,
      Option.bind_assoc]
    rfl
  | forInIterator obj => exact freeValue_eq obj

theorem jsFreeModuleDef_eq (m : JSModuleDef) :
    jsFreeModuleDef freeZero m = forEach (freeRef freeZero) (jsMarkModuleDef m) := by
  funext rt
  rw [jsMarkModuleDef, forEach_append, freeValues_eq]
  show (forEach (freeVarRef freeZero) m.exportVarRefs rt).bind _ = _
  rw [← forEach_flatMap freeVarRef_eq]
  rfl

/-- To drop the last reference to what is not a value is to drop each of its own, and to remove it. -/
theorem freeRef_eq {p : GCPtr} (h : p.isValue = false) (rt : JSRuntime) :
    freeRef freeZero p rt = rt.drop p fun rt =>
      (forEach (freeRef freeZero) (rt.mem.refs p) rt).bind (removeBlock p) := by
  cases p with
  | object | functionBytecode => cases h
  | shape n =>
    have hfree : (fun rt : JSRuntime =>
        (freeObjectPtr freeZero (rt.mem.shape n).proto rt).bind (removeBlock (.shape n))) =
        fun rt => (forEach (freeRef freeZero) (rt.mem.refs (.shape n)) rt).bind (removeBlock (.shape n)) := by
      funext rt
      rw [Memory.refs, ← freeObjectPtr_eq]
    exact congrArg (fun f => JSRuntime.drop (.shape n) f rt) hfree
  | varRef n =>
    have hfree : (fun rt : JSRuntime =>
        (freeDetached freeZero (rt.mem.varRef n) rt).bind (removeBlock (.varRef n))) =
        fun rt => (forEach (freeRef freeZero) (rt.mem.refs (.varRef n)) rt).bind (removeBlock (.varRef n)) := by
      funext rt
      rw [Memory.refs, freeDetached]
      split
      · rw [freeValue_eq]
      · rfl
    exact congrArg (fun f => JSRuntime.drop (.varRef n) f rt) hfree
  | context n =>
    have hfree : (fun rt : JSRuntime =>
        (forEach (jsFreeModuleDef freeZero) (rt.mem.context n).loadedModules rt).bind fun rt' =>
          (forEach (freeValue freeZero) (rt.mem.context n).values rt').bind fun rt' =>
            (jsFreeShapeNull freeZero (rt.mem.context n).arrayShape rt').bind (removeBlock (.context n))) =
        fun rt => (forEach (freeRef freeZero) (rt.mem.refs (.context n)) rt).bind
          (removeBlock (.context n)) := by
      funext rt
      rw [Memory.refs, jsMarkContext, forEach_append, forEach_append, freeValues_eq,
        ← jsFreeShapeNull_eq, forEach_flatMap jsFreeModuleDef_eq, Option.bind_assoc, Option.bind_assoc]
    exact congrArg (fun f => JSRuntime.drop (.context n) f rt) hfree

theorem freeRef_value {p : GCPtr} (h : p.isValue = true) (rt : JSRuntime) :
    freeRef freeZero p rt = rt.drop p (freeZero p) := by
  cases p with
  | object | functionBytecode => rfl
  | _ => cases h

/-- **To free an object or a function is to drop each of its references**, and to remove it. -/
theorem freeGcObject_eq {p : GCPtr} (h : p.isValue = true) (rt : JSRuntime) :
    freeGcObject p rt = (forEach (freeRef zeroRefCount) (rt.mem.refs p) rt).bind (removeObject p) := by
  cases p with
  | object n =>
    rw [Memory.refs, forEach_append, forEach_flatMap freeProperty_eq, Option.bind_assoc]
    show (forEach (freeProperty zeroRefCount) (rt.mem.object n).prop rt).bind _ = _
    congr 1
    funext rt'
    rw [forEach_cons, ← finalizer_eq, Option.bind_assoc]
    rfl
  | functionBytecode n =>
    rw [Memory.refs, forEach_append, freeValues_eq, ← freeRealm_eq, Option.bind_assoc]
    rfl
  | _ => cases h

end Freeing

/-! ## What a block that is not a value may refer to -/

/-- A block that is not a value refers to no context, and one that is neither a value nor a context refers
to values only. -/
def GCPtr.rank : GCPtr → ℕ
  | .object _ | .functionBytecode _ => 0
  | .shape _ | .varRef _ => 1
  | .context _ => 2

theorem GCPtr.rank_le (p : GCPtr) : p.rank ≤ 2 := by
  cases p with
  | object | functionBytecode => exact Nat.zero_le 2
  | shape | varRef => exact Nat.le_succ 1
  | context => exact Nat.le_refl 2

theorem rank_of_mem_values {vs : List JSValue} {q : GCPtr} (h : q ∈ vs.flatMap jsMarkValue) :
    q.rank = 0 := by
  obtain ⟨v, -, hv⟩ := List.mem_flatMap.mp h
  cases v with
  | object n | functionBytecode n =>
    rw [List.mem_singleton.mp hv]
    rfl
  | other => cases hv

theorem rank_lt_of_mem_refs {mem : Memory} {p q : GCPtr} (hp : p.isValue = false) (h : q ∈ mem.refs p) :
    q.rank < p.rank := by
  cases p with
  | object | functionBytecode => cases hp
  | shape n =>
    obtain ⟨m, -, rfl⟩ := List.mem_map.mp h
    exact Nat.zero_lt_one
  | varRef n =>
    rw [Memory.refs] at h
    split at h
    · have hvalue : q ∈ [(mem.varRef n).value].flatMap jsMarkValue := by rwa [List.flatMap_singleton]
      rw [rank_of_mem_values hvalue]
      exact Nat.zero_lt_one
    · cases h
  | context n =>
    show q.rank < 2
    rcases List.mem_append.mp h with h | h
    · rcases List.mem_append.mp h with h | h
      · obtain ⟨m, -, h⟩ := List.mem_flatMap.mp h
        rcases List.mem_append.mp h with h | h
        · obtain ⟨v, -, h⟩ := List.mem_flatMap.mp h
          obtain ⟨k, -, rfl⟩ := List.mem_map.mp h
          exact Nat.one_lt_two
        · rw [rank_of_mem_values h]
          exact Nat.two_pos
      · rw [rank_of_mem_values h]
        exact Nat.two_pos
    · obtain ⟨k, -, rfl⟩ := List.mem_map.mp h
      exact Nat.one_lt_two

/-! ## While there is a phase -/

/-- While there is a phase, `f` does what `g` does, and leaves the phase alone. -/
def InPhase (f g : JSRuntime → Option JSRuntime) : Prop :=
  ∀ rt, rt.gcPhase ≠ .none → f rt = g rt ∧ ∀ rt', g rt = some rt' → rt'.gcPhase = rt.gcPhase

section Phases

variable {f g f' g' : JSRuntime → Option JSRuntime}

theorem InPhase.bind (h : InPhase f g) (h' : InPhase f' g') :
    InPhase (fun rt => (f rt).bind f') (fun rt => (g rt).bind g') := by
  intro rt hphase
  obtain ⟨heq, hkeep⟩ := h rt hphase
  show (f rt).bind f' = (g rt).bind g' ∧ ∀ rt', (g rt).bind g' = some rt' → _
  rw [heq]
  cases hg : g rt with
  | none => exact ⟨rfl, fun rt' hrt' => by cases hrt'⟩
  | some rt₁ =>
    have hphase₁ := hkeep rt₁ hg
    obtain ⟨heq', hkeep'⟩ := h' rt₁ (hphase₁ ▸ hphase)
    exact ⟨heq', fun rt' hrt' => (hkeep' rt' hrt').trans hphase₁⟩

theorem InPhase.forEach {α : Type} {f g : α → JSRuntime → Option JSRuntime} {l : List α}
    (h : ∀ a ∈ l, InPhase (f a) (g a)) : InPhase (forEach f l) (forEach g l) := by
  induction l with
  | nil => exact fun rt _ => ⟨rfl, fun rt' hrt' => by cases hrt'; rfl⟩
  | cons a l ih =>
    have hrest := ih fun b hb => h b (List.mem_cons_of_mem a hb)
    exact (h a List.mem_cons_self).bind hrest

theorem InPhase.drop (h : InPhase f g) (p : GCPtr) : InPhase (JSRuntime.drop p f) (JSRuntime.drop p g) := by
  intro rt hphase
  unfold JSRuntime.drop JSRuntime.decRef
  cases rt.header p with
  | none => exact ⟨rfl, fun rt' hrt' => by cases hrt'⟩
  | some hd =>
    by_cases hzero : hd.refCount = 0
    · simp only [hzero, if_true]
      exact ⟨rfl, fun rt' hrt' => by cases hrt'⟩
    · simp only [hzero, if_false, Option.bind_eq_bind, Option.bind_some]
      split
      · exact h (rt.setHeader p _) hphase
      · exact ⟨rfl, fun rt' hrt' => by cases hrt'; rfl⟩

theorem inPhase_removeBlock (p : GCPtr) : InPhase (removeBlock p) (removeBlock p) := by
  refine fun rt _ => ⟨rfl, fun rt' hrt' => ?_⟩
  unfold removeBlock JSRuntime.jsFreeRt at hrt'
  split at hrt'
  · cases hrt'
    rfl
  · cases hrt'

theorem inPhase_freeZeroValue (p : GCPtr) : InPhase (freeZeroValue p) (zeroRefCount p) := by
  intro rt hphase
  have hkeep : ∀ rt', zeroRefCount p rt = some rt' → rt'.gcPhase = rt.gcPhase := by
    intro rt' hrt'
    unfold zeroRefCount at hrt'
    split at hrt' <;> cases hrt' <;> rfl
  refine ⟨?_, hkeep⟩
  show (zeroRefCount p rt).bind (fun rt' => if rt.gcPhase = .none then freeZeroRefcount rt' else some rt') = _
  simp only [if_neg hphase]
  exact Option.bind_fun_some _

/-- **While there is a phase, a reference is dropped without a loop of its own**, whatever it is to. -/
theorem inPhase_freeRef (p : GCPtr) : InPhase (freeRef freeZeroValue p) (freeRef zeroRefCount p) := by
  induction hn : p.rank using Nat.strongRecOn generalizing p with
  | ind n ih =>
    cases hvalue : p.isValue with
    | true =>
      intro rt hphase
      rw [freeRef_value hvalue, freeRef_value hvalue]
      exact (inPhase_freeZeroValue p).drop p rt hphase
    | false =>
      intro rt hphase
      rw [freeRef_eq hvalue, freeRef_eq hvalue]
      apply InPhase.drop _ p rt hphase
      intro rt₁ hphase₁
      have hrefs : InPhase (Gc.forEach (freeRef freeZeroValue) (rt₁.mem.refs p))
          (Gc.forEach (freeRef zeroRefCount) (rt₁.mem.refs p)) :=
        .forEach fun q hq => ih q.rank (hn ▸ rank_lt_of_mem_refs hvalue hq) q rfl
      exact hrefs.bind (inPhase_removeBlock p) rt₁ hphase₁

end Phases

end JSChip.Gc
