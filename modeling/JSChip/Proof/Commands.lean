import JSChip.Proof.Ports

/-!
# Do the commands of the object Entity do what they are called?

* `Command.Faithful`: apart from lookups and constructors, one method of the entity or of its
  physics object is called, the one the name stands for, with the arguments of the script.
* `fidelity_iff`: **a command is faithful unless it is `ToLocal`, or `ApplyForceOffset`** with a
  force other than the offset.
* `toLocal_unfaithful`: `ToLocal` calls `LocalToWorld`.
-/

namespace JSChip.Native

open Machine

variable {R : Type} {e : Env R} {argv : List (JSValue R)} {listeners : ListenerTable (JSValue R)}

/-! ## The commands -/

/-- The commands of the object Entity, by their names. -/
inductive Command
  | setPos | setAngles | setColor | applyForce | applyForceOffset | toWorld | toLocal | use
deriving DecidableEq, Repr

namespace Command

/-- The name in the script. -/
def scriptName : Command → String
  | setPos => "SetPos"
  | setAngles => "SetAngles"
  | setColor => "SetColor"
  | applyForce => "ApplyForce"
  | applyForceOffset => "ApplyForceOffset"
  | toWorld => "ToWorld"
  | toLocal => "ToLocal"
  | use => "Use"

/-- The method of the engine. -/
def method : Command → String
  | setPos => "SetPos"
  | setAngles => "SetAngles"
  | setColor => "SetColor"
  | applyForce => "ApplyForceCenter"
  | applyForceOffset => "ApplyForceOffset"
  | toWorld => "LocalToWorld"
  | toLocal => "WorldToLocal"
  | use => "Use"

/-- Commands of the physics object. -/
def physical : Command → Bool
  | applyForce | applyForceOffset => true
  | _ => false

def arity : Command → ℕ
  | use => 1
  | applyForceOffset => 3
  | _ => 2

end Command

/-- The numbers of three properties, the first being the one fetched at `k`. -/
def componentsAt (e : Env R) (k : ℕ) (v : JSValue R) (names : String × String × String) :
    R × R × R :=
  ((e.property k v names.1).toFloat e 0, (e.property (k + 1) v names.2.1).toFloat e 0,
    (e.property (k + 2) v names.2.2).toFloat e 0)

def numbersOf (c : R × R × R) : List (LuaValue R) := [.number c.1, .number c.2.1, .number c.2.2]

def vectorOf (c : R × R × R) : LuaValue R := .vector c.1 c.2.1 c.2.2

def angleOf (c : R × R × R) : LuaValue R := .angle c.1 c.2.1 c.2.2

/-- The argument `i` has the three numbers, the first being fetched at `k`. -/
def HasNumbers (e : Env R) (argv : List (JSValue R)) (i k : ℕ) (names : String × String × String) :
    Prop :=
  (argument e argv i).isObject ∧ numbers e k (argument e argv i) names

namespace Command

/-- The arguments after the entity are of the types the command takes. -/
def ArgsFit (c : Command) (e : Env R) (argv : List (JSValue R)) : Prop :=
  match c with
  | setPos | applyForce | toWorld | toLocal => HasNumbers e argv 1 0 xyz
  | setAngles => HasNumbers e argv 1 0 pitchYawRoll
  | setColor => HasNumbers e argv 1 0 ("r", "g", "b") ∧
      (e.property 3 (argument e argv 1) "a").isNumber
  | applyForceOffset => HasNumbers e argv 1 0 xyz ∧ HasNumbers e argv 2 3 xyz
  | use => (e.luaCall 3).toBool

/-- **Arguments are well formed**: a number that names a valid entity, with a valid physics object
where one is needed, and the rest of the right types; for `Use`, the owner is valid. -/
structure WellFormed (c : Command) (e : Env R) (argv : List (JSValue R)) : Prop where
  arity : c.arity ≤ argv.length
  number : (argument e argv 0).isNumber
  valid : (e.luaCall 1).toBool
  physics : c.physical → (e.luaCall 3).toBool
  args : c.ArgsFit e argv

end Command

/-! ## What a command should do -/

/-- Calls that look up or construct. -/
def isLookup (c : LuaCall R) : Bool :=
  match c.fn with
  | .member _ name =>
    ["Entity", "IsValid", "GetPhysicsObject", "Vector", "Angle", "Color"].contains name
  | _ => false

def engineCalls (calls : List (LuaCall R)) : List (LuaCall R) := calls.filter (!isLookup ·)

/-- The engine's `Vector` and `Angle` pass their numbers on. -/
def Constructs (e : Env R) (calls : List (LuaCall R)) : Prop :=
  ∀ k xs, (calls[k]? = some ⟨.member .globals "Vector", numbersOf xs⟩ → e.luaCall k = vectorOf xs) ∧
    (calls[k]? = some ⟨.member .globals "Angle", numbersOf xs⟩ → e.luaCall k = angleOf xs)

/-- The value `w` is what the method of `v` returned. -/
def Answered (e : Env R) (calls : List (LuaCall R)) (v : LuaValue R) (method : String)
    (w : LuaValue R) : Prop :=
  ∃ k, calls[k]? = some ⟨.member v method, [v]⟩ ∧ w = e.luaCall k

namespace Command

/-- The entity, or its physics object. -/
def Receives (c : Command) (e : Env R) (argv : List (JSValue R)) (calls : List (LuaCall R))
    (receiver : LuaValue R) : Prop :=
  ∃ entity, Returned e calls "Entity" [.number ((argument e argv 0).toFloat e 0)] entity ∧
    if c.physical then Answered e calls entity "GetPhysicsObject" receiver else receiver = entity

/-- The parameters are the arguments of the script, in order. -/
def Passes (c : Command) (e : Env R) (argv : List (JSValue R)) (calls : List (LuaCall R))
    (params : List (LuaValue R)) : Prop :=
  match c with
  | setPos | applyForce | toWorld | toLocal =>
    params = [vectorOf (componentsAt e 0 (argument e argv 1) xyz)]
  | setAngles => params = [angleOf (componentsAt e 0 (argument e argv 1) pitchYawRoll)]
  | setColor => ∃ w, params = [w] ∧ Returned e calls "Color"
      (numbersOf (componentsAt e 0 (argument e argv 1) ("r", "g", "b")) ++
        [.number ((e.property 3 (argument e argv 1) "a").toFloat e 0)]) w
  | applyForceOffset =>
    params = [vectorOf (componentsAt e 0 (argument e argv 1) xyz),
      vectorOf (componentsAt e 3 (argument e argv 2) xyz)]
  | use => ∃ w valid, params = [w] ∧ Returned e calls "Entity" [.number e.ownerIndex] w ∧
      Answered e calls w "IsValid" valid ∧ valid.toBool

/-- **The command is faithful**: exactly one method is called, the right one of the right object with
the right parameters. -/
def Faithful (c : Command) (e : Env R) (argv : List (JSValue R)) (calls : List (LuaCall R)) : Prop :=
  ∃ receiver params, engineCalls calls = [⟨.member receiver c.method, receiver :: params⟩] ∧
    c.Receives e argv calls receiver ∧ c.Passes e argv calls params

end Command

/-! ## What the functions call -/

/-- The calls that look a valid entity up. -/
def entityCalls (e : Env R) (argv : List (JSValue R)) : List (LuaCall R) :=
  [⟨.member .globals "Entity", [.number ((argument e argv 0).toFloat e 0)]⟩,
    ⟨.member (e.luaCall 0) "IsValid", [e.luaCall 0]⟩]

/-- The calls that look its physics object up. -/
def physicsCalls (e : Env R) (argv : List (JSValue R)) : List (LuaCall R) :=
  entityCalls e argv ++ [⟨.member (e.luaCall 0) "GetPhysicsObject", [e.luaCall 0]⟩,
    ⟨.member (e.luaCall 2) "IsValid", [e.luaCall 2]⟩]

/-- The first argument names a valid entity. -/
structure NamesEntity (e : Env R) (argv : List (JSValue R)) : Prop where
  number : (argument e argv 0).isNumber
  valid : (e.luaCall 1).toBool

theorem entitySetter_calls (listeners : ListenerTable (JSValue R)) (names : String × String × String)
    (expected invalidTriple constructor method : String) (h0 : NamesEntity e argv)
    (hlen : 2 ≤ argv.length) (h1 : HasNumbers e argv 1 0 names) :
    wp (entitySetter names expected invalidTriple constructor method argv) e
      (fun _ s => s.luaCalls = entityCalls e argv ++
        [⟨.member .globals constructor, numbersOf (componentsAt e 0 (argument e argv 1) names)⟩,
          ⟨.member (e.luaCall 0) method, [e.luaCall 0, e.luaCall 2]⟩])
      (fun _ => False) (State.entry listeners []) := by
  have hlen' : ¬ argv.length < 2 := by omega
  have hn := numbers_eq_true.1 h1.2
  simp [entitySetter, construct, State.entry, State.slot, hlen', h0.number, h1.1, hn, h0.valid,
    entityCalls, numbersOf, componentsAt]

theorem entitySetColor_calls [Double R] (listeners : ListenerTable (JSValue R))
    (h0 : NamesEntity e argv) (hlen : 2 ≤ argv.length) (h1 : HasNumbers e argv 1 0 ("r", "g", "b"))
    (ha : (e.property 3 (argument e argv 1) "a").isNumber) :
    wp (entitySetColor argv) e
      (fun _ s => s.luaCalls = entityCalls e argv ++
        [⟨.member .globals "Color",
            numbersOf (componentsAt e 0 (argument e argv 1) ("r", "g", "b")) ++
              [.number ((e.property 3 (argument e argv 1) "a").toFloat e 0)]⟩,
          ⟨.member (e.luaCall 0) "SetColor", [e.luaCall 0, e.luaCall 2]⟩])
      (fun _ => False) (State.entry listeners []) := by
  have hlen' : ¬ argv.length < 2 := by omega
  have hn := numbers_eq_true.1 h1.2
  simp [entitySetColor, construct, State.entry, State.slot, hlen', h0.number, h1.1, hn, ha, h0.valid,
    entityCalls, numbersOf, componentsAt]

theorem entityLocalToWorld_calls [Double R] (listeners : ListenerTable (JSValue R))
    (h0 : NamesEntity e argv) (hlen : 2 ≤ argv.length) (h1 : HasNumbers e argv 1 0 xyz) :
    wp (entityLocalToWorld argv) e
      (fun _ s => s.luaCalls = entityCalls e argv ++
        [⟨.member .globals "Vector", numbersOf (componentsAt e 0 (argument e argv 1) xyz)⟩,
          ⟨.member (e.luaCall 0) "LocalToWorld", [e.luaCall 0, e.luaCall 2]⟩])
      (fun _ => False) (State.entry listeners []) := by
  have hlen' : ¬ argv.length < 2 := by omega
  have hn := numbers_eq_true.1 h1.2
  simp [entityLocalToWorld, answerVector, construct, State.entry, State.slot, hlen', h0.number, hn,
    h0.valid, entityCalls, numbersOf, componentsAt]

theorem entityUse_calls (listeners : ListenerTable (JSValue R))
    (h0 : NamesEntity e argv) (hlen : 1 ≤ argv.length) (howner : (e.luaCall 3).toBool) :
    wp (entityUse argv) e
      (fun _ s => s.luaCalls = entityCalls e argv ++
        [⟨.member .globals "Entity", [.number e.ownerIndex]⟩,
          ⟨.member (e.luaCall 2) "IsValid", [e.luaCall 2]⟩,
          ⟨.member (e.luaCall 0) "Use", [e.luaCall 0, e.luaCall 2]⟩])
      (fun _ => False) (State.entry listeners []) := by
  have hlen' : ¬ argv.length < 1 := by omega
  simp [entityUse, construct, State.entry, State.slot, hlen', h0.number, h0.valid, howner,
    entityCalls]

/-- The physics object is on the stack when it is used. -/
theorem wp_withPhysics {s : State R} {body : NativeM R (JSValue R)} {Q : JSValue R → State R → Prop}
    {E : Fault → Prop} {x : R} (hvalid : (e.luaCall 1).toBool) (hphysics : (e.luaCall 3).toBool)
    (hs : s.luaCalls = []) :
    wp (withPhysics x body) e Q E s ↔ wp body e Q E { s with
      stack := e.luaCall 3 :: e.luaCall 2 :: e.luaCall 1 :: e.luaCall 0 :: .globals :: s.stack
      luaCalls := [⟨.member .globals "Entity", [.number x]⟩,
        ⟨.member (e.luaCall 0) "IsValid", [e.luaCall 0]⟩,
        ⟨.member (e.luaCall 0) "GetPhysicsObject", [e.luaCall 0]⟩,
        ⟨.member (e.luaCall 2) "IsValid", [e.luaCall 2]⟩] } := by
  simp [withPhysics, State.slot, hs, hvalid, hphysics]

theorem entityApplyforceCenter_calls (listeners : ListenerTable (JSValue R))
    (h0 : NamesEntity e argv) (hphysics : (e.luaCall 3).toBool)
    (hlen : 2 ≤ argv.length) (h1 : HasNumbers e argv 1 0 xyz) :
    wp (entityApplyforceCenter argv) e
      (fun _ s => s.luaCalls = physicsCalls e argv ++
        [⟨.member .globals "Vector", numbersOf (componentsAt e 0 (argument e argv 1) xyz)⟩,
          ⟨.member (e.luaCall 2) "ApplyForceCenter", [e.luaCall 2, e.luaCall 4]⟩])
      (fun _ => False) (State.entry listeners []) := by
  have hlen' : ¬ argv.length < 2 := by omega
  have hn := numbers_eq_true.1 h1.2
  simp [entityApplyforceCenter, State.entry, hlen', h0.number, h1.1, hn]
  rw [wp_withPhysics h0.valid hphysics rfl]
  simp [construct, State.slot, physicsCalls, entityCalls, numbersOf, componentsAt]

theorem entityApplyforceOffset_calls (listeners : ListenerTable (JSValue R))
    (h0 : NamesEntity e argv) (hphysics : (e.luaCall 3).toBool)
    (hlen : 3 ≤ argv.length) (h1 : HasNumbers e argv 1 0 xyz) (h2 : HasNumbers e argv 2 3 xyz) :
    wp (entityApplyforceOffset argv) e
      (fun _ s => s.luaCalls = physicsCalls e argv ++
        [⟨.member .globals "Vector", numbersOf (componentsAt e 3 (argument e argv 2) xyz)⟩,
          ⟨.member .globals "Vector", numbersOf (e.uninit 0, e.uninit 1, e.uninit 2)⟩,
          ⟨.member (e.luaCall 2) "ApplyForceOffset", [e.luaCall 2, e.luaCall 4, e.luaCall 5]⟩])
      (fun _ => False) (State.entry listeners []) := by
  have hlen' : ¬ argv.length < 3 := by omega
  have hn := numbers_eq_true.1 h1.2
  have hn2 := numbers_eq_true.1 h2.2
  simp [entityApplyforceOffset, State.entry, hlen', h0.number, h1.1, h2.1, hn, hn2]
  rw [wp_withPhysics h0.valid hphysics rfl]
  simp [construct, State.slot, physicsCalls, entityCalls, numbersOf, componentsAt]

/-! ## Which commands are faithful -/

/-- The force and the offset are the same vector, which is also what the variables hold that are
never set. -/
def Coincide (e : Env R) (argv : List (JSValue R)) : Prop :=
  componentsAt e 0 (argument e argv 1) xyz = componentsAt e 3 (argument e argv 2) xyz ∧
    (e.uninit 0, e.uninit 1, e.uninit 2) = componentsAt e 3 (argument e argv 2) xyz

theorem vectorOf_inj {c d : R × R × R} : vectorOf c = vectorOf d ↔ c = d := by
  obtain ⟨x, y, z⟩ := c
  obtain ⟨x', y', z'⟩ := d
  simp [vectorOf]

/-- What holds of the calls of a run holds when they are known. -/
theorem wp_of_calls {m : NativeM R (JSValue R)} {s : State R} {calls : List (LuaCall R)}
    {P : List (LuaCall R) → Prop}
    (h : wp m e (fun _ t => t.luaCalls = calls) (fun _ => False) s) :
    wp m e (fun _ t => P t.luaCalls) (fun _ => False) s ↔ P calls :=
  wp_iff_of h fun _ t ht => by rw [ht]

variable {c : Command} {calls : List (LuaCall R)}

/-- The one method that is called decides. -/
theorem faithful_iff (receiver : LuaValue R) (method : String) (params : List (LuaValue R))
    (h : engineCalls calls = [⟨.member receiver method, receiver :: params⟩]) :
    c.Faithful e argv calls ↔ method = c.method ∧ c.Receives e argv calls receiver ∧
      c.Passes e argv calls params := by
  constructor
  · rintro ⟨r, ps, heq, hreceives, hpasses⟩
    rw [h] at heq
    simp only [List.cons.injEq, LuaCall.mk.injEq, LuaValue.member.injEq, and_true] at heq
    obtain ⟨⟨rfl, rfl⟩, -, rfl⟩ := heq
    exact ⟨rfl, hreceives, hpasses⟩
  · rintro ⟨rfl, hreceives, hpasses⟩
    exact ⟨receiver, params, h, hreceives, hpasses⟩

theorem receives_entity (hc : c.physical = false) :
    c.Receives e argv (entityCalls e argv ++ calls) (e.luaCall 0) := by
  refine ⟨e.luaCall 0, ⟨0, rfl, rfl⟩, ?_⟩
  rw [hc]
  exact rfl

theorem receives_physics (hc : c.physical = true) :
    c.Receives e argv (physicsCalls e argv ++ calls) (e.luaCall 2) := by
  refine ⟨e.luaCall 0, ⟨0, rfl, rfl⟩, ?_⟩
  rw [hc]
  exact ⟨2, rfl, rfl⟩

theorem engineCalls_append (cs ds : List (LuaCall R)) :
    engineCalls (cs ++ ds) = engineCalls cs ++ engineCalls ds := List.filter_append ..

theorem engineCalls_entityCalls : engineCalls (entityCalls e argv) = [] := by
  simp [engineCalls, entityCalls, isLookup]

theorem engineCalls_physicsCalls : engineCalls (physicsCalls e argv) = [] := by
  simp [engineCalls, physicsCalls, entityCalls, isLookup]

/-- A command of the entity, after the lookups in `made`. -/
theorem faithful_entity (made : List (LuaCall R)) {method : String} {params : List (LuaValue R)}
    (hc : c.physical = false) (hmade : engineCalls made = [])
    (hmethod : isLookup (R := R) ⟨.member (e.luaCall 0) method, e.luaCall 0 :: params⟩ = false)
    (hcalls : calls = entityCalls e argv ++
      (made ++ [⟨.member (e.luaCall 0) method, e.luaCall 0 :: params⟩])) :
    c.Faithful e argv calls ↔ method = c.method ∧ c.Passes e argv calls params := by
  subst hcalls
  rw [faithful_iff (e.luaCall 0) method params]
  · simp [receives_entity hc]
  · rw [engineCalls_append, engineCalls_append, engineCalls_entityCalls, hmade]
    simp [engineCalls, hmethod]

/-- A command of the physics object. -/
theorem faithful_physics (made : List (LuaCall R)) {method : String} {params : List (LuaValue R)}
    (hc : c.physical = true) (hmade : engineCalls made = [])
    (hmethod : isLookup (R := R) ⟨.member (e.luaCall 2) method, e.luaCall 2 :: params⟩ = false)
    (hcalls : calls = physicsCalls e argv ++
      (made ++ [⟨.member (e.luaCall 2) method, e.luaCall 2 :: params⟩])) :
    c.Faithful e argv calls ↔ method = c.method ∧ c.Passes e argv calls params := by
  subst hcalls
  rw [faithful_iff (e.luaCall 2) method params]
  · simp [receives_physics hc]
  · rw [engineCalls_append, engineCalls_append, engineCalls_physicsCalls, hmade]
    simp [engineCalls, hmethod]

/-- `ToLocal` is bound to the function of `ToWorld`. -/
theorem not_faithful_toLocal [Double R] (h : Command.toLocal.WellFormed e argv) :
    ¬ wp (entityLocalToWorld argv) e (fun _ s => Command.toLocal.Faithful e argv s.luaCalls)
      (fun _ => False) (State.entry listeners []) := by
  have hcalls := entityLocalToWorld_calls listeners ⟨h.number, h.valid⟩ h.arity h.args
  rw [wp_of_calls hcalls]
  intro hfaithful
  have hmethod := ((faithful_entity [_] rfl (by simp [engineCalls, isLookup])
    (by simp [isLookup]) rfl).1 hfaithful).1
  simp [Command.method] at hmethod

/-- **Which commands are faithful.** -/
theorem fidelity_iff [Double R] (c : Command) (f : NativeFunction)
    (hf : ("Entity", c.scriptName, f) ∈ bindings) (e : Env R) (argv : List (JSValue R))
    (listeners : ListenerTable (JSValue R)) (h : c.WellFormed e argv)
    (hconstructs : wp (f.run argv) e (fun _ s => Constructs e s.luaCalls) (fun _ => False)
      (State.entry listeners [])) :
    wp (f.run argv) e (fun _ s => c.Faithful e argv s.luaCalls) (fun _ => False)
        (State.entry listeners []) ↔
      c ≠ .toLocal ∧ (c = .applyForceOffset → Coincide e argv) := by
  have h0 : NamesEntity e argv := ⟨h.number, h.valid⟩
  have harity := h.arity
  have hargs := h.args
  cases c with
  | setPos =>
    obtain rfl : f = .entitySetPosition := by simpa [bindings, Command.scriptName] using hf
    have hcalls := entitySetter_calls listeners xyz "Expected (entity, vector)"
      "Second argument is not a valid vector" "Vector" "SetPos" h0 harity hargs
    have hvector := ((wp_of_calls (P := Constructs e) hcalls).1 hconstructs 2 _).1 rfl
    refine (wp_of_calls hcalls).trans ((faithful_entity [_] rfl ?_ ?_ rfl).trans ?_)
    · simp [engineCalls, isLookup]
    · simp [isLookup]
    · simp [Command.method, Command.Passes, hvector]
  | setAngles =>
    obtain rfl : f = .entitySetAngles := by simpa [bindings, Command.scriptName] using hf
    have hcalls := entitySetter_calls listeners pitchYawRoll "Expected (entity, angle)"
      "Second argument is not a valid angle" "Angle" "SetAngles" h0 harity hargs
    have hangle := ((wp_of_calls (P := Constructs e) hcalls).1 hconstructs 2 _).2 rfl
    refine (wp_of_calls hcalls).trans ((faithful_entity [_] rfl ?_ ?_ rfl).trans ?_)
    · simp [engineCalls, isLookup]
    · simp [isLookup]
    · simp [Command.method, Command.Passes, hangle]
  | setColor =>
    obtain rfl : f = .entitySetColor := by simpa [bindings, Command.scriptName] using hf
    have hcalls := entitySetColor_calls listeners h0 harity hargs.1 hargs.2
    refine (wp_of_calls hcalls).trans ((faithful_entity [_] rfl ?_ ?_ rfl).trans ?_)
    · simp [engineCalls, isLookup]
    · simp [isLookup]
    · simp only [Command.method, true_and]
      refine iff_of_true ⟨_, rfl, 2, rfl, rfl⟩ (by simp)
  | applyForce =>
    obtain rfl : f = .entityApplyforceCenter := by simpa [bindings, Command.scriptName] using hf
    have hcalls := entityApplyforceCenter_calls listeners h0 (h.physics rfl) harity hargs
    have hvector := ((wp_of_calls (P := Constructs e) hcalls).1 hconstructs 4 _).1 rfl
    refine (wp_of_calls hcalls).trans ((faithful_physics [_] rfl ?_ ?_ rfl).trans ?_)
    · simp [engineCalls, isLookup]
    · simp [isLookup]
    · simp [Command.method, Command.Passes, hvector]
  | applyForceOffset =>
    obtain rfl : f = .entityApplyforceOffset := by simpa [bindings, Command.scriptName] using hf
    have hcalls := entityApplyforceOffset_calls listeners h0 (h.physics rfl) harity
      hargs.1 hargs.2
    have hconstructs := (wp_of_calls (P := Constructs e) hcalls).1 hconstructs
    have hforce := (hconstructs 4 _).1 rfl
    have hoffset := (hconstructs 5 _).1 rfl
    refine (wp_of_calls hcalls).trans ((faithful_physics [_, _] rfl ?_ ?_ rfl).trans ?_)
    · simp [engineCalls, isLookup]
    · simp [isLookup]
    · simp only [Command.method, Command.Passes, hforce, hoffset]
      simp [vectorOf_inj, Coincide, eq_comm]
  | toWorld =>
    obtain rfl : f = .entityLocalToWorld := by simpa [bindings, Command.scriptName] using hf
    have hcalls := entityLocalToWorld_calls listeners h0 harity hargs
    have hvector := ((wp_of_calls (P := Constructs e) hcalls).1 hconstructs 2 _).1 rfl
    refine (wp_of_calls hcalls).trans ((faithful_entity [_] rfl ?_ ?_ rfl).trans ?_)
    · simp [engineCalls, isLookup]
    · simp [isLookup]
    · simp [Command.method, Command.Passes, hvector]
  | toLocal =>
    obtain rfl : f = .entityLocalToWorld := by simpa [bindings, Command.scriptName] using hf
    exact iff_of_false (not_faithful_toLocal h) (by simp)
  | use =>
    obtain rfl : f = .entityUse := by simpa [bindings, Command.scriptName] using hf
    have hcalls := entityUse_calls listeners h0 harity hargs
    refine (wp_of_calls hcalls).trans ((faithful_entity [_, _] rfl ?_ ?_ rfl).trans ?_)
    · simp [engineCalls, isLookup]
    · simp [isLookup]
    · simp only [Command.method, true_and]
      refine iff_of_true ⟨_, _, rfl, ⟨2, rfl, rfl⟩, ⟨3, rfl, rfl⟩, hargs⟩ (by simp)

theorem setPos_constructs [Double R] (h : Command.setPos.WellFormed e argv)
    (hconstructs : Constructs e (entityCalls e argv ++ [⟨.member .globals "Vector",
        numbersOf (componentsAt e 0 (argument e argv 1) xyz)⟩,
      ⟨.member (e.luaCall 0) "SetPos", [e.luaCall 0, e.luaCall 2]⟩])) :
    wp (NativeFunction.run .entitySetPosition argv) e (fun _ s => Constructs e s.luaCalls)
      (fun _ => False) (State.entry listeners []) :=
  (wp_of_calls (entitySetter_calls _ xyz _ _ _ _ ⟨h.number, h.valid⟩ h.arity h.args)).2 hconstructs

theorem toLocal_constructs [Double R] (h : Command.toLocal.WellFormed e argv)
    (hconstructs : Constructs e (entityCalls e argv ++ [⟨.member .globals "Vector",
        numbersOf (componentsAt e 0 (argument e argv 1) xyz)⟩,
      ⟨.member (e.luaCall 0) "LocalToWorld", [e.luaCall 0, e.luaCall 2]⟩])) :
    wp (entityLocalToWorld argv) e (fun _ s => Constructs e s.luaCalls) (fun _ => False)
      (State.entry listeners []) :=
  (wp_of_calls (entityLocalToWorld_calls _ ⟨h.number, h.valid⟩ h.arity h.args)).2 hconstructs

/-- The entity 5 is valid, and every object is the vector 1, 2, 3. -/
def entityFive : Env ℤ :=
  { Env.silent with
    property := fun _ _ name => .number (if name = "x" then 1 else if name = "y" then 2 else 3)
    luaCall := fun k => if k = 0 then .entity 5 else if k = 1 then .bool true else .vector 1 2 3 }

/-- The arguments 5 and an object. -/
def fiveAndVector : List (JSValue ℤ) := [.number 5, .object 0 false]

theorem setPos_fits : Command.setPos.WellFormed entityFive fiveAndVector :=
  ⟨by decide, rfl, rfl, nofun, rfl, rfl⟩

theorem toLocal_fits : Command.toLocal.WellFormed entityFive fiveAndVector :=
  ⟨by decide, rfl, rfl, nofun, rfl, rfl⟩

theorem setPos_bound : ("Entity", Command.setPos.scriptName, .entitySetPosition) ∈ bindings := by
  simp [bindings, Command.scriptName]

theorem toLocal_bound : ("Entity", Command.toLocal.scriptName, .entityLocalToWorld) ∈ bindings := by
  simp [bindings, Command.scriptName]

theorem entityFive_constructs {method : String} : Constructs entityFive
    (entityCalls entityFive fiveAndVector ++ [⟨.member .globals "Vector",
        numbersOf (componentsAt entityFive 0 (argument entityFive fiveAndVector 1) xyz)⟩,
      ⟨.member (entityFive.luaCall 0) method, [entityFive.luaCall 0, entityFive.luaCall 2]⟩]) := by
  intro k xs
  rcases k with - | - | - | - | k
  · simp [entityCalls]
  · simp [entityCalls, entityFive]
  · refine ⟨fun h => ?_, by simp [entityCalls]⟩
    have hxs : (1, 2, 3) = xs := by
      simpa [entityCalls, numbersOf, componentsAt, entityFive, xyz, JSValue.toFloat,
        Prod.ext_iff] using h
    rw [← hxs]
    rfl
  · simp [entityCalls, entityFive]
  · simp [entityCalls]

attribute [irreducible] entityFive

theorem setPos_faithful :
    wp (NativeFunction.run .entitySetPosition fiveAndVector) entityFive
      (fun _ s => Command.setPos.Faithful entityFive fiveAndVector s.luaCalls) (fun _ => False)
      (State.entry ListenerTable.empty []) :=
  (@fidelity_iff ℤ _ .setPos .entitySetPosition setPos_bound entityFive fiveAndVector
    ListenerTable.empty setPos_fits
    (@setPos_constructs ℤ entityFive fiveAndVector ListenerTable.empty _ setPos_fits
      entityFive_constructs)).2 ⟨nofun, nofun⟩

/-- **`ToLocal` calls `LocalToWorld`.** -/
theorem toLocal_unfaithful :
    ("Entity", Command.toLocal.scriptName, .entityLocalToWorld) ∈ bindings ∧
      Command.toLocal.WellFormed entityFive fiveAndVector ∧
      wp (entityLocalToWorld fiveAndVector) entityFive (fun _ s => Constructs entityFive s.luaCalls)
        (fun _ => False) (State.entry ListenerTable.empty []) ∧
      ¬ wp (entityLocalToWorld fiveAndVector) entityFive
        (fun _ s => Command.toLocal.Faithful entityFive fiveAndVector s.luaCalls) (fun _ => False)
        (State.entry ListenerTable.empty []) :=
  ⟨toLocal_bound, toLocal_fits,
    @toLocal_constructs ℤ entityFive fiveAndVector ListenerTable.empty _ toLocal_fits
      entityFive_constructs,
    @not_faithful_toLocal ℤ entityFive fiveAndVector ListenerTable.empty _ toLocal_fits⟩

end JSChip.Native
