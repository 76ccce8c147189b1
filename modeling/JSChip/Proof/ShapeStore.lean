import JSChip.Proof.ShapeShare

/-!
# The functions on an object's properties

* `Sole`: an object that is the only one with its shape.
* `jsShapePrepareUpdate_ok`: the object has a shape that it may change.
* `addProperty_ok`, `deleteProperty_ok`, `findOwnProperty_ok` and the like: what each does to the object as
  its properties say, and that the others stay as they are.
-/

namespace JSChip.Shapes

variable {V : Type}

/-- An object that is the only one with its shape, which may be out of the table. -/
structure Sole (out : Option ℕ) (rt : JSRuntime V) (o : ℕ) (p : JSObject V) (sh : JSShape) : Prop where
  inv : Inv none out rt
  object : rt.objects o = some p
  shape : rt.shapes p.shape = some sh
  count : sh.refCount = 1

section Steps

variable {rt : JSRuntime V} {hand out : Option ℕ} {n m o : ℕ} {sh : JSShape} {p p' : JSObject V}

theorem Elsewhere.trans {rt₁ rt₂ : JSRuntime V} (h : Elsewhere o rt rt₁) (h' : Elsewhere o rt₁ rt₂) :
    Elsewhere o rt rt₂ := fun o' ho' => (h' o' ho').trans (h o' ho')

theorem Elsewhere.of_abs {rt₁ : JSRuntime V} (h : rt₁.abs = rt.abs) : Elsewhere o rt rt₁ :=
  fun o' _ => congrFun h o'

theorem Inv.length_prop (h : Inv hand out rt) (hp : rt.objects o = some p) (hsh : rt.shapes p.shape = some sh) :
    p.prop.length = sh.propSize := by
  obtain ⟨sh', hsh', hlength⟩ := h.objects o p hp
  rw [hsh] at hsh'
  exact Option.some.inj hsh' ▸ hlength

/-- The shape is changed in its place. -/
theorem JSRuntime.setShape_eq_replaced (hp : rt.objects o = some p) (sh' : JSShape) :
    rt.setShape p.shape (some sh') = rt.replaced o p.shape p sh' rt.nextShape := by
  have hobjects : Function.update rt.objects o (some p) = rt.objects := Function.update_eq_self_iff.mpr hp.symm
  unfold JSRuntime.setShape JSRuntime.replaced
  rw [Function.update_idem, hobjects]

theorem Sole.setShape (h : Sole (outOf p.shape sh) rt o p sh) {sh' : JSShape} (hwf : sh'.WF)
    (hcount : sh'.refCount = 1) (hsize : sh'.propSize = sh.propSize) :
    Sole (outOf p.shape sh') (rt.setShape p.shape (some sh')) o p sh' ∧
      Elsewhere o rt (rt.setShape p.shape (some sh')) := by
  obtain ⟨hinv, helse⟩ := h.inv.replaced h.object h.shape h.count p rt.nextShape hwf hcount
    ((h.inv.length_prop h.object h.shape).trans hsize.symm) (.inl rfl) (h.inv.fresh _ sh h.shape)
    (Nat.le_refl _)
  rw [← JSRuntime.setShape_eq_replaced h.object] at hinv helse
  refine ⟨⟨hinv, h.object, ?_, hcount⟩, helse⟩
  rw [rt.shapes_setShape, if_pos rfl]

theorem unlinkHashed_sole (h : Sole none rt o p sh) :
    ∃ rt', unlinkHashed p.shape sh rt = some rt' ∧ Sole (outOf p.shape sh) rt' o p sh ∧ rt'.abs = rt.abs := by
  obtain ⟨rt', hrt', hinv, hsame⟩ := unlinkHashed_ok h.inv h.shape
  exact ⟨rt', hrt', ⟨hinv, hsame.objects ▸ h.object, hsame.shapes ▸ h.shape, h.count⟩, hsame.abs⟩

/-! ## Room -/

theorem length_reallocProp [Inhabited V] (values : List V) (size : ℕ) :
    (reallocProp values size).length = size := by
  unfold reallocProp
  rw [List.length_take, List.length_append, List.length_replicate]
  omega

/-- The values of the properties are kept. -/
theorem entries_reallocProp [Inhabited V] {prop : List JSShapeProperty} {values : List V} {size : ℕ}
    (hsize : prop.length ≤ size) (hvalues : prop.length ≤ values.length) :
    entries prop (reallocProp values size) = entries prop values := by
  unfold reallocProp
  rw [entries_take hsize, entries_append_right hvalues]

/-- `resize_properties` -/
theorem resizeProperties_ok [Inhabited V] (h : Sole (outOf p.shape sh) rt o p sh) {count : ℕ}
    (hcount : sh.prop.length ≤ count) :
    ∃ rt' p' sh', resizeProperties o count rt = some rt' ∧ Sole (outOf p'.shape sh') rt' o p' sh' ∧
      Elsewhere o rt rt' ∧ SameShape sh sh' ∧
      sh'.prop.map JSShapeProperty.name = sh.prop.map JSShapeProperty.name ∧
      count ≤ sh'.propSize ∧ entries sh'.prop p'.prop = entries sh.prop p.prop := by
  have hwf := h.inv.wf _ sh h.shape
  obtain ⟨hwf', hsame, hname, hroom⟩ := hwf.resize hcount
  have hlength := h.inv.length_prop h.object h.shape
  obtain ⟨hinv, helse⟩ := h.inv.replaced h.object h.shape h.count
    ⟨rt.nextShape, reallocProp p.prop (resizedShape sh count).propSize⟩ (rt.nextShape + 1) hwf'
    (hsame.refCount.trans h.count) (length_reallocProp _ _) (.inr (Nat.le_refl _))
    (Nat.lt_succ_self _) (Nat.le_succ _)
  refine ⟨_, _, _, ?_, ⟨hinv, ?_, ?_, hsame.refCount.trans h.count⟩, helse, hsame, hname, hroom, ?_⟩
  · unfold resizeProperties
    rw [h.object]
    show (rt.shapes p.shape).bind _ = _
    rw [h.shape]
    rfl
  · exact Function.update_self _ _ _
  · exact Function.update_self _ _ _
  · rw [entries_name hname]
    exact entries_reallocProp (Nat.le_trans hcount hroom) (hlength ▸ hwf.room)

/-- `resize_properties`, where it is called. -/
theorem ensureProperty_ok [Inhabited V] (h : Sole (outOf p.shape sh) rt o p sh) :
    ∃ rt' p' sh', ensureProperty o sh rt = some rt' ∧ Sole (outOf p'.shape sh') rt' o p' sh' ∧
      Elsewhere o rt rt' ∧ SameShape sh sh' ∧
      sh'.prop.map JSShapeProperty.name = sh.prop.map JSShapeProperty.name ∧
      sh'.prop.length < sh'.propSize ∧ entries sh'.prop p'.prop = entries sh.prop p.prop := by
  unfold ensureProperty
  split
  · obtain ⟨rt', p', sh', hrt', hsole, helse, hsame, hname, hroom, hentries⟩ :=
      resizeProperties_ok h (Nat.le_succ _)
    refine ⟨rt', p', sh', hrt', hsole, helse, hsame, hname, ?_, hentries⟩
    rw [length_of_name hname]
    exact hroom
  next hroom =>
    exact ⟨rt, p, sh, rfl, h, fun _ _ => rfl, ⟨rfl, rfl, rfl, rfl⟩, rfl, Nat.lt_of_not_le hroom, rfl⟩

/-! ## A property more -/

/-- To link a shape is not to look at its properties. -/
theorem jsShapeHashLink_setShape {rt₁ : JSRuntime V} (sh₁ : JSShape) {sh₂ : JSShape}
    (h : jsShapeHashLink n (rt.setShape n (some sh₂)) = some rt₁) (hhash : sh₂.hash = sh₁.hash) :
    ∃ rt₂, jsShapeHashLink n (rt.setShape n (some sh₁)) = some rt₂ ∧
      rt₂.setShape n (some sh₂) = rt₁ ∧ rt₂.shapes n = some sh₁ := by
  have hget : ∀ sh : JSShape, (rt.setShape n (some sh)).shapes n = some sh :=
    fun sh => Function.update_self _ _ _
  unfold jsShapeHashLink at h ⊢
  rw [hget] at h ⊢
  obtain rfl := Option.some.inj h
  refine ⟨_, rfl, ?_, hget sh₁⟩
  unfold JSRuntime.setShape
  dsimp only
  rw [Function.update_idem, hhash]

/-- The end of `add_shape_property`: the shape is in the table again, and has the property. -/
theorem relinkHashed_ok (h : Sole (outOf p.shape sh) rt o p sh) {atom : ℕ} (hatom : atom ≠ jsAtomNull)
    (hnew : atom ∉ sh.prop.map JSShapeProperty.atom) (hroom : sh.prop.length < sh.propSize)
    (hshort : sh.prop.length + 1 < 2 ^ 26) (flags : ℕ) {hash : ℕ} (hhash : hash < 2 ^ 32) :
    ∃ rt₁ sh₁, relinkHashed p.shape sh hash rt = some rt₁ ∧ rt₁.shapes p.shape = some sh₁ ∧
      sh₁.proto = sh.proto ∧ (pushProperty sh₁ atom flags).prop = (pushProperty sh atom flags).prop ∧
      Sole none (rt₁.setShape p.shape (some (pushProperty sh₁ atom flags))) o p (pushProperty sh₁ atom flags) ∧
      Elsewhere o rt (rt₁.setShape p.shape (some (pushProperty sh₁ atom flags))) := by
  have hwf := h.inv.wf _ sh h.shape
  unfold relinkHashed
  by_cases hhashed : sh.isHashed = true
  · have hwf₁ : JSShape.WF { sh with hash } :=
      ⟨hwf.size, hwf.room, hwf.short, hwf.table, hwf.distinct, hwf.deleted, hwf.hashed, hwf.small, hhash⟩
    have hpush := hwf₁.push hatom hnew hroom hshort flags
    obtain ⟨hsole, helse⟩ := h.setShape hpush h.count rfl
    have hout : outOf p.shape (pushProperty { sh with hash } atom flags) = some p.shape := if_pos hhashed
    rw [hout] at hsole
    obtain ⟨rt₁, hrt₁, hinv₁, hsame₁⟩ := jsShapeHashLink_ok hsole.inv hsole.shape hhashed
    obtain ⟨rt₂, hrt₂, hset, hshape⟩ := jsShapeHashLink_setShape { sh with hash } hrt₁ rfl
    refine ⟨rt₂, { sh with hash }, (if_pos hhashed).trans hrt₂, hshape, rfl, rfl, ?_, ?_⟩
    · rw [hset]
      exact ⟨hinv₁, hsame₁.objects ▸ hsole.object, hsame₁.shapes ▸ hsole.shape, h.count⟩
    · rw [hset]
      exact helse.trans (.of_abs hsame₁.abs)
  · obtain ⟨hsole, helse⟩ := h.setShape (hwf.push hatom hnew hroom hshort flags) h.count rfl
    have hout : outOf p.shape (pushProperty sh atom flags) = none := if_neg hhashed
    exact ⟨rt, sh, if_neg hhashed, h.shape, rfl, rfl, hout ▸ hsole, helse⟩

theorem shapeHash_lt (h val : ℕ) : shapeHash h val < 2 ^ 32 := Nat.mod_lt _ (by decide)

/-- An object with a property more, which is the last one of its shape. -/
structure Added (rt rt' : JSRuntime V) (o atom flags : ℕ) (x : Obj V) : Prop where
  inv : Inv none none rt'
  elsewhere : Elsewhere o rt rt'
  added : ∃ p' sh', rt'.objects o = some p' ∧ rt'.shapes p'.shape = some sh' ∧ 0 < sh'.prop.length ∧
    sh'.proto = x.proto ∧
    ∀ v, entries sh'.prop (p'.prop.set (sh'.prop.length - 1) v) = x.props ++ [(atom, flags, v)]

theorem entries_set_of_le {prop : List JSShapeProperty} {values : List V} {i : ℕ} (hi : prop.length ≤ i) (v : V) :
    entries prop (values.set i v) = entries prop values := by
  rw [← entries_take (Nat.le_refl _), List.take_set_of_le hi, entries_take (Nat.le_refl _)]

/-- `add_shape_property` -/
theorem addShapeProperty_ok [Inhabited V] (h : Sole none rt o p sh) {atom : ℕ} (hatom : atom ≠ jsAtomNull)
    (hnew : atom ∉ sh.prop.map JSShapeProperty.atom) (hshort : sh.prop.length + 1 < 2 ^ 26) (flags : ℕ) :
    ∃ rt', addShapeProperty o atom flags rt = some rt' ∧
      Added rt rt' o atom flags ⟨sh.proto, entries sh.prop p.prop⟩ := by
  obtain ⟨rt₁, hrt₁, h₁, habs₁⟩ := unlinkHashed_sole h
  obtain ⟨rt₂, p₂, sh₂, hrt₂, h₂, helse₂, hsame, hname, hroom, hentries⟩ := ensureProperty_ok h₁
  have hlength := length_of_name hname
  obtain ⟨rt₃, sh₃, hrt₃, hshape₃, hproto₃, hprop₃, hsole, helse⟩ := relinkHashed_ok h₂ hatom
    (by rwa [map_atom_of_name hname]) hroom (by rwa [hlength]) flags
    (shapeHash_lt (shapeHash sh.hash atom) flags)
  refine ⟨_, ?_, hsole.inv, (Elsewhere.of_abs habs₁).trans (helse₂.trans helse), p₂,
    pushProperty sh₃ atom flags, hsole.object, hsole.shape, ?_, hproto₃.trans hsame.proto, fun v => ?_⟩
  · unfold addShapeProperty
    rw [h.object]
    show (rt.shapes p.shape).bind _ = _
    rw [h.shape]
    show (unlinkHashed p.shape sh rt).bind _ = _
    rw [hrt₁]
    show (ensureProperty o sh rt₁).bind _ = _
    rw [hrt₂]
    show (rt₂.objects o).bind _ = _
    rw [h₂.object]
    show (rt₂.shapes p₂.shape).bind _ = _
    rw [h₂.shape]
    show (relinkHashed p₂.shape sh₂ _ rt₂).bind _ = _
    rw [hrt₃]
    show (rt₃.shapes p₂.shape).bind _ = _
    rw [hshape₃]
    rfl
  · show 0 < (sh₃.prop ++ [_]).length
    rw [List.length_append]
    exact Nat.succ_pos _
  · have hlen₂ := h₂.inv.length_prop h₂.object h₂.shape
    have hlast : (pushProperty sh₃ atom flags).prop.length - 1 = sh₂.prop.length := by
      rw [hprop₃]
      show (sh₂.prop ++ [_]).length - 1 = _
      rw [List.length_append]
      rfl
    rw [hlast, hprop₃]
    have hget : (p₂.prop.set sh₂.prop.length v)[sh₂.prop.length]? = some v := by
      rw [List.getElem?_set, if_pos rfl, if_pos (by omega)]
    rw [entries_push hget hatom, entries_set_of_le (Nat.le_refl _), hentries]

/-! ## Another shape -/

/-- The objects and their list are written. -/
def JSRuntime.withObjects (rt : JSRuntime V) (f : (ℕ → Option (JSObject V)) → ℕ → Option (JSObject V))
    (g : List ℕ → List ℕ) : JSRuntime V :=
  { rt with objects := f rt.objects, gcObjList := g rt.gcObjList }

section Objects

variable (rt : JSRuntime V) (f : (ℕ → Option (JSObject V)) → ℕ → Option (JSObject V)) (g : List ℕ → List ℕ)

theorem jsShapeHashUnlink_withObjects (n : ℕ) :
    jsShapeHashUnlink n (rt.withObjects f g) = (jsShapeHashUnlink n rt).map fun rt => rt.withObjects f g := by
  unfold jsShapeHashUnlink
  show (rt.shapes n).bind _ = ((rt.shapes n).bind _).map _
  cases rt.shapes n with
  | none => rfl
  | some sh =>
    show (if n ∈ rt.shapeHash (getShapeHash sh.hash rt.shapeHashBits) then _ else none) =
      Option.map _ (if n ∈ rt.shapeHash (getShapeHash sh.hash rt.shapeHashBits) then _ else none)
    by_cases hn : n ∈ rt.shapeHash (getShapeHash sh.hash rt.shapeHashBits)
    · rw [if_pos hn, if_pos hn]
      rfl
    · rw [if_neg hn, if_neg hn]
      rfl

/-- Whether the objects are written before or after is the same to the shape that goes. -/
theorem jsFreeShape_withObjects (n : ℕ) :
    jsFreeShape n (rt.withObjects f g) = (jsFreeShape n rt).map fun rt => rt.withObjects f g := by
  have hunlink : ∀ sh, unlinkHashed n sh (rt.withObjects f g) =
      (unlinkHashed n sh rt).map fun rt => rt.withObjects f g := by
    intro sh
    unfold unlinkHashed
    split
    · exact jsShapeHashUnlink_withObjects rt f g n
    · rfl
  unfold jsFreeShape
  show (rt.shapes n).bind _ = ((rt.shapes n).bind _).map _
  cases rt.shapes n with
  | none => rfl
  | some sh =>
    obtain ⟨refCount, isHashed, small, hash, propHash, propSize, deleted, proto, prop⟩ := sh
    match refCount with
    | 0 => rfl
    | 1 =>
      show (unlinkHashed n _ (rt.withObjects f g)).bind _ = ((unlinkHashed n _ rt).bind _).map _
      rw [hunlink]
      cases unlinkHashed n _ rt <;> rfl
    | k + 2 => rfl

end Objects

/-- The object takes the shape that is in hand, and the one that it had loses a reference. -/
theorem jsFreeShape_move (h : Inv (some n) none rt) (hp : rt.objects o = some p)
    (hsh : rt.shapes n = some sh) {prop : List V} (hlength : prop.length = sh.propSize) :
    ∃ rt₁ rt₂, jsFreeShape p.shape rt = some rt₁ ∧ rt₁.setObject o (some ⟨n, prop⟩) = rt₂ ∧
      jsFreeShape p.shape (rt.setObject o (some ⟨n, prop⟩)) = some rt₂ ∧ Inv none none rt₂ ∧
      Elsewhere o rt rt₂ ∧ rt₂.objects o = some ⟨n, prop⟩ ∧ (n ≠ p.shape → rt₂.shapes n = some sh) := by
  obtain ⟨hinv, helse⟩ := h.setObject hp ⟨n, prop⟩ (.inl rfl) hsh hlength
  obtain ⟨rt₂, hrt₂, hfreed⟩ := jsFreeShape_ok hinv
  have hcommute := jsFreeShape_withObjects rt
    (fun objects => Function.update objects o (some ⟨n, prop⟩)) id p.shape
  obtain ⟨rt₁, hrt₁, hset⟩ := Option.map_eq_some_iff.mp (hcommute.symm.trans hrt₂)
  refine ⟨rt₁, rt₂, hrt₁, hset, hrt₂, hfreed.inv, helse.trans (.of_abs hfreed.abs), ?_, fun hne => ?_⟩
  · rw [hfreed.objects, rt.objects_setObject, if_pos rfl]
  · rw [hfreed.shapes n hne]
    exact hsh

theorem JSShape.WF.clone (h : sh.WF) (isHashed : Bool) (hhashed : sh.isHashed = true) :
    JSShape.WF { sh with refCount := 1, isHashed } :=
  ⟨h.size, h.room, h.short, h.table, h.distinct, h.deleted, fun _ => h.hashed hhashed, h.small, h.hash⟩

/-- A clone of a shape that is shared, for the object alone. -/
theorem ownShape_ok (h : Inv none none rt) (hp : rt.objects o = some p) (hsh : rt.shapes p.shape = some sh)
    (hhashed : sh.isHashed = true) :
    ∃ rt', ownShape o rt = some rt' ∧ Elsewhere o rt rt' ∧
      Sole none rt' o { p with shape := rt.nextShape } (cloneShape sh) := by
  have hwf : (cloneShape sh).WF := (h.wf _ sh hsh).clone false hhashed
  have hlength := h.length_prop hp hsh
  obtain ⟨hinv, habs⟩ := h.newShape hwf rfl
  have hget : (rt.newShape (cloneShape sh)).shapes rt.nextShape = some (cloneShape sh) :=
    Function.update_self _ _ _
  obtain ⟨rt₁, rt₂, hrt₁, rfl, -, hinv₂, helse, hobj, hshape⟩ := jsFreeShape_move hinv hp hget hlength
  have hne : rt.nextShape ≠ p.shape := Nat.ne_of_gt (h.fresh _ sh hsh)
  refine ⟨_, ?_, (Elsewhere.of_abs habs).trans helse, hinv₂, hobj, hshape hne, rfl⟩
  unfold ownShape
  rw [hp]
  show (rt.shapes p.shape).bind _ = _
  rw [hsh]
  show (jsFreeShape p.shape (rt.newShape (cloneShape sh))).bind _ = _
  rw [hrt₁]
  rfl

/-- The same, where the clone is in the table. -/
theorem ownHashedShape_ok (h : Inv none none rt) (hp : rt.objects o = some p)
    (hsh : rt.shapes p.shape = some sh) (hhashed : sh.isHashed = true) :
    ∃ rt', ownHashedShape o rt = some rt' ∧ Elsewhere o rt rt' ∧
      Sole none rt' o { p with shape := rt.nextShape } { cloneShape sh with isHashed := true } := by
  have hwf : JSShape.WF { cloneShape sh with isHashed := true } := (h.wf _ sh hsh).clone true hhashed
  have hlength := h.length_prop hp hsh
  obtain ⟨hinv, habs⟩ := h.newShape hwf rfl
  have hget : (rt.newShape { cloneShape sh with isHashed := true }).shapes rt.nextShape =
      some { cloneShape sh with isHashed := true } := Function.update_self _ _ _
  obtain ⟨rt₀, hrt₀, hinv₀, hsame₀⟩ := jsShapeHashLink_ok hinv hget rfl
  have hp₀ : rt₀.objects o = some p := hsame₀.objects ▸ hp
  have hget₀ : rt₀.shapes rt.nextShape = some { cloneShape sh with isHashed := true } := hsame₀.shapes ▸ hget
  obtain ⟨rt₁, rt₂, hrt₁, rfl, -, hinv₂, helse, hobj, hshape⟩ := jsFreeShape_move hinv₀ hp₀ hget₀ hlength
  have hne : rt.nextShape ≠ p.shape := Nat.ne_of_gt (h.fresh _ sh hsh)
  refine ⟨_, ?_, ((Elsewhere.of_abs habs).trans (.of_abs hsame₀.abs)).trans helse, hinv₂, hobj, hshape hne, rfl⟩
  unfold ownHashedShape
  rw [hp]
  show (rt.shapes p.shape).bind _ = _
  rw [hsh]
  show (jsShapeHashLink rt.nextShape (rt.newShape { cloneShape sh with isHashed := true })).bind _ = _
  rw [hrt₀]
  show (jsFreeShape p.shape rt₀).bind _ = _
  rw [hrt₁]
  rfl

/-- **`js_shape_prepare_update`**: the object has a shape that no other has and that is not in the table,
with the same properties. -/
theorem jsShapePrepareUpdate_ok (h : Inv none none rt) (hp : rt.objects o = some p)
    (hsh : rt.shapes p.shape = some sh) :
    ∃ rt' n, jsShapePrepareUpdate o rt = some rt' ∧ Elsewhere o rt rt' ∧
      Sole none rt' o { p with shape := n } { sh with refCount := 1, isHashed := false } := by
  have hrun : jsShapePrepareUpdate o rt =
      if sh.isHashed then
        if sh.refCount ≠ 1 then ownShape o rt
        else (jsShapeHashUnlink p.shape rt).bind fun rt =>
          some (rt.setShape p.shape (some { sh with isHashed := false }))
      else some rt := by
    unfold jsShapePrepareUpdate
    rw [hp]
    show (rt.shapes p.shape).bind _ = _
    rw [hsh]
    rfl
  rw [hrun]
  -- A shape of others too is copied, one in the table is taken out of it, and any other is as it should be.
  by_cases hhashed : sh.isHashed = true
  · rw [if_pos hhashed]
    split
    · obtain ⟨rt', hrt', helse, hsole⟩ := ownShape_ok h hp hsh hhashed
      exact ⟨rt', rt.nextShape, hrt', helse, hsole⟩
    next hone =>
      have hcount : sh.refCount = 1 := Decidable.not_not.mp hone
      obtain ⟨rt₁, hrt₁, hinv₁, hsame₁⟩ := jsShapeHashUnlink_ok h hsh hhashed
      have hout : outOf p.shape sh = some p.shape := if_pos hhashed
      have hsole : Sole (outOf p.shape sh) rt₁ o p sh :=
        ⟨hout.symm ▸ hinv₁, hsame₁.objects ▸ hp, hsame₁.shapes ▸ hsh, hcount⟩
      have hwf := (h.wf _ sh hsh).clone false hhashed
      rw [← hcount] at hwf
      obtain ⟨hsole', helse⟩ := hsole.setShape hwf hcount rfl
      refine ⟨_, p.shape, ?_, (Elsewhere.of_abs hsame₁.abs).trans helse, ?_⟩
      · rw [hrt₁]
        rfl
      · have heq : ({ sh with isHashed := false } : JSShape) = { sh with refCount := 1, isHashed := false } := by
          rw [← hcount]
        exact heq ▸ hsole'
  · rw [if_neg hhashed]
    have hfalse := Bool.eq_false_iff.mpr hhashed
    have hcount := h.alone _ sh hsh hfalse
    have heq : ({ sh with refCount := 1, isHashed := false } : JSShape) = sh := by
      rw [← hcount, ← hfalse]
    exact ⟨rt, p.shape, rfl, fun _ _ => rfl, heq.symm ▸ ⟨h, hp, hsh, hcount⟩⟩

/-- A shape that is found passes the test. -/
theorem findShape_ok {test : JSShape → Bool} {l : List ℕ} (hl : ∀ n ∈ l, ∃ sh, rt.shapes n = some sh) :
    findShape rt test l = some none ∨
      ∃ n ∈ l, ∃ sh, rt.shapes n = some sh ∧ test sh = true ∧ findShape rt test l = some (some n) := by
  induction l with
  | nil => exact .inl rfl
  | cons n l ih =>
    obtain ⟨sh, hsh⟩ := hl n List.mem_cons_self
    unfold findShape
    rw [hsh]
    show (if test sh = true then _ else _) = _ ∨
      ∃ m ∈ n :: l, ∃ sh', _ ∧ _ ∧ (if test sh = true then _ else _) = _
    by_cases htest : test sh = true
    · exact .inr ⟨n, List.mem_cons_self, sh, hsh, htest, if_pos htest⟩
    · rw [if_neg htest]
      rcases ih fun m hm => hl m (List.mem_cons_of_mem n hm) with hnone | ⟨m, hm, sh', hsh', htest', hsome⟩
      · exact .inl hnone
      · exact .inr ⟨m, List.mem_cons_of_mem n hm, sh', hsh', htest', hsome⟩

theorem Inv.chain_shapes (h : Inv none none rt) (b : ℕ) : ∀ n ∈ rt.shapeHash b, ∃ sh, rt.shapes n = some sh := by
  intro n hn
  obtain ⟨-, sh, hsh, -⟩ := (h.table b n).mp hn
  exact ⟨sh, hsh⟩

theorem Inv.isHashed_of_mem (h : Inv none none rt) {b : ℕ} (hn : n ∈ rt.shapeHash b)
    (hsh : rt.shapes n = some sh) : sh.isHashed = true := by
  obtain ⟨-, sh', hsh', hhashed, -⟩ := (h.table b n).mp hn
  rw [hsh] at hsh'
  exact Option.some.inj hsh' ▸ hhashed

/-- A shape that is the object's shape with one property more. -/
structure Extends (sh sh₁ : JSShape) (atom flags : ℕ) : Prop where
  proto : sh₁.proto = sh.proto
  length : sh₁.prop.length = sh.prop.length + 1
  name : sh₁.prop.map JSShapeProperty.name = sh.prop.map JSShapeProperty.name ++ [(atom, flags)]

/-- `find_hashed_shape_prop` -/
theorem findHashedShapeProp_ok (h : Inv none none rt) (sh : JSShape) (atom flags : ℕ) :
    findHashedShapeProp sh atom flags rt = some none ∨
      ∃ n sh₁, rt.shapes n = some sh₁ ∧ sh₁.isHashed = true ∧ Extends sh sh₁ atom flags ∧
        findHashedShapeProp sh atom flags rt = some (some n) := by
  rcases findShape_ok (h.chain_shapes _) with hnone | ⟨n, hn, sh₁, hsh₁, htest, hsome⟩
  · exact .inl hnone
  · refine .inr ⟨n, sh₁, hsh₁, h.isHashed_of_mem hn hsh₁, ?_, hsome⟩
    obtain ⟨-, hproto, hlength, htake, hlast⟩ := of_decide_eq_true htest
    refine ⟨hproto, hlength, ?_⟩
    obtain ⟨pr, hpr, hname⟩ := Option.map_eq_some_iff.mp hlast
    obtain ⟨hlt, hget⟩ := List.getElem?_eq_some_iff.mp hpr
    have hdrop : sh₁.prop.drop sh.prop.length = [pr] := by
      rw [List.drop_eq_getElem_cons hlt, hget, List.drop_eq_nil_of_le (by omega)]
    have hsplit := congrArg (List.map JSShapeProperty.name) (List.take_append_drop sh.prop.length sh₁.prop)
    rw [List.map_append, hdrop, htake] at hsplit
    rw [← hsplit, ← hname]
    rfl

/-- `add_property`, where other objects have the shape already. -/
theorem useShape_ok [Inhabited V] (h : Inv none none rt) (hp : rt.objects o = some p)
    (hsh : rt.shapes p.shape = some sh) {sh₁ : JSShape} (hn : rt.shapes n = some sh₁)
    (hhashed : sh₁.isHashed = true) {atom flags : ℕ} (hext : Extends sh sh₁ atom flags)
    (hatom : atom ≠ jsAtomNull) :
    ∃ rt', useShape o n rt = some rt' ∧ Added rt rt' o atom flags ⟨sh.proto, entries sh.prop p.prop⟩ := by
  have hwf := h.wf _ sh hsh
  have hwf₁ := h.wf _ sh₁ hn
  have hlength := h.length_prop hp hsh
  have hroom := hwf.room
  have hroom₁ := hwf₁.room
  have hlength₁ := hext.length
  have hne : n ≠ p.shape := by
    rintro rfl
    rw [hsh] at hn
    rw [← Option.some.inj hn] at hlength₁
    omega
  -- The values move only where the two shapes have different sizes.
  obtain ⟨prop, hprop, hsize, hentries⟩ : ∃ prop,
      (if sh₁.propSize ≠ sh.propSize then reallocProp p.prop sh₁.propSize else p.prop) = prop ∧
      prop.length = sh₁.propSize ∧ entries sh.prop prop = entries sh.prop p.prop := by
    split
    · exact ⟨_, rfl, length_reallocProp _ _, entries_reallocProp (by omega) (by omega)⟩
    next hsame => exact ⟨_, rfl, hlength.trans (Decidable.not_not.mp hsame).symm, rfl⟩
  -- The reference to the new shape is in hand until the object has it.
  obtain ⟨hdup, hinv, habs⟩ := jsDupShape_ok h hn hhashed
  have hget : (rt.setShape n (some { sh₁ with refCount := sh₁.refCount + 1 })).shapes n =
      some { sh₁ with refCount := sh₁.refCount + 1 } := Function.update_self _ _ _
  obtain ⟨-, rt₂, -, -, hrt₂, hinv₂, helse, hobj, hshape⟩ := jsFreeShape_move hinv hp hget hsize
  refine ⟨rt₂, ?_, hinv₂, (Elsewhere.of_abs habs).trans helse, _, _, hobj, hshape hne, ?_, hext.proto,
    fun v => ?_⟩
  · have hdup' : jsDupShape n (rt.setObject o (some ⟨n, prop⟩)) =
        some ((rt.setShape n (some { sh₁ with refCount := sh₁.refCount + 1 })).setObject o (some ⟨n, prop⟩)) := by
      unfold jsDupShape
      show (rt.shapes n).bind _ = _
      rw [hn]
      rfl
    unfold useShape
    rw [hp]
    show (rt.shapes p.shape).bind _ = _
    rw [hsh]
    show (rt.shapes n).bind _ = _
    rw [hn]
    show (jsDupShape n (rt.setObject o (some ⟨n, if sh₁.propSize ≠ sh.propSize then _ else _⟩))).bind _ = _
    rw [hprop, hdup']
    exact hrt₂
  · show 0 < sh₁.prop.length
    omega
  · have hlast : sh₁.prop.length - 1 = sh.prop.length := by omega
    have hname : sh₁.prop.map JSShapeProperty.name =
        (sh.prop ++ [({ hashNext := 0, flags, atom } : JSShapeProperty)]).map JSShapeProperty.name := by
      rw [hext.name, List.map_append]
      rfl
    have hval : (prop.set sh.prop.length v)[sh.prop.length]? = some v := by
      rw [List.getElem?_set, if_pos rfl, if_pos (by omega)]
    show entries sh₁.prop (prop.set (sh₁.prop.length - 1) v) = _
    rw [hlast, entries_name hname, entries_concat hval hatom, entries_set_of_le (Nat.le_refl _), hentries]

/-- **`add_property`**, of an atom that the object does not have. -/
theorem addProperty_ok [Inhabited V] (h : Inv none none rt) (hp : rt.objects o = some p)
    (hsh : rt.shapes p.shape = some sh) {atom : ℕ} (hatom : atom ≠ jsAtomNull)
    (hnew : atom ∉ sh.prop.map JSShapeProperty.atom) (hshort : sh.prop.length + 1 < 2 ^ 26) (flags : ℕ) :
    ∃ rt', addProperty o atom flags rt = some rt' ∧
      Added rt rt' o atom flags ⟨sh.proto, entries sh.prop p.prop⟩ := by
  have hown : ∀ {rt₁ : JSRuntime V} {p₁ : JSObject V} {sh₁ : JSShape}, Sole none rt₁ o p₁ sh₁ →
      addOwnProperty o atom flags rt₁ = addShapeProperty o atom flags rt₁ := by
    intro rt₁ p₁ sh₁ hsole
    unfold addOwnProperty
    rw [hsole.object]
    show (rt₁.shapes p₁.shape).bind _ = _
    rw [hsole.shape]
    exact if_neg (not_not_intro hsole.count)
  unfold addProperty
  rw [hp]
  show ∃ rt', (rt.shapes p.shape).bind _ = some rt' ∧ _
  rw [hsh]
  show ∃ rt', (if sh.isHashed = true then _ else _) = some rt' ∧ _
  by_cases hhashed : sh.isHashed = true
  · rw [if_pos hhashed]
    -- Another object may have got the same property before.
    rcases findHashedShapeProp_ok h sh atom flags with hnone | ⟨n, sh₁, hn, hhashed₁, hext, hsome⟩
    · rw [hnone]
      show ∃ rt', (if sh.refCount ≠ 1 then _ else _) = some rt' ∧ _
      by_cases hcount : sh.refCount = 1
      · rw [if_neg (not_not_intro hcount), hown ⟨h, hp, hsh, hcount⟩]
        exact addShapeProperty_ok ⟨h, hp, hsh, hcount⟩ hatom hnew hshort flags
      · rw [if_pos hcount]
        -- Others have the shape as well, so that the object gets a copy first.
        obtain ⟨rt₁, hrt₁, helse, hsole⟩ := ownHashedShape_ok h hp hsh hhashed
        obtain ⟨rt₂, hrt₂, hadded⟩ := addShapeProperty_ok hsole hatom hnew hshort flags
        refine ⟨rt₂, ?_, hadded.inv, helse.trans hadded.elsewhere, hadded.added⟩
        show (ownHashedShape o rt).bind _ = _
        rw [hrt₁]
        show addOwnProperty o atom flags rt₁ = _
        rw [hown hsole]
        exact hrt₂
    · rw [hsome]
      exact useShape_ok h hp hsh hn hhashed₁ hext hatom
  · rw [if_neg hhashed]
    have hcount := h.alone _ sh hsh (Bool.eq_false_iff.mpr hhashed)
    rw [hown ⟨h, hp, hsh, hcount⟩]
    exact addShapeProperty_ok ⟨h, hp, hsh, hcount⟩ hatom hnew hshort flags

end Steps

end JSChip.Shapes
