import JSChip.Machine.Run
import JSChip.Proof.ShapeStore

/-!
# Objects over a whole run

That objects share shapes, that a shape is cloned, hashed, resized and compacted, is not to be seen: whatever
is done to the objects, each has the properties that it was given, in the order in which it was given them.

* `Became`: what a function does to one object.
* `Heap.perform`: the objects as prototypes and lists of properties, without shapes.
* `run_objects`: a run of the code, and the same run of the lists.
-/

namespace JSChip.Shapes

open Machine

variable {V : Type}

/-- One object is another, or is gone. -/
structure Became (rt rt' : JSRuntime V) (o : ℕ) (x : Option (Obj V)) : Prop where
  inv : Inv none none rt'
  abs : rt'.abs = Function.update rt.abs o x

section Functions

variable {rt rt' : JSRuntime V} {hand out : Option ℕ} {n o i atom : ℕ} {sh : JSShape} {p : JSObject V} {x : Obj V}

theorem Became.of_elsewhere {x : Option (Obj V)} (hinv : Inv none none rt') (helse : Elsewhere o rt rt')
    (habs : rt'.abs o = x) : Became rt rt' o x := by
  refine ⟨hinv, funext fun o' => ?_⟩
  rw [Function.update_apply]
  split
  next heq => rw [heq, habs]
  next hne => exact helse o' hne

theorem Became.refl (h : Inv none none rt) (habs : rt.abs o = some x) : Became rt rt o (some x) :=
  .of_elsewhere h (fun _ _ => rfl) habs

/-- `p->prop[i].u.value = value` -/
theorem setValue_ok (h : Inv none none rt) (hp : rt.objects o = some p) (hsh : rt.shapes p.shape = some sh)
    (hi : i < p.prop.length) (value : V) :
    setValue o i value rt = some (rt.setObject o (some { p with prop := p.prop.set i value })) ∧
      Inv none none (rt.setObject o (some { p with prop := p.prop.set i value })) ∧
      Elsewhere o rt (rt.setObject o (some { p with prop := p.prop.set i value })) ∧
      (rt.setObject o (some { p with prop := p.prop.set i value })).objects o =
        some { p with prop := p.prop.set i value } := by
  have hlength := h.length_prop hp hsh
  obtain ⟨hinv, helse⟩ := h.setObject hp { p with prop := p.prop.set i value } (.inr ⟨rfl, rfl⟩) hsh
    (by rw [List.length_set, hlength])
  refine ⟨?_, hinv, helse, by rw [rt.objects_setObject, if_pos rfl]⟩
  unfold setValue
  rw [hp]
  exact if_pos hi

/-- **A new property is the last one.** -/
theorem addPropertyValue_ok [Inhabited V] (h : Inv none none rt) (hp : rt.objects o = some p)
    (hsh : rt.shapes p.shape = some sh) (hatom : atom ≠ jsAtomNull)
    (hnew : lookup atom (entries sh.prop p.prop) = none) (hshort : sh.prop.length + 1 < 2 ^ 26) (flags : ℕ)
    (value : V) :
    ∃ rt', addPropertyValue o atom flags value rt = some rt' ∧
      Became rt rt' o (some ⟨sh.proto, entries sh.prop p.prop ++ [(atom, flags, value)]⟩) := by
  have hnot : atom ∉ sh.prop.map JSShapeProperty.atom := by
    intro hmem
    obtain ⟨pr, hpr, rfl⟩ := List.mem_map.mp hmem
    obtain ⟨j, hj, rfl⟩ := List.getElem_of_mem hpr
    have hroom := (h.wf _ sh hsh).room
    have hlt : j < p.prop.length := by
      rw [h.length_prop hp hsh]
      omega
    rw [lookup_entries (List.getElem?_eq_getElem hj) (List.getElem?_eq_getElem hlt) (h.wf _ sh hsh).distinct
      hatom] at hnew
    cases hnew
  obtain ⟨rt₁, hrt₁, hadded⟩ := addProperty_ok h hp hsh hatom hnot hshort flags
  obtain ⟨p₁, sh₁, hp₁, hsh₁, hpos, hproto, hentries⟩ := hadded.added
  have hroom := (hadded.inv.wf _ sh₁ hsh₁).room
  obtain ⟨hset, hinv, helse, hobj⟩ := setValue_ok hadded.inv hp₁ hsh₁ (i := sh₁.prop.length - 1)
    (by rw [hadded.inv.length_prop hp₁ hsh₁]; omega) value
  refine ⟨_, ?_, .of_elsewhere hinv (hadded.elsewhere.trans helse) ?_⟩
  · unfold addPropertyValue
    rw [hrt₁]
    show (rt₁.objects o).bind _ = _
    rw [hp₁]
    show (rt₁.shapes p₁.shape).bind _ = _
    rw [hsh₁]
    exact hset
  · rw [JSRuntime.abs_of hobj hsh₁, hproto, hentries]

/-- The entry that `find_own_property` and `delete_property` come to. -/
theorem find_lookup (h : Inv none none rt) (hp : rt.objects o = some p) (hsh : rt.shapes p.shape = some sh)
    (hatom : atom ≠ jsAtomNull) :
    (sh.find atom = some none ∧ lookup atom (entries sh.prop p.prop) = none) ∨
      ∃ l₁ i l₂ pr v, sh.chain atom = l₁ ++ i :: l₂ ∧ sh.prop[i]? = some pr ∧ p.prop[i]? = some v ∧
        pr.atom = atom ∧ sh.find atom = some (some (i, l₁.getLast?)) ∧
        lookup atom (entries sh.prop p.prop) = some (pr.flags, v) := by
  have hwf := h.wf _ sh hsh
  rcases JSShape.find_ok hwf hatom with ⟨hfind, hnot⟩ | ⟨l₁, i, l₂, pr, hl, hpr, hpratom, hfind⟩
  · exact .inl ⟨hfind, lookup_entries_none hnot⟩
  · have hi := (List.getElem?_eq_some_iff.mp hpr).1
    have hroom := hwf.room
    have hlt : i < p.prop.length := by
      rw [h.length_prop hp hsh]
      omega
    have hv := List.getElem?_eq_getElem hlt
    have hlookup := lookup_entries hpr hv hwf.distinct (hpratom ▸ hatom)
    rw [hpratom] at hlookup
    exact .inr ⟨l₁, i, l₂, pr, _, hl, hpr, hv, hpratom, hfind, hlookup⟩

/-- **`find_own_property`** -/
theorem findOwnProperty_ok (h : Inv none none rt) (hp : rt.objects o = some p)
    (hsh : rt.shapes p.shape = some sh) (hatom : atom ≠ jsAtomNull) :
    findOwnProperty o atom rt = some (lookup atom (entries sh.prop p.prop)) := by
  unfold findOwnProperty
  rw [hp]
  show (rt.shapes p.shape).bind _ = _
  rw [hsh]
  show (sh.find atom).bind _ = _
  rcases find_lookup h hp hsh hatom with ⟨hfind, hlookup⟩ | ⟨l₁, i, l₂, pr, v, -, hpr, hv, -, hfind, hlookup⟩
  · rw [hfind, hlookup]
    rfl
  · rw [hfind, hlookup]
    show (sh.prop[i]?).bind _ = _
    rw [hpr]
    show (p.prop[i]?).bind _ = _
    rw [hv]
    rfl

/-- What is done to the entry of a property, if there is one. -/
def withProperty (o atom : ℕ) (f : ℕ → JSRuntime V → Option (JSRuntime V)) (rt : JSRuntime V) :
    Option (JSRuntime V) := do
  let p ← rt.objects o
  let sh ← rt.shapes p.shape
  match ← sh.find atom with
  | some (i, _) => f i rt
  | none => some rt

theorem overwrite_none {props : List (ℕ × ℕ × V)} {new : ℕ × V → ℕ × V} (h : lookup atom props = none) :
    overwrite atom new props = props := by
  apply overwrite_of_ne
  intro e he heq
  unfold lookup at h
  rw [Option.map_eq_none_iff, List.find?_eq_none] at h
  exact h e he (decide_eq_true heq)

theorem withProperty_ok (h : Inv none none rt) (hp : rt.objects o = some p) (hsh : rt.shapes p.shape = some sh)
    (hatom : atom ≠ jsAtomNull) {f : ℕ → JSRuntime V → Option (JSRuntime V)} {new : ℕ × V → ℕ × V}
    (hf : ∀ i pr v, sh.prop[i]? = some pr → p.prop[i]? = some v → pr.atom = atom →
      ∃ rt', f i rt = some rt' ∧
        Became rt rt' o (some ⟨sh.proto, overwrite atom new (entries sh.prop p.prop)⟩)) :
    ∃ rt', withProperty o atom f rt = some rt' ∧
      Became rt rt' o (some ⟨sh.proto, overwrite atom new (entries sh.prop p.prop)⟩) := by
  unfold withProperty
  rw [hp]
  show ∃ rt', (rt.shapes p.shape).bind _ = some rt' ∧ _
  rw [hsh]
  show ∃ rt', (sh.find atom).bind _ = some rt' ∧ _
  rcases find_lookup h hp hsh hatom with ⟨hfind, hlookup⟩ | ⟨l₁, i, l₂, pr, v, -, hpr, hv, hpratom, hfind, -⟩
  · rw [hfind, overwrite_none hlookup]
    exact ⟨rt, rfl, .refl h (JSRuntime.abs_of hp hsh)⟩
  · rw [hfind]
    exact hf i pr v hpr hv hpratom

/-- The value of a property is written. -/
theorem setValue_became (h : Inv none none rt) (hp : rt.objects o = some p)
    (hsh : rt.shapes p.shape = some sh) (hatom : atom ≠ jsAtomNull) (value : V) :
    ∃ rt', withProperty o atom (fun i => setValue o i value) rt = some rt' ∧
      Became rt rt' o (some ⟨sh.proto,
        overwrite atom (fun e => (e.1, value)) (entries sh.prop p.prop)⟩) := by
  apply withProperty_ok h hp hsh hatom
  intro i pr v hpr hv hpratom
  obtain ⟨hset, hinv, helse, hobj⟩ := setValue_ok h hp hsh (List.getElem?_eq_some_iff.mp hv).1 value
  refine ⟨_, hset, .of_elsewhere hinv helse ?_⟩
  have hwrite := entries_overwrite (fun e => (e.1, value)) hpr hv (h.wf _ sh hsh).distinct
    (hpratom ▸ hatom)
  have hsame : sh.prop.set i pr = sh.prop := by
    obtain ⟨hi, rfl⟩ := List.getElem?_eq_some_iff.mp hpr
    exact List.set_getElem_self hi
  rw [JSRuntime.abs_of hobj hsh, ← hpratom, ← hwrite]
  show some (Obj.mk sh.proto (entries sh.prop (p.prop.set i value))) =
    some ⟨sh.proto, entries (sh.prop.set i pr) (p.prop.set i value)⟩
  rw [hsame]

/-- The shape that the object may change is changed. -/
theorem Sole.change (h : Sole none rt o p sh) (hunhashed : sh.isHashed = false) {sh' : JSShape} (hwf : sh'.WF)
    (hsame : sh'.refCount = sh.refCount) (hunhashed' : sh'.isHashed = false)
    (hsize : sh'.propSize = sh.propSize) :
    Sole none (rt.setShape p.shape (some sh')) o p sh' ∧
      Elsewhere o rt (rt.setShape p.shape (some sh')) := by
  have hout : outOf p.shape sh = none := if_neg (by rw [hunhashed]; exact Bool.false_ne_true)
  have hout' : outOf p.shape sh' = none := if_neg (by rw [hunhashed']; exact Bool.false_ne_true)
  have hset := (hout.symm ▸ h : Sole (outOf p.shape sh) rt o p sh).setShape hwf (hsame.trans h.count) hsize
  rwa [hout'] at hset

theorem Sole.abs (h : Sole out rt o p sh) : rt.abs o = some ⟨sh.proto, entries sh.prop p.prop⟩ :=
  JSRuntime.abs_of h.object h.shape

/-- **`js_update_property_flags`** -/
theorem jsUpdatePropertyFlags_became (h : Inv none none rt) (hp : rt.objects o = some p)
    (hsh : rt.shapes p.shape = some sh) (hatom : atom ≠ jsAtomNull) (flags : ℕ) :
    ∃ rt', withProperty o atom (fun i => jsUpdatePropertyFlags o i flags) rt = some rt' ∧
      Became rt rt' o (some ⟨sh.proto,
        overwrite atom (fun e => (flags, e.2)) (entries sh.prop p.prop)⟩) := by
  apply withProperty_ok h hp hsh hatom
  intro i pr v hpr hv hpratom
  subst hpratom
  have hwrite := entries_overwrite (fun e => (flags, e.2)) hpr hv (h.wf _ sh hsh).distinct hatom
  have hvalues : p.prop.set i v = p.prop := by
    obtain ⟨hi, rfl⟩ := List.getElem?_eq_some_iff.mp hv
    exact List.set_getElem_self hi
  dsimp only at hwrite
  rw [hvalues] at hwrite
  unfold jsUpdatePropertyFlags
  rw [hp]
  show ∃ rt', (rt.shapes p.shape).bind _ = some rt' ∧ _
  rw [hsh]
  show ∃ rt', (sh.prop[i]?).bind _ = some rt' ∧ _
  rw [hpr]
  show ∃ rt', (if flags ≠ pr.flags then _ else _) = some rt' ∧ _
  by_cases hflags : flags = pr.flags
  · rw [if_neg (not_not_intro hflags)]
    refine ⟨rt, rfl, .refl h ?_⟩
    have hsame : sh.prop.set i { pr with flags } = sh.prop := by
      obtain ⟨hi, rfl⟩ := List.getElem?_eq_some_iff.mp hpr
      rw [hflags]
      exact List.set_getElem_self hi
    rw [JSRuntime.abs_of hp hsh, ← hwrite, hsame]
  · rw [if_pos hflags]
    obtain ⟨rt₁, n, hrt₁, helse₁, hsole₁⟩ := jsShapePrepareUpdate_ok h hp hsh
    have hwf := hsole₁.inv.wf _ _ hsole₁.shape
    have hatoms : (sh.prop.set i { pr with flags }).map JSShapeProperty.atom =
        sh.prop.map JSShapeProperty.atom := by
      obtain ⟨hi, rfl⟩ := List.getElem?_eq_some_iff.mp hpr
      rw [List.map_set]
      conv_rhs => rw [← List.set_getElem_self hi, List.map_set]
    have htable : Table sh.propHash (sh.prop.set i { pr with flags }) := by
      have hkeys : keys sh.propHash.length (sh.prop.set i { pr with flags }) = keys sh.propHash.length sh.prop :=
        keys_set_same hpr rfl
      have hnexts : nexts (sh.prop.set i { pr with flags }) = nexts sh.prop := nexts_set_same hpr rfl
      unfold Table
      rw [hkeys, hnexts, List.length_set]
      exact hwf.table
    have hwf' : JSShape.WF { sh with
        refCount := 1, isHashed := false, prop := sh.prop.set i { pr with flags } } :=
      hwf.rechain hwf.size hatoms hwf.room htable rfl id rfl hwf.hash
    obtain ⟨hsole₂, helse₂⟩ := hsole₁.change rfl hwf' rfl rfl rfl
    refine ⟨_, ?_, .of_elsewhere hsole₂.inv (helse₁.trans helse₂) (hwrite ▸ hsole₂.abs)⟩
    show (jsShapePrepareUpdate o rt).bind _ = _
    rw [hrt₁]
    show (rt₁.objects o).bind _ = _
    rw [hsole₁.object]
    show (rt₁.shapes n).bind _ = _
    rw [hsole₁.shape]
    show (sh.prop[i]?).bind _ = _
    rw [hpr]
    rfl

/-- **`JS_SetPrototypeInternal`** -/
theorem jsSetPrototype_became (h : Inv none none rt) (hp : rt.objects o = some p)
    (hsh : rt.shapes p.shape = some sh) (proto : Option ℕ) :
    ∃ rt', jsSetPrototype o proto rt = some rt' ∧
      Became rt rt' o (some ⟨proto, entries sh.prop p.prop⟩) := by
  obtain ⟨rt₁, n, hrt₁, helse₁, hsole₁⟩ := jsShapePrepareUpdate_ok h hp hsh
  have hwf := hsole₁.inv.wf _ _ hsole₁.shape
  have hwf' : JSShape.WF { sh with refCount := 1, isHashed := false, proto } :=
    hwf.rechain hwf.size rfl hwf.room hwf.table rfl id rfl hwf.hash
  obtain ⟨hsole₂, helse₂⟩ := hsole₁.change rfl hwf' rfl rfl rfl
  refine ⟨_, ?_, .of_elsewhere hsole₂.inv (helse₁.trans helse₂) hsole₂.abs⟩
  unfold jsSetPrototype
  rw [hrt₁]
  show (rt₁.objects o).bind _ = _
  rw [hsole₁.object]
  show (rt₁.shapes n).bind _ = _
  rw [hsole₁.shape]
  rfl

/-- **`compact_properties`**, of a shape with free entries. -/
theorem compactProperties_ok [Inhabited V] (h : Sole none rt o p sh) (hunhashed : sh.isHashed = false)
    (hdeleted : 8 ≤ sh.deletedPropCount) :
    ∃ rt', compactProperties o rt = some rt' ∧
      Became rt rt' o (some ⟨sh.proto, entries sh.prop p.prop⟩) := by
  have hwf := h.inv.wf _ sh h.shape
  have hlength := h.inv.length_prop h.object h.shape
  have hroom := hwf.room
  have hle : sh.deletedPropCount ≤ sh.prop.length := by
    rw [hwf.deleted]
    exact Nat.le_trans List.count_le_length (Nat.le_of_eq (List.length_map _))
  have hpos : 0 < shrinkHash sh.propHash.length sh.propHash.length
      (max 2 (sh.prop.length - sh.deletedPropCount)) :=
    shrinkHash_pos (Nat.lt_of_lt_of_le Nat.zero_lt_two (Nat.le_max_left _ _)) _ hwf.size
  obtain ⟨propHash, kept, values, hloop, hkept, hvlength, hwf', hentries⟩ :=
    hwf.compact (hlength ▸ hroom) hpos
  have hout : outOf p.shape sh = none := if_neg (by rw [hunhashed]; exact Bool.false_ne_true)
  have hinv₀ : Inv none (outOf p.shape sh) rt := hout.symm ▸ h.inv
  obtain ⟨hinv, helse⟩ := hinv₀.replaced h.object h.shape h.count
    ⟨rt.nextShape, reallocProp values (max 2 (sh.prop.length - sh.deletedPropCount))⟩ (rt.nextShape + 1) hwf'
    h.count (length_reallocProp _ _) (.inr (Nat.le_refl _)) (Nat.lt_succ_self _) (Nat.le_succ _)
  have hout' : outOf rt.nextShape (compactedShape sh propHash kept) = none :=
    if_neg (by show ¬ sh.isHashed = true; rw [hunhashed]; exact Bool.false_ne_true)
  rw [hout'] at hinv
  refine ⟨_, ?_, .of_elsewhere hinv helse ?_⟩
  · have hnot : ¬ (sh.isHashed = true ∨ sh.propSize < max 2 (sh.prop.length - sh.deletedPropCount)) := by
      rintro (hhashed | hsmall)
      · rw [hunhashed] at hhashed
        cases hhashed
      · omega
    unfold compactProperties
    rw [h.object]
    show (rt.shapes p.shape).bind _ = _
    rw [h.shape]
    show (if sh.isHashed = true ∨ _ then _ else _) = _
    rw [if_neg hnot]
    show (compactLoop 0 sh.prop (List.replicate _ 0) [] p.prop).bind _ = _
    rw [hloop]
    exact if_neg (not_not_intro hkept)
  · have hobj : (rt.replaced o p.shape ⟨rt.nextShape, reallocProp values
        (max 2 (sh.prop.length - sh.deletedPropCount))⟩ (compactedShape sh propHash kept)
        (rt.nextShape + 1)).objects o = some ⟨rt.nextShape, reallocProp values
        (max 2 (sh.prop.length - sh.deletedPropCount))⟩ := Function.update_self _ _ _
    rw [JSRuntime.abs_of hobj (Function.update_self _ _ _)]
    show some (Obj.mk sh.proto (entries kept (reallocProp values _))) = _
    rw [entries_reallocProp (Nat.le_trans (Nat.le_of_eq hkept) (Nat.le_max_right _ _)) (by omega), hentries]

theorem compactIfNeeded_ok [Inhabited V] (h : Sole none rt o p sh) (hunhashed : sh.isHashed = false) :
    ∃ rt', compactIfNeeded o sh rt = some rt' ∧
      Became rt rt' o (some ⟨sh.proto, entries sh.prop p.prop⟩) := by
  unfold compactIfNeeded
  split
  next hneeded => exact compactProperties_ok h hunhashed hneeded.1
  · exact ⟨rt, rfl, .refl h.inv h.abs⟩

/-- What `delete_property` answers. -/
def deleted (atom : ℕ) (props : List (ℕ × ℕ × V)) : Option Bool :=
  (lookup atom props).map fun e => isConfigurable e.1

/-- What `delete_property` leaves. -/
def deleteFrom (atom : ℕ) (props : List (ℕ × ℕ × V)) : List (ℕ × ℕ × V) :=
  if deleted atom props = some true then remove atom props else props

/-- **`delete_property`** -/
theorem deleteProperty_ok [Inhabited V] (h : Inv none none rt) (hp : rt.objects o = some p)
    (hsh : rt.shapes p.shape = some sh) (hatom : atom ≠ jsAtomNull) :
    ∃ rt', deleteProperty o atom rt = some (deleted atom (entries sh.prop p.prop), rt') ∧
      Became rt rt' o (some ⟨sh.proto, deleteFrom atom (entries sh.prop p.prop)⟩) := by
  unfold deleteProperty
  rw [hp]
  show ∃ rt', (rt.shapes p.shape).bind _ = some (_, rt') ∧ _
  rw [hsh]
  show ∃ rt', (sh.find atom).bind _ = some (_, rt') ∧ _
  unfold deleteFrom
  rcases find_lookup h hp hsh hatom with
    ⟨hfind, hlookup⟩ | ⟨l₁, i, l₂, pr, v, hchain, hpr, hv, hpratom, hfind, hlookup⟩
  · have hdeleted : deleted atom (entries sh.prop p.prop) = none := by
      unfold deleted
      rw [hlookup]
      rfl
    rw [hfind, hdeleted, if_neg (Option.some_ne_none true).symm]
    exact ⟨rt, rfl, .refl h (JSRuntime.abs_of hp hsh)⟩
  · have hdeleted : deleted atom (entries sh.prop p.prop) = some (isConfigurable pr.flags) := by
      unfold deleted
      rw [hlookup]
      rfl
    rw [hfind, hdeleted]
    show ∃ rt', (sh.prop[i]?).bind _ = some (_, rt') ∧ _
    rw [hpr]
    show ∃ rt', (if (!isConfigurable pr.flags) = true then _ else _) = some (_, rt') ∧ _
    cases hconf : isConfigurable pr.flags with
    | false => exact ⟨rt, rfl, .refl h (JSRuntime.abs_of hp hsh)⟩
    | true =>
      -- The shape becomes that of the object alone; then the entry goes, and the value.
      obtain ⟨rt₁, n, hrt₁, helse₁, hsole₁⟩ := jsShapePrepareUpdate_ok h hp hsh
      have hwf₁ := hsole₁.inv.wf _ _ hsole₁.shape
      obtain ⟨sh₂, hsh₂, hwf₂, hremoved⟩ := hwf₁.remove rfl hatom hchain hpr hpratom
      have hunhashed₂ : sh₂.isHashed = false := hremoved.same.isHashed
      obtain ⟨hsole₂, helse₂⟩ := hsole₁.change rfl hwf₂ hremoved.same.refCount hunhashed₂ hremoved.propSize
      obtain ⟨hset, hinv₃, helse₃, hobj₃⟩ := setValue_ok hsole₂.inv hsole₂.object hsole₂.shape
        (List.getElem?_eq_some_iff.mp hv).1 default
      obtain ⟨rt₄, hrt₄, hbecame⟩ := compactIfNeeded_ok ⟨hinv₃, hobj₃, hsole₂.shape, hsole₂.count⟩ hunhashed₂
      have hentries : entries sh₂.prop (p.prop.set i default) = remove atom (entries sh.prop p.prop) := by
        rw [entries_name hremoved.name, ← hpratom]
        exact entries_remove hpr hv (h.wf _ sh hsh).distinct (hpratom ▸ hatom) rfl
      have hproto : sh₂.proto = sh.proto := hremoved.same.proto
      refine ⟨rt₄, ?_, .of_elsewhere hbecame.inv
        (helse₁.trans (helse₂.trans (helse₃.trans fun o' ho' => ?_))) ?_⟩
      · show (jsShapePrepareUpdate o rt).bind _ = _
        rw [hrt₁]
        show (rt₁.objects o).bind _ = _
        rw [hsole₁.object]
        show (rt₁.shapes n).bind _ = _
        rw [hsole₁.shape]
        show (removeEntry _ _ i l₁.getLast?).bind _ = _
        rw [hsh₂]
        show (setValue o i default (rt₁.setShape n (some sh₂))).bind _ = _
        rw [hset]
        show (compactIfNeeded o sh₂ _).bind _ = _
        rw [hrt₄]
        rfl
      · rw [hbecame.abs, Function.update_of_ne ho']
      · rw [hbecame.abs, Function.update_self, hproto]
        show some (Obj.mk sh.proto (entries sh₂.prop (p.prop.set i default))) = some ⟨sh.proto, remove _ _⟩
        rw [hentries]

/-! ## Objects that come and go -/

/-- An object more, with the shape that is in hand. -/
theorem Inv.addObject (h : Inv (some p.shape) none rt) (ho : rt.objects o = none)
    (hsh : rt.shapes p.shape = some sh) (hlength : p.prop.length = sh.propSize) :
    Became rt { rt.setObject o (some p) with gcObjList := rt.gcObjList ++ [o] } o
      (some ⟨sh.proto, entries sh.prop p.prop⟩) := by
  have hobjects := rt.objects_setObject (o := o) (some p)
  have hnot : o ∉ rt.gcObjList := by
    intro hmem
    obtain ⟨q, hq⟩ := (h.listed o).mp hmem
    rw [ho] at hq
    cases hq
  have husers : ∀ m, JSRuntime.users { rt.setObject o (some p) with gcObjList := rt.gcObjList ++ [o] } m =
      rt.users m + if p.shape = m then 1 else 0 := by
    intro m
    show (rt.gcObjList ++ [o]).countP ((rt.setObject o (some p)).uses m) = _
    rw [List.countP_append, rt.countP_setObject hnot, List.countP_singleton, JSRuntime.uses_setObject]
    simp only [Option.any_some, decide_eq_true_eq]
    rfl
  refine .of_elsewhere ⟨h.wf, ?_, h.positive, h.alone, h.fresh, ?_, ?_, ?_, ?_, h.chain, h.table⟩ ?_ ?_
  · intro m sh' hsh'
    rw [husers, inHand_none, Nat.add_zero, ← inHand_some]
    exact h.counts m sh' hsh'
  · intro m hm
    cases hm
  · intro o' q hq
    change (rt.setObject o (some p)).objects o' = some q at hq
    rw [hobjects] at hq
    split at hq
    · obtain rfl := Option.some.inj hq
      exact ⟨sh, hsh, hlength⟩
    · exact h.objects o' q hq
  · intro o'
    show o' ∈ rt.gcObjList ++ [o] ↔ ∃ q, (rt.setObject o (some p)).objects o' = some q
    rw [hobjects, List.mem_append, List.mem_singleton, h.listed]
    split
    next heq => exact ⟨fun _ => ⟨p, rfl⟩, fun _ => .inr heq⟩
    next hne => exact ⟨fun hor => hor.resolve_right hne, .inl⟩
  · exact List.nodup_append.mpr ⟨h.nodup, List.nodup_singleton o, fun a ha b hb heq =>
      hnot (List.mem_singleton.mp hb ▸ heq ▸ ha)⟩
  · intro o' ho'
    unfold JSRuntime.abs
    show ((rt.setObject o (some p)).objects o').bind _ = _
    rw [hobjects, if_neg ho']
    rfl
  · have hobj : JSRuntime.objects { rt.setObject o (some p) with gcObjList := rt.gcObjList ++ [o] } o = some p :=
      Function.update_self _ _ _
    exact JSRuntime.abs_of hobj hsh

/-- An object less, whose shape is in hand now. -/
theorem Inv.removeObject (h : Inv none none rt) (hp : rt.objects o = some p) :
    Inv (some p.shape) none { rt.setObject o none with gcObjList := rt.gcObjList.erase o } ∧
      JSRuntime.abs { rt.setObject o none with gcObjList := rt.gcObjList.erase o } =
        Function.update rt.abs o none := by
  have hobjects := rt.objects_setObject (o := o) none
  have hnot : o ∉ rt.gcObjList.erase o := h.nodup.not_mem_erase
  have husers : ∀ m, JSRuntime.users { rt.setObject o none with gcObjList := rt.gcObjList.erase o } m +
      (if p.shape = m then 1 else 0) = rt.users m := by
    intro m
    rw [h.users_erase hp m]
    show (rt.gcObjList.erase o).countP ((rt.setObject o none).uses m) + _ = _
    rw [rt.countP_setObject hnot]
  refine ⟨⟨h.wf, ?_, h.positive, h.alone, h.fresh, ?_, ?_, ?_, h.nodup.erase o, h.chain, h.table⟩, ?_⟩
  · intro m sh' hsh'
    have hcount := h.counts m sh' hsh'
    have hm := husers m
    rw [inHand_none] at hcount
    rw [inHand_some]
    omega
  · intro m hm
    obtain ⟨sh, hsh, -⟩ := h.objects o p hp
    exact ⟨sh, Option.some.inj hm ▸ hsh⟩
  · intro o' q hq
    change (rt.setObject o none).objects o' = some q at hq
    rw [hobjects] at hq
    split at hq
    · cases hq
    · exact h.objects o' q hq
  · intro o'
    show o' ∈ rt.gcObjList.erase o ↔ ∃ q, (rt.setObject o none).objects o' = some q
    rw [hobjects, h.nodup.mem_erase_iff, h.listed]
    split
    next heq => exact ⟨fun hmem => absurd heq hmem.1, by rintro ⟨q, hq⟩; cases hq⟩
    next hne => exact ⟨fun hmem => hmem.2, fun hmem => ⟨hne, hmem⟩⟩
  · funext o'
    rw [Function.update_apply]
    unfold JSRuntime.abs
    show ((rt.setObject o none).objects o').bind _ = _
    rw [hobjects]
    split
    · rfl
    · rfl

theorem emptyShape_wf (proto : Option ℕ) : (emptyShape proto).WF where
  size := Nat.succ_pos 3
  room := Nat.zero_le 2
  short := Nat.two_pow_pos 26
  table := table_nil 4
  distinct := List.nodup_nil
  deleted := rfl
  hashed _ := rfl
  small _ hpr := absurd hpr List.not_mem_nil
  hash := shapeHash_lt _ _

/-- `find_hashed_shape_proto` -/
theorem findHashedShapeProto_ok (h : Inv none none rt) (proto : Option ℕ) :
    findHashedShapeProto proto rt = some none ∨
      ∃ n sh, rt.shapes n = some sh ∧ sh.isHashed = true ∧ sh.proto = proto ∧ sh.prop = [] ∧
        findHashedShapeProto proto rt = some (some n) := by
  rcases findShape_ok (h.chain_shapes _) with hnone | ⟨n, hn, sh, hsh, htest, hsome⟩
  · exact .inl hnone
  · obtain ⟨-, hproto, hlength⟩ := of_decide_eq_true htest
    exact .inr ⟨n, sh, hsh, h.isHashed_of_mem hn hsh, hproto, List.eq_nil_of_length_eq_zero hlength, hsome⟩

/-- A shape for an object without properties. -/
theorem shapeForProto_ok (h : Inv none none rt) (proto : Option ℕ) :
    ∃ n rt' sh, shapeForProto proto rt = some (n, rt') ∧ Inv (some n) none rt' ∧ rt'.abs = rt.abs ∧
      rt'.objects = rt.objects ∧ rt'.shapes n = some sh ∧ sh.proto = proto ∧ sh.prop = [] := by
  unfold shapeForProto
  show ∃ n rt' sh, (findHashedShapeProto proto rt).bind _ = some (n, rt') ∧ _
  rcases findHashedShapeProto_ok h proto with hnone | ⟨n, sh, hsh, hhashed, hproto, hprop, hsome⟩
  · rw [hnone]
    show ∃ n rt' sh, jsNewShape proto rt = some (n, rt') ∧ _
    obtain ⟨rt₁, hrt₁, h₁, hsame₁⟩ := growShapeHash_ok h
    obtain ⟨h₂, habs₂⟩ := h₁.newShape (emptyShape_wf proto) rfl
    have hget : (rt₁.newShape (emptyShape proto)).shapes rt₁.nextShape = some (emptyShape proto) :=
      Function.update_self _ _ _
    obtain ⟨rt₃, hrt₃, h₃, hsame₃⟩ := jsShapeHashLink_ok h₂ hget rfl
    refine ⟨rt₁.nextShape, rt₃, _, ?_, h₃, hsame₃.abs.trans (habs₂.trans hsame₁.abs),
      hsame₃.objects.trans hsame₁.objects, hsame₃.shapes ▸ hget, rfl, rfl⟩
    unfold jsNewShape
    rw [hrt₁]
    show (jsShapeHashLink rt₁.nextShape (rt₁.newShape (emptyShape proto))).bind _ = _
    rw [hrt₃]
    rfl
  · obtain ⟨hdup, hinv, habs⟩ := jsDupShape_ok h hsh hhashed
    rw [hsome]
    refine ⟨n, _, _, ?_, hinv, habs, rfl, Function.update_self _ _ _, hproto, hprop⟩
    show (jsDupShape n rt).bind _ = _
    rw [hdup]
    rfl

/-- **`JS_NewObjectProtoClass`** -/
theorem jsNewObject_ok [Inhabited V] (h : Inv none none rt) (ho : rt.objects o = none) (proto : Option ℕ) :
    ∃ rt', jsNewObject o proto rt = some rt' ∧ Became rt rt' o (some ⟨proto, []⟩) := by
  obtain ⟨n, rt₁, sh, hrt₁, h₁, habs, hobjects, hsh, hproto, hprop⟩ := shapeForProto_ok h proto
  have hbecame := Inv.addObject (p := ⟨n, List.replicate sh.propSize default⟩) h₁ (hobjects ▸ ho) hsh
    List.length_replicate
  refine ⟨_, ?_, hbecame.inv, ?_⟩
  · unfold jsNewObject
    rw [hrt₁]
    show (rt₁.shapes n).bind _ = _
    rw [hsh]
    rfl
  · rw [hbecame.abs, habs, hproto, hprop]
    rfl

/-- **`free_object`** -/
theorem freeObject_ok (h : Inv none none rt) (hp : rt.objects o = some p) :
    ∃ rt', freeObject o rt = some rt' ∧ Became rt rt' o none := by
  obtain ⟨hinv, habs⟩ := h.removeObject hp
  obtain ⟨rt₂, hrt₂, hfreed⟩ := jsFreeShape_ok hinv
  have hcommute := jsFreeShape_withObjects rt (fun objects => Function.update objects o none)
    (fun l => l.erase o) p.shape
  obtain ⟨rt₁, hrt₁, hset⟩ := Option.map_eq_some_iff.mp (hcommute.symm.trans hrt₂)
  refine ⟨rt₂, ?_, hfreed.inv, hfreed.abs.trans habs⟩
  unfold freeObject
  rw [hp]
  show (jsFreeShape p.shape rt).bind _ = _
  rw [hrt₁]
  exact congrArg some hset

end Functions

/-! ## Runs -/

/-- What is done to objects. -/
inductive Action (V : Type)
  | new (o : ℕ) (proto : Option ℕ)
  | add (o atom flags : ℕ) (value : V)
  | get (o atom : ℕ)
  | delete (o atom : ℕ)
  | setValue (o atom : ℕ) (value : V)
  | setFlags (o atom flags : ℕ)
  | setPrototype (o : ℕ) (proto : Option ℕ)
  | free (o : ℕ)
deriving DecidableEq, Repr

inductive Answer (V : Type)
  | done
  | found (property : Option (ℕ × V))
  | deleted (property : Option Bool)
deriving DecidableEq, Repr

/-- The objects without shapes. -/
abbrev Heap (V : Type) := ℕ → Option (Obj V)

namespace Heap

variable (s : Heap V)

/-- The properties of an object become others. -/
def change (o : ℕ) (f : List (ℕ × ℕ × V) → List (ℕ × ℕ × V)) : Heap V :=
  Function.update s o ((s o).map fun x => { x with props := f x.props })

def act : Action V → Answer V × Heap V
  | .new o proto => (.done, Function.update s o (some ⟨proto, []⟩))
  | .add o atom flags value => (.done, s.change o (· ++ [(atom, flags, value)]))
  | .get o atom => (.found ((s o).bind fun x => lookup atom x.props), s)
  | .delete o atom => (.deleted ((s o).bind fun x => deleted atom x.props), s.change o (deleteFrom atom))
  | .setValue o atom value => (.done, s.change o (overwrite atom fun e => (e.1, value)))
  | .setFlags o atom flags => (.done, s.change o (overwrite atom fun e => (flags, e.2)))
  | .setPrototype o proto => (.done, Function.update s o ((s o).map fun x => { x with proto }))
  | .free o => (.done, Function.update s o none)

/-- The answers so far, and the objects. -/
def perform (t : List (Answer V) × Heap V) (a : Action V) : List (Answer V) × Heap V :=
  (t.1 ++ [(act t.2 a).1], (act t.2 a).2)

theorem change_of {s : Heap V} {o : ℕ} {x : Obj V} (h : s o = some x)
    (f : List (ℕ × ℕ × V) → List (ℕ × ℕ × V)) :
    s.change o f = Function.update s o (some ⟨x.proto, f x.props⟩) := by
  unfold change
  rw [h]
  rfl

end Heap

namespace JSRuntime

variable [Inhabited V] (rt : JSRuntime V)

def act : Action V → Option (Answer V × JSRuntime V)
  | .new o proto => (jsNewObject o proto rt).map fun rt => (.done, rt)
  | .add o atom flags value => (addPropertyValue o atom flags value rt).map fun rt => (.done, rt)
  | .get o atom => (findOwnProperty o atom rt).map fun r => (.found r, rt)
  | .delete o atom => (deleteProperty o atom rt).map fun r => (.deleted r.1, r.2)
  | .setValue o atom value => (withProperty o atom (Shapes.setValue o · value) rt).map fun rt => (.done, rt)
  | .setFlags o atom flags =>
    (withProperty o atom (jsUpdatePropertyFlags o · flags) rt).map fun rt => (.done, rt)
  | .setPrototype o proto => (jsSetPrototype o proto rt).map fun rt => (.done, rt)
  | .free o => (freeObject o rt).map fun rt => (.done, rt)

/-- The answers so far, and the objects. -/
def perform (t : List (Answer V) × JSRuntime V) (a : Action V) : Option (List (Answer V) × JSRuntime V) :=
  (act t.2 a).map fun r => (t.1 ++ [r.1], r.2)

/-- The object is there, and the atom is one. -/
def Has (o atom : ℕ) : Prop := (rt.objects o).isSome = true ∧ atom ≠ jsAtomNull ∧ atom < 2 ^ 32

/-- The object has room for an index of 26 bits. -/
def HasRoom (o : ℕ) : Prop :=
  ((rt.objects o).any fun p => (rt.shapes p.shape).any fun sh => sh.prop.length + 1 < 2 ^ 26) = true

/-- An object is new where there is none, and a property where the object does not have it; flags have six
bits. -/
def Allows : Action V → Prop
  | .new o _ => (rt.objects o).isNone = true
  | .add o atom flags _ =>
    rt.Has o atom ∧ flags < 64 ∧ ((rt.abs o).all fun x => (lookup atom x.props).isNone) = true ∧ rt.HasRoom o
  | .get o atom | .delete o atom | .setValue o atom _ => rt.Has o atom
  | .setFlags o atom flags => rt.Has o atom ∧ flags < 64
  | .setPrototype o _ | .free o => (rt.objects o).isSome = true

instance (o atom : ℕ) : Decidable (rt.Has o atom) := inferInstanceAs (Decidable (_ ∧ _ ∧ _))

instance (o : ℕ) : Decidable (rt.HasRoom o) := inferInstanceAs (Decidable (_ = true))

instance : (a : Action V) → Decidable (rt.Allows a)
  | .new _ _ => inferInstanceAs (Decidable (_ = true))
  | .add o atom _ _ => inferInstanceAs (Decidable (rt.Has o atom ∧ _ ∧ _ = true ∧ rt.HasRoom o))
  | .get o atom | .delete o atom | .setValue o atom _ => inferInstanceAs (Decidable (rt.Has o atom))
  | .setFlags o atom _ => inferInstanceAs (Decidable (rt.Has o atom ∧ _))
  | .setPrototype _ _ | .free _ => inferInstanceAs (Decidable (_ = true))

end JSRuntime

section Runs

variable [Inhabited V] {rt : JSRuntime V}

omit [Inhabited V] in
theorem inv_jsNewRuntime : Inv none none (jsNewRuntime : JSRuntime V) where
  wf _ _ h := by cases h
  counts _ _ h := by cases h
  positive _ _ h := by cases h
  alone _ _ h := by cases h
  fresh _ _ h := by cases h
  held _ h := by cases h
  objects _ _ h := by cases h
  listed _ := ⟨fun h => absurd h List.not_mem_nil, by rintro ⟨p, hp⟩; cases hp⟩
  nodup := List.nodup_nil
  chain _ := List.nodup_nil
  table _ _ := ⟨fun h => absurd h List.not_mem_nil, by rintro ⟨-, sh, hsh, -⟩; cases hsh⟩

/-- **What is done to the objects is done to the lists**, and the answers are the same. -/
theorem act_ok (h : Inv none none rt) {a : Action V} (ha : rt.Allows a) :
    ∃ rt', rt.act a = some ((Heap.act rt.abs a).1, rt') ∧ Inv none none rt' ∧
      rt'.abs = (Heap.act rt.abs a).2 := by
  have hobject : ∀ {o}, (rt.objects o).isSome = true → ∃ p sh, rt.objects o = some p ∧
      rt.shapes p.shape = some sh ∧ rt.abs o = some ⟨sh.proto, entries sh.prop p.prop⟩ := by
    intro o ho
    obtain ⟨p, hp⟩ := Option.isSome_iff_exists.mp ho
    obtain ⟨sh, hsh, -⟩ := h.objects o p hp
    exact ⟨p, sh, hp, hsh, JSRuntime.abs_of hp hsh⟩
  cases a with
  | new o proto =>
    obtain ⟨rt', hrt', hbecame⟩ := jsNewObject_ok h (Option.isNone_iff_eq_none.mp ha) proto
    exact ⟨rt', congrArg (Option.map fun rt => (Answer.done, rt)) hrt', hbecame.inv, hbecame.abs⟩
  | add o atom flags value =>
    obtain ⟨⟨ho, hatom, -⟩, -, hnew, hroom⟩ := ha
    obtain ⟨p, sh, hp, hsh, habs⟩ := hobject ho
    have hshort : sh.prop.length + 1 < 2 ^ 26 := by
      unfold JSRuntime.HasRoom at hroom
      rw [hp] at hroom
      change ((rt.shapes p.shape).any _) = true at hroom
      rw [hsh] at hroom
      exact of_decide_eq_true hroom
    rw [habs] at hnew
    obtain ⟨rt', hrt', hbecame⟩ := addPropertyValue_ok h hp hsh hatom (Option.isNone_iff_eq_none.mp hnew) hshort
      flags value
    exact ⟨rt', congrArg (Option.map fun rt => (Answer.done, rt)) hrt', hbecame.inv,
      hbecame.abs.trans (Heap.change_of habs (· ++ [(atom, flags, value)])).symm⟩
  | get o atom =>
    obtain ⟨p, sh, hp, hsh, habs⟩ := hobject ha.1
    have hfind : findOwnProperty o atom rt = some ((rt.abs o).bind fun x => lookup atom x.props) := by
      rw [findOwnProperty_ok h hp hsh ha.2.1, habs]
      rfl
    exact ⟨rt, congrArg (Option.map fun r => (Answer.found r, rt)) hfind, h, rfl⟩
  | delete o atom =>
    obtain ⟨p, sh, hp, hsh, habs⟩ := hobject ha.1
    obtain ⟨rt', hrt', hbecame⟩ := deleteProperty_ok h hp hsh ha.2.1
    have hdelete : deleteProperty o atom rt = some ((rt.abs o).bind fun x => deleted atom x.props, rt') := by
      rw [hrt', habs]
      rfl
    have hact : rt.act (.delete o atom) =
        some (.deleted ((rt.abs o).bind fun x => deleted atom x.props), rt') := by
      show (deleteProperty o atom rt).map _ = _
      rw [hdelete]
      rfl
    exact ⟨rt', hact, hbecame.inv,
      hbecame.abs.trans (Heap.change_of habs (deleteFrom atom)).symm⟩
  | setValue o atom value =>
    obtain ⟨p, sh, hp, hsh, habs⟩ := hobject ha.1
    obtain ⟨rt', hrt', hbecame⟩ := setValue_became h hp hsh ha.2.1 value
    exact ⟨rt', congrArg (Option.map fun rt => (Answer.done, rt)) hrt', hbecame.inv,
      hbecame.abs.trans (Heap.change_of habs (overwrite atom fun e => (e.1, value))).symm⟩
  | setFlags o atom flags =>
    obtain ⟨p, sh, hp, hsh, habs⟩ := hobject ha.1.1
    obtain ⟨rt', hrt', hbecame⟩ := jsUpdatePropertyFlags_became h hp hsh ha.1.2.1 flags
    exact ⟨rt', congrArg (Option.map fun rt => (Answer.done, rt)) hrt', hbecame.inv,
      hbecame.abs.trans (Heap.change_of habs (overwrite atom fun e => (flags, e.2))).symm⟩
  | setPrototype o proto =>
    obtain ⟨p, sh, hp, hsh, habs⟩ := hobject ha
    obtain ⟨rt', hrt', hbecame⟩ := jsSetPrototype_became h hp hsh proto
    refine ⟨rt', congrArg (Option.map fun rt => (Answer.done, rt)) hrt', hbecame.inv, hbecame.abs.trans ?_⟩
    show _ = Function.update rt.abs o ((rt.abs o).map _)
    rw [habs]
    rfl
  | free o =>
    obtain ⟨p, sh, hp, hsh, habs⟩ := hobject ha
    obtain ⟨rt', hrt', hbecame⟩ := freeObject_ok h hp
    exact ⟨rt', congrArg (Option.map fun rt => (Answer.done, rt)) hrt', hbecame.inv, hbecame.abs⟩

/-- The code and the lists, after the same run. -/
def SameObjects (t : List (Answer V) × JSRuntime V) (t' : List (Answer V) × Heap V) : Prop :=
  Inv none none t.2 ∧ t.1 = t'.1 ∧ t.2.abs = t'.2

theorem perform_simulates (t : List (Answer V) × JSRuntime V) (t' : List (Answer V) × Heap V) (a : Action V)
    (h : SameObjects t t') (ha : t.2.Allows a) :
    ∃ t₁, JSRuntime.perform t a = some t₁ ∧ SameObjects t₁ (Heap.perform t' a) := by
  obtain ⟨hinv, hanswers, habs⟩ := h
  obtain ⟨rt', hrt', hinv', habs'⟩ := act_ok hinv ha
  refine ⟨(t.1 ++ [(Heap.act t.2.abs a).1], rt'), ?_, hinv', ?_, ?_⟩
  · unfold JSRuntime.perform
    rw [hrt']
    rfl
  · show _ = t'.1 ++ [(Heap.act t'.2 a).1]
    rw [hanswers, habs]
  · show _ = (Heap.act t'.2 a).2
    rw [habs', habs]

omit [Inhabited V] in
theorem sameObjects_init : SameObjects ([], (jsNewRuntime : JSRuntime V)) ([], fun _ => none) :=
  ⟨inv_jsNewRuntime, rfl, rfl⟩

/-- **Objects do not see that they share shapes**: in every run each question is answered as if each object
had its own list of properties, and in the end each has the properties of its list, in their order. -/
theorem run_objects (as : List (Action V))
    (h : Permits JSRuntime.perform (fun t => t.2.Allows) ([], jsNewRuntime) as) :
    ∃ answers rt, run JSRuntime.perform ([], jsNewRuntime) as = some (answers, rt) ∧
      (answers, rt.abs) = as.foldl Heap.perform ([], fun _ => none) := by
  obtain ⟨⟨answers, rt⟩, hrun, -, hanswers, habs⟩ := run_simulates perform_simulates as sameObjects_init h
  exact ⟨answers, rt, hrun, Prod.ext hanswers habs⟩

/-- Two objects with a shape of theirs in common, until one loses a property and the other gets other flags
for it; then one with so many properties that the hash table grows twice, and a shape that is compacted when
they go. -/
def sharedRun : List (Action ℕ) :=
  [.new 0 none, .new 1 none, .add 0 40 7 1, .add 1 40 7 2, .add 0 41 7 3, .setValue 1 40 4, .delete 0 40,
    .get 0 40, .get 1 40, .setFlags 1 40 5, .add 1 42 7 5, .setPrototype 1 (some 0), .free 0, .delete 1 40,
    .get 1 42, .new 2 none, .add 2 43 7 0, .add 2 44 7 1, .add 2 45 7 2, .add 2 46 7 3, .add 2 47 7 4,
    .add 2 48 7 5, .add 2 49 7 6, .add 2 50 7 7, .add 2 51 7 8, .delete 2 43, .delete 2 44, .delete 2 45,
    .delete 2 46, .delete 2 47, .delete 2 48, .delete 2 49, .delete 2 50, .get 2 51, .get 2 43]

theorem sharedRun_permits : Permits JSRuntime.perform (fun t => t.2.Allows) ([], jsNewRuntime) sharedRun := by
  decide +kernel

theorem run_objects_sharedRun :
    ∃ answers rt, run JSRuntime.perform ([], jsNewRuntime) sharedRun = some (answers, rt) ∧
      (answers, rt.abs) = sharedRun.foldl Heap.perform ([], fun _ => none) :=
  run_objects sharedRun sharedRun_permits

/-- **The counts of the shapes are exact in every run**: a shape that is there has an object, a shape that is
not in the table has one only, and one without small array indices has no property with such a name. -/
theorem run_shapes (as : List (Action V))
    (h : Permits JSRuntime.perform (fun t => t.2.Allows) ([], jsNewRuntime) as) :
    ∃ answers rt, run JSRuntime.perform ([], (jsNewRuntime : JSRuntime V)) as = some (answers, rt) ∧
      ∀ n sh, rt.shapes n = some sh →
        sh.refCount = rt.users n ∧ 0 < rt.users n ∧ (sh.isHashed = false → rt.users n = 1) ∧
          (sh.hasSmallArrayIndex = false → ∀ pr ∈ sh.prop, jsAtomIsTaggedInt pr.atom = false) := by
  obtain ⟨⟨answers, rt⟩, hrun, hinv, -⟩ := run_simulates perform_simulates as sameObjects_init h
  refine ⟨answers, rt, hrun, fun n sh hsh => ?_⟩
  have hcount : sh.refCount = rt.users n := hinv.counts n sh hsh
  refine ⟨hcount, hcount ▸ hinv.positive n sh hsh, fun hhashed => hcount ▸ hinv.alone n sh hsh hhashed,
    fun hsmall pr hpr => Bool.eq_false_iff.mpr fun htagged => ?_⟩
  rw [(hinv.wf n sh hsh).small pr hpr htagged] at hsmall
  cases hsmall

theorem run_shapes_sharedRun :
    ∃ answers rt, run JSRuntime.perform ([], jsNewRuntime) sharedRun = some (answers, rt) ∧
      ∀ n sh, rt.shapes n = some sh →
        sh.refCount = rt.users n ∧ 0 < rt.users n ∧ (sh.isHashed = false → rt.users n = 1) ∧
          (sh.hasSmallArrayIndex = false → ∀ pr ∈ sh.prop, jsAtomIsTaggedInt pr.atom = false) :=
  run_shapes sharedRun sharedRun_permits

end Runs

end JSChip.Shapes
