import JSChip.Proof.Shape

/-!
# Shapes that objects share

* `Inv`: the counts of the shapes, the table of the runtime, and the objects. There may be a reference to a
  shape that no object has yet (`hand`), and a shape that is out of the table for a moment (`out`).
* `JSRuntime.abs`: an object as its prototype and its properties say.
* `jsShapeHashLink_ok`, `jsFreeShape_ok`, `setObject_ok` and the like: what a function does to both.
-/

namespace JSChip.Shapes

variable {V : Type}

/-- An object as its prototype and its properties say: atom, flags and value, in order. -/
structure Obj (V : Type) where
  proto : Option ℕ
  props : List (ℕ × ℕ × V)
deriving DecidableEq, Repr

namespace JSRuntime

variable (rt : JSRuntime V)

def abs (o : ℕ) : Option (Obj V) :=
  (rt.objects o).bind fun p => (rt.shapes p.shape).map fun sh => ⟨sh.proto, entries sh.prop p.prop⟩

/-- The object has the shape. -/
def uses (n o : ℕ) : Bool := (rt.objects o).any fun p => p.shape = n

/-- How many objects have the shape. -/
def users (n : ℕ) : ℕ := rt.gcObjList.countP (rt.uses n)

end JSRuntime

/-- The reference to the shape that no object has. -/
def inHand (hand : Option ℕ) (n : ℕ) : ℕ := if hand = some n then 1 else 0

/-- A shape that is out of the table, although it is hashed. -/
def outOf (n : ℕ) (sh : JSShape) : Option ℕ := if sh.isHashed then some n else none

theorem outOf_ne {n m : ℕ} (sh : JSShape) (h : m ≠ n) : outOf n sh ≠ some m := by
  unfold outOf
  split
  · exact fun heq => h (Option.some.inj heq).symm
  · exact (Option.some_ne_none m).symm

theorem outOf_self {n : ℕ} {sh : JSShape} (h : outOf n sh ≠ some n) : sh.isHashed = false := by
  unfold outOf at h
  cases hhashed : sh.isHashed with
  | false => rfl
  | true => exact absurd (if_pos hhashed) h

structure Inv (hand out : Option ℕ) (rt : JSRuntime V) : Prop where
  wf : ∀ n sh, rt.shapes n = some sh → sh.WF
  counts : ∀ n sh, rt.shapes n = some sh → sh.refCount = rt.users n + inHand hand n
  positive : ∀ n sh, rt.shapes n = some sh → 0 < sh.refCount
  alone : ∀ n sh, rt.shapes n = some sh → sh.isHashed = false → sh.refCount = 1
  fresh : ∀ n sh, rt.shapes n = some sh → n < rt.nextShape
  held : ∀ n, hand = some n → ∃ sh, rt.shapes n = some sh
  objects : ∀ o p, rt.objects o = some p → ∃ sh, rt.shapes p.shape = some sh ∧ p.prop.length = sh.propSize
  listed : ∀ o, o ∈ rt.gcObjList ↔ ∃ p, rt.objects o = some p
  nodup : rt.gcObjList.Nodup
  chain : ∀ b, (rt.shapeHash b).Nodup
  table : ∀ b n, n ∈ rt.shapeHash b ↔
    out ≠ some n ∧ ∃ sh, rt.shapes n = some sh ∧ sh.isHashed = true ∧
      getShapeHash sh.hash rt.shapeHashBits = b

/-- Only the table is another. -/
structure SameBlocks (rt rt' : JSRuntime V) : Prop where
  shapes : rt'.shapes = rt.shapes
  objects : rt'.objects = rt.objects
  nextShape : rt'.nextShape = rt.nextShape
  gcObjList : rt'.gcObjList = rt.gcObjList

section Table

variable {rt rt' : JSRuntime V} {hand out : Option ℕ} {n : ℕ} {sh : JSShape}

theorem SameBlocks.refl (rt : JSRuntime V) : SameBlocks rt rt := ⟨rfl, rfl, rfl, rfl⟩

theorem SameBlocks.abs (h : SameBlocks rt rt') : rt'.abs = rt.abs := by
  funext o
  unfold JSRuntime.abs
  rw [h.shapes, h.objects]

theorem SameBlocks.users (h : SameBlocks rt rt') : rt'.users = rt.users := by
  funext n
  unfold JSRuntime.users JSRuntime.uses
  rw [h.gcObjList, h.objects]

/-- The same blocks with another table. -/
theorem Inv.retable (h : Inv hand out rt) (hsame : SameBlocks rt rt') {out' : Option ℕ}
    (hchain : ∀ b, (rt'.shapeHash b).Nodup)
    (htable : ∀ b n, n ∈ rt'.shapeHash b ↔
      out' ≠ some n ∧ ∃ sh, rt.shapes n = some sh ∧ sh.isHashed = true ∧
        getShapeHash sh.hash rt'.shapeHashBits = b) : Inv hand out' rt' := by
  obtain ⟨hshapes, hobjects, hnext, hlist⟩ := hsame
  refine ⟨?_, ?_, ?_, ?_, ?_, ?_, ?_, ?_, ?_, hchain, ?_⟩
  · rw [hshapes]
    exact h.wf
  · rw [hshapes, SameBlocks.users ⟨hshapes, hobjects, hnext, hlist⟩]
    exact h.counts
  · rw [hshapes]
    exact h.positive
  · rw [hshapes]
    exact h.alone
  · rw [hshapes, hnext]
    exact h.fresh
  · rw [hshapes]
    exact h.held
  · rw [hshapes, hobjects]
    exact h.objects
  · rw [hlist, hobjects]
    exact h.listed
  · rw [hlist]
    exact h.nodup
  · rw [hshapes]
    exact htable

/-- `js_shape_hash_link` -/
theorem jsShapeHashLink_ok (h : Inv hand (some n) rt) (hsh : rt.shapes n = some sh)
    (hhashed : sh.isHashed = true) :
    ∃ rt', jsShapeHashLink n rt = some rt' ∧ Inv hand none rt' ∧ SameBlocks rt rt' := by
  have hsame : SameBlocks rt { rt with
      shapeHash := Function.update rt.shapeHash (getShapeHash sh.hash rt.shapeHashBits)
        (n :: rt.shapeHash (getShapeHash sh.hash rt.shapeHashBits))
      shapeHashCount := rt.shapeHashCount + 1 } := ⟨rfl, rfl, rfl, rfl⟩
  refine ⟨_, ?_, h.retable hsame ?_ ?_, hsame⟩
  · unfold jsShapeHashLink
    rw [hsh]
    rfl
  · intro b
    show (Function.update rt.shapeHash _ _ b).Nodup
    rw [Function.update_apply]
    split
    · apply List.nodup_cons.mpr ⟨fun hmem => ?_, h.chain _⟩
      exact ((h.table _ n).mp hmem).1 rfl
    · exact h.chain b
  · intro b m
    show m ∈ Function.update rt.shapeHash _ _ b ↔ _
    rw [Function.update_apply]
    by_cases hm : m = n
    · subst hm
      have hiff : (∃ sh', rt.shapes m = some sh' ∧ sh'.isHashed = true ∧
          getShapeHash sh'.hash rt.shapeHashBits = b) ↔ getShapeHash sh.hash rt.shapeHashBits = b := by
        rw [hsh]
        constructor
        · rintro ⟨sh', heq, -, hb⟩
          exact Option.some.inj heq ▸ hb
        · exact fun hb => ⟨sh, rfl, hhashed, hb⟩
      split
      next hb => exact ⟨fun _ => ⟨Option.some_ne_none m |>.symm, hiff.mpr hb.symm⟩, fun _ => List.mem_cons_self⟩
      next hb =>
        exact ⟨fun hmem => absurd rfl ((h.table b m).mp hmem).1, fun hmem => absurd (hiff.mp hmem.2).symm hb⟩
    · have hmem : m ∈ rt.shapeHash b ↔ (none : Option ℕ) ≠ some m ∧ ∃ sh, rt.shapes m = some sh ∧
          sh.isHashed = true ∧ getShapeHash sh.hash rt.shapeHashBits = b := by
        rw [h.table]
        exact ⟨fun hmem => ⟨(Option.some_ne_none m).symm, hmem.2⟩,
          fun hmem => ⟨fun heq => hm (Option.some.inj heq).symm, hmem.2⟩⟩
      split
      next hb =>
        subst hb
        rw [List.mem_cons]
        exact ⟨fun hor => hmem.mp (hor.resolve_left hm), fun hr => .inr (hmem.mpr hr)⟩
      next => exact hmem

/-- `js_shape_hash_unlink` -/
theorem jsShapeHashUnlink_ok (h : Inv hand none rt) (hsh : rt.shapes n = some sh)
    (hhashed : sh.isHashed = true) :
    ∃ rt', jsShapeHashUnlink n rt = some rt' ∧ Inv hand (some n) rt' ∧ SameBlocks rt rt' := by
  have hmem : n ∈ rt.shapeHash (getShapeHash sh.hash rt.shapeHashBits) :=
    (h.table _ n).mpr ⟨(Option.some_ne_none n).symm, sh, hsh, hhashed, rfl⟩
  have hsame : SameBlocks rt { rt with
      shapeHash := Function.update rt.shapeHash (getShapeHash sh.hash rt.shapeHashBits)
        ((rt.shapeHash (getShapeHash sh.hash rt.shapeHashBits)).erase n)
      shapeHashCount := rt.shapeHashCount - 1 } := ⟨rfl, rfl, rfl, rfl⟩
  refine ⟨_, ?_, h.retable hsame ?_ ?_, hsame⟩
  · unfold jsShapeHashUnlink
    rw [hsh]
    exact if_pos hmem
  · intro b
    show (Function.update rt.shapeHash _ _ b).Nodup
    rw [Function.update_apply]
    split
    · exact (h.chain _).erase n
    · exact h.chain b
  · intro b m
    show m ∈ Function.update rt.shapeHash _ _ b ↔ _
    rw [Function.update_apply]
    by_cases hm : m = n
    · subst hm
      refine ⟨fun hin => ?_, fun hin => absurd rfl hin.1⟩
      split at hin
      · exact absurd hin (h.chain _).not_mem_erase
      next hb =>
        obtain ⟨-, sh', hsh', -, hb'⟩ := (h.table b m).mp hin
        rw [hsh] at hsh'
        exact absurd (Option.some.inj hsh' ▸ hb').symm hb
    · have hiff : m ∈ rt.shapeHash b ↔ some n ≠ some m ∧ ∃ sh, rt.shapes m = some sh ∧
          sh.isHashed = true ∧ getShapeHash sh.hash rt.shapeHashBits = b := by
        rw [h.table]
        exact ⟨fun hmem => ⟨fun heq => hm (Option.some.inj heq).symm, hmem.2⟩,
          fun hmem => ⟨(Option.some_ne_none m).symm, hmem.2⟩⟩
      split
      next hb =>
        subst hb
        rw [List.mem_erase_of_ne hm]
        exact hiff
      next => exact hiff

theorem unlinkHashed_ok (h : Inv hand none rt) (hsh : rt.shapes n = some sh) :
    ∃ rt', unlinkHashed n sh rt = some rt' ∧ Inv hand (outOf n sh) rt' ∧ SameBlocks rt rt' := by
  unfold unlinkHashed outOf
  cases hhashed : sh.isHashed with
  | false => exact ⟨rt, rfl, h, .refl rt⟩
  | true => exact jsShapeHashUnlink_ok h hsh hhashed

theorem getShapeHash_lt {h : ℕ} (hh : h < 2 ^ 32) (bits : ℕ) : getShapeHash h bits < 2 ^ bits := by
  unfold getShapeHash
  rw [Nat.shiftRight_eq_div_pow]
  apply Nat.div_lt_of_lt_mul
  rw [← Nat.pow_add]
  exact Nat.lt_of_lt_of_le hh (Nat.pow_le_pow_right Nat.zero_lt_two (by omega))

/-- The loops of `resize_shape_hash`: each shape is pushed on its new chain. -/
theorem foldlM_rehashShape (rt : JSRuntime V) (bits : ℕ) {l : List ℕ}
    (hl : ∀ n ∈ l, ∃ sh, rt.shapes n = some sh) (table : ℕ → List ℕ) :
    ∃ table', l.foldlM (rehashShape rt bits) table = some table' ∧
      ∀ b, table' b = (l.filter fun n =>
        (rt.shapes n).any fun sh => getShapeHash sh.hash bits = b).reverse ++ table b := by
  induction l generalizing table with
  | nil => exact ⟨table, rfl, fun b => rfl⟩
  | cons n l ih =>
    obtain ⟨sh, hsh⟩ := hl n List.mem_cons_self
    obtain ⟨table', hfold, htable⟩ := ih (fun m hm => hl m (List.mem_cons_of_mem n hm))
      (Function.update table (getShapeHash sh.hash bits) (n :: table (getShapeHash sh.hash bits)))
    refine ⟨table', ?_, fun b => ?_⟩
    · have hround : rehashShape rt bits table n =
          some (Function.update table (getShapeHash sh.hash bits) (n :: table (getShapeHash sh.hash bits))) := by
        unfold rehashShape
        rw [hsh]
        rfl
      rw [List.foldlM_cons, hround]
      exact hfold
    · rw [htable, List.filter_cons, hsh, Function.update_apply]
      by_cases hb : getShapeHash sh.hash bits = b
      · subst hb
        simp
      · rw [if_neg (Ne.symm hb), if_neg (by simpa using hb)]

/-- `resize_shape_hash` -/
theorem resizeShapeHash_ok (h : Inv hand none rt) (bits : ℕ) :
    ∃ rt', resizeShapeHash bits rt = some rt' ∧ Inv hand none rt' ∧ SameBlocks rt rt' := by
  have hmem : ∀ n, n ∈ (List.range (2 ^ rt.shapeHashBits)).flatMap rt.shapeHash ↔
      ∃ sh, rt.shapes n = some sh ∧ sh.isHashed = true := by
    intro n
    rw [List.mem_flatMap]
    constructor
    · rintro ⟨b, -, hn⟩
      obtain ⟨-, sh, hsh, hhashed, -⟩ := (h.table b n).mp hn
      exact ⟨sh, hsh, hhashed⟩
    · rintro ⟨sh, hsh, hhashed⟩
      exact ⟨_, List.mem_range.mpr (getShapeHash_lt (h.wf n sh hsh).hash _),
        (h.table _ n).mpr ⟨(Option.some_ne_none n).symm, sh, hsh, hhashed, rfl⟩⟩
  have hnodup : ((List.range (2 ^ rt.shapeHashBits)).flatMap rt.shapeHash).Nodup := by
    apply List.nodup_flatMap.mpr ⟨fun b _ => h.chain b, ?_⟩
    apply (List.nodup_range).imp
    intro b c hne n hb hc
    obtain ⟨-, sh, hsh, -, rfl⟩ := (h.table b n).mp hb
    obtain ⟨-, sh', hsh', -, rfl⟩ := (h.table c n).mp hc
    rw [hsh] at hsh'
    exact hne (Option.some.inj hsh' ▸ rfl)
  obtain ⟨table, hfold, htable⟩ := foldlM_rehashShape rt bits
    (fun n hn => ((hmem n).mp hn).imp fun sh hsh => hsh.1) fun _ => []
  have hsame : SameBlocks rt { rt with shapeHashBits := bits, shapeHash := table } := ⟨rfl, rfl, rfl, rfl⟩
  refine ⟨_, ?_, h.retable hsame ?_ ?_, hsame⟩
  · unfold resizeShapeHash
    rw [hfold]
    rfl
  · intro b
    show (table b).Nodup
    rw [htable, List.append_nil]
    exact List.nodup_reverse.mpr (hnodup.filter _)
  · intro b n
    show n ∈ table b ↔ _ ∧ ∃ sh, rt.shapes n = some sh ∧ sh.isHashed = true ∧ getShapeHash sh.hash bits = b
    rw [htable, List.append_nil, List.mem_reverse, List.mem_filter, hmem]
    constructor
    · rintro ⟨⟨sh, hsh, hhashed⟩, hb⟩
      rw [hsh] at hb
      exact ⟨(Option.some_ne_none n).symm, sh, hsh, hhashed, by simpa using hb⟩
    · rintro ⟨-, sh, hsh, hhashed, hb⟩
      refine ⟨⟨sh, hsh, hhashed⟩, ?_⟩
      rw [hsh]
      simpa using hb

theorem growShapeHash_ok (h : Inv hand none rt) :
    ∃ rt', growShapeHash rt = some rt' ∧ Inv hand none rt' ∧ SameBlocks rt rt' := by
  unfold growShapeHash
  split
  · exact resizeShapeHash_ok h _
  · exact ⟨rt, rfl, h, .refl rt⟩

end Table

/-! ## References -/

section Counting

variable {rt : JSRuntime V} {hand out : Option ℕ} {n m o : ℕ} {sh : JSShape} {p p' : JSObject V}

theorem JSRuntime.uses_of (hp : rt.objects o = some p) (m : ℕ) : rt.uses m o = decide (p.shape = m) := by
  unfold JSRuntime.uses
  rw [hp]
  rfl

theorem JSRuntime.objects_setObject (q : Option (JSObject V)) (o' : ℕ) :
    (rt.setObject o q).objects o' = if o' = o then q else rt.objects o' := Function.update_apply _ _ _ _

theorem JSRuntime.shapes_setShape (rt : JSRuntime V) (sh : Option JSShape) (m : ℕ) :
    (rt.setShape n sh).shapes m = if m = n then sh else rt.shapes m := Function.update_apply _ _ _ _

theorem JSRuntime.uses_setObject (q : Option (JSObject V)) (m : ℕ) :
    (rt.setObject o q).uses m o = q.any fun p => p.shape = m := by
  unfold JSRuntime.uses
  rw [JSRuntime.objects_setObject, if_pos rfl]

/-- The other objects have the shapes that they had. -/
theorem JSRuntime.countP_setObject (rt : JSRuntime V) {l : List ℕ} (ho : o ∉ l)
    (q : Option (JSObject V)) (m : ℕ) :
    l.countP ((rt.setObject o q).uses m) = l.countP (rt.uses m) := by
  apply List.countP_congr
  intro o' ho'
  have hne : o' ≠ o := fun heq => ho (heq ▸ ho')
  unfold JSRuntime.uses
  rw [JSRuntime.objects_setObject, if_neg hne]

/-- How many have it, of those that are listed. -/
theorem Inv.users_erase (h : Inv hand out rt) (hp : rt.objects o = some p) (m : ℕ) :
    rt.users m = (rt.gcObjList.erase o).countP (rt.uses m) + if p.shape = m then 1 else 0 := by
  have ho := (h.listed o).mpr ⟨p, hp⟩
  unfold JSRuntime.users
  rw [(List.perm_cons_erase ho).countP_eq, List.countP_cons, JSRuntime.uses_of hp]
  simp only [decide_eq_true_eq]

theorem Inv.users_setObject (h : Inv hand out rt) (hp : rt.objects o = some p) (p' : JSObject V) (m : ℕ) :
    (rt.setObject o (some p')).users m + (if p.shape = m then 1 else 0) =
      rt.users m + if p'.shape = m then 1 else 0 := by
  have ho := (h.listed o).mpr ⟨p, hp⟩
  have hnot : o ∉ rt.gcObjList.erase o := h.nodup.not_mem_erase
  have herase := rt.countP_setObject hnot (some p') m
  rw [h.users_erase hp m]
  unfold JSRuntime.users
  show rt.gcObjList.countP _ + _ = _
  rw [(List.perm_cons_erase ho).countP_eq, List.countP_cons, herase, JSRuntime.uses_setObject]
  simp only [Option.any_some, decide_eq_true_eq]
  omega

/-- A shape that no object has. -/
theorem JSRuntime.users_eq_zero (h : ∀ o p, rt.objects o = some p → p.shape ≠ m) : rt.users m = 0 := by
  apply List.countP_eq_zero.mpr
  intro o _
  unfold JSRuntime.uses
  cases hp : rt.objects o with
  | none => exact Bool.false_ne_true
  | some p => simpa using h o p hp

/-- An object that is the only one with its shape. -/
theorem Inv.eq_of_users (h : Inv hand out rt) (hp : rt.objects o = some p) {o' : ℕ}
    (hp' : rt.objects o' = some p') (hshape : p'.shape = p.shape) (husers : rt.users p.shape = 1) : o' = o := by
  by_contra hne
  have hmem := (h.listed o').mpr ⟨p', hp'⟩
  have hcount := h.users_erase hp p.shape
  rw [if_pos rfl, husers] at hcount
  have hzero : (rt.gcObjList.erase o).countP (rt.uses p.shape) = 0 := by omega
  have hnot := List.countP_eq_zero.mp hzero o' ((List.mem_erase_of_ne hne).mpr hmem)
  rw [JSRuntime.uses_of hp', hshape] at hnot
  exact hnot (decide_eq_true rfl)

theorem inHand_some (n m : ℕ) : inHand (some n) m = if n = m then 1 else 0 := by
  unfold inHand
  simp only [Option.some.injEq]

theorem inHand_none (m : ℕ) : inHand none m = 0 := rfl

/-- The count of a shape becomes another. -/
theorem Inv.recount (h : Inv hand none rt) (hsh : rt.shapes n = some sh) (hand' : Option ℕ) {k : ℕ}
    (hk : k = rt.users n + inHand hand' n) (hpos : 0 < k) (halone : sh.isHashed = false → k = 1)
    (hhand : ∀ m, m ≠ n → inHand hand' m = inHand hand m)
    (hheld : ∀ m, hand' = some m → ∃ sh, rt.shapes m = some sh) :
    Inv hand' none (rt.setShape n (some { sh with refCount := k })) ∧
      (rt.setShape n (some { sh with refCount := k })).abs = rt.abs := by
  -- Only this shape is another one: every part of the invariant is looked at there, and is as before elsewhere.
  have hshapes := rt.shapes_setShape (n := n) (some { sh with refCount := k })
  have hwf := h.wf n sh hsh
  refine ⟨⟨?_, ?_, ?_, ?_, ?_, ?_, ?_, h.listed, h.nodup, h.chain, ?_⟩, ?_⟩
  · intro m sh' hsh'
    rw [hshapes] at hsh'
    split at hsh'
    · obtain rfl := Option.some.inj hsh'
      exact ⟨hwf.size, hwf.room, hwf.short, hwf.table, hwf.distinct, hwf.deleted, hwf.hashed, hwf.small, hwf.hash⟩
    · exact h.wf m sh' hsh'
  · intro m sh' hsh'
    rw [hshapes] at hsh'
    split at hsh'
    next heq =>
      subst heq
      obtain rfl := Option.some.inj hsh'
      exact hk
    next hne =>
      rw [hhand m hne]
      exact h.counts m sh' hsh'
  · intro m sh' hsh'
    rw [hshapes] at hsh'
    split at hsh'
    · obtain rfl := Option.some.inj hsh'
      exact hpos
    · exact h.positive m sh' hsh'
  · intro m sh' hsh' hhashed
    rw [hshapes] at hsh'
    split at hsh'
    · obtain rfl := Option.some.inj hsh'
      exact halone hhashed
    · exact h.alone m sh' hsh' hhashed
  · intro m sh' hsh'
    rw [hshapes] at hsh'
    split at hsh'
    next heq =>
      subst heq
      exact h.fresh m sh hsh
    · exact h.fresh m sh' hsh'
  · intro m hm
    rw [hshapes]
    split
    · exact ⟨_, rfl⟩
    · exact hheld m hm
  · intro o p hp
    obtain ⟨sh', hsh', hlength⟩ := h.objects o p hp
    rw [hshapes]
    split
    next heq =>
      rw [heq, hsh] at hsh'
      obtain rfl := Option.some.inj hsh'
      exact ⟨_, rfl, hlength⟩
    · exact ⟨sh', hsh', hlength⟩
  · intro b m
    show m ∈ rt.shapeHash b ↔ _
    rw [h.table, hshapes]
    split
    next heq =>
      subst heq
      rw [hsh]
      constructor
      · rintro ⟨hout, sh', heq, hhashed, hb⟩
        obtain rfl := Option.some.inj heq
        exact ⟨hout, _, rfl, hhashed, hb⟩
      · rintro ⟨hout, sh', heq, hhashed, hb⟩
        obtain rfl := Option.some.inj heq
        exact ⟨hout, sh, rfl, hhashed, hb⟩
    · rfl
  · funext o
    unfold JSRuntime.abs
    show (rt.objects o).bind _ = _
    cases rt.objects o with
    | none => rfl
    | some p =>
      show ((rt.setShape n _).shapes p.shape).map _ = (rt.shapes p.shape).map _
      rw [hshapes]
      split
      next heq =>
        rw [heq, hsh]
        rfl
      · rfl

/-- `js_dup_shape`, of a shape that is in the table. -/
theorem jsDupShape_ok (h : Inv none none rt) (hsh : rt.shapes n = some sh) (hhashed : sh.isHashed = true) :
    jsDupShape n rt = some (rt.setShape n (some { sh with refCount := sh.refCount + 1 })) ∧
      Inv (some n) none (rt.setShape n (some { sh with refCount := sh.refCount + 1 })) ∧
      (rt.setShape n (some { sh with refCount := sh.refCount + 1 })).abs = rt.abs := by
  have hcount := h.counts n sh hsh
  rw [inHand_none] at hcount
  obtain ⟨hinv, habs⟩ := h.recount hsh (some n) (k := sh.refCount + 1)
    (by rw [inHand_some, if_pos rfl]; omega) (Nat.succ_pos _)
    (fun hfalse => absurd (hhashed.symm.trans hfalse).symm Bool.false_ne_true)
    (fun m hm => by rw [inHand_some, if_neg (Ne.symm hm), inHand_none])
    (fun m hm => ⟨sh, Option.some.inj hm ▸ hsh⟩)
  refine ⟨?_, hinv, habs⟩
  unfold jsDupShape
  rw [hsh]
  rfl

/-- `js_malloc` of a shape: nobody has it yet. -/
theorem Inv.newShape (h : Inv none none rt) (hwf : sh.WF) (hcount : sh.refCount = 1) :
    Inv (some rt.nextShape) (outOf rt.nextShape sh) (rt.newShape sh) ∧ (rt.newShape sh).abs = rt.abs := by
  have hshapes := rt.shapes_setShape (n := rt.nextShape) (some sh)
  have hfree : rt.shapes rt.nextShape = none := by
    cases hsh : rt.shapes rt.nextShape with
    | none => rfl
    | some sh' => exact absurd (h.fresh _ sh' hsh) (Nat.lt_irrefl _)
  have hused : ∀ o p, rt.objects o = some p → p.shape ≠ rt.nextShape := by
    rintro o p hp heq
    obtain ⟨sh', hsh', -⟩ := h.objects o p hp
    rw [heq, hfree] at hsh'
    cases hsh'
  refine ⟨⟨?_, ?_, ?_, ?_, ?_, ?_, ?_, h.listed, h.nodup, h.chain, ?_⟩, ?_⟩
  · intro m sh' hsh'
    rw [JSRuntime.newShape, hshapes] at hsh'
    split at hsh'
    · exact Option.some.inj hsh' ▸ hwf
    · exact h.wf m sh' hsh'
  · intro m sh' hsh'
    rw [JSRuntime.newShape, hshapes] at hsh'
    show _ = rt.users m + _
    rw [inHand_some]
    split at hsh'
    next heq =>
      subst heq
      rw [JSRuntime.users_eq_zero hused, if_pos rfl, ← Option.some.inj hsh', hcount]
    next hne =>
      rw [if_neg (Ne.symm hne)]
      exact h.counts m sh' hsh'
  · intro m sh' hsh'
    rw [JSRuntime.newShape, hshapes] at hsh'
    split at hsh'
    · rw [← Option.some.inj hsh', hcount]
      exact Nat.zero_lt_one
    · exact h.positive m sh' hsh'
  · intro m sh' hsh' hhashed
    rw [JSRuntime.newShape, hshapes] at hsh'
    split at hsh'
    · rw [← Option.some.inj hsh', hcount]
    · exact h.alone m sh' hsh' hhashed
  · intro m sh' hsh'
    show m < rt.nextShape + 1
    rw [JSRuntime.newShape, hshapes] at hsh'
    split at hsh'
    next heq => omega
    · exact Nat.lt_succ_of_lt (h.fresh m sh' hsh')
  · intro m hm
    rw [JSRuntime.newShape, hshapes, if_pos (Option.some.inj hm).symm]
    exact ⟨sh, rfl⟩
  · intro o p hp
    rw [JSRuntime.newShape, hshapes, if_neg (hused o p hp)]
    exact h.objects o p hp
  · intro b m
    show m ∈ rt.shapeHash b ↔ _
    rw [h.table, JSRuntime.newShape, hshapes]
    by_cases hm : m = rt.nextShape
    · subst hm
      rw [hfree, if_pos rfl]
      constructor
      · rintro ⟨-, sh', hsh', -⟩
        cases hsh'
      · rintro ⟨hout, sh', hsh', hhashed, -⟩
        rw [← Option.some.inj hsh', outOf_self hout] at hhashed
        cases hhashed
    · rw [if_neg hm]
      exact and_congr_left fun _ => ⟨fun _ => outOf_ne sh hm, fun _ => (Option.some_ne_none m).symm⟩
  · funext o
    unfold JSRuntime.abs
    show (rt.objects o).bind _ = _
    cases hp : rt.objects o with
    | none => rfl
    | some p =>
      show ((rt.newShape sh).shapes p.shape).map _ = (rt.shapes p.shape).map _
      rw [JSRuntime.newShape, hshapes, if_neg (hused o p hp)]

/-- A shape that nobody has goes. -/
theorem Inv.dropShape (h : Inv (some n) (outOf n sh) rt) (hsh : rt.shapes n = some sh)
    (hcount : sh.refCount = 1) :
    Inv none none (rt.setShape n none) ∧ (rt.setShape n none).abs = rt.abs := by
  have hshapes := rt.shapes_setShape (n := n) none
  have husers : rt.users n = 0 := by
    have := h.counts n sh hsh
    rw [inHand_some, if_pos rfl] at this
    omega
  have hused : ∀ o p, rt.objects o = some p → p.shape ≠ n := by
    rintro o p hp rfl
    have hpos := h.users_erase hp p.shape
    rw [if_pos rfl] at hpos
    omega
  refine ⟨⟨?_, ?_, ?_, ?_, ?_, ?_, ?_, h.listed, h.nodup, h.chain, ?_⟩, ?_⟩
  · intro m sh' hsh'
    rw [hshapes] at hsh'
    split at hsh'
    · cases hsh'
    · exact h.wf m sh' hsh'
  · intro m sh' hsh'
    rw [hshapes] at hsh'
    split at hsh'
    · cases hsh'
    next hne =>
      have hm := h.counts m sh' hsh'
      rw [inHand_some, if_neg (Ne.symm hne)] at hm
      exact hm
  · intro m sh' hsh'
    rw [hshapes] at hsh'
    split at hsh'
    · cases hsh'
    · exact h.positive m sh' hsh'
  · intro m sh' hsh'
    rw [hshapes] at hsh'
    split at hsh'
    · cases hsh'
    · exact h.alone m sh' hsh'
  · intro m sh' hsh'
    rw [hshapes] at hsh'
    split at hsh'
    · cases hsh'
    · exact h.fresh m sh' hsh'
  · intro m hm
    cases hm
  · intro o p hp
    rw [hshapes, if_neg (hused o p hp)]
    exact h.objects o p hp
  · intro b m
    show m ∈ rt.shapeHash b ↔ _
    rw [h.table, hshapes]
    by_cases hm : m = n
    · subst hm
      rw [hsh, if_pos rfl]
      constructor
      · rintro ⟨hout, sh', hsh', hhashed, -⟩
        rw [← Option.some.inj hsh', outOf_self hout] at hhashed
        cases hhashed
      · rintro ⟨-, sh', hsh', -⟩
        cases hsh'
    · rw [if_neg hm]
      exact and_congr_left fun _ => ⟨fun _ => (Option.some_ne_none m).symm, fun _ => outOf_ne sh hm⟩
  · funext o
    unfold JSRuntime.abs
    show (rt.objects o).bind _ = _
    cases hp : rt.objects o with
    | none => rfl
    | some p =>
      show ((rt.setShape n none).shapes p.shape).map _ = (rt.shapes p.shape).map _
      rw [hshapes, if_neg (hused o p hp)]

/-- What `js_free_shape` leaves alone. -/
structure ShapeFreed (n : ℕ) (rt rt' : JSRuntime V) : Prop where
  inv : Inv none none rt'
  abs : rt'.abs = rt.abs
  objects : rt'.objects = rt.objects
  gcObjList : rt'.gcObjList = rt.gcObjList
  shapes : ∀ m, m ≠ n → rt'.shapes m = rt.shapes m

/-- `js_free_shape` -/
theorem jsFreeShape_ok (h : Inv (some n) none rt) : ∃ rt', jsFreeShape n rt = some rt' ∧ ShapeFreed n rt rt' := by
  obtain ⟨sh, hsh⟩ := h.held n rfl
  have hcount := h.counts n sh hsh
  rw [inHand_some, if_pos rfl] at hcount
  unfold jsFreeShape
  rw [hsh]
  simp only [Option.bind_eq_bind, Option.bind_some]
  split
  next hzero => omega
  next hone =>
    obtain ⟨rt₁, hrt₁, h₁, hsame⟩ := unlinkHashed_ok h hsh
    obtain ⟨hinv, habs⟩ := h₁.dropShape (hsame.shapes ▸ hsh) hone
    refine ⟨rt₁.setShape n none, by rw [hrt₁]; rfl, hinv, habs.trans hsame.abs, hsame.objects,
      hsame.gcObjList, fun m hm => ?_⟩
    rw [rt₁.shapes_setShape, if_neg hm, hsame.shapes]
  next k hk =>
    have hhashed : sh.isHashed = true := by
      cases hhashed : sh.isHashed with
      | true => rfl
      | false =>
        have := h.alone n sh hsh hhashed
        omega
    obtain ⟨hinv, habs⟩ := h.recount hsh none (k := k + 1) (by rw [inHand_none]; omega) (Nat.succ_pos k)
      (fun hfalse => absurd (hhashed.symm.trans hfalse).symm Bool.false_ne_true)
      (fun m hm => by rw [inHand_some, if_neg (Ne.symm hm), inHand_none]) (fun m hm => by cases hm)
    refine ⟨_, rfl, hinv, habs, rfl, rfl, fun m hm => ?_⟩
    rw [rt.shapes_setShape, if_neg hm]

/-! ## An object and its shape -/

theorem JSRuntime.abs_of (hp : rt.objects o = some p) (hsh : rt.shapes p.shape = some sh) :
    rt.abs o = some ⟨sh.proto, entries sh.prop p.prop⟩ := by
  unfold JSRuntime.abs
  rw [hp]
  show (rt.shapes p.shape).map _ = _
  rw [hsh]
  rfl

/-- Nothing is said of the other objects. -/
def Elsewhere (o : ℕ) (rt rt' : JSRuntime V) : Prop := ∀ o', o' ≠ o → rt'.abs o' = rt.abs o'

/-- The object takes the shape that is in hand, and leaves the one that it had. -/
theorem Inv.setObject (h : Inv hand none rt) (hp : rt.objects o = some p) (p' : JSObject V)
    (hhand : hand = some p'.shape ∨ p'.shape = p.shape ∧ hand = none)
    (hsh : rt.shapes p'.shape = some sh) (hlength : p'.prop.length = sh.propSize) :
    Inv (hand.map fun _ => p.shape) none (rt.setObject o (some p')) ∧
      Elsewhere o rt (rt.setObject o (some p')) := by
  have hobjects := rt.objects_setObject (o := o) (some p')
  refine ⟨⟨h.wf, ?_, h.positive, h.alone, h.fresh, ?_, ?_, ?_, h.nodup, h.chain, h.table⟩, ?_⟩
  · intro m sh' hsh'
    have hcount := h.counts m sh' hsh'
    have husers := h.users_setObject hp p' m
    rcases hhand with rfl | ⟨heq, rfl⟩
    · rw [inHand_some] at hcount
      show _ = _ + inHand (some p.shape) m
      rw [inHand_some]
      omega
    · rw [heq] at husers
      show _ = _ + inHand none m
      omega
  · intro m hm
    obtain ⟨-, -, hm⟩ := Option.map_eq_some_iff.mp hm
    obtain ⟨sh', hsh', -⟩ := h.objects o p hp
    exact ⟨sh', hm ▸ hsh'⟩
  · intro o' q hq
    rw [hobjects] at hq
    split at hq
    · obtain rfl := Option.some.inj hq
      exact ⟨sh, hsh, hlength⟩
    · exact h.objects o' q hq
  · intro o'
    show o' ∈ rt.gcObjList ↔ _
    rw [h.listed, hobjects]
    split
    next heq =>
      subst heq
      exact ⟨fun _ => ⟨p', rfl⟩, fun _ => ⟨p, hp⟩⟩
    · rfl
  · intro o' ho'
    unfold JSRuntime.abs
    rw [hobjects, if_neg ho']
    rfl

/-- An object that is the only one with its shape, with another shape in its place. -/
def JSRuntime.replaced (rt : JSRuntime V) (o n : ℕ) (p' : JSObject V) (sh' : JSShape) (nextShape : ℕ) :
    JSRuntime V :=
  { rt with
    shapes := Function.update (Function.update rt.shapes n none) p'.shape (some sh')
    objects := Function.update rt.objects o (some p')
    nextShape }

theorem Inv.replaced (h : Inv none (outOf p.shape sh) rt) (hp : rt.objects o = some p)
    (hsh : rt.shapes p.shape = some sh) (hcount : sh.refCount = 1) (p' : JSObject V) {sh' : JSShape}
    (nextShape : ℕ) (hwf : sh'.WF) (hcount' : sh'.refCount = 1) (hlength : p'.prop.length = sh'.propSize)
    (hplace : p'.shape = p.shape ∨ rt.nextShape ≤ p'.shape) (hnext : p'.shape < nextShape)
    (hle : rt.nextShape ≤ nextShape) :
    Inv none (outOf p'.shape sh') (rt.replaced o p.shape p' sh' nextShape) ∧
      Elsewhere o rt (rt.replaced o p.shape p' sh' nextShape) := by
  have husers : rt.users p.shape = 1 := by
    have := h.counts p.shape sh hsh
    rw [inHand_none] at this
    omega
  have hshapes : ∀ m, (rt.replaced o p.shape p' sh' nextShape).shapes m =
      if m = p'.shape then some sh' else if m = p.shape then none else rt.shapes m := by
    intro m
    show Function.update (Function.update rt.shapes p.shape none) p'.shape (some sh') m = _
    rw [Function.update_apply, Function.update_apply]
  have hobjects : ∀ o', (rt.replaced o p.shape p' sh' nextShape).objects o' =
      if o' = o then some p' else rt.objects o' := fun o' => Function.update_apply _ _ _ _
  -- The other objects have other shapes.
  have hother : ∀ o' q, o' ≠ o → rt.objects o' = some q → q.shape ≠ p.shape ∧ q.shape ≠ p'.shape := by
    intro o' q ho' hq
    have hne : q.shape ≠ p.shape := fun heq => ho' (h.eq_of_users hp hq heq husers)
    refine ⟨hne, fun heq => ?_⟩
    rcases hplace with hsame | hfresh
    · exact hne (heq.trans hsame)
    · obtain ⟨sh₁, hsh₁, -⟩ := h.objects o' q hq
      have := h.fresh _ sh₁ hsh₁
      omega
  have hold : ∀ m, m ≠ p'.shape → m ≠ p.shape →
      (rt.replaced o p.shape p' sh' nextShape).users m = rt.users m := by
    intro m hm hm'
    have hset := h.users_setObject hp p' m
    rw [if_neg (Ne.symm hm'), if_neg (Ne.symm hm)] at hset
    exact hset
  -- And the new shape is that of the object alone.
  have hnew : (rt.replaced o p.shape p' sh' nextShape).users p'.shape = 1 := by
    have hset := h.users_setObject hp p' p'.shape
    rw [if_pos rfl] at hset
    have hset' : (rt.replaced o p.shape p' sh' nextShape).users p'.shape +
      (if p.shape = p'.shape then 1 else 0) = rt.users p'.shape + 1 := hset
    rcases hplace with hsame | hfresh
    · rw [hsame, if_pos rfl, husers] at hset'
      rw [hsame]
      omega
    · have hpne : p.shape ≠ p'.shape := by
        intro heq
        have := h.fresh _ sh hsh
        omega
      have hzero : rt.users p'.shape = 0 := by
        apply JSRuntime.users_eq_zero
        intro o' q hq heq
        obtain ⟨sh₁, hsh₁, -⟩ := h.objects o' q hq
        have := h.fresh _ sh₁ hsh₁
        omega
      rw [if_neg hpne, hzero] at hset'
      omega
  refine ⟨⟨?_, ?_, ?_, ?_, ?_, ?_, ?_, ?_, h.nodup, h.chain, ?_⟩, ?_⟩
  · intro m sh₁ hsh₁
    rw [hshapes] at hsh₁
    split at hsh₁
    · exact Option.some.inj hsh₁ ▸ hwf
    · split at hsh₁
      · cases hsh₁
      · exact h.wf m sh₁ hsh₁
  · intro m sh₁ hsh₁
    rw [hshapes] at hsh₁
    rw [inHand_none]
    split at hsh₁
    next heq => rw [heq, hnew, ← Option.some.inj hsh₁, hcount']
    next hm =>
      split at hsh₁
      · cases hsh₁
      next hm' =>
        rw [hold m hm hm']
        exact h.counts m sh₁ hsh₁
  · intro m sh₁ hsh₁
    rw [hshapes] at hsh₁
    split at hsh₁
    · rw [← Option.some.inj hsh₁, hcount']
      exact Nat.zero_lt_one
    · split at hsh₁
      · cases hsh₁
      · exact h.positive m sh₁ hsh₁
  · intro m sh₁ hsh₁ hhashed
    rw [hshapes] at hsh₁
    split at hsh₁
    · rw [← Option.some.inj hsh₁, hcount']
    · split at hsh₁
      · cases hsh₁
      · exact h.alone m sh₁ hsh₁ hhashed
  · intro m sh₁ hsh₁
    rw [hshapes] at hsh₁
    show m < nextShape
    split at hsh₁
    next heq => exact heq ▸ hnext
    · split at hsh₁
      · cases hsh₁
      · exact Nat.lt_of_lt_of_le (h.fresh m sh₁ hsh₁) hle
  · intro m hm
    cases hm
  · intro o' q hq
    rw [hobjects] at hq
    rw [hshapes]
    split at hq
    · obtain rfl := Option.some.inj hq
      exact ⟨sh', if_pos rfl, hlength⟩
    next ho' =>
      obtain ⟨hne, hne'⟩ := hother o' q ho' hq
      rw [if_neg hne', if_neg hne]
      exact h.objects o' q hq
  · intro o'
    show o' ∈ rt.gcObjList ↔ _
    rw [h.listed, hobjects]
    split
    next heq =>
      subst heq
      exact ⟨fun _ => ⟨p', rfl⟩, fun _ => ⟨p, hp⟩⟩
    · rfl
  · intro b m
    show m ∈ rt.shapeHash b ↔ _
    rw [h.table, hshapes]
    by_cases hm : m = p'.shape
    · subst hm
      rw [if_pos rfl]
      constructor
      · rintro ⟨hout, sh₁, hsh₁, hhashed, -⟩
        exfalso
        rcases hplace with hsame | hfresh
        · rw [hsame] at hsh₁ hout
          rw [hsh] at hsh₁
          rw [← Option.some.inj hsh₁, outOf_self hout] at hhashed
          cases hhashed
        · have := h.fresh _ sh₁ hsh₁
          omega
      · rintro ⟨hout, sh₁, hsh₁, hhashed, -⟩
        rw [← Option.some.inj hsh₁, outOf_self hout] at hhashed
        cases hhashed
    · rw [if_neg hm]
      by_cases hm' : m = p.shape
      · subst hm'
        rw [if_pos rfl, hsh]
        constructor
        · rintro ⟨hout, sh₁, hsh₁, hhashed, -⟩
          rw [← Option.some.inj hsh₁, outOf_self hout] at hhashed
          cases hhashed
        · rintro ⟨-, sh₁, hsh₁, -⟩
          cases hsh₁
      · rw [if_neg hm']
        exact and_congr_left fun _ => ⟨fun _ => outOf_ne sh' hm, fun _ => outOf_ne sh hm'⟩
  · intro o' ho'
    unfold JSRuntime.abs
    rw [hobjects, if_neg ho']
    cases hq : rt.objects o' with
    | none => rfl
    | some q =>
      obtain ⟨hne, hne'⟩ := hother o' q ho' hq
      show ((rt.replaced o p.shape p' sh' nextShape).shapes q.shape).map _ = (rt.shapes q.shape).map _
      rw [hshapes, if_neg hne', if_neg hne]

end Counting

end JSChip.Shapes
