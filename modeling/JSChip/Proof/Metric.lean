import Mathlib.Analysis.SpecialFunctions.Pow.Real
import JSChip.Proof.Vector

/-!
# Do the lengths and distances of the object Vector fit together?

Over the real numbers, with every function called as its description says.

* `MetricLaws`: what `Distance`, `Distance2`, `Sub`, `Magnitude` and `Normalize` have to do with
  each other.
* `metricLaws_never`: **the laws hold for no vectors.** `Distance2` is `vector_distance`, so that its
  law holds at the distances 0 and 1 only, `Normalize` is `vector_distance2` and throws, and
  `Magnitude` reads the argument behind the one it is given.
-/

namespace JSChip.Native

open Machine

/-- Real numbers as doubles. No function of the object Vector converts a number to text or back. -/
noncomputable instance : Double ℝ where
  ofNat n := n
  add x y := x + y
  sub x y := x - y
  mul x y := x * y
  div x y := x / y
  fmod x y := x - y * if 0 ≤ x / y then ⌊x / y⌋ else ⌈x / y⌉
  pow x y := x ^ y
  sqrt := Real.sqrt
  isZero x := x = 0
  toText _ := ""
  ofText _ := 0

variable {e : Env ℝ} {listeners : ListenerTable (JSValue ℝ)} {a b zero v : JSValue ℝ}
  {c ca cb : ℝ × ℝ × ℝ} {s : State ℝ}

/-! ## The laws -/

/-- The value is a vector with these components, whenever it is asked for them. -/
structure IsVector (e : Env ℝ) (v : JSValue ℝ) (c : ℝ × ℝ × ℝ) : Prop where
  object : v.isObject
  x : ∀ k, e.property k v "x" = .number c.1
  y : ∀ k, e.property k v "y" = .number c.2.1
  z : ∀ k, e.property k v "z" = .number c.2.2

/-- The call made a vector with these components. -/
def NewVector (c : ℝ × ℝ × ℝ) (v : JSValue ℝ) (s : State ℝ) : Prop :=
  ∃ id, v = .object id false ∧
    propertiesOf s.sets id = [("x", .number c.1), ("y", .number c.2.1), ("z", .number c.2.2)]

/-- A script calls the function that is bound to a name of the object Vector. -/
def VectorCall (e : Env ℝ) (listeners : ListenerTable (JSValue ℝ)) (name : String)
    (argv : List (JSValue ℝ)) (Q : JSValue ℝ → State ℝ → Prop) : Prop :=
  ∃ f, ("Vector", name, f) ∈ bindings ∧
    wp (f.run argv) e Q (fun _ => False) (State.entry listeners [])

/-- The call returns the number. -/
def Yields (e : Env ℝ) (listeners : ListenerTable (JSValue ℝ)) (name : String)
    (argv : List (JSValue ℝ)) (x : ℝ) : Prop :=
  VectorCall e listeners name argv fun v _ => v = .number x

/-- `Distance2(a, b)` is the square of `Distance(a, b)`. -/
def SquareLaw (e : Env ℝ) (listeners : ListenerTable (JSValue ℝ)) (a b : JSValue ℝ) : Prop :=
  ∃ d, Yields e listeners "Distance" [a, b] d ∧ Yields e listeners "Distance2" [a, b] (d ^ 2)

/-- `Distance2(a, b)` is `Distance2(Sub(a, b), {0, 0, 0})`. `e'` is what the second call finds. -/
def DifferenceLaw (e : Env ℝ) (listeners : ListenerTable (JSValue ℝ)) (a b : JSValue ℝ) : Prop :=
  ∃ d, Yields e listeners "Distance2" [a, b] d ∧
    VectorCall e listeners "Sub" [a, b] fun v s => ∃ c, NewVector c v s ∧
      ∀ e' zero, IsVector e' v c → IsVector e' zero (0, 0, 0) →
        Yields e' listeners "Distance2" [v, zero] d

/-- The square of `Magnitude(a)` is `Distance2(a, {0, 0, 0})`. -/
def MagnitudeLaw (e : Env ℝ) (listeners : ListenerTable (JSValue ℝ)) (a zero : JSValue ℝ) : Prop :=
  ∃ m, Yields e listeners "Magnitude" [a] m ∧ Yields e listeners "Distance2" [a, zero] (m ^ 2)

/-- `Normalize(a)` is `a` divided by `Magnitude(a)`. -/
def NormalizeLaw (e : Env ℝ) (listeners : ListenerTable (JSValue ℝ)) (a : JSValue ℝ)
    (c : ℝ × ℝ × ℝ) : Prop :=
  ∀ m, Yields e listeners "Magnitude" [a] m → m ≠ 0 →
    VectorCall e listeners "Normalize" [a] fun v s => ∃ u, NewVector u v s ∧
      u.1 * m = c.1 ∧ u.2.1 * m = c.2.1 ∧ u.2.2 * m = c.2.2

/-- No argument is read that was not passed. -/
def WithinArgs (e : Env ℝ) (listeners : ListenerTable (JSValue ℝ)) (a b zero : JSValue ℝ) : Prop :=
  ∀ call ∈ [("Distance", [a, b]), ("Distance2", [a, b]), ("Sub", [a, b]), ("Distance2", [a, zero]),
    ("Magnitude", [a]), ("Normalize", [a])],
    VectorCall e listeners call.1 call.2 fun _ s => s.pastArgs = false

/-- **The laws**, for the vectors `a`, with the components `c`, and `b`. -/
structure MetricLaws (e : Env ℝ) (listeners : ListenerTable (JSValue ℝ)) (a b zero : JSValue ℝ)
    (c : ℝ × ℝ × ℝ) : Prop where
  square : SquareLaw e listeners a b
  difference : DifferenceLaw e listeners a b
  magnitude : MagnitudeLaw e listeners a zero
  normalize : NormalizeLaw e listeners a c
  within : WithinArgs e listeners a b zero

/-! ## What the functions return -/

/-- The length of a vector. -/
noncomputable def vectorLength (c : ℝ × ℝ × ℝ) : ℝ := √(c.1 ^ 2 + c.2.1 ^ 2 + c.2.2 ^ 2)

theorem vectorLength_neg (c : ℝ × ℝ × ℝ) : vectorLength (-c) = vectorLength c := by
  simp [vectorLength]

/-- `vector_distance` is the length of the difference. -/
theorem vectorDistance_returns (ha : IsVector e a ca) (hb : IsVector e b cb) :
    wp (vectorDistance [a, b]) e (fun v _ => v = .number (vectorLength (cb - ca))) (fun _ => False)
      (State.entry listeners []) := by
  simp [vectorDistance, distanceOf, State.entry, argument, xyz, ha.object, hb.object, ha.x, ha.y,
    ha.z, hb.x, hb.y, hb.z]
  simp [JSValue.isNumber, vectorLength, JSValue.toFloat, Double.sqrt, Double.add, Double.mul, Double.sub, sq]

/-- A name that is bound to one function. -/
theorem vectorCall_iff {name : String} {argv : List (JSValue ℝ)} {f : NativeFunction}
    {Q : JSValue ℝ → State ℝ → Prop} (hf : ∀ g, ("Vector", name, g) ∈ bindings ↔ g = f) :
    VectorCall e listeners name argv Q ↔
      wp (f.run argv) e Q (fun _ => False) (State.entry listeners []) := by
  simp [VectorCall, hf]

theorem distance_bound (g : NativeFunction) :
    ("Vector", "Distance", g) ∈ bindings ↔ g = .vectorDistance := by simp [bindings]

/-- `Distance2` has the function of `Distance`. -/
theorem distance2_bound (g : NativeFunction) :
    ("Vector", "Distance2", g) ∈ bindings ↔ g = .vectorDistance := by simp [bindings]

theorem sub_bound (g : NativeFunction) :
    ("Vector", "Sub", g) ∈ bindings ↔ g = .vectorSub := by simp [bindings]

theorem magnitude_bound (g : NativeFunction) :
    ("Vector", "Magnitude", g) ∈ bindings ↔ g = .vectorMagnitude := by simp [bindings]

/-- `Normalize` has the function that `Distance2` should have. -/
theorem normalize_bound (g : NativeFunction) :
    ("Vector", "Normalize", g) ∈ bindings ↔ g = .vectorDistance2 := by simp [bindings]

theorem yields_distance (ha : IsVector e a ca) (hb : IsVector e b cb) {d : ℝ} :
    Yields e listeners "Distance" [a, b] d ↔ d = vectorLength (cb - ca) := by
  refine (vectorCall_iff distance_bound).trans ?_
  refine wp_iff_of (vectorDistance_returns ha hb) fun v s hv => ?_
  rw [hv, JSValue.number.injEq, eq_comm]

theorem yields_distance2 (ha : IsVector e a ca) (hb : IsVector e b cb) {d : ℝ} :
    Yields e listeners "Distance2" [a, b] d ↔ d = vectorLength (cb - ca) := by
  rw [← @yields_distance e listeners a b ca cb ha hb d]
  exact (vectorCall_iff distance2_bound).trans (vectorCall_iff distance_bound).symm

/-! ## Which laws hold -/

/-- `Distance2` is its own square root. -/
theorem squareLaw_iff (ha : IsVector e a ca) (hb : IsVector e b cb) :
    SquareLaw e listeners a b ↔ vectorLength (cb - ca) = 0 ∨ vectorLength (cb - ca) = 1 := by
  have hsq : SquareLaw e listeners a b ↔ vectorLength (cb - ca) ^ 2 = vectorLength (cb - ca) := by
    simp only [SquareLaw, yields_distance ha hb, yields_distance2 ha hb, exists_eq_left]
  rw [hsq, sq]
  exact IsIdempotentElem.iff_eq_zero_or_one

/-- `Sub` and `Distance2` agree, as long as there is memory for the difference. -/
theorem differenceLaw_iff (ha : IsVector e a ca) (hb : IsVector e b cb) :
    DifferenceLaw e listeners a b ↔ (e.alloc 0).isSome := by
  have hoperands : Operands e [a, b] := by
    refine ⟨⟨ha.object, ?_⟩, Or.inr ⟨hb.object, ?_⟩⟩
    · simp [numbers, argument, xyz, ha.x, ha.y, ha.z, JSValue.isNumber]
    · simp [numbers, argument, xyz, hb.x, hb.y, hb.z, JSValue.isNumber]
  have hproperties : vectorProperties Double.sub e [a, b] =
      [("x", .number (ca - cb).1), ("y", .number (ca - cb).2.1), ("z", .number (ca - cb).2.2)] := by
    have hnum : b.isNumber = false := isNumber_of_isObject hb.object
    simp [vectorProperties, secondOperand, componentsAt, argument, xyz, hnum, ha.x, ha.y, ha.z, hb.x,
      hb.y, hb.z, JSValue.toFloat, Double.sub]
  have hgives := @vectorOp_gives ℝ e [a, b] listeners Double.sub (Nat.le_refl 2)
  constructor
  · rintro ⟨d, -, hsub⟩
    rw [vectorCall_iff sub_bound] at hsub
    refine (wp_iff_of hgives fun _ _ _ => Iff.rfl).1 (wp_mono ?_ (fun _ h => h) (wp_and hgives hsub))
    rintro v s ⟨h, c, ⟨id, hid, -⟩, -⟩
    rw [(h.accepted hoperands).1] at hid
    rw [newObjectAt_inj hid, Option.isSome_some]
  · intro hmemory
    obtain ⟨id, hid⟩ := Option.isSome_iff_exists.1 hmemory
    refine ⟨vectorLength (cb - ca), (yields_distance2 ha hb).2 rfl, ?_⟩
    rw [vectorCall_iff sub_bound]
    refine wp_mono ?_ (fun _ h => h) hgives
    intro v s h
    obtain ⟨rfl, -, hsets⟩ := h.accepted hoperands
    refine ⟨ca - cb, ⟨id, newObjectAt_eq hid, ?_⟩, fun e' zero hv hz => ?_⟩
    · rw [hsets, newObjectAt_eq hid, propertiesOf_new, hproperties]
    · have hzero : ((0, 0, 0) : ℝ × ℝ × ℝ) = 0 := rfl
      rw [yields_distance2 hv hz, hzero, zero_sub, vectorLength_neg, ← vectorLength_neg, neg_sub]

/-- `Normalize` wants two arguments. -/
theorem normalize_throws :
    VectorCall e listeners "Normalize" [a] fun v s =>
      v = .exception ∧ s.thrown = some (.typeError, "Expected (vector, vector)") := by
  rw [vectorCall_iff normalize_bound]
  simp [NativeFunction.run, vectorDistance2, distanceOf]

/-- `Magnitude` reads a second argument. -/
theorem magnitude_reads_past :
    VectorCall e listeners "Magnitude" [a] fun _ s => s.pastArgs = true := by
  rw [vectorCall_iff magnitude_bound]
  simp [NativeFunction.run, vectorMagnitude, State.entry]

/-- **The laws of the lengths hold for no vectors.** -/
theorem metricLaws_never (e : Env ℝ) (listeners : ListenerTable (JSValue ℝ)) (a b zero : JSValue ℝ)
    (ca cb : ℝ × ℝ × ℝ) (ha : IsVector e a ca) (hb : IsVector e b cb) :
    ¬ MetricLaws e listeners a b zero ca ∧
      (SquareLaw e listeners a b ↔ vectorLength (cb - ca) = 0 ∨ vectorLength (cb - ca) = 1) ∧
      (DifferenceLaw e listeners a b ↔ (e.alloc 0).isSome) ∧
      VectorCall e listeners "Magnitude" [a] (fun _ s => s.pastArgs = true) ∧
      VectorCall e listeners "Normalize" [a] fun v s =>
        v = .exception ∧ s.thrown = some (.typeError, "Expected (vector, vector)") := by
  refine ⟨fun h => ?_, squareLaw_iff ha hb, differenceLaw_iff ha hb, magnitude_reads_past,
    normalize_throws⟩
  have hwithin := h.within ("Magnitude", [a]) (by simp)
  have hpast := @magnitude_reads_past e listeners a
  rw [vectorCall_iff magnitude_bound] at hwithin hpast
  have hno := (wp_iff_of (C := False) hpast fun v s hs => by simp [hs]).1 hwithin
  exact hno

/-! ## Two vectors -/

/-- The object 0 is `{3, 0, 0}`, the others are `{0, 0, 0}`. -/
noncomputable def threeApart : Env ℝ where
  entIndex := 1
  ownerIndex := 2
  beyond _ := .undefined
  below _ := .nil
  uninit _ := 0
  property _ v name := match v with
    | .object 0 _ => if name = "x" then .number 3 else .number 0
    | _ => .number 0
  value _ _ _ := .undefined
  ownNames _ := none
  atomName _ _ := none
  cString _ _ := none
  float _ _ := 0
  alloc := some
  contextFound := true
  bytecode := .undefined
  compiled := .undefined
  written := none
  result := .undefined
  exceptionValue := .undefined
  luaTable _ _ _ := .nil
  luaCall _ := .nil

theorem threeApart_first : IsVector threeApart (.object 0 false) (3, 0, 0) := by
  constructor <;> simp [threeApart, JSValue.isObject]

theorem threeApart_other (id : ℕ) : IsVector threeApart (.object (id + 1) false) (0, 0, 0) := by
  constructor <;> simp [threeApart, JSValue.isObject]

theorem threeApart_length : vectorLength ((0, 0, 0) - (3, 0, 0)) = 3 := by
  have hsq : (3 : ℝ) ^ 2 = 3 ^ 2 + 0 ^ 2 + 0 ^ 2 := by norm_num
  have hlength : vectorLength ((0, 0, 0) - (3, 0, 0)) = √(3 ^ 2 + 0 ^ 2 + 0 ^ 2) := by
    simp [vectorLength]
  rw [hlength, ← hsq, Real.sqrt_sq (by norm_num)]

theorem threeApart_laws :
    ¬ MetricLaws threeApart .empty (.object 0 false) (.object 1 false) (.object 2 false) (3, 0, 0) :=
  (metricLaws_never threeApart .empty (.object 0 false) (.object 1 false) (.object 2 false) (3, 0, 0)
    (0, 0, 0) threeApart_first (threeApart_other 0)).1

/-- **`Distance2` of two vectors that are 3 apart is 3.** -/
theorem threeApart_squared :
    IsVector threeApart (.object 0 false) (3, 0, 0) ∧ IsVector threeApart (.object 1 false) (0, 0, 0) ∧
      IsVector threeApart (.object 2 false) (0, 0, 0) ∧
      Yields threeApart .empty "Distance2" [.object 0 false, .object 1 false] 3 ∧
      ¬ MetricLaws threeApart .empty (.object 0 false) (.object 1 false) (.object 2 false)
        (3, 0, 0) := by
  refine ⟨threeApart_first, threeApart_other 0, threeApart_other 1, ?_, fun h => ?_⟩
  · rw [yields_distance2 threeApart_first (threeApart_other 0), threeApart_length]
  · have hsquare := (squareLaw_iff threeApart_first (threeApart_other 0)).1 h.square
    rw [threeApart_length] at hsquare
    norm_num at hsquare

end JSChip.Native
