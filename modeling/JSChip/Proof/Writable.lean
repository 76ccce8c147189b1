import JSChip.Codec.Success
import JSChip.Spec.Object

/-!
# The values that can be written

* `Instructions`: code that the loop over the atoms of a function gets through.
* `JSValue.Writable`: what has to hold of a value for itself, and `JSValue.parts`: the values right below it.
* `jsWriteObject_iff`: a value that is a tree of the kinds that the format has is written exactly if all the
  values within it are writable and none is too far down for the stack.
-/

namespace JSChip.Binary

open Codec
open Alloc (JSString leb128)
open Bytecode (Op)

/-! ## What has to hold -/

/-- Instructions in a row, each with the atom that belongs to it. -/
inductive Instructions : List UInt8 → Prop
  | nil : Instructions []
  | cons {byte : UInt8} {op : Op} {code : List UInt8} (hop : opOfByte byte = some op)
      (hatom : hasAtom op = true → 4 ≤ code.length) (hrest : Instructions (code.drop (op.size - 1))) :
      Instructions (byte :: code)

/-- How many bytes or digits of a mantissa are in the file, if it has a limb that is not zero. -/
def mantissaLength (kind : BigNumKind) (tab : List ℕ) : Option ℕ :=
  match tab.dropWhile (· = 0) with
  | [] => none
  | v :: high =>
    some (if kind = .bigDecimal then
      tab.length * limbDigits - (limbDigits - (shiftZeroDigits limbDigits v).1)
    else high.length * 8 + (shiftZeroBytes 8 v).1)

/-- The exponent and the length fit an `int32_t`. -/
structure BigFloat.Writable (kind : BigNumKind) (a : BigFloat) : Prop where
  exponent : ¬ (signAndExponent a < -0x80000000 ∨ signAndExponent a > 0x7fffffff)
  mantissa : a.tab = [] ∨ ∃ len, mantissaLength kind a.tab = some len ∧ len ≤ 0x7fffffff

/-- What has to hold of a value, whatever is below it. -/
def JSValue.Writable : JSValue → Prop
  | .bigNum kind num => num.Writable kind
  | .functionBytecode b _ => Instructions b.byteCode
  | _ => True

/-- The values right below a value. -/
def JSValue.parts : JSValue → List JSValue
  | .functionBytecode _ cpool => cpool
  | .moduleDef _ funcObj => [funcObj]
  | .object props => props.map Prod.snd
  | .array elements => elements
  | .templateObject elements raw => elements ++ [raw]
  | .typedArray _ _ _ buffer => [buffer]
  | .date objectData | .objectValue objectData => [objectData]
  | _ => []

/-- The first value is the second, or within it: that many levels down. -/
inductive JSValue.Within : ℕ → JSValue → JSValue → Prop
  | refl (v : JSValue) : Within 0 v v
  | part {k : ℕ} {u w v : JSValue} (hw : w ∈ v.parts) (h : Within k u w) : Within (k + 1) u v

/-! ## Writers that always succeed -/

theorem succeeds_put (bs : List UInt8) : Succeeds (put bs) True := Succeeds.modifyGet _

theorem succeeds_bcPutAtom (atom : JSAtom) : Succeeds (bcPutAtom atom) True :=
  Succeeds.ite (fun _ => succeeds_put _) fun _ _ => iff_of_true ⟨_, rfl⟩ trivial

theorem succeeds_jsWriteString (p : JSString) : Succeeds (jsWriteString p) True := by
  cases p with
  | str8 chars => exact (succeeds_put _).seq fun _ => succeeds_put _
  | str16 chars => exact (succeeds_put _).seq fun _ => Succeeds.forEach_true (fun _ => succeeds_put _) _

theorem succeeds_writeVarDef (vd : JSVarDef) : Succeeds (writeVarDef vd) True :=
  (succeeds_bcPutAtom _).seq fun _ => (succeeds_put _).seq fun _ => (succeeds_put _).seq fun _ => succeeds_put _

theorem succeeds_writeVarDefs (b : FunctionBytecode) : Succeeds (writeVarDefs b) True :=
  Succeeds.ite (fun _ => succeeds_put _) fun _ =>
    (succeeds_put _).seq fun _ => Succeeds.forEach_true succeeds_writeVarDef _

theorem succeeds_writeClosureVar (cv : JSClosureVar) : Succeeds (writeClosureVar cv) True :=
  (succeeds_bcPutAtom _).seq fun _ => (succeeds_put _).seq fun _ => succeeds_put _

theorem succeeds_writeDebug (debug : Option DebugInfo) : Succeeds (writeDebug debug) True := by
  cases debug with
  | none => exact Succeeds.pure ()
  | some debug =>
    exact (succeeds_bcPutAtom _).seq fun _ => (succeeds_put _).seq fun _ => (succeeds_put _).seq fun _ =>
      succeeds_put _

theorem succeeds_writeExportEntry (me : JSExportEntry) : Succeeds (writeExportEntry me) True := by
  cases me with
  | ofLocal varIdx exportName =>
    exact (succeeds_put _).seq fun _ => (succeeds_put _).seq fun _ => succeeds_bcPutAtom _
  | ofModule exportType notLocal reqModuleIdx localName exportName =>
    exact (succeeds_put _).seq fun _ => (succeeds_put _).seq fun _ => (succeeds_bcPutAtom _).seq fun _ =>
      succeeds_bcPutAtom _

theorem succeeds_writeImportEntry (mi : JSImportEntry) : Succeeds (writeImportEntry mi) True :=
  (succeeds_put _).seq fun _ => (succeeds_bcPutAtom _).seq fun _ => succeeds_put _

theorem succeeds_jsWriteObjectAtoms (atomArray : JSAtom → JSString) (idxToAtom : List JSAtom) :
    Succeeds (jsWriteObjectAtoms atomArray idxToAtom) True :=
  (succeeds_put _).seq fun _ => (succeeds_put _).seq fun _ =>
    Succeeds.forEach_true (fun _ => succeeds_jsWriteString _) _

/-! ## Bytecode -/

theorem instructions_cons {byte : UInt8} {op : Op} {code : List UInt8} (hop : opOfByte byte = some op) :
    Instructions (byte :: code) ↔
      (hasAtom op = true → 4 ≤ code.length) ∧ Instructions (code.drop (op.size - 1)) := by
  constructor
  · intro h
    cases h with
    | cons hop' hatom hrest =>
      obtain rfl := Option.some.inj (hop.symm.trans hop')
      exact ⟨hatom, hrest⟩
  · rintro ⟨hatom, hrest⟩
    exact .cons hop hatom hrest

theorem not_instructions {byte : UInt8} {code : List UInt8} (hop : opOfByte byte = none) :
    ¬ Instructions (byte :: code) := by
  intro h
  cases h with
  | cons hop' => cases hop.symm.trans hop'

/-- The loop stops where the code has no instruction, and nowhere else. -/
theorem succeeds_mapAtomOperands {f : BitVec 32 → WriterM (BitVec 32)} (hf : ∀ val, Succeeds (f val) True)
    {n : ℕ} {code : List UInt8} (hn : code.length ≤ n) :
    Succeeds (mapAtomOperands (fun _ => throw .fault) f n code) (Instructions code) := by
  induction n generalizing code with
  | zero =>
    obtain rfl := List.length_eq_zero_iff.mp (Nat.le_zero.mp hn)
    exact (Succeeds.pure _).congr (iff_of_true trivial .nil)
  | succ n ih =>
    cases code with
    | nil => exact (Succeeds.pure _).congr (iff_of_true trivial .nil)
    | cons byte code =>
      -- Whatever an instruction takes, the rounds that are left are enough for the rest.
      have hrest : ∀ k, Succeeds (mapAtomOperands (fun _ => throw .fault) f n (code.drop k))
          (Instructions (code.drop k)) := by
        intro k
        apply ih
        rw [List.length_cons] at hn
        rw [List.length_drop]
        omega
      unfold mapAtomOperands
      cases hop : opOfByte byte with
      | none => exact (Succeeds.throw _).congr (iff_of_false id (not_instructions hop))
      | some op =>
        dsimp only
        rw [instructions_cons hop]
        by_cases hatom : hasAtom op = true
        · rw [if_pos hatom]
          by_cases hlen : code.length < 4
          · rw [if_pos hlen]
            refine (Succeeds.throw _).congr (iff_of_false id fun h => ?_)
            exact absurd (h.1 hatom) (Nat.not_le_of_lt hlen)
          · rw [if_neg hlen]
            have hround := (hf (BitVec.ofNat 32 (leValue (code.take 4)))).seq fun val =>
              (hrest (op.size - 1)).andThen fun rest => Succeeds.pure
                (byte :: leBytes 4 val.toNat ++ (code.drop 4).take (op.size - 5) ++ rest)
            refine hround.congr ⟨fun h => ⟨fun _ => Nat.le_of_not_lt hlen, h⟩, fun h => h.2⟩
        · rw [if_neg hatom]
          have hround := (hrest (op.size - 1)).andThen fun rest =>
            Succeeds.pure (byte :: code.take (op.size - 1) ++ rest)
          exact hround.congr ⟨fun h => ⟨fun hatom' => absurd hatom' hatom, h⟩, fun h => h.2⟩

theorem succeeds_jsWriteFunctionBytecode (code : List UInt8) :
    Succeeds (jsWriteFunctionBytecode code) (Instructions code) :=
  (succeeds_mapAtomOperands (fun _ => Succeeds.modifyGet _) (Nat.le_refl _)).andThen fun _ => succeeds_put _

/-! ## Big numbers -/

theorem succeeds_writeMantissa (kind : BigNumKind) (tab : List ℕ) :
    Succeeds (writeMantissa kind tab) (∃ len, mantissaLength kind tab = some len ∧ len ≤ 0x7fffffff) := by
  unfold writeMantissa mantissaLength
  cases tab.dropWhile (· = 0) with
  | nil =>
    refine (Succeeds.throw _).congr (iff_of_false id ?_)
    rintro ⟨len, hlen, -⟩
    cases hlen
  | cons v high =>
    dsimp only
    by_cases hkind : kind = .bigDecimal
    · rw [if_pos hkind, if_pos hkind]
      refine Succeeds.ite (fun hlong => ?_) fun hshort => ?_
      · refine (Succeeds.throw _).congr (iff_of_false id ?_)
        rintro ⟨len, hlen, hle⟩
        cases hlen
        exact absurd hle (Nat.not_le_of_lt hlong)
      · refine ((succeeds_put _).seq fun _ => succeeds_put _).congr (iff_of_true trivial ⟨_, rfl, ?_⟩)
        exact Nat.le_of_not_lt hshort
    · rw [if_neg hkind, if_neg hkind]
      refine Succeeds.ite (fun hlong => ?_) fun hshort => ?_
      · refine (Succeeds.throw _).congr (iff_of_false id ?_)
        rintro ⟨len, hlen, hle⟩
        cases hlen
        exact absurd hle (Nat.not_le_of_lt hlong)
      · refine ((succeeds_put _).seq fun _ => succeeds_put _).congr (iff_of_true trivial ⟨_, rfl, ?_⟩)
        exact Nat.le_of_not_lt hshort

theorem succeeds_jsWriteBigNum (kind : BigNumKind) (a : BigFloat) :
    Succeeds (jsWriteBigNum kind a) (a.Writable kind) := by
  refine Succeeds.ite (fun hexp => ?_) fun hexp => ?_
  · exact (Succeeds.throw _).congr (iff_of_false id fun h => h.exponent hexp)
  · refine (succeeds_put _).seq fun _ => Succeeds.ite (fun htab => ?_) fun htab => ?_
    · exact (Succeeds.pure ()).congr (iff_of_true trivial ⟨hexp, .inl htab⟩)
    · refine (succeeds_writeMantissa kind a.tab).congr ⟨fun h => ⟨hexp, .inr h⟩, fun h => ?_⟩
      exact h.mantissa.resolve_left htab

/-! ## Values -/

/-- A function has its code and its constants. -/
theorem succeeds_writeFunction {w : JSValue → WriterM Unit} {b : FunctionBytecode} {cpool : List JSValue}
    {q : Prop} (hcpool : Succeeds (cpool.forM w) q) :
    Succeeds (writeFunction w b cpool) (Instructions b.byteCode ∧ q) := by
  refine (succeeds_put _).seq fun _ => (succeeds_put _).seq fun _ => (succeeds_bcPutAtom _).seq fun _ => ?_
  -- The four sizes, then the lengths of the three arrays.
  refine (succeeds_put _).seq fun _ => (succeeds_put _).seq fun _ => (succeeds_put _).seq fun _ =>
    (succeeds_put _).seq fun _ => ?_
  refine (succeeds_put _).seq fun _ => (succeeds_put _).seq fun _ => (succeeds_put _).seq fun _ => ?_
  refine (succeeds_writeVarDefs b).seq fun _ => (Succeeds.forEach_true succeeds_writeClosureVar _).seq fun _ => ?_
  exact (succeeds_jsWriteFunctionBytecode b.byteCode).bind fun _ =>
    (succeeds_writeDebug b.debug).seq fun _ => hcpool

theorem succeeds_writeModule {w : JSValue → WriterM Unit} {m : JSModuleDef} {funcObj : JSValue} {q : Prop}
    (hfunc : Succeeds (w funcObj) q) : Succeeds (writeModule w m funcObj) q := by
  refine (succeeds_bcPutAtom _).seq fun _ => ?_
  refine (succeeds_put _).seq fun _ => (Succeeds.forEach_true succeeds_bcPutAtom _).seq fun _ => ?_
  refine (succeeds_put _).seq fun _ => (Succeeds.forEach_true succeeds_writeExportEntry _).seq fun _ => ?_
  refine (succeeds_put _).seq fun _ => (Succeeds.forEach_true (fun _ => succeeds_put _) _).seq fun _ => ?_
  refine (succeeds_put _).seq fun _ => (Succeeds.forEach_true succeeds_writeImportEntry _).seq fun _ => ?_
  exact hfunc

/-- A value is written if it can be by itself and each value right below it can. -/
theorem succeeds_round {n : ℕ} {p : JSValue → Prop} (hp : ∀ w, Succeeds (jsWriteObjectRec n w) (p w))
    (v : JSValue) : Succeeds (jsWriteObjectRec (n + 1) v) (v.Writable ∧ ∀ w ∈ v.parts, p w) := by
  have hlist : ∀ l : List JSValue, Succeeds (l.forM (jsWriteObjectRec n)) (∀ w ∈ l, p w) :=
    fun l => Succeeds.forEach fun w _ => hp w
  have hsingle : ∀ {w}, p w ↔ True ∧ ∀ u ∈ [w], p u := by
    intro w
    rw [true_and, List.forall_mem_singleton]
  have hnone : ∀ {q : Prop}, q ↔ q ∧ ∀ w ∈ ([] : List JSValue), p w :=
    ⟨fun hq => ⟨hq, fun w hw => absurd hw List.not_mem_nil⟩, fun h => h.1⟩
  cases v with
  | null | undefined | bool => exact (succeeds_put _).congr hnone
  | int | float64 => exact ((succeeds_put _).seq fun _ => succeeds_put _).congr hnone
  | string s => exact ((succeeds_put _).seq fun _ => succeeds_jsWriteString s).congr hnone
  | bigNum kind num => exact ((succeeds_put _).seq fun _ => succeeds_jsWriteBigNum kind num).congr hnone
  | functionBytecode b cpool => exact (succeeds_put _).seq fun _ => succeeds_writeFunction (hlist cpool)
  | moduleDef m funcObj =>
    exact ((succeeds_put _).seq fun _ => succeeds_writeModule (hp funcObj)).congr hsingle
  | object props =>
    have hprops := Succeeds.forEach (l := props) (w := fun x => do bcPutAtom x.1; jsWriteObjectRec n x.2)
      fun x _ => (succeeds_bcPutAtom x.1).seq fun _ => hp x.2
    refine ((succeeds_put _).seq fun _ => (succeeds_put _).seq fun _ => hprops).congr ?_
    show _ ↔ True ∧ ∀ w ∈ props.map Prod.snd, p w
    rw [true_and, List.forall_mem_map]
  | array elements =>
    have helements := (hlist elements).andThen fun _ => Succeeds.pure ()
    exact ((succeeds_put _).seq fun _ => (succeeds_put _).seq fun _ => helements).congr
      (iff_of_eq (true_and _)).symm
  | templateObject elements raw =>
    have hraw := (hlist elements).bind fun _ => hp raw
    refine ((succeeds_put _).seq fun _ => (succeeds_put _).seq fun _ => hraw).congr ?_
    show _ ↔ True ∧ ∀ w ∈ elements ++ [raw], p w
    rw [true_and, List.forall_mem_append, List.forall_mem_singleton]
  | arrayBuffer data =>
    exact ((succeeds_put _).seq fun _ => (succeeds_put _).seq fun _ => succeeds_put _).congr hnone
  | typedArray kind count offset buffer =>
    have hbuffer := (succeeds_put (leb128 offset.toNat)).seq fun _ => hp buffer
    exact ((succeeds_put _).seq fun _ => (succeeds_put _).seq fun _ => (succeeds_put _).seq fun _ =>
      hbuffer).congr hsingle
  | date objectData | objectValue objectData =>
    exact ((succeeds_put _).seq fun _ => hp objectData).congr hsingle

/-- What is within a value is the value, or within one right below it. -/
theorem forall_within {P : ℕ → JSValue → Prop} {v : JSValue} :
    (∀ k u, JSValue.Within k u v → P k u) ↔
      P 0 v ∧ ∀ w ∈ v.parts, ∀ k u, JSValue.Within k u w → P (k + 1) u := by
  constructor
  · intro h
    exact ⟨h 0 v (.refl v), fun w hw k u hu => h (k + 1) u (.part hw hu)⟩
  · rintro ⟨hv, hparts⟩ k u hu
    cases hu with
    | refl => exact hv
    | part hw hu => exact hparts _ hw _ u hu

theorem succeeds_jsWriteObjectRec (n : ℕ) (v : JSValue) :
    Succeeds (jsWriteObjectRec n v) (∀ k u, JSValue.Within k u v → k < n ∧ u.Writable) := by
  induction n generalizing v with
  | zero => exact (Succeeds.throw _).congr (iff_of_false id fun h => Nat.lt_irrefl 0 (h 0 v (.refl v)).1)
  | succ n ih =>
    refine (succeeds_round ih v).congr ?_
    rw [forall_within]
    simp only [Nat.succ_lt_succ_iff, Nat.zero_lt_succ, true_and]

end JSChip.Binary
