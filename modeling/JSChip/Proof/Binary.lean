import Mathlib.Data.Finset.Card
import Mathlib.Order.Interval.Finset.Nat
import JSChip.Proof.Numbers

/-!
# Atoms, strings and bytecode that are written can be read

* `TableOk`: what the two tables of the writer have to do with each other. `bcAtomToIdx_ok` says that
  it is kept, and that the place which is written for an atom leads back to it.
* `ReadsBack w r x`: what `w` writes, `r` reads as `x`.
* `renameAtom ρ`: what becomes of an atom, where `ρ` takes those of the runtime that writes to those of
  the runtime that reads.
* `readsBack_jsWriteFunctionBytecode`: bytecode comes back with its atoms renamed.
-/

namespace JSChip.Binary

open Codec
open Alloc (JSString leb128)
open Bytecode (Op)

/-! ## The two tables of the writer -/

/-- The atom is written as it is: it is predefined, or an integer. -/
def KnownAtom (a : JSAtom) : Prop := a.toNat < jsAtomEnd ∨ a.isTaggedInt = true

instance (a : JSAtom) : Decidable (KnownAtom a) := inferInstanceAs (Decidable (_ ∨ _))

theorem not_knownAtom_iff {a : JSAtom} :
    ¬ KnownAtom a ↔ jsAtomEnd ≤ a.toNat ∧ a.toNat < 2 ^ 31 := by
  unfold KnownAtom
  rw [JSAtom.isTaggedInt_iff]
  omega

/-- Among `atoms`, the number `v` stands for `a`. -/
structure Resolves (atoms : List JSAtom) (v : BitVec 32) (a : JSAtom) : Prop where
  known : KnownAtom a → v = a
  place : ¬ KnownAtom a →
    jsAtomEnd ≤ v.toNat ∧ v.toNat < 2 ^ 31 ∧ atoms[v.toNat - jsAtomEnd]? = some a

theorem Resolves.mono {atoms atoms' : List JSAtom} {v : BitVec 32} {a : JSAtom}
    (h : Resolves atoms v a) (hpre : atoms <+: atoms') : Resolves atoms' v a where
  known := h.known
  place := by
    intro ha
    obtain ⟨hge, hlt, hget⟩ := h.place ha
    obtain ⟨rest, rfl⟩ := hpre
    refine ⟨hge, hlt, ?_⟩
    rw [List.getElem?_append_left (List.getElem?_eq_some_iff.mp hget).1]
    exact hget

/-- `idx_to_atom` has every atom once, and `atom_to_idx` has its place. -/
structure TableOk (s : BCWriterState) : Prop where
  nodup : s.idxToAtom.Nodup
  unknown : ∀ a ∈ s.idxToAtom, ¬ KnownAtom a
  found : ∀ a : JSAtom, ¬ KnownAtom a → s.atomToIdx.getD (a.toNat - jsAtomEnd) 0 ≠ 0 →
    Resolves s.idxToAtom (s.atomToIdx.getD (a.toNat - jsAtomEnd) 0) a
  seen : ∀ a ∈ s.idxToAtom, s.atomToIdx.getD (a.toNat - jsAtomEnd) 0 ≠ 0

theorem TableOk.empty : TableOk ⟨[], [], []⟩ where
  nodup := List.nodup_nil
  unknown := by
    intro a ha
    cases ha
  found := by
    intro a _ hne
    exact absurd rfl hne
  seen := by
    intro a ha
    cases ha

/-- There are no more places than atoms. -/
theorem length_lt_of_unknown {atoms : List JSAtom} (hnodup : atoms.Nodup)
    (hun : ∀ a ∈ atoms, ¬ KnownAtom a) : atoms.length + jsAtomEnd ≤ 2 ^ 31 := by
  have hmap : (atoms.map BitVec.toNat).Nodup :=
    hnodup.map fun a b h => BitVec.eq_of_toNat_eq h
  have hsub : (atoms.map BitVec.toNat).toFinset ⊆ Finset.Ico jsAtomEnd (2 ^ 31) := by
    intro n hn
    rw [List.mem_toFinset] at hn
    obtain ⟨a, ha, rfl⟩ := List.mem_map.mp hn
    exact Finset.mem_Ico.mpr (not_knownAtom_iff.mp (hun a ha))
  have hcard := Finset.card_le_card hsub
  rw [List.toFinset_card_of_nodup hmap, List.length_map, Nat.card_Ico] at hcard
  have hend : jsAtomEnd ≤ 2 ^ 31 := by decide
  omega

/-- An array that grows by zeros and then is written to. -/
theorem getD_set_grow (l : List (BitVec 32)) (k : ℕ) (v : BitVec 32) (i : ℕ) :
    ((l ++ List.replicate (k + 1 - l.length) 0).set k v).getD i 0 =
      if i = k then v else l.getD i 0 := by
  have hlen : k < (l ++ List.replicate (k + 1 - l.length) (0 : BitVec 32)).length := by
    rw [List.length_append, List.length_replicate]
    omega
  rw [List.getD_eq_getElem?_getD, List.getElem?_set]
  by_cases hik : i = k
  · subst hik
    rw [if_pos rfl, if_pos hlen, if_pos rfl]
    rfl
  · rw [if_neg (Ne.symm hik), if_neg hik, List.getElem?_append]
    split
    · rw [List.getD_eq_getElem?_getD]
    next hge =>
      rw [List.getD_eq_getElem?_getD, List.getElem?_eq_none (l := l) (by omega), List.getElem?_replicate]
      split <;> rfl

/-- What comes of a new atom: the last place. -/
theorem TableOk.add {s : BCWriterState} (hs : TableOk s) {a : JSAtom} (ha : ¬ KnownAtom a)
    (hnew : s.atomToIdx.getD (a.toNat - jsAtomEnd) 0 = 0) (table : List (BitVec 32)) (v : BitVec 32)
    (hv : v = BitVec.ofNat 32 (s.idxToAtom.length + jsAtomEnd))
    (hget : ∀ i, table.getD i 0 = if i = a.toNat - jsAtomEnd then v else s.atomToIdx.getD i 0) :
    TableOk { s with idxToAtom := s.idxToAtom ++ [a], atomToIdx := table } ∧
      Resolves (s.idxToAtom ++ [a]) v a := by
  have hmem : a ∉ s.idxToAtom := fun h => hs.seen a h hnew
  have hnodup : (s.idxToAtom ++ [a]).Nodup :=
    List.nodup_append.mpr ⟨hs.nodup, List.nodup_singleton a, by
      intro b hb c hc
      rw [List.mem_singleton] at hc
      rintro rfl
      exact hmem (hc ▸ hb)⟩
  have hunknown : ∀ b ∈ s.idxToAtom ++ [a], ¬ KnownAtom b := by
    intro b hb
    rcases List.mem_append.mp hb with hb | hb
    · exact hs.unknown b hb
    · rw [List.mem_singleton] at hb
      exact hb ▸ ha
  have hlen := length_lt_of_unknown hnodup hunknown
  rw [List.length_append, List.length_singleton] at hlen
  have htoNat : v.toNat = s.idxToAtom.length + jsAtomEnd := by
    rw [hv, BitVec.toNat_ofNat, Nat.mod_eq_of_lt (by omega)]
  have hres : Resolves (s.idxToAtom ++ [a]) v a := by
    refine ⟨fun h => absurd h ha, fun _ => ⟨by omega, by omega, ?_⟩⟩
    rw [htoNat, Nat.add_sub_cancel, List.getElem?_concat_length]
  have hvne : v ≠ 0 := by
    intro h
    rw [h] at htoNat
    have : jsAtomEnd = 225 := rfl
    have : (0 : BitVec 32).toNat = 0 := rfl
    omega
  -- atoms that are not known differ in their places
  have hplace : ∀ b, ¬ KnownAtom b → b.toNat - jsAtomEnd = a.toNat - jsAtomEnd → b = a := by
    intro b hb heq
    have hb := not_knownAtom_iff.mp hb
    have ha := not_knownAtom_iff.mp ha
    exact BitVec.eq_of_toNat_eq (by omega)
  refine ⟨⟨hnodup, hunknown, ?_, ?_⟩, hres⟩
  · intro b hb
    show table.getD _ 0 ≠ 0 → Resolves (s.idxToAtom ++ [a]) (table.getD _ 0) b
    rw [hget]
    split
    next heq =>
      intro _
      rw [hplace b hb heq]
      exact hres
    next => exact fun hne => (hs.found b hb hne).mono (List.prefix_append _ _)
  · intro b hb
    show table.getD _ 0 ≠ 0
    rw [hget]
    split
    · exact hvne
    next hne =>
      rcases List.mem_append.mp hb with hb | hb
      · exact hs.seen b hb
      · rw [List.mem_singleton] at hb
        exact absurd (hb ▸ rfl) hne

/-- **The table is kept, and what is written for an atom leads back to it.** -/
theorem bcAtomToIdx_ok {s : BCWriterState} (hs : TableOk s) (a : JSAtom) :
    TableOk (bcAtomToIdx s a).2 ∧ (bcAtomToIdx s a).2.dbuf = s.dbuf ∧
      s.idxToAtom <+: (bcAtomToIdx s a).2.idxToAtom ∧
      Resolves (bcAtomToIdx s a).2.idxToAtom (bcAtomToIdx s a).1 a := by
  unfold bcAtomToIdx
  by_cases hknown : a.toNat < jsAtomEnd ∨ a.isTaggedInt = true
  · rw [if_pos hknown]
    exact ⟨hs, rfl, List.prefix_rfl, fun _ => rfl, fun h => absurd hknown h⟩
  · rw [if_neg hknown]
    by_cases hne : s.atomToIdx.getD (a.toNat - jsAtomEnd) 0 ≠ 0
    · simp only [if_pos hne]
      exact ⟨hs, trivial, List.prefix_rfl, hs.found a hknown hne⟩
    · simp only [if_neg hne]
      rw [ne_eq, not_not] at hne
      obtain ⟨hok, hres⟩ := hs.add hknown hne _ _ rfl fun i => getD_set_grow _ _ _ i
      exact ⟨hok, trivial, List.prefix_append _ _, hres⟩

/-! ## What is written and what is read -/

/-- Bytes are appended to `dbuf`, and may refer to the places of `idxToAtom`. -/
def medium : Medium BCWriterState (List JSAtom) where
  out s := s.dbuf
  dictionary s := s.idxToAtom
  Valid := TableOk
  Grows d d' := d <+: d'
  refl _ := List.prefix_rfl
  trans := List.IsPrefix.trans

variable {α : Type}

/-- What `w` writes, `r` reads back as `x`, where it is given the whole of `idxToAtom`. -/
abbrev ReadsBack (w : WriterM Unit) (r : List JSAtom → Reader α) (x : α) : Prop :=
  Mirrors medium .readAfterEnd w r x

theorem readsBack_put {bs : List UInt8} {r : List JSAtom → Reader α} {x : α}
    (h : ∀ d, Exact .readAfterEnd (r d) bs x) : ReadsBack (put bs) r x := by
  intro s s' hs hput
  cases hput
  exact ⟨⟨hs.nodup, hs.unknown, hs.found, hs.seen⟩, List.prefix_rfl, bs, rfl, fun d _ => h _⟩

theorem readsBack_bcPutU8 (v : UInt8) : ReadsBack (bcPutU8 v) (fun _ => bcGetU8) v :=
  readsBack_put fun _ => Exact.byte v

theorem readsBack_bcPutU16 (v : BitVec 16) : ReadsBack (bcPutU16 v) (fun _ => bcGetU16) v :=
  readsBack_put fun _ => exact_bcGetU16 v

theorem readsBack_bcPutU64 (v : BitVec 64) : ReadsBack (bcPutU64 v) (fun _ => bcGetU64) v :=
  readsBack_put fun _ => exact_bcGetU64 v

theorem readsBack_bcPutLeb128 (v : BitVec 32) :
    ReadsBack (bcPutLeb128 v) (fun _ => bcGetLeb128) v :=
  readsBack_put fun _ => exact_bcGetLeb128 v

theorem readsBack_bcPutSleb128 (v : BitVec 32) :
    ReadsBack (bcPutSleb128 v) (fun _ => bcGetSleb128) v :=
  readsBack_put fun _ => exact_bcGetSleb128 v

theorem readsBack_bcPutLeb128U16 (v : BitVec 16) :
    ReadsBack (bcPutLeb128 (v.setWidth 32)) (fun _ => bcGetLeb128U16) v :=
  readsBack_put fun _ => exact_bcGetLeb128U16 v

/-! ## Atoms -/

/-- The atom that is read where `a` was written, where `ρ` takes an atom of the runtime that writes to
the atom with the same string in the runtime that reads. -/
def renameAtom (ρ : JSAtom → JSAtom) (a : JSAtom) : JSAtom := if KnownAtom a then a else ρ a

variable {ρ : JSAtom → JSAtom}

theorem exact_bcIdxToAtom {atoms d : List JSAtom} {v : BitVec 32} {a : JSAtom}
    (h : Resolves atoms v a) (hd : atoms <+: d) :
    Exact .readAfterEnd (bcIdxToAtom (d.map ρ) v) [] (renameAtom ρ a) := by
  have hres := h.mono hd
  unfold bcIdxToAtom renameAtom
  by_cases ha : KnownAtom a
  · rw [hres.known ha, if_pos ha]
    rcases ha with hlt | htag
    · rw [if_pos hlt, ite_self]
      exact Exact.pure a
    · rw [if_pos htag]
      exact Exact.pure a
  · obtain ⟨hge, hlt, hget⟩ := hres.place ha
    have htag : ¬ JSAtom.isTaggedInt v = true := by
      rw [JSAtom.isTaggedInt_iff]
      omega
    rw [if_neg htag, if_neg (by omega), if_neg ha, List.getElem?_map, hget]
    exact Exact.pure _

theorem readsBack_bcPutAtom (a : JSAtom) :
    ReadsBack (bcPutAtom a) (fun d => bcGetAtom (d.map ρ)) (renameAtom ρ a) := by
  unfold bcPutAtom
  split
  next htag =>
    -- An integer is in the file as it is, with the low bit set.
    have hlt : a.toUInt32.toNat < 2 ^ 31 := by
      rw [JSAtom.toNat_toUInt32]
      exact Nat.mod_lt _ (Nat.two_pow_pos 31)
    have hval := toNat_shiftLeft_or_one a.toUInt32 hlt
    refine readsBack_put fun d => ?_
    have hodd : (a.toUInt32 <<< 1 ||| 1) &&& 1 != 0 := by
      rw [bne_iff_ne]
      intro h
      have h := congrArg BitVec.toNat h
      rw [toNat_and_one, hval] at h
      have : (0 : BitVec 32).toNat = 0 := rfl
      omega
    have hback : JSAtom.fromUInt32 ((a.toUInt32 <<< 1 ||| 1) >>> 1) = renameAtom ρ a := by
      have hhalf : ((a.toUInt32 <<< 1 ||| 1) >>> 1).toNat = a.toUInt32.toNat := by
        rw [toNat_shiftRight_one, hval]
        omega
      have hge := JSAtom.isTaggedInt_iff a |>.mp htag
      have hlt := a.isLt
      unfold renameAtom
      rw [if_pos (.inr htag)]
      apply BitVec.eq_of_toNat_eq
      rw [JSAtom.toNat_fromUInt32 _ (by omega), hhalf, JSAtom.toNat_toUInt32]
      omega
    refine (exact_bcGetLeb128 (a.toUInt32 <<< 1 ||| 1)).bind_nil ?_
    show Exact _ (if _ then _ else _) _ _
    rw [if_pos hodd, hback]
    exact Exact.pure _
  next htag =>
    -- Any other atom is there as its place, with the low bit clear.
    intro s s' hs h
    obtain ⟨hok, hdbuf, hpre, hres⟩ := bcAtomToIdx_ok hs a
    change (Except.ok ((), { (bcAtomToIdx s a).2 with
      dbuf := (bcAtomToIdx s a).2.dbuf ++ leb128 ((bcAtomToIdx s a).1 <<< 1).toNat }) :
        Except WriteError _) = _ at h
    injection h with h
    injection h with _ h
    subst h
    set v := (bcAtomToIdx s a).1
    set t := (bcAtomToIdx s a).2
    refine ⟨⟨hok.nodup, hok.unknown, hok.found, hok.seen⟩, hpre, leb128 (v <<< 1).toNat, ?_, ?_⟩
    · show t.dbuf ++ _ = s.dbuf ++ _
      rw [hdbuf]
    · intro d hd
      have hlt : v.toNat < 2 ^ 31 := by
        by_cases ha : KnownAtom a
        · rw [hres.known ha]
          rcases ha with hlt | htag'
          · have : jsAtomEnd = 225 := rfl
            omega
          · exact absurd htag' htag
        · exact (hres.place ha).2.1
      have hval := toNat_shiftLeft_one v
      have heven : ¬ ((v <<< 1 &&& 1 != 0) = true) := by
        rw [bne_iff_ne, ne_eq, not_not]
        apply BitVec.eq_of_toNat_eq
        rw [toNat_and_one, hval]
        show _ = 0
        omega
      have hback : (v <<< 1) >>> 1 = v := by
        apply BitVec.eq_of_toNat_eq
        rw [toNat_shiftRight_one, hval]
        omega
      refine (exact_bcGetLeb128 (v <<< 1)).bind_nil ?_
      show Exact _ (if _ then _ else _) _ _
      rw [if_neg heven, hback]
      exact exact_bcIdxToAtom hres hd

/-! ## Strings -/

/-- The length of a string and its width fit the header. -/
def stringFits : JSString → Prop
  | .str8 chars => chars.length < 2 ^ 31
  | .str16 chars => chars.length < 2 ^ 31

theorem str16Of_append (v : ℕ) (bs : List UInt8) :
    str16Of (leBytes 2 v ++ bs) = UInt16.ofNat (leValue (leBytes 2 v)) :: str16Of bs := rfl

theorem str16Of_flatMap (chars : List UInt16) :
    str16Of (chars.flatMap fun c => leBytes 2 c.toBitVec.toNat) = chars := by
  induction chars with
  | nil => rfl
  | cons c chars ih =>
    rw [List.flatMap_cons, str16Of_append, leValue_leBytes_of_lt c.toBitVec.isLt, ih]
    congr 1
    exact UInt16.ofNat_toNat

theorem forM_put_eq {β : Type} (f : β → List UInt8) (l : List β) (s : BCWriterState) :
    (l.forM fun c => put (f c)) s = .ok ((), { s with dbuf := s.dbuf ++ l.flatMap f }) := by
  induction l generalizing s with
  | nil =>
    rw [List.flatMap_nil, List.append_nil]
    rfl
  | cons c l ih =>
    show (l.forM fun c => put (f c)) { s with dbuf := s.dbuf ++ f c } = _
    rw [ih, List.flatMap_cons, List.append_assoc]

/-- Putting the parts one by one is putting them all. -/
theorem forM_put {β : Type} (f : β → List UInt8) (l : List β) :
    (l.forM fun c => put (f c)) = put (l.flatMap f) := funext (forM_put_eq f l)

/-- The header of a string. -/
theorem toNat_header {n : ℕ} (h : n < 2 ^ 31) :
    (BitVec.ofNat 32 n <<< 1).toNat = 2 * n ∧ ((BitVec.ofNat 32 n <<< 1) ||| 1).toNat = 2 * n + 1 := by
  have hn : (BitVec.ofNat 32 n).toNat = n := by
    rw [BitVec.toNat_ofNat]
    omega
  constructor
  · rw [toNat_shiftLeft_one, hn]
    omega
  · rw [toNat_shiftLeft_or_one _ (by omega), hn]

theorem readsBack_jsWriteString {p : JSString} (hp : stringFits p) :
    ReadsBack (jsWriteString p) (fun _ => jsReadString) p := by
  cases p with
  | str8 chars =>
    obtain ⟨heven, -⟩ := toNat_header hp
    refine Mirrors.bind (readsBack_bcPutLeb128 _) (readsBack_put fun _ => ?_)
    have hbit : ¬ ((BitVec.ofNat 32 chars.length <<< 1 &&& 1 != 0) = true) := by
      rw [bne_iff_ne, ne_eq, not_not]
      apply BitVec.eq_of_toNat_eq
      rw [toNat_and_one, heven]
      show _ = 0
      omega
    have hlen : ((BitVec.ofNat 32 chars.length <<< 1) >>> 1).toNat = chars.length := by
      rw [toNat_shiftRight_one, heven]
      omega
    rw [if_neg hbit, hlen]
    exact (Exact.take chars).bind_nil (Exact.pure _)
  | str16 chars =>
    obtain ⟨-, hodd⟩ := toNat_header hp
    refine Mirrors.bind (readsBack_bcPutLeb128 _) ?_
    have hbit : (BitVec.ofNat 32 chars.length <<< 1 ||| 1) &&& 1 != 0 := by
      rw [bne_iff_ne]
      intro h
      have h := congrArg BitVec.toNat h
      rw [toNat_and_one, hodd] at h
      have : (0 : BitVec 32).toNat = 0 := rfl
      omega
    have hlen : ((BitVec.ofNat 32 chars.length <<< 1 ||| 1) >>> 1).toNat = chars.length := by
      rw [toNat_shiftRight_one, hodd]
      omega
    have hbytes := length_flatMap_leBytes 2 (fun c : UInt16 => c.toBitVec.toNat) chars
    have hput : (chars.forM fun c => bcPutU16 c.toBitVec) =
        put (chars.flatMap fun c => leBytes 2 c.toBitVec.toNat) := forM_put _ _
    rw [hput]
    refine readsBack_put fun _ => ?_
    rw [if_pos hbit, hlen, ← hbytes]
    have htake : Exact ReadError.readAfterEnd _ _ _ :=
      Exact.take (chars.flatMap fun c => leBytes 2 c.toBitVec.toNat)
    have h := htake.bind_nil (f := fun bs => pure (JSString.str16 (str16Of bs))) (Exact.pure _)
    rwa [str16Of_flatMap] at h

/-! ## Bytecode -/

/-- The atom is part of the instruction. -/
theorem five_le_size {op : Op} (h : hasAtom op = true) : 5 ≤ op.size := by
  cases op <;> first | exact Nat.le_of_ble_eq_true rfl | cases h

/-- The operands of an instruction, and what comes after it. -/
theorem drop_take_append {k : ℕ} {l r : List UInt8} (h : r.length = (l.drop k).length) :
    (l.take k ++ r).take k = l.take k ∧ (l.take k ++ r).drop k = r := by
  by_cases hk : k ≤ l.length
  · have hlen : (l.take k).length = k := by
      rw [List.length_take]
      omega
    exact ⟨List.take_left' hlen, List.drop_left' hlen⟩
  · have hr : r = [] := by
      rw [List.length_drop] at h
      exact List.eq_nil_of_length_eq_zero (by omega)
    have htake : l.take k = l := List.take_of_length_le (by omega)
    rw [hr, htake, List.append_nil, htake]
    exact ⟨rfl, List.drop_eq_nil_of_le (by omega)⟩

/-- Bytecode with its atoms renamed. -/
def renameCode (ρ : JSAtom → JSAtom) (n : ℕ) (code : List UInt8) : List UInt8 :=
  Id.run (mapAtomOperands pure (fun a => pure (renameAtom ρ a)) n code)

section Operands

variable {M : Type → Type} [Monad M] (bad : List UInt8 → M (List UInt8))
  (f : BitVec 32 → M (BitVec 32)) (n : ℕ) {byte : UInt8} {code : List UInt8} {op : Op}

theorem mapAtomOperands_atom (hop : opOfByte byte = some op) (hatom : hasAtom op = true)
    (hlen : ¬ code.length < 4) :
    mapAtomOperands bad f (n + 1) (byte :: code) = (do
      let val ← f (BitVec.ofNat 32 (leValue (code.take 4)))
      let rest ← mapAtomOperands bad f n (code.drop (op.size - 1))
      pure (byte :: leBytes 4 val.toNat ++ (code.drop 4).take (op.size - 5) ++ rest)) := by
  rw [mapAtomOperands, hop]
  show (if hasAtom op = true then _ else _) = _
  rw [if_pos hatom, if_neg hlen]

theorem mapAtomOperands_plain (hop : opOfByte byte = some op) (hatom : ¬ hasAtom op = true) :
    mapAtomOperands bad f (n + 1) (byte :: code) = (do
      let rest ← mapAtomOperands bad f n (code.drop (op.size - 1))
      pure (byte :: code.take (op.size - 1) ++ rest)) := by
  rw [mapAtomOperands, hop]
  show (if hasAtom op = true then _ else _) = _
  rw [if_neg hatom]

theorem mapAtomOperands_bad
    (hop : ∀ op, opOfByte byte = some op → hasAtom op = true ∧ code.length < 4) :
    mapAtomOperands bad f (n + 1) (byte :: code) = bad (byte :: code) := by
  rw [mapAtomOperands]
  split
  · rfl
  next op h =>
    obtain ⟨hatom, hlen⟩ := hop op h
    rw [if_pos hatom, if_pos hlen]

end Operands

abbrev writeOperands : ℕ → List UInt8 → WriterM (List UInt8) :=
  mapAtomOperands (fun _ => throw .fault) fun atom => modifyGet fun s => bcAtomToIdx s atom

abbrev readOperands (atoms : List JSAtom) : ℕ → List UInt8 → Reader (List UInt8) :=
  mapAtomOperands (fun _ => throw .fault) (bcIdxToAtom atoms)

/-- The loop of the writer, and the loop of the reader on what it leaves. -/
theorem mapAtomOperands_ok (ρ : JSAtom → JSAtom) {n : ℕ} {code code' : List UInt8}
    {s s' : BCWriterState} (hn : code.length ≤ n) (hs : TableOk s)
    (h : writeOperands n code s = .ok (code', s')) :
    TableOk s' ∧ s'.dbuf = s.dbuf ∧ s.idxToAtom <+: s'.idxToAtom ∧ code'.length = code.length ∧
      ∀ d, s'.idxToAtom <+: d →
        Exact .readAfterEnd (readOperands (d.map ρ) n code') [] (renameCode ρ n code) := by
  induction n generalizing code code' s with
  | zero =>
    cases h
    exact ⟨hs, rfl, List.prefix_rfl, rfl, fun _ _ => Exact.pure _⟩
  | succ n ih =>
    cases code with
    | nil =>
      cases h
      exact ⟨hs, rfl, List.prefix_rfl, rfl, fun _ _ => Exact.pure _⟩
    | cons byte code =>
      rw [List.length_cons] at hn
      cases hop : opOfByte byte with
      | none =>
        have hbad : ∀ op, opOfByte byte = some op → hasAtom op = true ∧ code.length < 4 := by
          intro op hop'
          rw [hop] at hop'
          cases hop'
        rw [writeOperands, mapAtomOperands_bad _ _ _ hbad] at h
        cases h
      | some op =>
        have hdrop : (code.drop (op.size - 1)).length ≤ n := by
          rw [List.length_drop]
          omega
        by_cases hatom : hasAtom op = true
        · by_cases hlen : code.length < 4
          · have hbad : ∀ op, opOfByte byte = some op → hasAtom op = true ∧ code.length < 4 := by
              intro op' hop'
              rw [hop] at hop'
              cases hop'
              exact ⟨hatom, hlen⟩
            rw [writeOperands, mapAtomOperands_bad _ _ _ hbad] at h
            cases h
          · have hsize := five_le_size hatom
            rw [writeOperands, mapAtomOperands_atom _ _ _ hop hatom hlen] at h
            -- The four bytes of the atom become those of its place, and no other byte is another.
            obtain ⟨val, t, hval, h⟩ := bind_eq_ok h
            obtain ⟨rest, t', hrest, h⟩ := bind_eq_ok h
            cases h
            set a := BitVec.ofNat 32 (leValue (code.take 4)) with ha
            have hpair : bcAtomToIdx s a = (val, t) := Except.ok.inj hval
            obtain ⟨htok, htbuf, htpre, hres⟩ := bcAtomToIdx_ok hs a
            rw [hpair] at htok htbuf htpre hres
            obtain ⟨hok, hbuf, hpre, hrlen, hread⟩ := ih hdrop htok hrest
            have hrlen' : rest.length = ((code.drop 4).drop (op.size - 5)).length := by
              rw [hrlen, List.drop_drop]
              congr 2
              omega
            obtain ⟨htake, hdrop'⟩ := drop_take_append hrlen'
            refine ⟨hok, hbuf.trans htbuf, htpre.trans hpre, ?_, ?_⟩
            · simp only [List.length_cons, List.length_append, length_leBytes, List.length_take,
                List.length_drop] at hrlen' ⊢
              omega
            · intro d hd
              have hlen' : ¬ (leBytes 4 val.toNat ++ (code.drop 4).take (op.size - 5) ++ rest).length < 4 := by
                rw [List.length_append, List.length_append, length_leBytes]
                omega
              have hhead : (leBytes 4 val.toNat ++ (code.drop 4).take (op.size - 5) ++ rest).take 4 =
                  leBytes 4 val.toNat := by
                rw [List.append_assoc]
                exact List.take_left' (length_leBytes 4 _)
              have htail : (leBytes 4 val.toNat ++ (code.drop 4).take (op.size - 5) ++ rest).drop 4 =
                  (code.drop 4).take (op.size - 5) ++ rest := by
                rw [List.append_assoc]
                exact List.drop_left' (length_leBytes 4 _)
              have hnext : (leBytes 4 val.toNat ++ (code.drop 4).take (op.size - 5) ++ rest).drop
                  (op.size - 1) = rest := by
                rw [show op.size - 1 = 4 + (op.size - 5) by omega, ← List.drop_drop, htail, hdrop']
              have hval' : BitVec.ofNat 32 (leValue (leBytes 4 val.toNat)) = val := by
                rw [leValue_leBytes_of_lt val.isLt, BitVec.ofNat_toNat, BitVec.setWidth_eq]
              show Exact _ (readOperands _ (n + 1) (byte :: (_ ++ _ ++ _))) [] _
              rw [readOperands, mapAtomOperands_atom _ _ _ hop hatom hlen', hhead, htail, hnext, hval', htake]
              unfold renameCode
              rw [mapAtomOperands_atom _ _ _ hop hatom hlen]
              refine (exact_bcIdxToAtom hres (hpre.trans hd)).bind_nil ?_
              exact (hread d hd).bind_nil (Exact.pure _)
        · rw [writeOperands, mapAtomOperands_plain _ _ _ hop hatom] at h
          obtain ⟨rest, t, hrest, h⟩ := bind_eq_ok h
          cases h
          obtain ⟨hok, hbuf, hpre, hrlen, hread⟩ := ih hdrop hs hrest
          obtain ⟨htake, hdrop'⟩ := drop_take_append hrlen
          refine ⟨hok, hbuf, hpre, ?_, ?_⟩
          · simp only [List.length_cons, List.length_append, List.length_take, List.length_drop]
              at hrlen ⊢
            omega
          · intro d hd
            show Exact _ (readOperands _ (n + 1) (byte :: (_ ++ _))) [] _
            rw [readOperands, mapAtomOperands_plain _ _ _ hop hatom, htake, hdrop']
            unfold renameCode
            rw [mapAtomOperands_plain _ _ _ hop hatom]
            exact (hread d hd).bind_nil (Exact.pure _)

/-- **Bytecode comes back with its atoms renamed.** -/
theorem readsBack_jsWriteFunctionBytecode (ρ : JSAtom → JSAtom) {code : List UInt8}
    (hlen : code.length < 2 ^ 32) :
    ReadsBack (jsWriteFunctionBytecode code)
      (fun d => jsReadFunctionBytecode (d.map ρ) (BitVec.ofNat 32 code.length))
      (renameCode ρ code.length code) := by
  intro s s' hs h
  obtain ⟨code', t, hcode, hput⟩ := bind_eq_ok h
  cases hput
  obtain ⟨hok, hbuf, hpre, hlen', hread⟩ := mapAtomOperands_ok ρ (Nat.le_refl _) hs hcode
  refine ⟨⟨hok.nodup, hok.unknown, hok.found, hok.seen⟩, hpre, code', ?_, ?_⟩
  · show t.dbuf ++ code' = s.dbuf ++ code'
    rw [hbuf]
  · intro d hd
    rw [← hlen'] at hlen hread ⊢
    exact (exact_bcGetBuf hlen).bind_nil (hread d hd)

end JSChip.Binary
