import JSChip.Spec.Object

/-!
# Numbers and flags that are written can be read

* `exact_bcGetLeb128`, `exact_bcGetSleb128` and the other numbers: the reader takes what the writer puts.
* `bcGetFlags_packFlags`: a flag is read where it was set, whatever the other flags are.
-/

namespace JSChip.Binary

open Codec
open Alloc (leb128)

/-! ## Words -/

theorem toNat_and_one (x : BitVec 32) : (x &&& 1).toNat = x.toNat % 2 := by
  rw [BitVec.toNat_and]
  exact Nat.and_one_is_mod _

theorem toNat_shiftLeft_or_one (x : BitVec 32) (h : x.toNat < 2 ^ 31) :
    ((x <<< 1) ||| 1).toNat = 2 * x.toNat + 1 := by
  have hshift : (x <<< 1).toNat = x.toNat <<< 1 := by
    rw [BitVec.toNat_shiftLeft, Nat.mod_eq_of_lt]
    rw [Nat.shiftLeft_eq]
    omega
  have hor := Nat.shiftLeft_add_eq_or_of_lt (show 1 < 2 ^ 1 by omega) x.toNat
  rw [BitVec.toNat_or, hshift]
  show x.toNat <<< 1 ||| 1 = _
  rw [← hor, Nat.shiftLeft_eq]
  omega

theorem toNat_shiftRight_one (x : BitVec 32) : (x >>> 1).toNat = x.toNat / 2 := by
  rw [BitVec.toNat_ushiftRight, Nat.shiftRight_eq_div_pow]

theorem toNat_shiftLeft_one (x : BitVec 32) : (x <<< 1).toNat = 2 * x.toNat % 2 ^ 32 := by
  rw [BitVec.toNat_shiftLeft, Nat.shiftLeft_eq]
  congr 1
  omega

namespace JSAtom

theorem isTaggedInt_iff (a : JSAtom) : a.isTaggedInt = true ↔ 2 ^ 31 ≤ a.toNat := by
  have htag : jsAtomTagInt = BitVec.twoPow 32 31 := rfl
  have hmsb : a.getLsbD 31 = decide (2 ^ 31 ≤ a.toNat) := by
    rw [← BitVec.msb_eq_getLsbD_last]
    exact BitVec.msb_eq_decide a
  unfold isTaggedInt
  rw [htag, BitVec.and_twoPow, hmsb]
  by_cases h : 2 ^ 31 ≤ a.toNat
  · simp only [h]
    decide
  · simp only [h]
    decide

theorem toNat_toUInt32 (a : JSAtom) : a.toUInt32.toNat = a.toNat % 2 ^ 31 := by
  have htag : ~~~jsAtomTagInt = 0x7fffffff#32 := rfl
  unfold toUInt32
  rw [htag, BitVec.toNat_and]
  exact Nat.and_two_pow_sub_one_eq_mod a.toNat 31

theorem toNat_fromUInt32 (v : BitVec 32) (h : v.toNat < 2 ^ 31) :
    (fromUInt32 v).toNat = v.toNat + 2 ^ 31 := by
  have hor := Nat.shiftLeft_add_eq_or_of_lt h 1
  unfold fromUInt32
  rw [BitVec.toNat_or, Nat.or_comm]
  show 1 <<< 31 ||| v.toNat = _
  rw [← hor, Nat.shiftLeft_eq]
  omega

end JSAtom

/-- The zigzag of `dbuf_put_sleb128` and `get_sleb128`. -/
theorem zigzag (v : BitVec 32) :
    ((v <<< 1 ^^^ -(v >>> 31)) >>> 1) ^^^ -((v <<< 1 ^^^ -(v >>> 31)) &&& 1) = v := by
  have hlt := v.isLt
  have hsign : (v >>> 31).toNat = v.toNat / 2 ^ 31 := by
    rw [BitVec.toNat_ushiftRight, Nat.shiftRight_eq_div_pow]
  by_cases h : v.toNat < 2 ^ 31
  · have h31 : v >>> 31 = 0#32 := by
      apply BitVec.eq_of_toNat_eq
      rw [hsign, Nat.div_eq_of_lt h]
      rfl
    have heven : v <<< 1 &&& 1 = 0#32 := by
      apply BitVec.eq_of_toNat_eq
      rw [toNat_and_one, toNat_shiftLeft_one]
      show _ = 0
      omega
    have hneg : -0#32 = 0#32 := rfl
    rw [h31, hneg, BitVec.xor_zero, heven, hneg, BitVec.xor_zero]
    apply BitVec.eq_of_toNat_eq
    rw [toNat_shiftRight_one, toNat_shiftLeft_one]
    omega
  · have h31 : v >>> 31 = 1#32 := by
      apply BitVec.eq_of_toNat_eq
      rw [hsign]
      show _ = 1
      omega
    have hneg : -1#32 = BitVec.allOnes 32 := rfl
    have hodd : ~~~(v <<< 1) &&& 1 = 1#32 := by
      apply BitVec.eq_of_toNat_eq
      rw [toNat_and_one, BitVec.toNat_not, toNat_shiftLeft_one]
      show _ = 1
      omega
    rw [h31, hneg, BitVec.xor_allOnes, hodd, hneg, BitVec.xor_allOnes]
    apply BitVec.eq_of_toNat_eq
    rw [BitVec.toNat_not, toNat_shiftRight_one, BitVec.toNat_not, toNat_shiftLeft_one]
    omega

/-! ## Numbers -/

theorem exact_bcGetU16 (v : BitVec 16) : Exact .readAfterEnd bcGetU16 (leBytes 2 v.toNat) v := by
  have htake : Exact ReadError.readAfterEnd _ _ _ := Exact.take (leBytes 2 v.toNat)
  rw [length_leBytes] at htake
  have h := htake.map fun bs => BitVec.ofNat 16 (leValue bs)
  rwa [leValue_leBytes_of_lt v.isLt, BitVec.ofNat_toNat, BitVec.setWidth_eq,
    map_eq_pure_bind] at h

theorem exact_bcGetU64 (v : BitVec 64) : Exact .readAfterEnd bcGetU64 (leBytes 8 v.toNat) v := by
  have htake : Exact ReadError.readAfterEnd _ _ _ := Exact.take (leBytes 8 v.toNat)
  rw [length_leBytes] at htake
  have h := htake.map fun bs => BitVec.ofNat 64 (leValue bs)
  rwa [leValue_leBytes_of_lt v.isLt, BitVec.ofNat_toNat, BitVec.setWidth_eq,
    map_eq_pure_bind] at h

theorem or_shiftLeft {acc shift : ℕ} (hacc : acc < 2 ^ shift) (d : ℕ) :
    acc ||| d <<< shift = acc + d * 2 ^ shift := by
  rw [Nat.or_comm, ← Nat.shiftLeft_add_eq_or_of_lt hacc, Nat.shiftLeft_eq, Nat.add_comm]

/-- The last byte of a number. -/
theorem exact_getLeb128_last (n shift acc v : ℕ) (hv : v < 128) (hacc : acc < 2 ^ shift) :
    Exact .readAfterEnd (getLeb128 (n + 1) shift acc) [UInt8.ofNat v]
      (BitVec.ofNat 32 (acc + v * 2 ^ shift)) := by
  have hbyte : (UInt8.ofNat v).toNat = v := toNat_byte (by omega)
  show Exact _ _ ([UInt8.ofNat v] ++ []) _
  refine (Exact.byte (UInt8.ofNat v)).bind ?_
  show Exact _ (if (UInt8.ofNat v).toNat < 128 then pure _ else _) _ _
  rw [if_pos (by omega), hbyte, Nat.mod_eq_of_lt hv, or_shiftLeft hacc]
  exact Exact.pure _

/-- The bits of a number from `shift` on are read where those below have been. -/
theorem exact_getLeb128 (n shift acc v : ℕ) (hv : v < 128 ^ (n + 1)) (hacc : acc < 2 ^ shift) :
    Exact .readAfterEnd (getLeb128 (n + 1) shift acc) (leb128.digits (n + 1) v)
      (BitVec.ofNat 32 (acc + v * 2 ^ shift)) := by
  induction n generalizing shift acc v with
  | zero =>
    rw [leb128.digits, if_pos (by omega)]
    exact exact_getLeb128_last 0 shift acc v (by omega) hacc
  | succ n ih =>
    by_cases hdiv : v / 128 = 0
    · rw [leb128.digits, if_pos hdiv]
      exact exact_getLeb128_last (n + 1) shift acc v (by omega) hacc
    · have hbyte : (UInt8.ofNat (v % 128 + 128)).toNat = v % 128 + 128 :=
        toNat_byte (by omega)
      have hlow : (v % 128 + 128) % 128 = v % 128 := by omega
      have hpow : 2 ^ (shift + 7) = 128 * 2 ^ shift := by rw [Nat.pow_add]; omega
      have hacc' : acc + v % 128 * 2 ^ shift < 2 ^ (shift + 7) := by
        have hle : v % 128 * 2 ^ shift ≤ 127 * 2 ^ shift := Nat.mul_le_mul_right _ (by omega)
        omega
      have hv' : v / 128 < 128 ^ (n + 1) := by
        rw [Nat.div_lt_iff_lt_mul (by omega), ← Nat.pow_succ]
        exact hv
      have hsum : acc + v % 128 * 2 ^ shift + v / 128 * 2 ^ (shift + 7) = acc + v * 2 ^ shift := by
        rw [hpow, Nat.add_assoc, ← Nat.mul_assoc, ← Nat.add_mul]
        congr 2
        omega
      rw [leb128.digits, if_neg hdiv, ← hsum]
      refine (Exact.byte (UInt8.ofNat (v % 128 + 128))).bind ?_
      show Exact _ (if (UInt8.ofNat (v % 128 + 128)).toNat < 128 then _ else _) _ _
      rw [if_neg (by omega), hbyte, hlow, or_shiftLeft hacc]
      exact ih (shift + 7) _ (v / 128) hv' hacc'

theorem exact_bcGetLeb128 (v : BitVec 32) : Exact .readAfterEnd bcGetLeb128 (leb128 v.toNat) v := by
  have hlt : v.toNat < 128 ^ 5 := Nat.lt_trans v.isLt (by decide)
  have h := exact_getLeb128 4 0 0 v.toNat hlt Nat.one_pos
  rwa [Nat.zero_add, Nat.pow_zero, Nat.mul_one, BitVec.ofNat_toNat, BitVec.setWidth_eq] at h

theorem exact_bcGetSleb128 (v : BitVec 32) :
    Exact .readAfterEnd bcGetSleb128 (leb128 ((v <<< 1) ^^^ -(v >>> 31) : BitVec 32).toNat) v := by
  have h := (exact_bcGetLeb128 ((v <<< 1) ^^^ -(v >>> 31))).map
    fun val : BitVec 32 => (val >>> 1) ^^^ -(val &&& 1)
  rwa [zigzag, map_eq_pure_bind] at h

theorem setWidth_setWidth_16 (v : BitVec 16) : (v.setWidth 32).setWidth 16 = v := by
  apply BitVec.eq_of_toNat_eq
  have := v.isLt
  simp only [BitVec.toNat_setWidth]
  omega

theorem exact_bcGetLeb128U16 (v : BitVec 16) :
    Exact .readAfterEnd bcGetLeb128U16 (leb128 (v.setWidth 32).toNat) v := by
  have h := (exact_bcGetLeb128 (v.setWidth 32)).map fun val : BitVec 32 => val.setWidth 16
  rwa [setWidth_setWidth_16, map_eq_pure_bind] at h

theorem exact_bcGetBuf {bs : List UInt8} (h : bs.length < 2 ^ 32) :
    Exact .readAfterEnd (bcGetBuf (BitVec.ofNat 32 bs.length)) bs bs := by
  have hlen : (BitVec.ofNat 32 bs.length).toNat = bs.length := by
    rw [BitVec.toNat_ofNat, Nat.mod_eq_of_lt h]
  unfold bcGetBuf
  rw [hlen]
  exact Exact.take bs

theorem rounds_ofNat {n : ℕ} (h : n < 2 ^ 31) : rounds (BitVec.ofNat 32 n) = n := by
  have hmod : n % 2 ^ 32 = n := Nat.mod_eq_of_lt (by omega)
  unfold rounds
  rw [BitVec.toInt_eq_toNat_cond, BitVec.toNat_ofNat, hmod, if_pos (by omega), Int.toNat_natCast]

/-! ## Flags -/

/-- The number that the flags make up. -/
def packFlags : List (ℕ × ℕ) → ℕ
  | [] => 0
  | f :: fs => f.1 + 2 ^ f.2 * packFlags fs

def flagWidths : List (ℕ × ℕ) → ℕ
  | [] => 0
  | f :: fs => f.2 + flagWidths fs

/-- Each flag fits its width. -/
def FlagsFit (fs : List (ℕ × ℕ)) : Prop := ∀ f ∈ fs, f.1 < 2 ^ f.2

theorem foldl_setFlags {fs : List (ℕ × ℕ)} (hfs : FlagsFit fs) (flags idx : ℕ)
    (hflags : flags < 2 ^ idx) :
    (fs.foldl (fun s f => (s.1 ||| f.1 <<< s.2, s.2 + f.2)) (flags, idx)).1 =
      flags + 2 ^ idx * packFlags fs := by
  induction fs generalizing flags idx with
  | nil => rfl
  | cons f fs ih =>
    have hf : f.1 < 2 ^ f.2 := hfs f List.mem_cons_self
    have hsum : flags + f.1 * 2 ^ idx < 2 ^ (idx + f.2) := by
      have hle : (f.1 + 1) * 2 ^ idx ≤ 2 ^ f.2 * 2 ^ idx := Nat.mul_le_mul_right _ hf
      rw [Nat.pow_add, Nat.mul_comm (2 ^ idx)]
      rw [Nat.add_mul] at hle
      omega
    rw [List.foldl_cons, or_shiftLeft hflags,
      ih (fun g hg => hfs g (List.mem_cons_of_mem f hg)) _ _ hsum, packFlags, Nat.pow_add]
    ring

theorem bcSetFlags_eq {fs : List (ℕ × ℕ)} (hfs : FlagsFit fs) : bcSetFlags fs = packFlags fs := by
  have h := foldl_setFlags hfs 0 0 Nat.one_pos
  rwa [Nat.pow_zero, Nat.zero_add, Nat.one_mul] at h

theorem packFlags_lt {fs : List (ℕ × ℕ)} (hfs : FlagsFit fs) : packFlags fs < 2 ^ flagWidths fs := by
  induction fs with
  | nil => exact Nat.one_pos
  | cons f fs ih =>
    have hf : f.1 < 2 ^ f.2 := hfs f List.mem_cons_self
    have hlt := ih fun g hg => hfs g (List.mem_cons_of_mem f hg)
    have hle : 2 ^ f.2 * (packFlags fs + 1) ≤ 2 ^ f.2 * 2 ^ flagWidths fs := Nat.mul_le_mul_left _ hlt
    rw [packFlags, flagWidths, Nat.pow_add]
    rw [Nat.mul_add] at hle
    omega

/-- **A flag is read where it was set.** -/
theorem bcGetFlags_packFlags {fs : List (ℕ × ℕ)} (hfs : FlagsFit fs) {k v n : ℕ}
    (h : fs[k]? = some (v, n)) : bcGetFlags (packFlags fs) (flagWidths (fs.take k)) n = v := by
  induction fs generalizing k with
  | nil => cases h
  | cons f fs ih =>
    have hf : f.1 < 2 ^ f.2 := hfs f List.mem_cons_self
    unfold bcGetFlags
    cases k with
    | zero =>
      cases h
      show (v + 2 ^ n * packFlags fs) >>> 0 % 2 ^ n = v
      rw [Nat.shiftRight_zero, Nat.add_mul_mod_self_left, Nat.mod_eq_of_lt hf]
    | succ k =>
      have hk := ih (fun g hg => hfs g (List.mem_cons_of_mem f hg)) h
      unfold bcGetFlags at hk
      have hdiv : (f.1 + 2 ^ f.2 * packFlags fs) / 2 ^ f.2 = packFlags fs := by
        rw [Nat.add_mul_div_left _ _ (Nat.two_pow_pos _), Nat.div_eq_of_lt hf, Nat.zero_add]
      rw [packFlags, List.take_succ_cons, flagWidths, Nat.shiftRight_add,
        Nat.shiftRight_eq_div_pow _ f.2, hdiv, hk]

theorem bcGetFlags_packFlags_bool {fs : List (ℕ × ℕ)} (hfs : FlagsFit fs) {k : ℕ} {b : Bool}
    (h : fs[k]? = some (b.toNat, 1)) :
    (bcGetFlags (packFlags fs) (flagWidths (fs.take k)) 1 != 0) = b := by
  rw [bcGetFlags_packFlags hfs h]
  cases b <;> rfl

theorem bcGetFlags_packFlags_bitVec {fs : List (ℕ × ℕ)} (hfs : FlagsFit fs) {k w : ℕ} {v : BitVec w}
    (h : fs[k]? = some (v.toNat, w)) :
    BitVec.ofNat w (bcGetFlags (packFlags fs) (flagWidths (fs.take k)) w) = v := by
  rw [bcGetFlags_packFlags hfs h, BitVec.ofNat_toNat, BitVec.setWidth_eq]

end JSChip.Binary
