import Mathlib.Data.Nat.Digits.Defs
import JSChip.Proof.Binary

/-!
# Big numbers that are written can be read

* `BigFloat.Normal`: the numbers of `libbf`, normalized.
* `readsBack_jsWriteBigNum`: a normalized number comes back as it was. A binary mantissa goes by bytes
  and a decimal one by digits, two in a byte, and of either only what is left of the lowest limb
  without the zeros at its low end.
-/

namespace JSChip.Binary

open Codec
open Alloc (leb128)

/-- The number has its special value and no limbs, or limbs of which the lowest is not zero. -/
structure BigFloat.Normal (kind : BigNumKind) (a : BigFloat) : Prop where
  special : a.tab = [] ↔ a.expn = bfExpZero ∨ a.expn = bfExpInf ∨ a.expn = bfExpNan
  lowest : a.tab.head? ≠ some 0
  limbs : ∀ v ∈ a.tab, v < if kind = .bigDecimal then 10 ^ limbDigits else 2 ^ 64

/-! ## The exponent -/

/-- The exponent as the file has it. -/
def fileExponent (expn : ℤ) : ℤ :=
  if expn = bfExpZero then 0
  else if expn = bfExpInf then 1
  else if expn = bfExpNan then 2
  else if 0 ≤ expn then expn + 3
  else expn

theorem signAndExponent_eq (a : BigFloat) :
    signAndExponent a = 2 * fileExponent a.expn + a.sign.toNat := rfl

theorem toInt_ofInt_of_range {e : ℤ} (h : -0x80000000 ≤ e) (h' : e ≤ 0x7fffffff) :
    (BitVec.ofInt 32 e).toInt = e := by
  rw [BitVec.toInt_ofInt]
  exact Int.bmod_eq_of_le (by omega) (by omega)

theorem toNat_ofInt_mod_two (e : ℤ) : ((BitVec.ofInt 32 e).toNat : ℤ) % 2 = e % 2 := by
  rw [BitVec.toNat_ofInt]
  omega

/-- The sign is the low bit, and the rest is the exponent. -/
theorem sign_of_file {x : ℤ} {b : Bool} (h : -0x80000000 ≤ 2 * x + b.toNat)
    (h' : 2 * x + b.toNat ≤ 0x7fffffff) :
    (BitVec.ofInt 32 (2 * x + b.toNat) &&& 1 != 0) = b ∧
      (BitVec.ofInt 32 (2 * x + b.toNat)).toInt / 2 = x := by
  have hbit := toNat_and_one (BitVec.ofInt 32 (2 * x + b.toNat))
  have hmod := toNat_ofInt_mod_two (2 * x + b.toNat)
  constructor
  · cases b with
    | false =>
      simp only [Bool.toNat_false, Nat.cast_zero, Int.add_zero] at hbit hmod ⊢
      rw [bne_eq_false_iff_eq]
      apply BitVec.eq_of_toNat_eq
      rw [hbit]
      show _ = 0
      omega
    | true =>
      simp only [Bool.toNat_true, Nat.cast_one] at hbit hmod ⊢
      rw [bne_iff_ne]
      intro hzero
      rw [hzero] at hbit
      have : (0 : BitVec 32).toNat = 0 := rfl
      omega
  · rw [toInt_ofInt_of_range h h']
    cases b <;> simp only [Bool.toNat_false, Bool.toNat_true] <;> omega

/-- What is read with the exponent of a number. -/
theorem readBigFloat_fileExponent (kind : BigNumKind) (sign : Bool) (expn : ℤ) :
    readBigFloat kind sign (fileExponent expn) =
      if expn = bfExpZero ∨ expn = bfExpInf ∨ expn = bfExpNan then pure ⟨sign, expn, []⟩
      else readMantissa kind >>= fun tab => pure ⟨sign, expn, tab⟩ := by
  unfold fileExponent
  split
  next h =>
    rw [if_pos (.inl h), h]
    rfl
  next h =>
    split
    next h' =>
      rw [if_pos (.inr (.inl h')), h']
      rfl
    next h' =>
      split
      next h'' =>
        rw [if_pos (.inr (.inr h'')), h'']
        rfl
      next h'' =>
        have hne : ¬ (expn = bfExpZero ∨ expn = bfExpInf ∨ expn = bfExpNan) := by
          rintro (h1 | h1 | h1)
          · exact h h1
          · exact h' h1
          · exact h'' h1
        rw [if_neg hne]
        unfold readBigFloat
        split
        next hpos =>
          rw [if_neg (by omega), if_neg (by omega), if_neg (by omega), if_pos (by omega),
            Int.add_sub_cancel]
        next hneg => rw [if_neg (by omega), if_neg (by omega), if_neg (by omega), if_neg (by omega)]

/-! ## A binary mantissa -/

theorem shiftZeroBytes_spec {n v : ℕ} (hv : v ≠ 0) (hlt : v < 256 ^ n) :
    let r := shiftZeroBytes n v
    1 ≤ r.1 ∧ r.1 ≤ n ∧ r.2 < 256 ^ r.1 ∧ v = r.2 * 256 ^ (n - r.1) := by
  induction n generalizing v with
  | zero => omega
  | succ n ih =>
    rw [shiftZeroBytes]
    split
    next hmod =>
      have hdiv : v / 256 < 256 ^ n := by
        rw [Nat.div_lt_iff_lt_mul (by omega), ← Nat.pow_succ]
        exact hlt
      obtain ⟨hge, hle, hlt', heq⟩ := ih (by omega) hdiv
      refine ⟨hge, by omega, hlt', ?_⟩
      have hexp : n + 1 - (shiftZeroBytes n (v / 256)).1 =
          n - (shiftZeroBytes n (v / 256)).1 + 1 := by omega
      rw [hexp, Nat.pow_succ, ← Nat.mul_assoc, ← heq]
      omega
    next => exact ⟨by omega, le_rfl, hlt, by rw [Nat.sub_self, Nat.pow_zero, Nat.mul_one]⟩

theorem exact_limbs {tab : List ℕ} (h : ∀ v ∈ tab, v < 2 ^ 64) :
    Exact .readAfterEnd (Parser.times bcGetU64 tab.length) (tab.flatMap (leBytes 8))
      (tab.map (BitVec.ofNat 64)) := by
  refine Exact.times_map fun v hv => ?_
  have hval : (BitVec.ofNat 64 v).toNat = v := by
    rw [BitVec.toNat_ofNat, Nat.mod_eq_of_lt (h v hv)]
  have hex := exact_bcGetU64 (BitVec.ofNat 64 v)
  rwa [hval] at hex

theorem map_toNat_limbs {tab : List ℕ} (h : ∀ v ∈ tab, v < 2 ^ 64) :
    (tab.map (BitVec.ofNat 64)).map BitVec.toNat = tab := by
  rw [List.map_map]
  refine (List.map_congr_left fun v hv => ?_).trans (List.map_id tab)
  show (BitVec.ofNat 64 v).toNat = v
  rw [BitVec.toNat_ofNat, Nat.mod_eq_of_lt (h v hv)]

theorem exact_bytes (bs : List UInt8) :
    Exact .readAfterEnd (Parser.times bcGetU8 bs.length) bs bs := by
  have hbyte : ∀ b ∈ bs, Exact ReadError.readAfterEnd bcGetU8 [b] (id b) := fun b _ => Exact.byte b
  have h := Exact.times_map hbyte
  rwa [List.flatMap_singleton', List.map_id] at h

/-- The lowest limb, of which `n1` bytes are in the file, and those above it. -/
theorem exact_binaryMantissa {kind : BigNumKind} (hkind : kind ≠ .bigDecimal) {v n1 : ℕ}
    {high : List ℕ} (hn1 : 1 ≤ n1) (hn8 : n1 ≤ 8) (hv : v < 256 ^ n1)
    (hhigh : ∀ w ∈ high, w < 2 ^ 64) (hlen : high.length * 8 + n1 < 2 ^ 31) :
    Exact .readAfterEnd (readLimbs kind (BitVec.ofNat 32 (high.length * 8 + n1)))
      (leBytes n1 v ++ high.flatMap (leBytes 8)) (v * 256 ^ (8 - n1) :: high) := by
  have htoNat : (BitVec.ofNat 32 (high.length * 8 + n1)).toNat = high.length * 8 + n1 := by
    rw [BitVec.toNat_ofNat, Nat.mod_eq_of_lt (by omega)]
  have hread : readLimbs kind (BitVec.ofNat 32 (high.length * 8 + n1)) = (do
      let low ← getLowLimb ((high.length * 8 + n1) % 8)
      let high ← Parser.times bcGetU64 ((high.length * 8 + n1) / 8)
      pure (low ++ high.map BitVec.toNat)) := by
    cases kind with
    | bigDecimal => exact absurd rfl hkind
    | bigInt | bigFloat =>
      show (do
        let low ← getLowLimb ((BitVec.ofNat 32 (high.length * 8 + n1)).toNat % 8)
        let high ← Parser.times bcGetU64 ((BitVec.ofNat 32 (high.length * 8 + n1)).toNat / 8)
        pure (low ++ high.map BitVec.toNat)) = _
      rw [htoNat]
  rw [hread]
  rcases Nat.eq_or_lt_of_le hn8 with rfl | hlt
  · -- no zero byte was left out, so that all limbs are whole
    have hmod : (high.length * 8 + 8) % 8 = 0 := by omega
    have hdiv : (high.length * 8 + 8) / 8 = (v :: high).length := by
      rw [List.length_cons]
      omega
    have hall : ∀ w ∈ v :: high, w < 2 ^ 64 := by
      intro w hw
      rcases List.mem_cons.mp hw with rfl | hw
      · exact hv
      · exact hhigh w hw
    rw [hmod, hdiv, Nat.sub_self, Nat.pow_zero, Nat.mul_one]
    show Exact _ _ ([] ++ _) _
    refine (Exact.pure []).bind ?_
    have h := (exact_limbs hall).bind_nil (f := fun high => pure ([] ++ high.map BitVec.toNat))
      (Exact.pure _)
    rwa [map_toNat_limbs hall] at h
  · have hmod : (high.length * 8 + n1) % 8 = n1 := by omega
    have hdiv : (high.length * 8 + n1) / 8 = high.length := by omega
    have hlow : Exact .readAfterEnd (getLowLimb n1) (leBytes n1 v) [v * 256 ^ (8 - n1)] := by
      have h := (exact_bytes (leBytes n1 v)).bind_nil
        (f := fun bs => pure [leValue bs * 256 ^ (8 - n1)]) (Exact.pure _)
      rw [length_leBytes, leValue_leBytes_of_lt hv] at h
      unfold getLowLimb
      rwa [if_neg (by omega)]
    rw [hmod, hdiv]
    refine hlow.bind ?_
    have h := (exact_limbs hhigh).bind_nil
      (f := fun high => pure ([v * 256 ^ (8 - n1)] ++ high.map BitVec.toNat)) (Exact.pure _)
    rwa [map_toNat_limbs hhigh] at h

/-! ## A decimal mantissa -/

theorem shiftZeroDigits_spec {n v : ℕ} (hv : v ≠ 0) (hlt : v < 10 ^ n) :
    let r := shiftZeroDigits n v
    1 ≤ r.1 ∧ r.1 ≤ n ∧ r.2 < 10 ^ r.1 ∧ v = r.2 * 10 ^ (n - r.1) := by
  induction n generalizing v with
  | zero => omega
  | succ n ih =>
    rw [shiftZeroDigits]
    split
    next hmod =>
      have hdiv : v / 10 < 10 ^ n := by
        rw [Nat.div_lt_iff_lt_mul (by omega), ← Nat.pow_succ]
        exact hlt
      obtain ⟨hge, hle, hlt', heq⟩ := ih (by omega) hdiv
      refine ⟨hge, by omega, hlt', ?_⟩
      have hexp : n + 1 - (shiftZeroDigits n (v / 10)).1 =
          n - (shiftZeroDigits n (v / 10)).1 + 1 := by omega
      rw [hexp, Nat.pow_succ, ← Nat.mul_assoc, ← heq]
      omega
    next => exact ⟨by omega, le_rfl, hlt, by rw [Nat.sub_self, Nat.pow_zero, Nat.mul_one]⟩

@[simp] theorem length_digitsOf (n v : ℕ) : (digitsOf n v).length = n := by
  induction n generalizing v with
  | zero => rfl
  | succ n ih => rw [digitsOf, List.length_cons, ih]

theorem digitsOf_lt {n v d : ℕ} (h : d ∈ digitsOf n v) : d < 10 := by
  induction n generalizing v with
  | zero => cases h
  | succ n ih =>
    rw [digitsOf] at h
    rcases List.mem_cons.mp h with rfl | h
    · omega
    · exact ih h

theorem ofDigits_digitsOf {n v : ℕ} (h : v < 10 ^ n) : Nat.ofDigits 10 (digitsOf n v) = v := by
  induction n generalizing v with
  | zero =>
    rw [digitsOf, Nat.ofDigits_nil]
    omega
  | succ n ih =>
    have hdiv : v / 10 < 10 ^ n := by
      rw [Nat.div_lt_iff_lt_mul (by omega), ← Nat.pow_succ]
      exact h
    rw [digitsOf, Nat.ofDigits_cons, ih hdiv]
    exact Nat.mod_add_div v 10

/-- The digits that are still to be read, where `v8` is the byte of which the high half has not been
used: it has the first of them, or it was the last byte. -/
inductive Pending : Option UInt8 → List ℕ → List UInt8 → Prop
  | even (ds : List ℕ) : Pending none ds (packDigits ds)
  | odd (b : UInt8) (ds : List ℕ) : Pending (some b) (b.toNat / 16 :: ds) (packDigits ds)
  | last (b : UInt8) : Pending (some b) [] []

theorem Pending.nil {v8 : Option UInt8} {bs : List UInt8} (h : Pending v8 [] bs) : bs = [] := by
  cases h <;> rfl

/-- One digit. -/
theorem exact_getDigit {v8 : Option UInt8} {d : ℕ} {ds : List ℕ} {bs : List UInt8}
    (h : Pending v8 (d :: ds) bs) (hds : ∀ e ∈ d :: ds, e < 10) :
    ∃ taken left v8', bs = taken ++ left ∧ Exact .readAfterEnd (getDigit v8) taken (d, v8') ∧
      Pending v8' ds left := by
  have hd : d < 10 := hds d List.mem_cons_self
  have hcheck : ∀ v8', Exact .readAfterEnd (getDigit.check d v8') [] (d, v8') := by
    intro v8'
    unfold getDigit.check
    rw [if_neg (by omega)]
    exact Exact.pure _
  cases h with
  | odd b => exact ⟨[], _, none, rfl, hcheck none, .even ds⟩
  | even =>
    cases ds with
    | nil =>
      have hbyte : (UInt8.ofNat d).toNat % 16 = d := by
        rw [toNat_byte (by omega)]
        omega
      refine ⟨[UInt8.ofNat d], [], some (UInt8.ofNat d), rfl, ?_, .last _⟩
      refine (Exact.byte (UInt8.ofNat d)).bind_nil ?_
      rw [hbyte]
      exact hcheck _
    | cons e ds =>
      have he : e < 10 := hds e (List.mem_cons_of_mem d List.mem_cons_self)
      have hor : d ||| e <<< 4 = d + e * 2 ^ 4 := or_shiftLeft (by omega) e
      have hbyte : (UInt8.ofNat (d ||| e <<< 4)).toNat = d + e * 16 := by
        rw [hor, toNat_byte (by omega)]
        omega
      have hlow : (UInt8.ofNat (d ||| e <<< 4)).toNat % 16 = d := by omega
      have hhigh : (UInt8.ofNat (d ||| e <<< 4)).toNat / 16 = e := by omega
      refine ⟨[UInt8.ofNat (d ||| e <<< 4)], packDigits ds, some (UInt8.ofNat (d ||| e <<< 4)), rfl, ?_, ?_⟩
      · refine (Exact.byte _).bind_nil ?_
        rw [hlow]
        exact hcheck _
      · have h := Pending.odd (UInt8.ofNat (d ||| e <<< 4)) ds
        rwa [hhigh] at h

/-- The digits of a limb. -/
theorem exact_getDigits {first rest : List ℕ} {bs : List UInt8} {v8 : Option UInt8} (j v : ℕ)
    (h : Pending v8 (first ++ rest) bs) (hds : ∀ e ∈ first ++ rest, e < 10) :
    ∃ taken left v8', bs = taken ++ left ∧
      Exact .readAfterEnd (getDigits first.length j v v8) taken
        (v + 10 ^ j * Nat.ofDigits 10 first, v8') ∧ Pending v8' rest left := by
  induction first generalizing j v bs v8 with
  | nil => exact ⟨[], bs, v8, rfl, Exact.pure _, h⟩
  | cons d first ih =>
    obtain ⟨taken, left, v8', rfl, hd, hpend⟩ := exact_getDigit h hds
    obtain ⟨taken', left', v8'', rfl, hds', hpend'⟩ :=
      ih (j + 1) (v + 10 ^ j * d) hpend fun e he => hds e (List.mem_cons_of_mem d he)
    have hval : v + 10 ^ j * d + 10 ^ (j + 1) * Nat.ofDigits 10 first =
        v + 10 ^ j * Nat.ofDigits 10 (d :: first) := by
      rw [Nat.ofDigits_cons]
      ring
    rw [hval] at hds'
    exact ⟨taken ++ taken', left', v8'', (List.append_assoc _ _ _).symm, hd.bind hds', hpend'⟩

/-- The limbs, of which the first has `digits` digits in the file. -/
theorem exact_getDecLimbs {digits v : ℕ} {high : List ℕ} {bs : List UInt8} {v8 : Option UInt8}
    (hv : v < 10 ^ digits) (hhigh : ∀ w ∈ high, w < 10 ^ limbDigits)
    (h : Pending v8 (digitsOf digits v ++ high.flatMap (digitsOf limbDigits)) bs) :
    Exact .readAfterEnd (getDecLimbs (high.length + 1) digits v8) bs
      (v * 10 ^ (limbDigits - digits) :: high) := by
  induction high generalizing digits v bs v8 with
  | nil =>
    obtain ⟨taken, left, v8', rfl, hread, hpend⟩ := exact_getDigits (limbDigits - digits) 0 h (by
      intro e he
      rw [List.flatMap_nil, List.append_nil] at he
      exact digitsOf_lt he)
    rw [hpend.nil, List.append_nil]
    rw [length_digitsOf, ofDigits_digitsOf hv, Nat.zero_add, Nat.mul_comm] at hread
    exact hread.bind_nil (Exact.pure _)
  | cons w high ih =>
    have hw := hhigh w List.mem_cons_self
    obtain ⟨taken, left, v8', rfl, hread, hpend⟩ := exact_getDigits (limbDigits - digits) 0 h (by
      intro e he
      rcases List.mem_append.mp he with he | he
      · exact digitsOf_lt he
      · obtain ⟨u, -, hu⟩ := List.mem_flatMap.mp he
        exact digitsOf_lt hu)
    have hrest := ih hw (fun u hu => hhigh u (List.mem_cons_of_mem w hu)) hpend
    rw [Nat.sub_self, Nat.pow_zero, Nat.mul_one] at hrest
    rw [length_digitsOf, ofDigits_digitsOf hv, Nat.zero_add, Nat.mul_comm] at hread
    exact hread.bind (hrest.bind_nil (Exact.pure _))

theorem exact_decimalMantissa {v digits : ℕ} {high : List ℕ} (hn1 : 1 ≤ digits)
    (hn : digits ≤ limbDigits) (hv : v < 10 ^ digits) (hhigh : ∀ w ∈ high, w < 10 ^ limbDigits)
    (hlen : high.length * limbDigits + digits < 2 ^ 31) :
    Exact .readAfterEnd
      (readLimbs .bigDecimal (BitVec.ofNat 32 (high.length * limbDigits + digits)))
      (packDigits (digitsOf digits v ++ high.flatMap (digitsOf limbDigits)))
      (v * 10 ^ (limbDigits - digits) :: high) := by
  have hlimb : limbDigits = 19 := rfl
  rw [hlimb] at hn
  have htoNat : (BitVec.ofNat 32 (high.length * limbDigits + digits)).toNat =
      high.length * limbDigits + digits := by
    rw [BitVec.toNat_ofNat, Nat.mod_eq_of_lt (by omega)]
  have hl : (BitVec.ofNat 32 (high.length * limbDigits + digits) + 18).toNat / limbDigits =
      high.length + 1 := by
    have h18 : (18 : BitVec 32).toNat = 18 := rfl
    rw [BitVec.toNat_add, htoNat, h18, Nat.mod_eq_of_lt (by omega), hlimb]
    omega
  have hn : (if (high.length * limbDigits + digits) % limbDigits = 0 then limbDigits
      else (high.length * limbDigits + digits) % limbDigits) = digits := by
    rw [hlimb]
    split <;> omega
  show Exact _ (getDecLimbs _ (if _ then _ else _) none) _ _
  rw [hl, htoNat, hn]
  exact exact_getDecLimbs hv hhigh (.even _)

/-! ## A number -/

theorem readsBack_mantissa {kind : BigNumKind} {n : ℕ} {bs : List UInt8} {tab : List ℕ} (hpos : 1 ≤ n)
    (hlt : n < 2 ^ 31) (h : Exact .readAfterEnd (readLimbs kind (BitVec.ofNat 32 n)) bs tab) :
    ReadsBack (do bcPutLeb128 (BitVec.ofNat 32 n); put bs) (fun _ => readMantissa kind) tab := by
  refine Mirrors.bind (readsBack_bcPutLeb128 _) (readsBack_put fun _ => ?_)
  have hnz : ¬ BitVec.ofNat 32 n = 0 := by
    intro h
    have h := congrArg BitVec.toNat h
    rw [BitVec.toNat_ofNat, Nat.mod_eq_of_lt (by omega)] at h
    have : (0 : BitVec 32).toNat = 0 := rfl
    omega
  rw [if_neg hnz]
  exact h

theorem readsBack_writeDecimal {v digits : ℕ} {high : List ℕ} (hn1 : 1 ≤ digits)
    (hn : digits ≤ limbDigits) (hv : v < 10 ^ digits) (hhigh : ∀ w ∈ high, w < 10 ^ limbDigits) :
    ReadsBack (writeDecimal (high.length + 1) digits v high)
      (fun _ => readMantissa .bigDecimal) (v * 10 ^ (limbDigits - digits) :: high) := by
  have hlen : (high.length + 1) * limbDigits - (limbDigits - digits) =
      high.length * limbDigits + digits := by
    rw [Nat.add_mul]
    omega
  unfold writeDecimal
  rw [hlen]
  refine Mirrors.ite (fun _ => Mirrors.throw _ _ _) fun hmax => ?_
  exact readsBack_mantissa (by omega) (by omega) (exact_decimalMantissa hn1 hn hv hhigh (by omega))

theorem readsBack_writeBinary {kind : BigNumKind} (hkind : kind ≠ .bigDecimal) {v n1 : ℕ}
    {high : List ℕ} (hn1 : 1 ≤ n1) (hn8 : n1 ≤ 8) (hv : v < 256 ^ n1)
    (hhigh : ∀ w ∈ high, w < 2 ^ 64) :
    ReadsBack (writeBinary n1 v high) (fun _ => readMantissa kind)
      (v * 256 ^ (8 - n1) :: high) := by
  unfold writeBinary
  refine Mirrors.ite (fun _ => Mirrors.throw _ _ _) fun hmax => ?_
  exact readsBack_mantissa (by omega) (by omega)
    (exact_binaryMantissa hkind hn1 hn8 hv hhigh (by omega))

theorem readsBack_writeMantissa {kind : BigNumKind} {a : BigFloat} (ha : a.Normal kind)
    (hne : a.tab ≠ []) :
    ReadsBack (writeMantissa kind a.tab) (fun _ => readMantissa kind) a.tab := by
  obtain ⟨v, high, htab⟩ := List.exists_cons_of_ne_nil hne
  have hv : v ≠ 0 := by
    rintro rfl
    exact ha.lowest (by rw [htab]; rfl)
  have hdrop : (v :: high).dropWhile (· = 0) = v :: high := by
    rw [List.dropWhile_cons_of_neg]
    exact fun h => hv (of_decide_eq_true h)
  have hlimbs := ha.limbs
  rw [htab] at hlimbs ⊢
  have hlow := hlimbs v List.mem_cons_self
  have hhigh := fun w hw => hlimbs w (List.mem_cons_of_mem v hw)
  unfold writeMantissa
  rw [hdrop]
  refine Mirrors.ite (fun hkind => ?_) fun hkind => ?_
  · rw [if_pos hkind] at hlow
    simp only [if_pos hkind] at hhigh
    obtain ⟨hge, hle, hlt, heq⟩ := shiftZeroDigits_spec hv hlow
    have h := readsBack_writeDecimal hge hle hlt hhigh
    rw [← heq] at h
    subst hkind
    exact h
  · rw [if_neg hkind] at hlow
    simp only [if_neg hkind] at hhigh
    obtain ⟨hge, hle, hlt, heq⟩ := shiftZeroBytes_spec hv (n := 8) hlow
    have h := readsBack_writeBinary hkind hge hle hlt hhigh
    rwa [← heq] at h

/-- **A normalized number comes back as it was.** -/
theorem readsBack_jsWriteBigNum {kind : BigNumKind} {a : BigFloat} (ha : a.Normal kind) :
    ReadsBack (jsWriteBigNum kind a) (fun _ => jsReadBigNum kind) a := by
  refine Mirrors.ite (fun _ => Mirrors.throw _ _ _) fun hrange => ?_
  rw [not_or, signAndExponent_eq] at hrange
  obtain ⟨hsign, hexp⟩ := sign_of_file (x := fileExponent a.expn) (b := a.sign) (by omega) (by omega)
  refine Mirrors.bind (readsBack_bcPutSleb128 _) ?_
  rw [signAndExponent_eq, hsign, hexp, readBigFloat_fileExponent]
  refine Mirrors.ite (fun hnil => ?_) fun hnil => ?_
  · rw [if_pos (ha.special.mp hnil), ← hnil]
    exact Mirrors.pure a
  · rw [if_neg fun h => hnil (ha.special.mpr h)]
    exact (readsBack_writeMantissa ha hnil).bind_pure fun tab => BigFloat.mk a.sign a.expn tab

end JSChip.Binary
