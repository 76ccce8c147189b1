import JSChip.Codec.Bytes
import JSChip.Codec.Mirror
import JSChip.Spec.Alloc
import JSChip.Spec.Bytecode

/-!
# The parts of the binary format

What `JS_WriteObject` and `JS_ReadObject` write and read values with, for a little-endian machine
with 64-bit limbs and `CONFIG_BIGNUM`. No allocation fails here; `Spec/Alloc` has the failures.

* `bcPutLeb128`, `bcPutSleb128`, `bcPutAtom`, `jsWriteString`, `jsWriteFunctionBytecode` and
  `jsWriteBigNum`, and what reads each back.
* `bcAtomToIdx` and `bcIdxToAtom`: an atom is written as a place in the table of atoms that goes
  before the value.
-/

namespace JSChip.Binary

open Codec
open Alloc (JSString leb128)
open Bytecode (Op)

/-! ## Atoms -/

abbrev JSAtom := BitVec 32

/-- `JS_ATOM_TAG_INT` -/
def jsAtomTagInt : JSAtom := 0x80000000#32

/-- `JS_ATOM_END`: the atoms of `quickjs-atom.h` come before it. -/
def jsAtomEnd : ℕ := 225

namespace JSAtom

/-- `__JS_AtomIsTaggedInt` -/
def isTaggedInt (v : JSAtom) : Bool := v &&& jsAtomTagInt != 0

/-- `__JS_AtomFromUInt32` -/
def fromUInt32 (v : BitVec 32) : JSAtom := v ||| jsAtomTagInt

/-- `__JS_AtomToUInt32` -/
def toUInt32 (atom : JSAtom) : BitVec 32 := atom &&& ~~~jsAtomTagInt

end JSAtom

/-! ## The two states -/

inductive WriteError
  | stackOverflow
  | exponentTooLarge
  | bignumTooLarge
  /-- An assertion fails, or memory is read that is not there. -/
  | fault
deriving DecidableEq, Repr

/-- `BCWriterState` -/
structure BCWriterState where
  dbuf : List UInt8
  atomToIdx : List (BitVec 32)
  idxToAtom : List JSAtom
deriving DecidableEq, Repr

abbrev WriterM := Codec.Writer WriteError BCWriterState

inductive ReadError
  | readAfterEnd
  | invalidVersion (version : UInt8)
  | invalidAtomIndex (pos : ℕ)
  | invalidTag (tag : UInt8) (pos : ℕ)
  | objectReference
  | invalidBignumLength
  | invalidDigit
  | dateNumberExpected
  | cannotConvertToObject
  | invalidBufferLength
  | invalidTypedArray
  | arrayBufferExpected
  | invalidOffset
  | invalidLength
  | stackOverflow
  /-- Memory is read that is not there. -/
  | fault
deriving DecidableEq, Repr

/-- `BC_VERSION` -/
def bcVersion : UInt8 := 2

/-- The exception as the script sees it. -/
def ReadError.message : ReadError → Option String
  | .readAfterEnd => some "SyntaxError: read after the end of the buffer"
  | .invalidVersion v =>
    some ("SyntaxError: invalid version (" ++ toString v.toNat ++ " expected="
      ++ toString bcVersion.toNat ++ ")")
  | .invalidAtomIndex pos => some ("SyntaxError: invalid atom index (pos=" ++ toString pos ++ ")")
  | .invalidTag tag pos =>
    some ("SyntaxError: invalid tag (tag=" ++ toString tag.toNat ++ " pos=" ++ toString pos ++ ")")
  | .objectReference => some "SyntaxError: object references are not allowed"
  | .invalidBignumLength => some "InternalError: invalid bignum length"
  | .invalidDigit => some "InternalError: invalid digit"
  | .dateNumberExpected => some "TypeError: Number tag expected for date"
  | .cannotConvertToObject => some "TypeError: cannot convert to object"
  | .invalidBufferLength => some "RangeError: invalid array buffer length"
  | .invalidTypedArray => some "TypeError: invalid typed array"
  | .arrayBufferExpected => some "TypeError: ArrayBuffer object expected"
  | .invalidOffset => some "RangeError: invalid offset"
  | .invalidLength => some "RangeError: invalid length"
  | .stackOverflow => some "InternalError: stack overflow"
  | .fault => none

abbrev Reader := Parser ReadError

/-! ## Numbers -/

/-- `dbuf_put` -/
def put (bs : List UInt8) : WriterM Unit := modify fun s => { s with dbuf := s.dbuf ++ bs }

def bcPutU8 (v : UInt8) : WriterM Unit := put [v]
def bcPutU16 (v : BitVec 16) : WriterM Unit := put (leBytes 2 v.toNat)
def bcPutU64 (v : BitVec 64) : WriterM Unit := put (leBytes 8 v.toNat)
def bcPutLeb128 (v : BitVec 32) : WriterM Unit := put (leb128 v.toNat)

/-- `dbuf_put_sleb128` -/
def bcPutSleb128 (v : BitVec 32) : WriterM Unit := bcPutLeb128 ((v <<< 1) ^^^ -(v >>> 31))

def bcGetU8 : Reader UInt8 := Parser.byte .readAfterEnd

def bcGetU16 : Reader (BitVec 16) := do
  let bs ← Parser.take .readAfterEnd 2
  pure (BitVec.ofNat 16 (leValue bs))

def bcGetU64 : Reader (BitVec 64) := do
  let bs ← Parser.take .readAfterEnd 8
  pure (BitVec.ofNat 64 (leValue bs))

/-- `get_leb128`: `rounds` bytes at most, of which the first goes to the bit `shift`. -/
def getLeb128 : (rounds shift v : ℕ) → Reader (BitVec 32)
  | 0, _, _ => Parser.fail fun _ => .readAfterEnd
  | rounds + 1, shift, v => do
    let a ← bcGetU8
    let v := v ||| (a.toNat % 128) <<< shift
    -- the fifth byte may have bits above the 32, which are lost
    if a.toNat < 128 then pure (BitVec.ofNat 32 v) else getLeb128 rounds (shift + 7) v

def bcGetLeb128 : Reader (BitVec 32) := getLeb128 5 0 0

/-- `get_sleb128` -/
def bcGetSleb128 : Reader (BitVec 32) := do
  let val ← bcGetLeb128
  pure ((val >>> 1) ^^^ -(val &&& 1))

/-- `bc_get_leb128_u16` -/
def bcGetLeb128U16 : Reader (BitVec 16) := do
  let val ← bcGetLeb128
  pure (val.setWidth 16)

/-- `bc_get_buf` -/
def bcGetBuf (len : BitVec 32) : Reader (List UInt8) := Parser.take .readAfterEnd len.toNat

/-- How often `for(i = 0; i < n; i++)` goes round for an `int`. -/
def rounds (n : BitVec 32) : ℕ := n.toInt.toNat

/-- `bc_set_flags` for each flag and its width in turn. -/
def bcSetFlags (flags : List (ℕ × ℕ)) : ℕ :=
  (flags.foldl (fun s f => (s.1 ||| f.1 <<< s.2, s.2 + f.2)) (0, 0)).1

/-- `bc_get_flags` -/
def bcGetFlags (flags idx n : ℕ) : ℕ := (flags >>> idx) % 2 ^ n

/-! ## Atoms in the file -/

/-- `bc_atom_to_idx` -/
def bcAtomToIdx (s : BCWriterState) (atom : JSAtom) : BitVec 32 × BCWriterState :=
  -- the atoms that every runtime has keep their number
  if atom.toNat < jsAtomEnd ∨ atom.isTaggedInt = true then (atom, s)
  else
    let a := atom.toNat - jsAtomEnd
    if s.atomToIdx.getD a 0 ≠ 0 then (s.atomToIdx.getD a 0, s)
    else
      -- a 0 in the table says that the atom is new: no index is below `jsAtomEnd`
      let atomToIdx := s.atomToIdx ++ List.replicate (a + 1 - s.atomToIdx.length) 0
      let v := BitVec.ofNat 32 (s.idxToAtom.length + jsAtomEnd)
      (v, { s with idxToAtom := s.idxToAtom ++ [atom], atomToIdx := atomToIdx.set a v })

def bcPutAtom (atom : JSAtom) : WriterM Unit :=
  if atom.isTaggedInt then bcPutLeb128 ((atom.toUInt32 <<< 1) ||| 1)
  else do
    let s ← get
    let (v, s) := bcAtomToIdx s atom
    set s
    bcPutLeb128 (v <<< 1)

/-- `bc_idx_to_atom`, where `idxToAtom` is the table that was read before. -/
def bcIdxToAtom (idxToAtom : List JSAtom) (idx : BitVec 32) : Reader JSAtom :=
  if JSAtom.isTaggedInt idx then pure idx
  else if idx.toNat < jsAtomEnd then pure idx
  else
    match idxToAtom[idx.toNat - jsAtomEnd]? with
    | none => Parser.fail .invalidAtomIndex
    | some atom => pure atom

def bcGetAtom (idxToAtom : List JSAtom) : Reader JSAtom := do
  let v ← bcGetLeb128
  if v &&& 1 != 0 then pure (JSAtom.fromUInt32 (v >>> 1)) else bcIdxToAtom idxToAtom (v >>> 1)

/-! ## Strings -/

def jsWriteString : JSString → WriterM Unit
  | .str8 chars => do
    bcPutLeb128 (BitVec.ofNat 32 chars.length <<< 1)
    put chars
  | .str16 chars => do
    bcPutLeb128 ((BitVec.ofNat 32 chars.length <<< 1) ||| 1)
    chars.forM fun c => bcPutU16 c.toBitVec

/-- The characters that `memcpy` puts where 16-bit characters go. -/
def str16Of : List UInt8 → List UInt16
  | b :: c :: bs => UInt16.ofNat (leValue [b, c]) :: str16Of bs
  | _ => []

def jsReadString : Reader JSString := do
  let len ← bcGetLeb128
  if len &&& 1 != 0 then do
    let bs ← Parser.take .readAfterEnd (2 * (len >>> 1).toNat)
    pure (.str16 (str16Of bs))
  else do
    let bs ← Parser.take .readAfterEnd (len >>> 1).toNat
    pure (.str8 bs)

/-! ## Bytecode -/

/-- The opcode of a byte, if `opcode_info` has it. -/
def opOfByte (b : UInt8) : Option Op :=
  if b.toNat ≤ Op.opTypeofIsFunction.ctorIdx then some (Op.ofNat b.toNat) else none

/-- The format is one of `OP_FMT_atom`, `OP_FMT_atom_u8`, `OP_FMT_atom_u16`, `OP_FMT_atom_label_u8`
and `OP_FMT_atom_label_u16`: an atom follows the opcode. -/
def hasAtom : Op → Bool
  | .opPushAtomValue | .opPrivateSymbol | .opThrowError | .opCheckVar | .opGetVarUndef | .opGetVar
  | .opPutVar | .opPutVarInit | .opPutVarStrict | .opDefineVar | .opCheckDefineVar | .opDefineFunc
  | .opGetField | .opGetField2 | .opPutField | .opDefineField | .opSetName | .opDefineMethod
  | .opDefineClass | .opDefineClassComputed | .opWithGetVar | .opWithPutVar | .opWithDeleteVar
  | .opWithMakeRef | .opWithGetRef | .opWithGetRefUndef | .opMakeLocRef | .opMakeArgRef
  | .opMakeVarRefRef | .opMakeVarRef | .opDeleteVar => true
  | _ => false

/-- The loop that `JS_WriteFunctionBytecode` and `JS_ReadFunctionBytecode` share: instruction by
instruction, with the atom of each put through `f`. The code is given from the place that the loop
has come to. Where it has no opcode there, or no room for its atom, the loop goes on with `bad`. -/
def mapAtomOperands {M : Type → Type} [Monad M] (bad : List UInt8 → M (List UInt8))
    (f : BitVec 32 → M (BitVec 32)) : (instructions : ℕ) → List UInt8 → M (List UInt8)
  | 0, code => pure code
  | _, [] => pure []
  | n + 1, byte :: code =>
    match opOfByte byte with
    | none => bad (byte :: code)
    | some op =>
      if hasAtom op then
        if code.length < 4 then bad (byte :: code)
        else do
          let val ← f (BitVec.ofNat 32 (leValue (code.take 4)))
          let rest ← mapAtomOperands bad f n (code.drop (op.size - 1))
          pure (byte :: leBytes 4 val.toNat ++ (code.drop 4).take (op.size - 5) ++ rest)
      else do
        let rest ← mapAtomOperands bad f n (code.drop (op.size - 1))
        pure (byte :: code.take (op.size - 1) ++ rest)

def jsWriteFunctionBytecode (bcBuf : List UInt8) : WriterM Unit := do
  let bcBuf ← mapAtomOperands (fun _ => throw .fault)
    (fun atom => modifyGet fun s => bcAtomToIdx s atom) bcBuf.length bcBuf
  put bcBuf

def jsReadFunctionBytecode (idxToAtom : List JSAtom) (bcLen : BitVec 32) : Reader (List UInt8) := do
  let bcBuf ← bcGetBuf bcLen
  mapAtomOperands (fun _ => throw .fault) (bcIdxToAtom idxToAtom) bcBuf.length bcBuf

/-! ## Big numbers -/

inductive BigNumKind
  | bigInt
  | bigFloat
  | bigDecimal
deriving DecidableEq, Repr

/-- `bf_t`: the limbs of `tab` go from the lowest to the highest. -/
structure BigFloat where
  sign : Bool
  expn : ℤ
  tab : List ℕ
deriving DecidableEq, Repr

/-- `BF_EXP_ZERO` -/
def bfExpZero : ℤ := -0x8000000000000000
/-- `BF_EXP_INF` -/
def bfExpInf : ℤ := 0x7ffffffffffffffe
/-- `BF_EXP_NAN` -/
def bfExpNan : ℤ := 0x7fffffffffffffff

/-- `LIMB_DIGITS` -/
def limbDigits : ℕ := 19

/-- The bytes of a limb (`limb_t`) that are left when low zero bytes are shifted out: how many, and
the limb then. -/
def shiftZeroBytes : (n1 v : ℕ) → ℕ × ℕ
  | 0, v => (0, v)
  | n1 + 1, v => if v % 256 = 0 then shiftZeroBytes n1 (v / 256) else (n1 + 1, v)

/-- The digits of a limb that are left when low zeros are shifted out: how many, and the limb. -/
def shiftZeroDigits : (digits v : ℕ) → ℕ × ℕ
  | 0, v => (0, v)
  | digits + 1, v => if v % 10 = 0 then shiftZeroDigits digits (v / 10) else (digits + 1, v)

/-- The low `n` decimal digits of `v`, the lowest first. -/
def digitsOf : (n v : ℕ) → List ℕ
  | 0, _ => []
  | n + 1, v => v % 10 :: digitsOf n (v / 10)

/-- Two digits a byte. -/
def packDigits : List ℕ → List UInt8
  | [] => []
  | [d] => [UInt8.ofNat d]
  | d :: e :: ds => UInt8.ofNat (d ||| e <<< 4) :: packDigits ds

/-- The sign and the exponent as one number. -/
def signAndExponent (a : BigFloat) : ℤ :=
  let e :=
    if a.expn = bfExpZero then 0
    else if a.expn = bfExpInf then 1
    else if a.expn = bfExpNan then 2
    -- 0, 1 and 2 are taken
    else if 0 ≤ a.expn then a.expn + 3
    else a.expn
  2 * e + a.sign.toNat

/-- A mantissa of `limbs` limbs as digits: `digits` of the lowest that counts, and those above it. -/
def writeDecimal (limbs digits v : ℕ) (high : List ℕ) : WriterM Unit :=
  let len := limbs * limbDigits - (limbDigits - digits)
  if len > 0x7fffffff then throw .bignumTooLarge
  else do
    bcPutLeb128 (BitVec.ofNat 32 len)
    put (packDigits (digitsOf digits v ++ high.flatMap (digitsOf limbDigits)))

/-- A mantissa as bytes: `n1` of the lowest limb that counts, and those above it. -/
def writeBinary (n1 v : ℕ) (high : List ℕ) : WriterM Unit :=
  let len := high.length * 8 + n1
  if len > 0x7fffffff then throw .bignumTooLarge
  else do
    bcPutLeb128 (BitVec.ofNat 32 len)
    put (leBytes n1 v ++ high.flatMap (leBytes 8))

/-- The mantissa of `JS_WriteBigNum`, without what is zero at its low end. -/
def writeMantissa (kind : BigNumKind) (tab : List ℕ) : WriterM Unit :=
  match tab.dropWhile (· = 0) with
  | [] => throw .fault
  | v :: high =>
    if kind = .bigDecimal then
      let low := shiftZeroDigits limbDigits v
      writeDecimal tab.length low.1 low.2 high
    else
      let low := shiftZeroBytes 8 v
      writeBinary low.1 low.2 high

/-- `JS_WriteBigNum`, after the tag. -/
def jsWriteBigNum (kind : BigNumKind) (a : BigFloat) : WriterM Unit :=
  let e := signAndExponent a
  if e < -0x80000000 ∨ e > 0x7fffffff then throw .exponentTooLarge
  else do
    bcPutSleb128 (BitVec.ofInt 32 e)
    if a.tab = [] then pure () else writeMantissa kind a.tab

/-- The next digit, where `v8` is the byte of which the high half has not been used. -/
def getDigit : (v8 : Option UInt8) → Reader (ℕ × Option UInt8)
  | none => do
    let v8 ← bcGetU8
    check (v8.toNat % 16) (some v8)
  | some v8 => check (v8.toNat / 16) none
where
  check (d : ℕ) (v8 : Option UInt8) : Reader (ℕ × Option UInt8) :=
    if 10 ≤ d then throw .invalidDigit else pure (d, v8)

/-- A limb of which the digits from `j` on are in the file, `rounds` of them. -/
def getDigits : (rounds j v : ℕ) → Option UInt8 → Reader (ℕ × Option UInt8)
  | 0, _, v, v8 => pure (v, v8)
  | rounds + 1, j, v, v8 => do
    let (d, v8) ← getDigit v8
    getDigits rounds (j + 1) (v + 10 ^ j * d) v8

/-- The limbs of a decimal number, of which only the first may have fewer than `limbDigits` digits in
the file. -/
def getDecLimbs : (limbs digits : ℕ) → Option UInt8 → Reader (List ℕ)
  | 0, _, _ => pure []
  | limbs + 1, digits, v8 => do
    let (v, v8) ← getDigits digits (limbDigits - digits) 0 v8
    let tab ← getDecLimbs limbs limbDigits v8
    pure (v :: tab)

/-- The limb of a binary number that has only `n` bytes in the file, if there is one. -/
def getLowLimb (n : ℕ) : Reader (List ℕ) :=
  if n = 0 then pure []
  else do
    let bs ← Parser.times bcGetU8 n
    pure [leValue bs * 256 ^ (8 - n)]

/-- A mantissa of `len` digits or bytes. -/
def readLimbs (kind : BigNumKind) (len : BitVec 32) : Reader (List ℕ) :=
  match kind with
  | .bigDecimal =>
    let l := (len + 18).toNat / limbDigits
    let n := len.toNat % limbDigits
    -- the first limb has the digits that are over
    getDecLimbs l (if n = 0 then limbDigits else n) none
  | _ => do
    let low ← getLowLimb (len.toNat % 8)
    let high ← Parser.times bcGetU64 (len.toNat / 8)
    pure (low ++ high.map BitVec.toNat)

/-- The mantissa of `JS_ReadBigNum`. -/
def readMantissa (kind : BigNumKind) : Reader (List ℕ) := do
  let len ← bcGetLeb128
  if len = 0 then throw .invalidBignumLength else readLimbs kind len

/-- What goes with a sign and an exponent of the file. -/
def readBigFloat (kind : BigNumKind) (sign : Bool) (e : ℤ) : Reader BigFloat :=
  if e = 0 then pure ⟨sign, bfExpZero, []⟩
  else if e = 1 then pure ⟨sign, bfExpInf, []⟩
  else if e = 2 then pure ⟨sign, bfExpNan, []⟩
  else do
    let tab ← readMantissa kind
    pure ⟨sign, if 3 ≤ e then e - 3 else e, tab⟩

/-- `JS_ReadBigNum`, after the tag. -/
def jsReadBigNum (kind : BigNumKind) : Reader BigFloat := do
  let e ← bcGetSleb128
  readBigFloat kind (e &&& 1 != 0) (e.toInt / 2)

end JSChip.Binary
