import JSChip.Spec.Api

/-!
# The functions of the global object Vector

`vector_add` and the other operators take a vector and a vector or a number, `vector_distance`
and `vector_distance2` two vectors. A component that is fetched is not freed: a number needs
no release, and every other value ends in an error.

`vector_normalize` is bound to no name. `Vector.Normalize` is `vector_distance2`.
-/

namespace JSChip.Native

variable {R : Type} [Double R]

/-- The tail of the operators: the first vector is converted after the second operand. -/
def vectorResult (op : R → R → R) (jx jy jz : JSValue R) (x2 y2 z2 : R) :
    NativeM R (JSValue R) := do
  let x ← toFloat64 jx
  let y ← toFloat64 jy
  let z ← toFloat64 jz
  newTriple xyz (op x x2, op y y2, op z z2)

/-- The second operand, a vector or a number, and the result. -/
def vectorOperand (op : R → R → R) (invalidNumber : String) (jx jy jz a1 : JSValue R) :
    NativeM R (JSValue R) := do
  if !a1.isObject then
    if !a1.isNumber then throwTypeError invalidNumber else do
    let x2 ← toFloat64 a1
    vectorResult op jx jy jz x2 x2 x2
  else do
    let (jx2, jy2, jz2) ← getProperties a1 xyz
    if !jx2.isNumber || !jy2.isNumber || !jz2.isNumber then
      throwTypeError "Second argument is not a valid vector"
    else do
    let x2 ← toFloat64 jx2
    let y2 ← toFloat64 jy2
    let z2 ← toFloat64 jz2
    vectorResult op jx jy jz x2 y2 z2

/-- `vector_add` and its likes. -/
def vectorOp (op : R → R → R) (argv : List (JSValue R)) : NativeM R (JSValue R) := do
  if argv.length < 2 then throwTypeError "Expected (vector, vector or number)" else do
  let a0 ← arg argv 0
  if !a0.isObject then throwTypeError "First argument is not a valid vector" else do
  let (jx, jy, jz) ← getProperties a0 xyz
  if !jx.isNumber || !jy.isNumber || !jz.isNumber then
    throwTypeError "First argument is not a valid vector"
  else do
  let a1 ← arg argv 1
  vectorOperand op "Second argument is not a valid number" jx jy jz a1

def vectorAdd : List (JSValue R) → NativeM R (JSValue R) := vectorOp Double.add

def vectorSub : List (JSValue R) → NativeM R (JSValue R) := vectorOp Double.sub

def vectorMul : List (JSValue R) → NativeM R (JSValue R) := vectorOp Double.mul

def vectorDiv : List (JSValue R) → NativeM R (JSValue R) := vectorOp Double.div

def vectorPow : List (JSValue R) → NativeM R (JSValue R) := vectorOp Double.pow

/-- `vector_mod`: the check of the first argument looks at the second. -/
def vectorMod (argv : List (JSValue R)) : NativeM R (JSValue R) := do
  if argv.length < 2 then throwTypeError "Expected (vector, vector or number)" else do
  let a1 ← arg argv 1
  if !a1.isObject then throwTypeError "Second argument is not a valid vector" else do
  let a0 ← arg argv 0
  let (jx, jy, jz) ← getProperties a0 xyz
  if !jx.isNumber || !jy.isNumber || !jz.isNumber then
    throwTypeError "Second argument is not a valid vector"
  else do
  vectorOperand Double.fmod "Second argument is not a valid vecto" jx jy jz a1

/-- `vector_distance` and `vector_distance2`, which differ in what they make of the square. -/
def distanceOf (f : R → R) (argv : List (JSValue R)) : NativeM R (JSValue R) := do
  if argv.length < 2 then throwTypeError "Expected (vector, vector)" else do
  let a0 ← arg argv 0
  if !a0.isObject then throwTypeError "First argument is not a valid vector" else do
  let (jx, jy, jz) ← getProperties a0 xyz
  if !jx.isNumber || !jy.isNumber || !jz.isNumber then
    throwTypeError "First argument is not a valid vector"
  else do
  let a1 ← arg argv 1
  if !a1.isObject then throwTypeError "Second argument is not a valid vector" else do
  let (jx2, jy2, jz2) ← getProperties a1 xyz
  if !jx2.isNumber || !jy2.isNumber || !jz2.isNumber then
    throwTypeError "Second argument is not a valid vector"
  else do
  let x ← toFloat64 jx
  let y ← toFloat64 jy
  let z ← toFloat64 jz
  let x2 ← toFloat64 jx2
  let y2 ← toFloat64 jy2
  let z2 ← toFloat64 jz2
  let dx := Double.sub x2 x
  let dy := Double.sub y2 y
  let dz := Double.sub z2 z
  pure (.number (f (Double.add (Double.add (Double.mul dx dx) (Double.mul dy dy))
    (Double.mul dz dz))))

def vectorDistance : List (JSValue R) → NativeM R (JSValue R) := distanceOf Double.sqrt

def vectorDistance2 : List (JSValue R) → NativeM R (JSValue R) := distanceOf id

/-- `vector_magnitude`, which asks for one argument and reads the second. -/
def vectorMagnitude (argv : List (JSValue R)) : NativeM R (JSValue R) := do
  if argv.length < 1 then throwTypeError "Expected at least one argument" else do
  let a1 ← arg argv 1
  if !a1.isObject then throwTypeError "Second argument is not a valid vector" else do
  let (jx, jy, jz) ← getProperties a1 xyz
  if !jx.isNumber || !jy.isNumber || !jz.isNumber then
    throwTypeError "Second argument is not a valid vector"
  else do
  let x ← toFloat64 jx
  let y ← toFloat64 jy
  let z ← toFloat64 jz
  pure (.number (Double.sqrt (Double.add (Double.add (Double.mul x x) (Double.mul y y))
    (Double.mul z z))))

end JSChip.Native
