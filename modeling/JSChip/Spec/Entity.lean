import JSChip.Spec.Api

/-!
# The functions of the global object Entity

Each function looks the entity up on the Lua stack, asks whether it is valid, and then asks or
commands it. What a function leaves on the stack it pops itself, on each of its ways out, with
a number that stands in the source.

`entity_world_to_local` is bound to no name. `Entity.ToLocal` is `entity_local_to_world`.
-/

namespace JSChip.Native

variable {R : Type}

/-! ## Questions -/

/-- The arguments of a question: one entity index. The rest is asked with `Entity(index)` and
the global table on the stack. -/
def withEntity (argv : List (JSValue R)) (body : NativeM R (JSValue R)) :
    NativeM R (JSValue R) := do
  if argv.length < 1 then throwTypeError "Expected at least one argument" else do
  let a0 ← arg argv 0
  if !a0.isNumber then throwTypeError "Argument must be a number" else do
  let entityIndex ← toFloat64 a0
  pushEntity entityIndex
  body

/-- `withEntity` for the entities that are valid; `IsValid` is left on the stack. -/
def withValidEntity (argv : List (JSValue R)) (body : NativeM R (JSValue R)) :
    NativeM R (JSValue R) :=
  withEntity argv do
  callMethod (-1) "IsValid" (-2)
  let valid ← getBool (-1)
  if !valid then do
    pop 3
    throwTypeError "Invalid entity"
  else body

/-- A question that every entity answers. -/
def entityFlag (method : String) (argv : List (JSValue R)) : NativeM R (JSValue R) :=
  withEntity argv do
  callMethod (-1) method (-2)
  let flag ← getBool (-1)
  pop 3
  pure (.bool flag)

def entityIsvalid : List (JSValue R) → NativeM R (JSValue R) := entityFlag "IsValid"

def entityIsplayer : List (JSValue R) → NativeM R (JSValue R) := entityFlag "IsPlayer"

def entityIsnpc : List (JSValue R) → NativeM R (JSValue R) := entityFlag "IsNPC"

def entityIsworld : List (JSValue R) → NativeM R (JSValue R) := entityFlag "IsWorld"

/-- `GetString(-1)` as a new string, and the other readings of the answer on top. -/
def answerString [Double R] : NativeM R (JSValue R) := do newString (← getString (-1))

def answerNumber [Double R] : NativeM R (JSValue R) := do
  let x ← getNumber (-1)
  pure (.number x)

def answerBool : NativeM R (JSValue R) := do
  let b ← getBool (-1)
  pure (.bool b)

def answerVector [Double R] : NativeM R (JSValue R) := do newTriple xyz (← getVector (-1))

def answerAngle [Double R] : NativeM R (JSValue R) := do newTriple pitchYawRoll (← getAngle (-1))

/-- A question to a valid entity. -/
def entityQuery (method : String) (answer : NativeM R (JSValue R)) (argv : List (JSValue R)) :
    NativeM R (JSValue R) :=
  withValidEntity argv do
  callMethod (-2) method (-3)
  let v ← answer
  pop 4
  pure v

/-- A question to a player. When the entity is not one, three slots are popped of four. -/
def playerQuery (invalidPlayer method : String) (answer : NativeM R (JSValue R))
    (argv : List (JSValue R)) : NativeM R (JSValue R) :=
  withValidEntity argv do
  callMethod (-2) "IsPlayer" (-3)
  let isPlayer ← getBool (-1)
  if !isPlayer then do
    pop 3
    throwTypeError invalidPlayer
  else do
  callMethod (-3) method (-4)
  let v ← answer
  pop 5
  pure v

/-- A question to the physics object of a valid entity; here an entity that is not valid is
answered with `false`. -/
def physicsQuery (method : String) (answer : NativeM R (JSValue R)) (argv : List (JSValue R)) :
    NativeM R (JSValue R) :=
  withEntity argv do
  callMethod (-1) "IsValid" (-2)
  let valid ← getBool (-1)
  if !valid then do
    pop 3
    pure (.bool false)
  else do
  callMethod (-2) "GetPhysicsObject" (-3)
  callMethod (-1) "IsValid" (-2)
  let validPhysics ← getBool (-1)
  if !validPhysics then do
    pop 5
    throwTypeError "Invalid physics object"
  else do
  callMethod (-2) method (-3)
  let v ← answer
  pop 6
  pure v

section Questions

variable [Double R]

def entityGetName : List (JSValue R) → NativeM R (JSValue R) := entityQuery "GetName" answerString

def entityGetClass : List (JSValue R) → NativeM R (JSValue R) := entityQuery "GetClass" answerString

def entityGetPosition : List (JSValue R) → NativeM R (JSValue R) :=
  entityQuery "GetPos" answerVector

def entityGetAngles : List (JSValue R) → NativeM R (JSValue R) :=
  entityQuery "GetAngles" answerAngle

def entityEyeAngles : List (JSValue R) → NativeM R (JSValue R) :=
  entityQuery "EyeAngles" answerAngle

def entityCrouching : List (JSValue R) → NativeM R (JSValue R) :=
  playerQuery "Invalid playerr" "Crouching" answerBool

def entityTeam : List (JSValue R) → NativeM R (JSValue R) :=
  playerQuery "Invalid player" "Team" answerNumber

def entityFrags : List (JSValue R) → NativeM R (JSValue R) :=
  playerQuery "Invalid player" "Frags" answerNumber

def entitySteamid : List (JSValue R) → NativeM R (JSValue R) :=
  playerQuery "Invalid player" "SteamID" answerString

def entitySteamid64 : List (JSValue R) → NativeM R (JSValue R) :=
  playerQuery "Invalid player" "SteamID64" answerString

def entityAccountid : List (JSValue R) → NativeM R (JSValue R) :=
  playerQuery "Invalid player" "AccountID" answerString

def entityGetMasscenter : List (JSValue R) → NativeM R (JSValue R) :=
  physicsQuery "GetMassCenter" answerVector

def entityGetMass : List (JSValue R) → NativeM R (JSValue R) := physicsQuery "GetMass" answerNumber

/-- One component of a colour: `GetTable` with the colour at the slot `i`. -/
def colorComponent (v : JSValue R) (name : String) (i : ℤ) : NativeM R Unit := do
  pushString (some name)
  getTable i
  let x ← getNumber (-1)
  setPropertyStr v name (.number x)

def entityGetColor (argv : List (JSValue R)) : NativeM R (JSValue R) :=
  withValidEntity argv do
  let v ← newObject
  callMethod (-2) "GetColor" (-3)
  colorComponent v "r" (-2)
  colorComponent v "g" (-3)
  colorComponent v "b" (-4)
  colorComponent v "a" (-5)
  pop 8
  pure v

end Questions

/-- `entity_isvalid_physics`, which pops three slots of five. -/
def entityIsvalidPhysics (argv : List (JSValue R)) : NativeM R (JSValue R) :=
  withValidEntity argv do
  callMethod (-2) "GetPhysicsObject" (-3)
  callMethod (-1) "IsValid" (-2)
  let isValid ← getBool (-1)
  pop 3
  pure (.bool isValid)

/-! ## Commands -/

section Commands

variable [Double R]

/-- `entity_set_position` and `entity_set_angles`: a method of a valid entity, called on a value
that a global constructor makes from three numbers. -/
def entitySetter (names : String × String × String)
    (expected invalidTriple constructor method : String) (argv : List (JSValue R)) :
    NativeM R (JSValue R) := do
  if argv.length < 2 then throwTypeError expected else do
  let a0 ← arg argv 0
  if !a0.isNumber then throwTypeError "Argument must be a number" else do
  let a1 ← arg argv 1
  if !a1.isObject then throwTypeError "Second argument is not a valid vector" else do
  let (jx, jy, jz) ← getProperties a1 names
  if !jx.isNumber || !jy.isNumber || !jz.isNumber then throwTypeError invalidTriple else do
  let entityIndex ← toFloat64 a0
  let x ← toFloat64 jx
  let y ← toFloat64 jy
  let z ← toFloat64 jz
  pushEntity entityIndex
  callMethod (-1) "IsValid" (-2)
  let valid ← getBool (-1)
  if !valid then do
    pop 3
    pure (.bool false)
  else do
  construct (-3) constructor [x, y, z]
  getField (-3) method
  pushSlot (-4)
  pushSlot (-3)
  call 2 0
  pop 4
  pure .undefined

def entitySetPosition : List (JSValue R) → NativeM R (JSValue R) :=
  entitySetter xyz "Expected (entity, vector)" "Second argument is not a valid vector" "Vector"
    "SetPos"

def entitySetAngles : List (JSValue R) → NativeM R (JSValue R) :=
  entitySetter pitchYawRoll "Expected (entity, angle)" "Second argument is not a valid angle" "Angle"
    "SetAngles"

/-- `entity_set_color`: `a` is 255 when it is not a number, and is not freed then. -/
def entitySetColor (argv : List (JSValue R)) : NativeM R (JSValue R) := do
  if argv.length < 2 then throwTypeError "Expected (entity, color)" else do
  let a0 ← arg argv 0
  if !a0.isNumber then throwTypeError "Argument must be a number" else do
  let a1 ← arg argv 1
  if !a1.isObject then throwTypeError "Second argument is not a valid vector" else do
  let (jr, jg, jb) ← getProperties a1 ("r", "g", "b")
  let ja ← getPropertyStr a1 "a"
  if !jr.isNumber || !jg.isNumber || !jb.isNumber then
    throwTypeError "Second argument is not a valid color"
  else do
  let entityIndex ← toFloat64 a0
  let r ← toFloat64 jr
  let g ← toFloat64 jg
  let b ← toFloat64 jb
  -- any other `a` is not even an error
  let a ← if !ja.isNumber then pure (Double.ofNat 255) else toFloat64 ja
  pushEntity entityIndex
  callMethod (-1) "IsValid" (-2)
  let valid ← getBool (-1)
  if !valid then do
    pop 3
    pure (.bool false)
  else do
  construct (-3) "Color" [r, g, b, a]
  getField (-3) "SetColor"
  pushSlot (-4)
  pushSlot (-3)
  call 2 0
  pop 4
  pure .undefined

/-- `entity_local_to_world`, which does not ask that its second argument is an object. -/
def entityLocalToWorld (argv : List (JSValue R)) : NativeM R (JSValue R) := do
  if argv.length < 2 then throwTypeError "Expected (entity, vector)" else do
  let a0 ← arg argv 0
  if !a0.isNumber then throwTypeError "Argument must be a number" else do
  let a1 ← arg argv 1
  let (jx, jy, jz) ← getProperties a1 xyz
  if !jx.isNumber || !jy.isNumber || !jz.isNumber then
    throwTypeError "Second argument is not a valid vector"
  else do
  let entityIndex ← toFloat64 a0
  let x ← toFloat64 jx
  let y ← toFloat64 jy
  let z ← toFloat64 jz
  pushEntity entityIndex
  callMethod (-1) "IsValid" (-2)
  let valid ← getBool (-1)
  if !valid then do
    pop 3
    pure (.bool false)
  else do
  construct (-3) "Vector" [x, y, z]
  getField (-3) "LocalToWorld"
  pushSlot (-4)
  pushSlot (-3)
  call 2 1
  let v ← answerVector
  pop 5
  pure v

/-- `entity_use`, by the owner of the chip. -/
def entityUse (argv : List (JSValue R)) : NativeM R (JSValue R) := do
  if argv.length < 1 then throwTypeError "Expected at least one argument" else do
  let a0 ← arg argv 0
  if !a0.isNumber then throwTypeError "Argument must be a number" else do
  let e ← read
  let entityIndex ← toFloat64 a0
  pushEntity entityIndex
  callMethod (-1) "IsValid" (-2)
  let valid ← getBool (-1)
  if !valid then do
    pop 3
    throwTypeError "Invalid entity"
  else do
  construct (-3) "Entity" [e.ownerIndex]
  callMethod (-1) "IsValid" (-2)
  let validOwner ← getBool (-1)
  if !validOwner then do
    pop 5
    throwTypeError "Invalid entity"
  else do
  getField (-4) "Use"
  pushSlot (-5)
  pushSlot (-4)
  call 2 0
  pop 5
  pure .undefined

/-- The physics object of a valid entity, on the stack with its `IsValid`. -/
def withPhysics (entityIndex : R) (body : NativeM R (JSValue R)) : NativeM R (JSValue R) := do
  pushEntity entityIndex
  callMethod (-1) "IsValid" (-2)
  let valid ← getBool (-1)
  if !valid then do
    pop 3
    throwTypeError "Invalid entity"
  else do
  callMethod (-2) "GetPhysicsObject" (-3)
  callMethod (-1) "IsValid" (-2)
  let validPhysics ← getBool (-1)
  if !validPhysics then do
    pop 5
    throwTypeError "Invalid physics object"
  else body

def entityApplyforceCenter (argv : List (JSValue R)) : NativeM R (JSValue R) := do
  if argv.length < 2 then throwTypeError "Expected (entity, vector)" else do
  let a0 ← arg argv 0
  if !a0.isNumber then throwTypeError "First argument must be a number" else do
  let a1 ← arg argv 1
  if !a1.isObject then throwTypeError "Second argument is not a valid vector" else do
  let (jx, jy, jz) ← getProperties a1 xyz
  if !jx.isNumber || !jy.isNumber || !jz.isNumber then
    throwTypeError "Second argument is not a valid vector"
  else do
  let entityIndex ← toFloat64 a0
  let x ← toFloat64 jx
  let y ← toFloat64 jy
  let z ← toFloat64 jz
  withPhysics entityIndex do
  construct (-5) "Vector" [x, y, z]
  getField (-3) "ApplyForceCenter"
  pushSlot (-4)
  pushSlot (-3)
  call 2 0
  pop 6
  pure .undefined

/-- `entity_applyforce_offset`: the second vector is converted into the variables of the first,
and its own are read as they are. -/
def entityApplyforceOffset (argv : List (JSValue R)) : NativeM R (JSValue R) := do
  if argv.length < 3 then throwTypeError "Expected (entity, vector, vector)" else do
  let a0 ← arg argv 0
  if !a0.isNumber then throwTypeError "First argument must be a number" else do
  let a1 ← arg argv 1
  if !a1.isObject then throwTypeError "Second argument is not a valid vector" else do
  let a2 ← arg argv 2
  if !a2.isObject then throwTypeError "Third argument is not a valid vector" else do
  let (jx, jy, jz) ← getProperties a1 xyz
  let (jx2, jy2, jz2) ← getProperties a2 xyz
  if !jx.isNumber || !jy.isNumber || !jz.isNumber then
    throwTypeError "Second argument is not a valid vector"
  else
  if !jx2.isNumber || !jy2.isNumber || !jz2.isNumber then
    throwTypeError "Third argument is not a valid vector"
  else do
  let e ← read
  let entityIndex ← toFloat64 a0
  -- `x`, `y` and `z` of the force are overwritten by those of the offset
  let _ ← toFloat64 jx
  let _ ← toFloat64 jy
  let _ ← toFloat64 jz
  let x ← toFloat64 jx2
  let y ← toFloat64 jy2
  let z ← toFloat64 jz2
  withPhysics entityIndex do
  construct (-5) "Vector" [x, y, z]
  -- `x2`, `y2` and `z2` have no value
  construct (-6) "Vector" [e.uninit 0, e.uninit 1, e.uninit 2]
  getField (-4) "ApplyForceOffset"
  pushSlot (-5)
  pushSlot (-4)
  pushSlot (-4)
  call 3 0
  pop 7
  pure .undefined

end Commands

/-! ## The chip itself -/

/-- `get_ent`. The index is a number, which nothing has to own. -/
def getEnt (_argv : List (JSValue R)) : NativeM R (JSValue R) := do
  let e ← read
  pure (.number e.entIndex)

/-- `get_owner`. -/
def getOwner (_argv : List (JSValue R)) : NativeM R (JSValue R) := do
  let e ← read
  pure (.number e.ownerIndex)

end JSChip.Native
