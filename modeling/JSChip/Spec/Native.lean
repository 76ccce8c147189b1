import JSChip.Spec.Entity
import JSChip.Spec.Vector

/-!
# The native functions

* `consoleLog`, `inputsChange`, `outputsChange`, `outputsTrigger`, `eventOn`: the functions of
  the global objects console, Inputs, Outputs and Events.
* `bindings`: the names that `lua_create_context` gives to the native functions.
-/

namespace JSChip.Native

variable {R : Type}

/-! ## console -/

/-- The argument loop of `console_log`: an argument that has no string is left out. -/
def pushStrings : List (JSValue R) → NativeM R Unit
  | [] => pure ()
  | v :: vs => do
    let str ← toCString v
    match str with
    | some c => do
      pushString (some c.text)
      freeCString str
    | none => pure ()
    pushStrings vs

/-- `console_log`, which calls with the number of its arguments. -/
def consoleLog (argv : List (JSValue R)) : NativeM R (JSValue R) := do
  if argv.length < 1 then throwTypeError "Expected at least one argument" else do
  let e ← read
  pushEntity e.ownerIndex
  callMethod (-1) "IsValid" (-2)
  let valid ← getBool (-1)
  if !valid then do
    pop 3
    throwTypeError "Invalid entity"
  else do
  getField (-3) "JSChatPrint"
  pushSlot (-3)
  pushStrings argv
  call (argv.length + 1) 0
  pop 3
  pure .undefined

/-! ## Inputs and Outputs -/

/-- The port types a property value can name; any other value stands for "normal". -/
def portTypes : List String := ["entity", "vector", "angle", "string", "color"]

/-- One property of the ports object, put into the table on top of the stack. -/
def setPort (ports : JSValue R) (atom : ℕ) : NativeM R Unit := do
  let propName ← atomToCString atom
  match propName with
  | some name => do
    let value ← getProperty ports atom
    let valueStr ← toCString value
    let text ← readString CString.text valueStr
    pushString (some (if text ∈ portTypes then text else "normal"))
    setField (-2) name.text
    freeCString propName
    freeCString valueStr
    freeValue value
  | none => pure ()
  freeAtom atom

def setPorts (ports : JSValue R) : List ℕ → NativeM R Unit
  | [] => pure ()
  | atom :: atoms => do
    setPort ports atom
    setPorts ports atoms

/-- `inputs_change` and `outputs_change`. When the names cannot be had, the three slots of the
entity stay on the stack. -/
def portsChange (setter : String) (argv : List (JSValue R)) : NativeM R (JSValue R) := do
  if argv.length < 1 then throwTypeError "Expected at least one argument" else do
  let a0 ← arg argv 0
  if !a0.isObject then throwTypeError "Argument must be an object" else do
  let e ← read
  pushEntity e.entIndex
  callMethod (-1) "IsValid" (-2)
  let valid ← getBool (-1)
  if !valid then do
    pop 3
    throwTypeError "Invalid entity"
  else do
  match ← getOwnPropertyNames a0 with
  | none => pure .undefined
  | some properties => do
    createTable
    setPorts a0 properties
    getField (-3) setter
    pushSlot (-4)
    pushSlot (-3)
    call 2 0
    pop 4
    pure .undefined

def inputsChange : List (JSValue R) → NativeM R (JSValue R) := portsChange "SetInputs"

def outputsChange : List (JSValue R) → NativeM R (JSValue R) := portsChange "SetOutputs"

section Trigger

variable [Double R]

/-- Leaving `outputs_trigger` with an error, after the output type has been asked for. -/
def rejectOutput (message : String) : NativeM R (Option (JSValue R)) := do
  pop 4
  let v ← throwTypeError message
  pure (some v)

/-- A vector or an angle for `outputs_trigger`. -/
def pushTriple (names : String × String × String) (invalid constructor : String)
    (v : JSValue R) : NativeM R (Option (JSValue R)) := do
  if !v.isObject then rejectOutput invalid else do
  let (jx, jy, jz) ← getProperties v names
  if !jx.isNumber || !jy.isNumber || !jz.isNumber then rejectOutput invalid else do
  let x ← toFloat64 jx
  let y ← toFloat64 jy
  let z ← toFloat64 jz
  construct (-4) constructor [x, y, z]
  pure none

/-- A colour for `outputs_trigger`. What decides between `a` and 255 is the type of `r`. -/
def pushColor (v : JSValue R) : NativeM R (Option (JSValue R)) := do
  if !v.isObject then rejectOutput "Second argument is not a valid color" else do
  let (jr, jg, jb) ← getProperties v ("r", "g", "b")
  let ja ← getPropertyStr v "a"
  if !jr.isNumber || !jg.isNumber || !jb.isNumber then
    rejectOutput "Second argument is not a valid angle"
  else do
  let r ← toFloat64 jr
  let g ← toFloat64 jg
  let b ← toFloat64 jb
  let a ← if jr.isNumber then toFloat64 ja else pure (Double.ofNat 255)
  construct (-4) "Color" [r, g, b, a]
  pure none

/-- An entity for `outputs_trigger`. -/
def pushOutputEntity (v : JSValue R) : NativeM R (Option (JSValue R)) := do
  if !v.isNumber then rejectOutput "Second argument is not a valid number" else do
  let entityIndex ← toFloat64 v
  construct (-4) "Entity" [entityIndex]
  callMethod (-1) "IsValid" (-2)
  let valid ← getBool (-1)
  if !valid then do
    pop 6
    let v ← throwTypeError "Second argument is not a valid entity"
    pure (some v)
  else do
  pop 1
  pure none

/-- The value of `outputs_trigger`, by the type of the output: pushed, or an error. -/
def pushOutput (outputType : String) (v : JSValue R) : NativeM R (Option (JSValue R)) :=
  if outputType = "NORMAL" then
    if !v.isNumber then rejectOutput "Second argument is not a valid number" else do
    let outputNumber ← toFloat64 v
    pushNumber outputNumber
    pure none
  else if outputType = "VECTOR" then
    pushTriple xyz "Second argument is not a valid vector" "Vector" v
  else if outputType = "ANGLE" then
    pushTriple pitchYawRoll "Second argument is not a valid angle" "Angle" v
  else if outputType = "COLOR" then pushColor v
  else if outputType = "ENTITY" then pushOutputEntity v
  else if outputType = "STRING" then
    if !v.isString then rejectOutput "Second argument is not a valid string" else do
    let outputString ← toCString v
    pushString (outputString.map CString.text)
    freeCString outputString
    pure none
  else rejectOutput "First argument is not a valid output"

/-- `outputs_trigger`. The C string of the output's name is freed on the last way out only. -/
def outputsTrigger (argv : List (JSValue R)) : NativeM R (JSValue R) := do
  if argv.length < 2 then throwTypeError "Expected (outputName, output)" else do
  let a0 ← arg argv 0
  if !a0.isString then throwTypeError "First argument must be a string" else do
  let e ← read
  pushEntity e.entIndex
  callMethod (-1) "IsValid" (-2)
  let valid ← getBool (-1)
  if !valid then do
    pop 3
    throwTypeError "Invalid entity"
  else do
  let outputName ← toCString a0
  getField (-2) "OutputType"
  pushSlot (-3)
  pushString (outputName.map CString.text)
  call 2 1
  let outputType ← getString (-1)
  let outputType ← readString id outputType
  let a1 ← arg argv 1
  match ← pushOutput outputType a1 with
  | some v => pure v
  | none => do
    getField (-4) "TriggerOutput"
    pushSlot (-5)
    pushString (outputName.map CString.text)
    pushSlot (-4)
    call 3 0
    pop 5
    freeCString outputName
    pure .undefined

end Trigger

/-! ## Events -/

/-- `event_on`. The references in the table are the table's: it takes one to the callback, and
the call releases the one of a callback that is replaced. -/
def eventOn (argv : List (JSValue R)) : NativeM R (JSValue R) := do
  if argv.length < 2 then throwTypeError "Expected (eventName, callback)" else do
  let a0 ← arg argv 0
  let eventName ← toCString a0
  let a1 ← arg argv 1
  if !a1.isFunction then do
    freeCString eventName
    throwTypeError "Second argument must be a function"
  else do
  let name ← readString CString.text eventName
  let s ← get
  match JSChip.eventOn s.listeners name a1 with
  | .replaced old listeners => do
    acquire old.refs
    freeValue old
    let callback ← dupValue a1
    modify fun s => { s with listeners := listeners }
    release callback.refs
    freeCString eventName
    pure .undefined
  | .full => do
    freeCString eventName
    throwInternalError "Maximum events reached"
  | .added listeners => do
    let callback ← dupValue a1
    modify fun s => { s with listeners := listeners }
    release callback.refs
    freeCString eventName
    pure .undefined

/-! ## The global objects -/

/-- The native functions that `lua_create_context` binds to a name. -/
inductive NativeFunction
  | getEnt | getOwner | entityGetName | entityGetClass | entityApplyforceCenter
  | entityApplyforceOffset | entityGetPosition | entityGetMasscenter | entityIsvalid
  | entityIsvalidPhysics | entityLocalToWorld | entityIsworld | entityGetColor | entityGetAngles
  | entityEyeAngles | entityIsplayer | entityIsnpc | entityCrouching | entitySteamid
  | entitySteamid64 | entityAccountid | entityTeam | entityFrags | entityUse | entitySetColor
  | entitySetPosition | entitySetAngles | entityGetMass | inputsChange | outputsChange
  | outputsTrigger | vectorAdd | vectorSub | vectorMul | vectorDiv | vectorPow | vectorMod
  | vectorMagnitude | vectorDistance | vectorDistance2 | consoleLog | eventOn
deriving DecidableEq, Repr

/-- A call of a native function. -/
def NativeFunction.run [Double R] : NativeFunction → List (JSValue R) → NativeM R (JSValue R)
  | .getEnt => Native.getEnt
  | .getOwner => Native.getOwner
  | .entityGetName => Native.entityGetName
  | .entityGetClass => Native.entityGetClass
  | .entityApplyforceCenter => Native.entityApplyforceCenter
  | .entityApplyforceOffset => Native.entityApplyforceOffset
  | .entityGetPosition => Native.entityGetPosition
  | .entityGetMasscenter => Native.entityGetMasscenter
  | .entityIsvalid => Native.entityIsvalid
  | .entityIsvalidPhysics => Native.entityIsvalidPhysics
  | .entityLocalToWorld => Native.entityLocalToWorld
  | .entityIsworld => Native.entityIsworld
  | .entityGetColor => Native.entityGetColor
  | .entityGetAngles => Native.entityGetAngles
  | .entityEyeAngles => Native.entityEyeAngles
  | .entityIsplayer => Native.entityIsplayer
  | .entityIsnpc => Native.entityIsnpc
  | .entityCrouching => Native.entityCrouching
  | .entitySteamid => Native.entitySteamid
  | .entitySteamid64 => Native.entitySteamid64
  | .entityAccountid => Native.entityAccountid
  | .entityTeam => Native.entityTeam
  | .entityFrags => Native.entityFrags
  | .entityUse => Native.entityUse
  | .entitySetColor => Native.entitySetColor
  | .entitySetPosition => Native.entitySetPosition
  | .entitySetAngles => Native.entitySetAngles
  | .entityGetMass => Native.entityGetMass
  | .inputsChange => Native.inputsChange
  | .outputsChange => Native.outputsChange
  | .outputsTrigger => Native.outputsTrigger
  | .vectorAdd => Native.vectorAdd
  | .vectorSub => Native.vectorSub
  | .vectorMul => Native.vectorMul
  | .vectorDiv => Native.vectorDiv
  | .vectorPow => Native.vectorPow
  | .vectorMod => Native.vectorMod
  | .vectorMagnitude => Native.vectorMagnitude
  | .vectorDistance => Native.vectorDistance
  | .vectorDistance2 => Native.vectorDistance2
  | .consoleLog => Native.consoleLog
  | .eventOn => Native.eventOn

/-- The properties of the global objects, as a script sees them. -/
def bindings : List (String × String × NativeFunction) :=
  [("Entity", "Chip", .getEnt), ("Entity", "Owner", .getOwner),
    ("Entity", "GetName", .entityGetName), ("Entity", "GetClass", .entityGetClass),
    ("Entity", "ApplyForce", .entityApplyforceCenter),
    ("Entity", "ApplyForceOffset", .entityApplyforceOffset),
    ("Entity", "IsValid", .entityIsvalid), ("Entity", "IsValidPhysics", .entityIsvalidPhysics),
    ("Entity", "GetPos", .entityGetPosition), ("Entity", "GetMassCenter", .entityGetMasscenter),
    ("Entity", "ToWorld", .entityLocalToWorld), ("Entity", "ToLocal", .entityLocalToWorld),
    ("Entity", "IsWorld", .entityIsworld), ("Entity", "GetColor", .entityGetColor),
    ("Entity", "GetAngles", .entityGetAngles), ("Entity", "IsPlayer", .entityIsplayer),
    ("Entity", "IsNPC", .entityIsnpc), ("Entity", "Crouching", .entityCrouching),
    ("Entity", "EyeAngles", .entityEyeAngles), ("Entity", "SteamID", .entitySteamid),
    ("Entity", "Team", .entityTeam), ("Entity", "Frags", .entityFrags),
    ("Entity", "SteamID64", .entitySteamid64), ("Entity", "AccountID", .entityAccountid),
    ("Entity", "Use", .entityUse), ("Entity", "SetColor", .entitySetColor),
    ("Entity", "SetAngles", .entitySetAngles), ("Entity", "SetPos", .entitySetPosition),
    ("Entity", "GetMass", .entityGetMass), ("Inputs", "Change", .inputsChange),
    ("Outputs", "Change", .outputsChange), ("Outputs", "Trigger", .outputsTrigger),
    ("Vector", "Add", .vectorAdd), ("Vector", "Sub", .vectorSub), ("Vector", "Mul", .vectorMul),
    ("Vector", "Div", .vectorDiv), ("Vector", "Pow", .vectorPow), ("Vector", "Mod", .vectorMod),
    ("Vector", "Magnitude", .vectorMagnitude), ("Vector", "Distance", .vectorDistance),
    ("Vector", "Distance2", .vectorDistance), ("Vector", "Normalize", .vectorDistance2),
    ("console", "log", .consoleLog), ("Events", "on", .eventOn)]

/-- Every function of the enumeration has a name. -/
theorem bound (n : NativeFunction) : ∃ b ∈ bindings, b.2.2 = n := by cases n <;> decide

end JSChip.Native
