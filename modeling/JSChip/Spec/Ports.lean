import JSChip.Spec.Host
import JSChip.Spec.Native

/-!
# The ports of a chip, on the side of Lua

* `Enumerates`: what `pairs` may enumerate.
* `portLists`: what `ENT:SetInputs` and `ENT:SetOutputs` make of the table of ports.
* `outputTypeOf`: `ENT:OutputType`.
* `triggerInput`: `ENT:TriggerInput` of a chip that runs, which hands a value that arrives on a
  wire to the listener of the event "input".

`WireLib` is not part of the module. `AdjustSpecialInputs` and `AdjustSpecialOutputs` record
names and types as they are given, and `TriggerOutput` calls `TriggerInput` of the chips wired to
the output with the value it was given.
-/

namespace JSChip.Native

/-- `string.upper`. -/
def upper (text : String) : String := String.ofList (text.toList.map Char.toUpper)

/-- `names` and `types`, from the fields of the table in the order in which `pairs` enumerates
them. -/
def portLists : List (String × String) → List String × List String
  | [] => ([], [])
  | (key, value) :: fields => (key :: (portLists fields).1, upper value :: (portLists fields).2)

/-- `self.Outputs[iname].Type`, where `self.Outputs` is what `AdjustSpecialOutputs` answers. -/
def recordedType (ports : List String × List String) (iname : String) : Option String :=
  (ports.1.zip ports.2).lookup iname

/-- `ENT:OutputType`. -/
def outputTypeOf (ports : List String × List String) (iname : String) : String :=
  (recordedType ports iname).getD "none"

variable {R : Type}

/-- A field of a table, with the value that it was assigned last. -/
def lastField : List (FieldSet R) → String → Option (LuaValue R)
  | [], _ => none
  | f :: fs, key => (lastField fs key).or (if f.name = key then some f.value else none)

/-- **What `pairs` may enumerate**, for a table of strings: each field once, in any order. -/
structure Enumerates (sets : List (FieldSet R)) (fields : List (String × String)) : Prop where
  distinct : (fields.map Prod.fst).Nodup
  mem : ∀ key text, (key, text) ∈ fields ↔ lastField sets key = some (.string text)

variable [Double R]

/-- `ENT:TriggerInput(iname, value)`: `JS_EmitEvent(self.ctx, "input", iname, value)`. That
it tests `self.Run` first, and hands an error to `self:Error`, is left out here. -/
def triggerInput : NativeM R Unit := luaEmitEvent "input" 2

/-- The arguments of that call. -/
def triggerInputArgs (ctx : R) (iname : String) (value : LuaValue R) : List (LuaValue R) :=
  [.number ctx, .string "input", .string iname, value]

end JSChip.Native
