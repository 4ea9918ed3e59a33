import RemoteAgent.World

/-!
# Object models

The agent does not define the objects that it serves. An application supplies them: `HostObjects`
says how its host objects answer, and `ObjectModel` what its native functions do. Both may do
anything to the world.

A host object need only know how to read a property. Unless it says otherwise, it refuses
assignments, lists no properties and is called a host object.
-/

namespace RemoteAgent

/-- The host objects of an application. -/
class HostObjects (φ η : Type) where
  /-- Reads a property. One that the object does not have should read as null. -/
  get : η → PropertyKey → Eval φ η Value
  /-- What the object is called in diagnostics. -/
  describe : Heap φ η → η → String := fun _ _ => "host object"
  /-- Assigns a property. -/
  set : η → PropertyKey → Value → Eval φ η Unit := fun host key _ => do
    throw (.notAssignable (.hostProperty (describe (← Eval.heap) host) key))
  /-- The properties that show when the object is rendered. -/
  entries : Heap φ η → η → List (String × Value) := fun _ _ => []

/-- The host objects and native functions of an application. -/
class ObjectModel (φ η : Type) extends HostObjects φ η where
  /-- Calls a native function on a receiver with arguments. -/
  call : φ → Value → List Value → Eval φ η Value

/-- What a host object is called in diagnostics. A bag goes by its label. -/
def HostObject.describe {φ η : Type} [HostObjects φ η] (heap : Heap φ η) :
    HostObject η → String
  | .bag label _ => if label = "" then "property bag" else label
  | .custom code => HostObjects.describe heap code

/-- The properties that show when a host object is rendered. -/
def HostObject.entries {φ η : Type} [HostObjects φ η] (heap : Heap φ η) :
    HostObject η → List (String × Value)
  | .bag _ properties => properties
  | .custom code => HostObjects.entries heap code

end RemoteAgent
