import DataLayer.Sample.Shape
import DataLayer.Sample.Status

/- Drawings with their shapes and whatever else may be known about them. A drawing always has a
   status and a list of shapes, but not before they are set. -/
namespace DataLayer.Sample
open Record Json

structure Metadata where
  tag : Option String := none
  deriving DecidableEq, Repr

namespace Metadata

def setTag (value : Option String) (m : Metadata) : Metadata := { m with tag := value }

def read (v : Value) : Except Fault Metadata := do
  let tag ← Codec.text.nullable.readAt v "tag"
  return { tag }

def write (m : Metadata) : Except Unset Value := do
  let tag ← Codec.text.nullable.write m.tag
  return .ofMembers [("tag", tag)]

def new (record : Option Value) : Except Fault Metadata := record.elim (.ok {}) read

/-- Metadata inside another record is not null. -/
def codec : Codec Metadata := ⟨Codec.readNonNull read, write⟩

end Metadata

structure Drawing where
  status? : Option Status := none
  owner : Option String := none
  shapes? : Option (List Shape) := none
  weights : Option (List (Option Int)) := none
  payload : Option (List UInt8) := none
  metadata : Option Metadata := none
  deriving DecidableEq, Repr

namespace Drawing

def shapesCodec : Codec (List Shape) := Shape.codec.list
def weightsCodec : Codec (Option (List (Option Int))) := Codec.wholeNumber.nullable.list.nullable
def payloadCodec : Codec (Option (List UInt8)) := Codec.bytes.nullable
def metadataCodec : Codec (Option Metadata) := Metadata.codec.nullable

def status (d : Drawing) : Except Unset Status := required "Drawing" "status" d.status?

def shapes (d : Drawing) : Except Unset (List Shape) := required "Drawing" "shapes" d.shapes?

def setStatus (value : Status) (d : Drawing) : Drawing := { d with status? := some value }

def setOwner (value : Option String) (d : Drawing) : Drawing := { d with owner := value }

def setShapes (value : List Shape) (d : Drawing) : Drawing := { d with shapes? := some value }

def setWeights (value : Option (List (Option Int))) (d : Drawing) : Drawing :=
  { d with weights := value }

def setPayload (value : Option (List UInt8)) (d : Drawing) : Drawing := { d with payload := value }

def setMetadata (value : Option Metadata) (d : Drawing) : Drawing := { d with metadata := value }

def read (v : Value) : Except Fault Drawing := do
  let status ← Status.codec.readAt v "status"
  let owner ← Codec.text.nullable.readAt v "owner"
  let shapes ← shapesCodec.readAt v "shapes"
  let weights ← weightsCodec.readAt v "weights"
  let payload ← payloadCodec.readAt v "payload"
  let metadata ← metadataCodec.readAt v "meta"
  return { status? := some status, owner, shapes? := some shapes, weights, payload, metadata }

def write (d : Drawing) : Except Unset Value := do
  let status ← Status.codec.write (← d.status)
  let owner ← Codec.text.nullable.write d.owner
  let shapes ← shapesCodec.write (← d.shapes)
  let weights ← weightsCodec.write d.weights
  let payload ← payloadCodec.write d.payload
  let metadata ← metadataCodec.write d.metadata
  return .ofMembers
    [("status", status), ("owner", owner), ("shapes", shapes), ("weights", weights),
     ("payload", payload), ("meta", metadata)]

def new (record : Option Value) : Except Fault Drawing := record.elim (.ok {}) read

def codec : Codec Drawing := ⟨Codec.readNonNull read, write⟩

end Drawing

end DataLayer.Sample
