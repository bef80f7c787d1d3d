import DataLayer.Record.Codec

/- Circles, squares, and shapes, which are one or the other. The record of a shape names its
   variant, and by that name it is read. -/
namespace DataLayer.Sample
open Record Json Number Time

structure Circle where
  radius? : Option Binary64 := none
  deriving DecidableEq, Repr

namespace Circle

def typeName : String := "Circle"

def radius (c : Circle) : Except Unset Binary64 := required "Circle" "radius" c.radius?

def setRadius (value : Binary64) (c : Circle) : Circle := { c with radius? := some value }

def read (v : Value) : Except Fault Circle := do
  let radius ← Codec.double.readAt v "radius"
  return { radius? := some radius }

def write (c : Circle) : Except Unset Value := do
  let radius ← Codec.double.write (← c.radius)
  return .ofMembers [(discriminatorKey, .string typeName), ("radius", radius)]

def new (record : Option Value) : Except Fault Circle := record.elim (.ok {}) read

end Circle

structure Square where
  side? : Option Int32 := none
  createdAt : Option Timestamp := none
  deriving DecidableEq, Repr

namespace Square

def typeName : String := "Square"

def side (s : Square) : Except Unset Int32 := required "Square" "side" s.side?

def setSide (value : Int32) (s : Square) : Square := { s with side? := some value }

def setCreatedAt (value : Option Timestamp) (s : Square) : Square := { s with createdAt := value }

def read (v : Value) : Except Fault Square := do
  let side ← Codec.integer.readAt v "side"
  let createdAt ← Codec.timestamp.nullable.readAt v "createdAt"
  return { side? := some side, createdAt }

def write (s : Square) : Except Unset Value := do
  let side ← Codec.integer.write (← s.side)
  let createdAt ← Codec.timestamp.nullable.write s.createdAt
  return .ofMembers
    [(discriminatorKey, .string typeName), ("side", side), ("createdAt", createdAt)]

def new (record : Option Value) : Except Fault Square := record.elim (.ok {}) read

end Square

inductive Shape
  | circle (value : Circle)
  | square (value : Square)
  deriving DecidableEq, Repr

namespace Shape

def typeName : Shape → String
  | .circle _ => Circle.typeName
  | .square _ => Square.typeName

def read (v : Value) : Except Fault Shape :=
  match discriminator? v with
  | some "Circle" => (Circle.read v).map .circle
  | some "Square" => (Square.read v).map .square
  | other => .error (.unknownVariant "Shape" other)

def write : Shape → Except Unset Value
  | .circle c => c.write
  | .square s => s.write

def codec : Codec Shape := ⟨read, write⟩

end Shape

end DataLayer.Sample
