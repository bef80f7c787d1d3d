import DataLayer.Sample.Account

/- Owners, which are accounts or circles. -/
namespace DataLayer.Sample
open Record Json

inductive Owner
  | account (value : Account)
  | circle (value : Circle)
  deriving DecidableEq, Repr

namespace Owner

def typeName : Owner → String
  | .account _ => Account.typeName
  | .circle _ => Circle.typeName

def read (v : Value) : Except Fault Owner :=
  match discriminator? v with
  | some "Account" => (Account.read v).map .account
  | some "Circle" => (Circle.read v).map .circle
  | other => .error (.unknownVariant "Owner" other)

def write : Owner → Except Unset Value
  | .account a => a.write
  | .circle c => c.write

def codec : Codec Owner := ⟨read, write⟩

end Owner

end DataLayer.Sample
