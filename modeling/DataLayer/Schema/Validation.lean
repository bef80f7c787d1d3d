import DataLayer.Schema.Fault

/- What a model must satisfy before code is generated from it: enumerations and unions are not
   empty, and the variants of a union are entities and value objects of the model. -/
namespace DataLayer.Schema

def validateVariant (m : Model) (variant : String) : Except ModelFault Unit := do
  match (← m.item variant).kind with
  | .entity | .object => return ()
  | other => throw (.kindMismatch variant "entity or object" other.word)

def validateItem (m : Model) (name : String) (item : Item) : Except ModelFault Unit :=
  match item with
  | .enumeration e => if e.values.isEmpty then .error (.emptyEnumeration name) else .ok ()
  | .union u =>
      if u.variants.isEmpty then .error (.emptyUnion name)
      else u.variants.forM (validateVariant m)
  | .entity _ | .object _ => .ok ()

def Model.validate (m : Model) : Except ModelFault Unit :=
  m.items.entries.forM fun e => validateItem m e.1 e.2

def Model.HasShape (m : Model) (variant : String) : Prop :=
  m.kind? variant = some .entity ∨ m.kind? variant = some .object

end DataLayer.Schema
