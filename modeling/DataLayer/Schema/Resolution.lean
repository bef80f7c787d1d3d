import DataLayer.Schema.Declaration

/- From declarations to a model. A name in a type expression means the item of that name, wherever
   in the document it stands, and a scalar if there is none. -/
namespace DataLayer.Schema

def namedType (kinds : Table ItemKind) (name : String) : PropertyType :=
  match kinds.get? name with
  | some .entity => .reference name
  | some .object => .object name
  | some .union => .union name
  | some .enumeration => .enumeration name
  | none => .scalar name

def TypeExpr.resolve (kinds : Table ItemKind) : TypeExpr → PropertyType
  | .named name _ => namedType kinds name
  | .list item _ => .list (item.resolve kinds) item.nullable none

/-- The entity that a derived property relates to: its type is a list of that entity. -/
def TypeExpr.relatedEntity? (kinds : Table ItemKind) : TypeExpr → Option String
  | .list (.named name _) _ => if kinds.get? name = some .entity then some name else none
  | _ => none

def PropertyDeclaration.resolve (kinds : Table ItemKind) (d : PropertyDeclaration) :
    Except LoadFault Property :=
  match d.derivedFrom with
  | none => .ok ⟨d.type.resolve kinds, d.type.nullable, d.description⟩
  | some field =>
      match d.type.relatedEntity? kinds with
      | some entity => .ok ⟨.inverse entity field, d.type.nullable, d.description⟩
      | none => .error (.invalidAttribute "property" "derivedFrom" field)

def resolveProperties (kinds : Table ItemKind) (owner : String)
    (declared : List PropertyDeclaration) : Except LoadFault (Table Property) :=
  declared.foldlM
    (fun known d => do
      let property ← d.resolve kinds
      match known.insertNew? d.name property with
      | some more => return more
      | none => throw (.duplicate "property" (owner ++ "." ++ d.name)))
    .empty

def idKey : String := "id"

def idProperty : Property := ⟨.scalar Scalar.id.name, false, none⟩

/-- An entity that does not declare its identifier gets it as its first property. -/
def Declaration.resolve (kinds : Table ItemKind) (name : String) :
    Declaration → Except LoadFault Item
  | .entity description declared => do
      let properties ← resolveProperties kinds name declared
      return .entity ⟨description, properties.insertFirst idKey idProperty⟩
  | .object description declared =>
      return .object ⟨description, ← resolveProperties kinds name declared⟩
  | .union u => return .union u
  | .enumeration e => return .enumeration e

def resolveAll (declared : Table Declaration) : Except LoadFault Model := do
  let kinds := declared.map Declaration.kind
  declared.entries.foldlM
    (fun model e => return model.insert e.1 (← e.2.resolve kinds e.1))
    .empty

def Model.ofText (text : String) : Except LoadFault Model := do
  resolveAll (← declarationsOf text)

end DataLayer.Schema
