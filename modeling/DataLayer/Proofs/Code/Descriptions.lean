import DataLayer.Proofs.Code.Comments
import DataLayer.Proofs.Code.Locality

/- Descriptions do not reach the code. Taking them out of a model takes them out of its code and
   changes nothing else, one function of the generator after the other, and taking them out of the
   code changes comment lines alone. -/
namespace DataLayer.Schema

def PropertyType.undescribed : PropertyType → PropertyType
  | .list item nullable _ => .list item.undescribed nullable none
  | t => t

def Property.undescribed (p : Property) : Property := ⟨p.type.undescribed, p.nullable, none⟩

section Property
variable (p : Property)

@[simp] theorem type_undescribed : p.undescribed.type = p.type.undescribed := rfl

@[simp] theorem nullable_undescribed : p.undescribed.nullable = p.nullable := rfl

@[simp] theorem description_undescribed : p.undescribed.description = none := rfl

end Property

def Item.undescribed : Item → Item
  | .entity x => .entity ⟨none, x.properties.map Property.undescribed⟩
  | .object x => .object ⟨none, x.properties.map Property.undescribed⟩
  | .union u => .union ⟨none, u.variants⟩
  | .enumeration e => .enumeration ⟨none, e.values⟩

theorem kind_undescribed (item : Item) : item.undescribed.kind = item.kind := by
  cases item <;> rfl

namespace Model

def undescribed (m : Model) : Model := ⟨m.items.map Item.undescribed⟩

theorem get?_undescribed (m : Model) (name : String) :
    m.undescribed.get? name = (m.get? name).map Item.undescribed :=
  Table.get?_map _ _ _

theorem kind?_undescribed (m : Model) (name : String) :
    m.undescribed.kind? name = m.kind? name := by
  rw [kind?, get?_undescribed, Option.map_map, kind?]
  congr 1
  funext item
  exact kind_undescribed item

theorem variantNames_undescribed (m : Model) : m.undescribed.variantNames = m.variantNames := by
  unfold variantNames undescribed Table.map
  rw [List.flatMap_map]
  congr 1
  funext e
  obtain ⟨name, item⟩ := e
  cases item <;> rfl

theorem longestValue_undescribed {m : Model} {name : String} {e f : Enumeration}
    (here : m.undescribed.get? name = some (.enumeration e))
    (there : m.get? name = some (.enumeration f)) : e.longestValue = f.longestValue := by
  rw [get?_undescribed, there] at here
  cases here
  rfl

end Model

end DataLayer.Schema

namespace DataLayer.Code
open Schema Outcome

section Types

theorem typeOf_undescribed (holder : Holder) (t : PropertyType) (nullable : Bool) :
    typeOf holder t.undescribed nullable = typeOf holder t nullable := by
  induction t generalizing holder nullable with
  | list item itemNullable _ ih => rw [PropertyType.undescribed, typeOf, ih, typeOf]
  | _ => rfl

theorem readExpr_undescribed (t : PropertyType) (nullable : Bool) :
    readExpr t.undescribed nullable = readExpr t nullable := by
  induction t generalizing nullable with
  | list item itemNullable _ ih => rw [PropertyType.undescribed, readExpr, ih, readExpr]
  | _ => rfl

theorem writeExpr_undescribed (t : PropertyType) (nullable : Bool) :
    writeExpr t.undescribed nullable = writeExpr t nullable := by
  induction t generalizing nullable with
  | list item itemNullable _ ih => rw [PropertyType.undescribed, writeExpr, ih, writeExpr]
  | _ => rfl

theorem readUses_undescribed (t : PropertyType) (nullable : Bool) :
    readUses t.undescribed nullable = readUses t nullable := by
  induction t generalizing nullable with
  | list item itemNullable _ ih => simp only [PropertyType.undescribed, readUses, ih]
  | _ => rfl

theorem writeUses_undescribed (t : PropertyType) : writeUses t.undescribed = writeUses t := by
  induction t with
  | list item _ _ ih => rw [PropertyType.undescribed, writeUses, ih, writeUses]
  | _ => rfl

theorem documentOf_undescribed (t : PropertyType) (nullable : Bool) :
    documentOf t.undescribed nullable = documentOf t nullable := by
  cases t <;> rfl

theorem recordPartOf_undescribed (owner key : String) (t : PropertyType) (nullable : Bool) :
    recordPartOf owner key t.undescribed nullable = recordPartOf owner key t nullable := by
  cases t with
  | list item itemNullable description =>
    have read := readExpr_undescribed (.list item itemNullable description) nullable
    have write := writeExpr_undescribed (.list item itemNullable description) nullable
    rw [PropertyType.undescribed] at read write ⊢
    rw [recordPartOf, read, write, recordPartOf]
    all_goals simp
  | _ => rfl

theorem storageOf_undescribed (m : Model) (t : PropertyType) :
    storageOf m.undescribed t.undescribed = storageOf m t := by
  cases t with
  | enumeration name =>
    exact storageOf_enumeration_eq (m.kind?_undescribed name) fun e f => m.longestValue_undescribed
  | _ => rfl

theorem bindingOf_undescribed (m : Model) (p : Property) :
    bindingOf m.undescribed p.undescribed = bindingOf m p := by
  rw [bindingOf, Property.undescribed, storageOf_undescribed, bindingOf]

end Types

section Entities

def EntityField.undescribed (f : EntityField) : EntityField := { f with description := none }

def EntityCode.undescribed (c : EntityCode) : EntityCode :=
  { c with description := none, fields := c.fields.map EntityField.undescribed }

theorem entityFieldOf_undescribed (owner : String) (isVariant : Bool) (key : String) (p : Property)
    (binding : Binding) :
    entityFieldOf owner isVariant key p.undescribed binding =
      (entityFieldOf owner isVariant key p binding).map EntityField.undescribed := by
  cases isVariant <;>
    simp only [entityFieldOf, type_undescribed, description_undescribed, typeOf_undescribed,
      documentOf_undescribed, recordPartOf_undescribed, mapResult_bind, if_true,
      Bool.false_eq_true, if_false, mapResult_pure, EntityField.undescribed]

theorem entityFields_undescribed (m : Model) (owner : String) (isVariant : Bool) (scope : Scope)
    (properties : List (String × Property)) :
    entityFields m.undescribed owner isVariant scope
        (properties.map fun e => (e.1, e.2.undescribed)) =
      (entityFields m owner isVariant scope properties).map (List.map EntityField.undescribed) := by
  induction properties generalizing scope with
  | nil => rfl
  | cons first rest ih =>
    simp only [List.map_cons, entityFields, bindingOf_undescribed, entityFieldOf_undescribed, ih,
      mapResult_bind, bind_mapResult, mapResult_pure]

theorem entityFieldUses_undescribed (isVariant : Bool) (p : Property) :
    entityFieldUses isVariant p.undescribed = entityFieldUses isVariant p := by
  obtain ⟨type, nullable, _⟩ := p
  cases type with
  | list item itemNullable description =>
    have read := readUses_undescribed (.list item itemNullable description) nullable
    have write := writeUses_undescribed (.list item itemNullable description)
    rw [PropertyType.undescribed] at read write
    simp only [entityFieldUses, Property.undescribed, PropertyType.undescribed, read, write]
  | _ => rfl

theorem entityCodeOf_undescribed (m : Model) (isVariant : Bool) (name : String) (x : Entity) :
    entityCodeOf m.undescribed isVariant name ⟨none, x.properties.map Property.undescribed⟩ =
      (entityCodeOf m isVariant name x).map EntityCode.undescribed := by
  simp only [entityCodeOf, Table.map, entityFields_undescribed, mapResult_bind, bind_mapResult,
    mapResult_pure, List.flatMap_map, entityFieldUses_undescribed]
  rfl

end Entities

section Objects

def ObjectField.undescribed (f : ObjectField) : ObjectField := { f with description := none }

def ObjectCode.undescribed (c : ObjectCode) : ObjectCode :=
  { c with description := none, fields := c.fields.map ObjectField.undescribed }

theorem objectFieldType_undescribed (owner key : String) (p : Property) :
    objectFieldType owner key p.undescribed = objectFieldType owner key p := by
  simp only [objectFieldType, type_undescribed, typeOf_undescribed]

theorem objectFieldOf_undescribed (owner key : String) (p : Property) :
    objectFieldOf owner key p.undescribed =
      (objectFieldOf owner key p).map ObjectField.undescribed := by
  simp only [objectFieldOf, objectFieldType_undescribed, type_undescribed, nullable_undescribed,
    description_undescribed, readExpr_undescribed, writeExpr_undescribed, mapResult_bind,
    mapResult_pure, ObjectField.undescribed]

theorem objectUses_undescribed (properties : List (String × Property)) :
    objectUses (properties.map fun e => (e.1, e.2.undescribed)) = objectUses properties := by
  simp only [objectUses, List.flatMap_map, List.any_map, Function.comp_def, type_undescribed,
    nullable_undescribed, readUses_undescribed, writeUses_undescribed]

theorem objectCodeOf_undescribed (isVariant : Bool) (name : String) (x : ValueObject) :
    objectCodeOf isVariant name ⟨none, x.properties.map Property.undescribed⟩ =
      (objectCodeOf isVariant name x).map ObjectCode.undescribed := by
  have types : (x.properties.map Property.undescribed).entries.mapM
      (fun p => objectFieldType name p.1 p.2) =
        x.properties.entries.mapM fun p => objectFieldType name p.1 p.2 := by
    simp only [Table.map, List.mapM_map, Function.comp_def, objectFieldType_undescribed]
  have fields : (x.properties.map Property.undescribed).entries.mapM
      (fun p => objectFieldOf name p.1 p.2) =
        (x.properties.entries.mapM fun p => objectFieldOf name p.1 p.2).map
          (List.map ObjectField.undescribed) := by
    simp only [Table.map, List.mapM_map, Function.comp_def, objectFieldOf_undescribed,
      mapResult_mapM]
  have uses : objectUses (x.properties.map Property.undescribed).entries =
      objectUses x.properties.entries := objectUses_undescribed _
  simp only [objectCodeOf, Table.keys_map, types, fields, uses, mapResult_bind, bind_mapResult,
    mapResult_pure, ObjectCode.undescribed]

end Objects

section Items

def ItemCode.undescribed : ItemCode → ItemCode
  | .entity c => .entity c.undescribed
  | .object c => .object c.undescribed
  | .union c => .union { c with description := none }
  | .enumeration c => .enumeration { c with description := none }

theorem itemCodeOf_undescribed (m : Model) (variants : List String) (name : String) (item : Item) :
    itemCodeOf m.undescribed variants name item.undescribed =
      (itemCodeOf m variants name item).map ItemCode.undescribed := by
  cases item with
  | entity x =>
    simp only [itemCodeOf, Item.undescribed, entityCodeOf_undescribed, mapResult_bind,
      bind_mapResult, mapResult_pure, ItemCode.undescribed]
  | object x =>
    simp only [itemCodeOf, Item.undescribed, objectCodeOf_undescribed, mapResult_bind,
      bind_mapResult, mapResult_pure, ItemCode.undescribed]
  | union u =>
    have checks : u.variants.forM (checkVariant m.undescribed) = u.variants.forM (checkVariant m) :=
      forM_congr fun variant _ => checkVariant_eq (m.kind?_undescribed variant)
    simp only [itemCodeOf, Item.undescribed, unionCodeOf, checks, mapResult_bind, bind_assoc,
      pure_bind, mapResult_pure, ItemCode.undescribed]
  | enumeration e =>
    simp only [itemCodeOf, Item.undescribed, enumerationCodeOf, mapResult_bind, bind_assoc,
      pure_bind, mapResult_pure, ItemCode.undescribed]

def ItemFile.undescribed (f : ItemFile) : ItemFile := { f with code := f.code.undescribed }

section Code
variable (c : ItemCode)

theorem name_undescribed : c.undescribed.name = c.name := by
  cases c <;> rfl

theorem imports_undescribed : c.undescribed.imports = c.imports := by
  cases c <;> rfl

theorem readsRecords_undescribed : c.undescribed.readsRecords = c.readsRecords := by
  cases c <;> rfl

end Code

theorem lines_undescribed (i : Imports) (m : Model) : i.lines m.undescribed = i.lines m := by
  have lines : i.items.names.mapM (itemLine m.undescribed) = i.items.names.mapM (itemLine m) :=
    mapM_congr fun name _ => itemLine_eq (m.kind?_undescribed name)
  rw [Imports.lines, lines, Imports.lines]

theorem itemFileOf_undescribed (m : Model) (variants : List String) (name : String) (item : Item) :
    itemFileOf m.undescribed variants name item.undescribed =
      (itemFileOf m variants name item).map ItemFile.undescribed := by
  simp only [itemFileOf, itemCodeOf_undescribed, imports_undescribed, lines_undescribed,
    mapResult_bind, bind_mapResult, mapResult_pure, ItemFile.undescribed]

theorem module_undescribed (f : ItemFile) : f.undescribed.source.module = f.source.module := by
  rw [SourceFile.module, SourceFile.module]
  exact congrArg Name.moduleName (name_undescribed f.code)

theorem itemFiles_undescribed (m : Model) (variants : List String) (modules : Scope)
    (items : List (String × Item)) :
    itemFiles m.undescribed variants modules (items.map fun e => (e.1, e.2.undescribed)) =
      (itemFiles m variants modules items).map (List.map ItemFile.undescribed) := by
  induction items generalizing modules with
  | nil => rfl
  | cons first rest ih =>
    simp only [List.map_cons, itemFiles, itemFileOf_undescribed, module_undescribed, ih,
      mapResult_bind, bind_mapResult, mapResult_pure]

def Tree.undescribed (t : Tree) : Tree := { t with files := t.files.map ItemFile.undescribed }

theorem generate_undescribed (m : Model) :
    generate m.undescribed = (generate m).map Tree.undescribed := by
  have files := itemFiles_undescribed m m.variantNames (.new modelModule) m.items.entries
  have support : ∀ given, supportOf (given.map ItemFile.undescribed) = supportOf given := by
    intro given
    simp only [supportOf, List.any_map, Function.comp_def, ItemFile.undescribed,
      readsRecords_undescribed]
  rw [generate, m.variantNames_undescribed]
  change itemFiles m.undescribed m.variantNames _
    (m.items.entries.map fun e => (e.1, e.2.undescribed)) >>= _ = _
  rw [files]
  simp only [generate, bind_mapResult, mapResult_bind, mapResult_pure, support, Tree.undescribed]

end Items

section Bodies

theorem undescribedAll_parted (groups : List (List Step)) :
    undescribedAll (parted groups) = parted (groups.map undescribedAll) := by
  induction groups with
  | nil => rfl
  | cons group rest ih =>
    cases rest with
    | nil => rfl
    | cons next more =>
      simp only [parted, undescribedAll_append, undescribedAll, Step.undescribed, ih, List.map_cons]

theorem documentSteps_undescribed (f : EntityField) :
    undescribedAll f.documentSteps = f.documentSteps := by
  unfold EntityField.documentSteps
  split <;> rfl

section Entity
variable (c : EntityCode)

theorem parts_undescribed :
    c.undescribed.parts = c.parts.map fun q => (q.1.undescribed, q.2) := by
  simp only [EntityCode.parts, EntityCode.undescribed, List.filterMap_map, List.map_filterMap,
    Function.comp_def, Option.map_map]
  rfl

theorem writtenParts_undescribed :
    c.undescribed.writtenParts = c.writtenParts.map fun q => (q.1.undescribed, q.2) := by
  simp only [EntityCode.writtenParts, parts_undescribed, List.filterMap_map, List.map_filterMap,
    Function.comp_def, Option.map_map]

theorem destructuring_undescribed : c.undescribed.destructuring = c.destructuring := by
  simp only [EntityCode.destructuring, writtenParts_undescribed, parts_undescribed,
    List.length_map, List.map_map, Function.comp_def, EntityField.undescribed]

theorem recordSteps_undescribed : c.undescribed.recordSteps = undescribedAll c.recordSteps := by
  simp only [EntityCode.recordSteps, destructuring_undescribed, parts_undescribed,
    writtenParts_undescribed, List.map_map, Function.comp_def, undescribedAll_append,
    undescribedAll, Step.undescribed, undescribedAll_lines, discriminatorSteps, isTypeOfSteps]
  rfl

theorem structSteps_undescribed : c.undescribed.structSteps = undescribedAll c.structSteps := by
  simp only [EntityCode.structSteps, EntityCode.undescribed, undescribedAll, Step.undescribed,
    undescribedAll_flatMap, List.flatMap_map, EntityField.undescribed]

theorem tableSteps_undescribed (r : Support.Registration) :
    undescribedAll (EntityCode.tableSteps r) = EntityCode.tableSteps r := by
  simp only [EntityCode.tableSteps, undescribedAll, Step.undescribed, undescribedAll_append,
    undescribedAll_lines]

theorem registration_undescribed : c.undescribed.registration = c.registration := by
  rw [EntityCode.registration, EntityCode.undescribed, List.map_map]
  rfl

theorem registrationSteps_undescribed :
    c.undescribed.registrationSteps = undescribedAll c.registrationSteps := by
  rw [EntityCode.registrationSteps, registration_undescribed, EntityCode.registrationSteps,
    undescribedAll, Step.undescribed, tableSteps_undescribed]
  rfl

theorem methodGroups_undescribed :
    c.undescribed.methodGroups = c.methodGroups.map undescribedAll := by
  have records : (if c.isVariant then [undescribedAll c.recordSteps] else []) =
      (if c.isVariant then [c.recordSteps] else []).map undescribedAll := by
    cases c.isVariant <;> rfl
  have documents : (c.undescribed.fields.filter (·.document.isSome)).map EntityField.documentSteps =
      (c.fields.filter (·.document.isSome)).map EntityField.documentSteps := by
    rw [EntityCode.undescribed, List.filter_map, List.map_map]
    rfl
  rw [EntityCode.methodGroups, recordSteps_undescribed, documents, EntityCode.methodGroups,
    List.map_append, ← records, List.map_map]
  simp only [Function.comp_def, documentSteps_undescribed]
  rfl

theorem entityBody_undescribed : c.undescribed.body = undescribedAll c.body := by
  have methods : (if c.methodGroups.isEmpty then []
      else [.blank, .block ("impl " ++ c.name) (undescribedAll (parted c.methodGroups))]) =
      undescribedAll (if c.methodGroups.isEmpty then []
        else [.blank, .block ("impl " ++ c.name) (parted c.methodGroups)]) := by
    cases c.methodGroups.isEmpty <;> rfl
  rw [EntityCode.body, structSteps_undescribed, registrationSteps_undescribed,
    methodGroups_undescribed, List.isEmpty_map, ← undescribedAll_parted, EntityCode.body,
    undescribedAll_append, undescribedAll_append, undescribedAll_append, ← methods]
  rfl

end Entity

section Object
variable (c : ObjectCode)

theorem accessorSteps_undescribed (owner : String) (f : ObjectField) :
    f.undescribed.accessorSteps owner = undescribedAll (f.accessorSteps owner) := by
  obtain ⟨key, ident, setter, type, nullable, description, read, write⟩ := f
  cases nullable <;> rfl

theorem objectStruct_undescribed : c.undescribed.structSteps = undescribedAll c.structSteps := by
  have empty : c.undescribed.fields.isEmpty = c.fields.isEmpty := List.isEmpty_map
  rw [ObjectCode.structSteps, empty, ObjectCode.structSteps]
  cases c.fields.isEmpty with
  | true => rfl
  | false =>
    simp only [ObjectCode.undescribed, List.map_map, Function.comp_def, undescribedAll,
      Step.undescribed, undescribedAll_lines, Bool.false_eq_true, if_false]
    rfl

theorem readerSteps_undescribed : c.undescribed.readerSteps = undescribedAll c.readerSteps := by
  have empty : c.undescribed.fields.isEmpty = c.fields.isEmpty := List.isEmpty_map
  rw [ObjectCode.readerSteps, empty, ObjectCode.readerSteps]
  cases c.fields.isEmpty with
  | true => rfl
  | false =>
    simp only [ObjectCode.undescribed, List.map_map, Function.comp_def, undescribedAll,
      Step.undescribed, undescribedAll_append, undescribedAll_lines, Bool.false_eq_true, if_false]
    rfl

theorem writerSteps_undescribed : c.undescribed.writerSteps = undescribedAll c.writerSteps := by
  have empty : c.undescribed.fields.isEmpty = c.fields.isEmpty := List.isEmpty_map
  have discriminator : undescribedAll (if c.isVariant then [.line discriminatorInsert] else []) =
      if c.isVariant then [.line discriminatorInsert] else [] := by
    cases c.isVariant <;> rfl
  rw [ObjectCode.writerSteps, empty, ObjectCode.writerSteps]
  simp only [ObjectCode.undescribed, List.map_map, Function.comp_def, undescribedAll,
    Step.undescribed, undescribedAll_append, undescribedAll_lines, discriminator]
  rfl

theorem objectBody_undescribed : c.undescribed.body = undescribedAll c.body := by
  have constant : undescribedAll
      (if c.isVariant then discriminatorSteps c.name ++ [.blank] else []) =
        if c.isVariant then discriminatorSteps c.name ++ [.blank] else [] := by
    cases c.isVariant <;> rfl
  have method : undescribedAll (if c.isVariant then .blank :: isTypeOfSteps else []) =
      if c.isVariant then .blank :: isTypeOfSteps else [] := by
    cases c.isVariant <;> rfl
  have accessors : c.undescribed.fields.flatMap (ObjectField.accessorSteps c.name) =
      undescribedAll (c.fields.flatMap (ObjectField.accessorSteps c.name)) := by
    simp only [ObjectCode.undescribed, List.flatMap_map, undescribedAll_flatMap,
      accessorSteps_undescribed]
  rw [ObjectCode.body, objectStruct_undescribed, readerSteps_undescribed, writerSteps_undescribed]
  simp only [ObjectCode.body, undescribedAll_append, undescribedAll, Step.undescribed, constant,
    method, ← accessors]
  rfl

end Object

theorem body_undescribed (c : ItemCode) : c.undescribed.body = undescribedAll c.body := by
  cases c with
  | entity c => exact entityBody_undescribed c
  | object c => exact objectBody_undescribed c
  | union c =>
    simp only [ItemCode.body, ItemCode.undescribed, UnionCode.body, UnionCode.enumSteps,
      UnionCode.methodSteps, UnionCode.dispatchSteps, undescribedAll_append, undescribedAll,
      Step.undescribed, undescribedAll_lines, undescribedAll_flatMap, UnionCode.conversionSteps]
    rfl
  | enumeration c =>
    simp only [ItemCode.body, ItemCode.undescribed, EnumerationCode.body, EnumerationCode.enumSteps,
      EnumerationCode.methodSteps, EnumerationCode.displaySteps, EnumerationCode.parserSteps,
      undescribedAll_append, undescribedAll, Step.undescribed, undescribedAll_lines]

end Bodies

/-- What is left of a file without its comments: its item, its place and the lines of its code. -/
def SourceFile.stripped (f : SourceFile) : String × String × List (List Char) :=
  (f.item, f.path, uncommented f.content)

/-- Two trees that differ in the comments of their files alone. -/
structure Tree.SameCode (s t : Tree) : Prop where
  files : s.sources.map SourceFile.stripped = t.sources.map SourceFile.stripped
  barrel : s.barrel = t.barrel
  rootModule : s.rootModule = t.rootModule
  resources : s.resources = t.resources

theorem Tree.SameCode.symm {s t : Tree} (same : s.SameCode t) : t.SameCode s :=
  ⟨same.files.symm, same.barrel.symm, same.rootModule.symm, same.resources.symm⟩

theorem Tree.SameCode.trans {s t u : Tree} (first : s.SameCode t) (second : t.SameCode u) :
    s.SameCode u :=
  ⟨first.files.trans second.files, first.barrel.trans second.barrel,
    first.rootModule.trans second.rootModule, first.resources.trans second.resources⟩

theorem emitted_body_ne_nil (c : ItemCode) : emitted c.body ≠ [] := by
  cases c <;>
    simp [ItemCode.body, EntityCode.body, EntityCode.structSteps, ObjectCode.body,
      ObjectCode.structSteps, UnionCode.body, UnionCode.enumSteps, EnumerationCode.body,
      EnumerationCode.enumSteps, emitted, emitAll, Step.emit]

theorem stripped_undescribed (f : ItemFile) :
    f.undescribed.source.stripped = f.source.stripped := by
  have item : f.undescribed.source.item = f.source.item := name_undescribed f.code
  have place : f.undescribed.source.path = f.source.path := by
    rw [SourceFile.path, module_undescribed, SourceFile.path]
  have lines : (emitted f.undescribed.code.body).flatMap uncommented =
      (emitted f.code.body).flatMap uncommented := by
    rw [emitted, ItemFile.undescribed, body_undescribed]
    exact (emitAll_undescribed 0 f.code.body).2
  have text : uncommented f.undescribed.source.content = uncommented f.source.content :=
    uncommented_renderText (List.cons_ne_nil _ _) (emitted_body_ne_nil _) (emitted_body_ne_nil _)
      lines
  rw [SourceFile.stripped, item, place, text, SourceFile.stripped]

theorem sameCode_undescribed (t : Tree) : t.undescribed.SameCode t := by
  have exported : t.undescribed.sources.flatMap SourceFile.exportLines =
      t.sources.flatMap SourceFile.exportLines := by
    simp only [Tree.sources, Tree.undescribed, List.map_map, List.flatMap_map, Function.comp_def,
      SourceFile.exportLines, module_undescribed]
  refine ⟨?_, ?_, rfl, rfl⟩
  · simp only [Tree.sources, Tree.undescribed, List.map_map, Function.comp_def,
      stripped_undescribed]
  · rw [Tree.barrel, exported, Tree.barrel]

/-- Two models that differ in descriptions alone are refused with one fault or give trees that
    differ in comment lines alone. -/
theorem generate_sameCode {m n : Model} (same : m.undescribed = n.undescribed) :
    (∃ f, generate m = .error f ∧ generate n = .error f) ∨
      ∃ s t, generate m = .ok s ∧ generate n = .ok t ∧ s.SameCode t := by
  have plain : (generate m).map Tree.undescribed = (generate n).map Tree.undescribed := by
    rw [← generate_undescribed, same, generate_undescribed]
  cases here : generate m with
  | error f =>
    cases there : generate n with
    | error g =>
      rw [here, there] at plain
      cases plain
      exact .inl ⟨f, rfl, rfl⟩
    | ok t =>
      rw [here, there] at plain
      contradiction
  | ok s =>
    cases there : generate n with
    | error g =>
      rw [here, there] at plain
      contradiction
    | ok t =>
      rw [here, there] at plain
      have plain : s.undescribed = t.undescribed := Except.ok.inj plain
      refine .inr ⟨s, t, rfl, rfl, (sameCode_undescribed s).symm.trans ?_⟩
      exact plain ▸ sameCode_undescribed t

def annotatedModel (entity object enumeration property element : Option String) : Model where
  items := { entries :=
    [("A", .entity ⟨entity, { entries :=
       [("id", idProperty), ("o", ⟨.object "O", true, property⟩)] }⟩),
     ("O", .object ⟨object, { entries :=
       [("ns", ⟨.list (.scalar "Int") false element, false, property⟩)] }⟩),
     ("E", .enumeration ⟨enumeration, { names := ["X"] }⟩)] }

def breakout : String := "a\n\x7d\r\n\n*/ pub struct B; /// \"\r"

def loudModel : Model := annotatedModel breakout "o" breakout breakout "n"

def quietModel : Model := annotatedModel none breakout none none none

theorem loudModel_sameCode :
    loudModel.undescribed = quietModel.undescribed ∧
      ∃ s t, generate loudModel = .ok s ∧ generate quietModel = .ok t ∧ s ≠ t ∧ s.SameCode t := by
  have same : loudModel.undescribed = quietModel.undescribed := rfl
  have succeeds : (generate loudModel).toOption.isSome = true := by decide +kernel
  have differs : (generate loudModel).toOption ≠ (generate quietModel).toOption := by
    decide +kernel
  refine ⟨same, ?_⟩
  rcases generate_sameCode same with ⟨f, failed, _⟩ | ⟨s, t, here, there, code⟩
  · rw [failed] at succeeds
    contradiction
  · refine ⟨s, t, here, there, fun equal => differs ?_, code⟩
    rw [here, there, equal]

end DataLayer.Code
