import DataLayer.Proofs.Code.Definitions
import DataLayer.Proofs.Code.Generation

/- The closure of a generated tree under its own `use` lines. A support module that a file imports
   from is copied into the tree and declared by the root; an item that a file imports has a file
   under the module that the line names; and what a union calls is defined in the files of its
   variants. -/
namespace DataLayer.Code
open Schema Support Outcome

theorem renderText_of_mem {header body : List String} {line : String} (mem : line ∈ body) :
    ∃ before after, renderText header body = before ++ (line ++ "\n") ++ after := by
  obtain ⟨earlier, later, rfl⟩ := List.append_of_mem mem
  have one : unlines (line :: later) = line ++ "\n" ++ unlines later := by
    rw [unlines, List.map_cons, String.join_cons]
    rfl
  rw [renderText, unlines_append, one]
  refine ⟨unlines header ++ (if header.isEmpty || (earlier ++ line :: later).isEmpty then ""
    else "\n") ++ unlines earlier, unlines later, ?_⟩
  simp only [String.append_assoc]

def SupportLinked (t : Tree) (module line : String) : Prop :=
  (line = "use super::super::" ++ module ++ ";" ∨
    ∃ names, line = "use super::super::" ++ module ++ "::" ++ names ++ ";") ∧
  (∃ r ∈ t.resources, r.module = module) ∧
  ∃ before after, t.rootModule = before ++ ("pub mod " ++ module ++ ";" ++ "\n") ++ after

def Supplies (t : Tree) (module : String) (lines : List String) : Prop :=
  ∃ r ∈ t.resources, r.module = module ∧ lines <:+: r.lines

/-- The line imports an item from its file, the only one under the module that the line names. A
    union comes with its function, which that file defines, and any other item comes alone. -/
def ItemLinked (m : Model) (t : Tree) (name line : String) : Prop :=
  ∃ g ∈ t.files, g.source.item = name ∧
    (∀ h ∈ t.files, h.source.module = g.source.module → h = g) ∧
    ((m.kind? name = some .union ∧
        line = "use super::" ++ g.source.module ++ "::\x7b" ++ name ++ ", " ++
          Name.dispatchIdent name ++ "\x7d;" ∧
        dispatchLine name ∈ g.source.body) ∨
      ((∃ kind, m.kind? name = some kind ∧ kind ≠ .union) ∧
        line = "use super::" ++ g.source.module ++ "::" ++ name ++ ";"))

def VariantDefined (t : Tree) (variant : String) : Prop :=
  ∃ g ∈ t.files, g.source.item = variant ∧ (∀ h ∈ t.files, h.source.item = variant → h = g) ∧
    HasBlock g.source.body ("impl " ++ variant) (variantDefinitions variant)

/-- Every line of every file imports from a support module or imports an item, and finds it. -/
structure LinkClosed (m : Model) (t : Tree) : Prop where
  supports : ∀ f ∈ t.files, ∀ line ∈ f.imported, ∀ module, line.support? = some module →
    SupportLinked t module line.render
  items : ∀ f ∈ t.files, ∀ line ∈ f.imported, line.support? = none →
    ∃ name, (line = .item name ∨ line = .union name) ∧ ItemLinked m t name line.render
  variants : ∀ name u, m.get? name = some (.union u) → ∀ variant ∈ u.variants,
    VariantDefined t variant

theorem render_columns (symbols : String) :
    "use super::super::orm::\x7b" ++ symbols ++ "\x7d;" =
      "use super::super::" ++ "orm" ++ "::" ++ ("\x7b" ++ symbols ++ "\x7d") ++ ";" := by
  simp [← String.toList_inj]

theorem support?_render {line : ImportLine} {module : String}
    (support : line.support? = some module) :
    line.render = "use super::super::" ++ module ++ ";" ∨
      ∃ names, line.render = "use super::super::" ++ module ++ "::" ++ names ++ ";" := by
  cases line with
  | assertion =>
    cases support
    exact .inr ⟨"assert_initialized", rfl⟩
  | columns symbols =>
    cases support
    exact .inr ⟨_, render_columns (", ".intercalate (symbols.map ColumnSymbol.name))⟩
  | marshal =>
    cases support
    exact .inl rfl
  | item name => contradiction
  | union name => contradiction

theorem dispatchLine_mem {m : Model} {isVariant : Bool} {name : String} {item : Item}
    {code : ItemCode} (composed : ComposedFrom m isVariant name item code)
    (isUnion : item.kind = .union) : dispatchLine name ∈ emitted code.body := by
  match item, code, composed with
  | .union u, .union c, ⟨same, _⟩ =>
    subst same
    exact c.mem_body
  | .entity _, .entity _, _ => contradiction
  | .object _, .object _, _ => contradiction
  | .enumeration _, .enumeration _, _ => contradiction

theorem hasBlock_of_variant {m : Model} {name : String} {item : Item} {code : ItemCode}
    (composed : ComposedFrom m true name item code)
    (shaped : item.kind = .entity ∨ item.kind = .object) :
    HasBlock (emitted code.body) ("impl " ++ name) (variantDefinitions name) := by
  match item, code, composed with
  | .entity x, .entity c, ⟨same, isVariant, _⟩ =>
    subst same
    exact EntityCode.hasBlock_body isVariant
  | .object x, .object c, ⟨same, isVariant, _⟩ =>
    subst same
    exact ObjectCode.hasBlock_body isVariant
  | .union _, .union _, _ => simp [Item.kind] at shaped
  | .enumeration _, .enumeration _, _ => simp [Item.kind] at shaped

theorem helper_of_entityFieldUses {isVariant : Bool} {p : Property} {u : Use}
    (used : u ∈ entityFieldUses isVariant p) (helper : ∀ name, u ≠ .item name) :
    isVariant = true ∨ ∃ name, p.type = .object name ∨ p.type = .union name := by
  cases isVariant with
  | true => exact .inl rfl
  | false =>
    unfold entityFieldUses at used
    cases type : p.type <;> simp_all

theorem record_of_resolves {m : Model} {t : PropertyType} {name : String}
    (resolves : m.Resolves t) (type : t = .object name ∨ t = .union name) :
    ∃ item, m.get? name = some item ∧ (item.kind = .object ∨ item.kind = .union) := by
  rcases type with rfl | rfl
  · obtain ⟨item, found, kind⟩ := Model.kind?_eq_some.mp resolves
    exact ⟨item, found, .inl kind⟩
  · obtain ⟨item, found, kind⟩ := Model.kind?_eq_some.mp resolves
    exact ⟨item, found, .inr kind⟩

/-- Whatever uses a helper for records, some item of the model is a value object or a union. -/
theorem exists_record_item {text : String} {m : Model} (loaded : Model.ofText text = .ok m)
    {name : String} {item : Item} {code : ItemCode} (mem : (name, item) ∈ m.items.entries)
    (composed : ComposedFrom m (m.variantNames.contains name) name item code)
    (used : .assertion ∈ code.uses ∨ .marshal ∈ code.uses) :
    ∃ other found, m.get? other = some found ∧ (found.kind = .object ∨ found.kind = .union) := by
  match item, code, composed with
  | .object x, .object c, _ => exact ⟨name, .object x, Table.get?_eq_some_iff.mpr mem, .inl rfl⟩
  | .union u, .union c, _ => exact ⟨name, .union u, Table.get?_eq_some_iff.mpr mem, .inr rfl⟩
  | .enumeration x, .enumeration c, _ => simp [ItemCode.uses] at used
  | .entity x, .entity c, ⟨_, _, uses⟩ =>
    have field : ∃ u, (∀ name, u ≠ Use.item name) ∧ ∃ p ∈ x.properties.entries,
        u ∈ entityFieldUses (m.variantNames.contains name) p.2 := by
      simp only [ItemCode.uses, uses, List.mem_append, List.mem_flatMap] at used
      rcases used with (column | field) | (column | field)
      · simp at column
      · exact ⟨.assertion, by simp, field⟩
      · simp at column
      · exact ⟨.marshal, by simp, field⟩
    obtain ⟨u, helper, p, isProperty, used⟩ := field
    rcases helper_of_entityFieldUses used helper with isVariant | ⟨other, type⟩
    · obtain ⟨other, u, found, _⟩ := variantNames_contains_iff.mp isVariant
      exact ⟨other, .union u, found, .inr rfl⟩
    · rcases entity_resolves loaded mem p isProperty with resolves | isId
      · exact ⟨other, record_of_resolves resolves type⟩
      · simp [isId, idProperty] at type

theorem declared_by_root {t : Tree} {r : Resource} (mem : r ∈ t.resources) :
    ∃ before after, t.rootModule = before ++ ("pub mod " ++ r.module ++ ";" ++ "\n") ++ after := by
  have listed : r.module ∈ t.rootModules := by
    rw [Tree.rootModules, List.mem_mergeSort]
    exact List.mem_append_left _ (List.mem_map_of_mem mem)
  exact renderText_of_mem (List.mem_map.mpr ⟨r.module, listed, rfl⟩)

section Closure
variable {m : Model} {tree : Tree} (run : generate m = .ok tree)
include run

theorem marshal_mem_resources {name : String} {item : Item} (found : m.get? name = some item)
    (record : item.kind = .object ∨ item.kind = .union) : Resource.marshal ∈ tree.resources := by
  obtain ⟨f, there, _, made⟩ := exists_file run found
  have reads := (itemFileOf_eq_ok made).1.readsRecords_iff.mpr record
  have some : tree.files.any (·.code.readsRecords) = true := List.any_eq_true.mpr ⟨f, there, reads⟩
  rw [resources_of_generate run, supportOf, some]
  simp

theorem supplies_of_union {name : String} {u : Union} (found : m.get? name = some (.union u))
    {lines : List String} (held : lines <:+: marshalLines) : Supplies tree "marshal" lines :=
  ⟨.marshal, marshal_mem_resources run found (.inr rfl), rfl, held⟩

theorem supportLinked {text : String} (loaded : Model.ofText text = .ok m) {f : ItemFile}
    (mem : f ∈ tree.files) {line : ImportLine} (imported : line ∈ f.imported) {module : String}
    (support : line.support? = some module) : SupportLinked tree module line.render := by
  have inTree : ∃ r ∈ tree.resources, r.module = module := by
    obtain ⟨item, there, made⟩ := exists_entry run mem
    obtain ⟨composed, lines⟩ := itemFileOf_eq_ok made
    rcases Imports.mem_of_lines lines imported with helper | ⟨name, _, item⟩
    · rcases Imports.support_of_mem helper with column | ⟨marshal, used⟩
      · cases support.symm.trans column
        refine ⟨.orm, ?_, rfl⟩
        rw [resources_of_generate run, supportOf]
        simp
      · cases support.symm.trans marshal
        have used := used.imp (fun h => (Imports.has_ofUses.mp h).1)
          (fun h => (Imports.has_ofUses.mp h).1)
        obtain ⟨_, _, found, record⟩ := exists_record_item loaded there composed used
        exact ⟨.marshal, marshal_mem_resources run found record, rfl⟩
    · rcases itemLine_eq_ok.mp item with ⟨_, rfl⟩ | ⟨_, rfl⟩
      · contradiction
      · contradiction
  refine ⟨support?_render support, inTree, ?_⟩
  obtain ⟨r, copied, rfl⟩ := inTree
  exact declared_by_root copied

theorem itemLinked_of_itemLine {name : String} {line : ImportLine}
    (found : itemLine m name = .ok line) :
    (line = .item name ∨ line = .union name) ∧ ItemLinked m tree name line.render := by
  have known : name ∈ m.names := by
    rcases itemLine_eq_ok.mp found with ⟨kind, _⟩ | ⟨⟨_, kind, _⟩, _⟩
    · exact Model.mem_names_of_kind? kind
    · exact Model.mem_names_of_kind? kind
  obtain ⟨item, there⟩ := Model.mem_names_iff.mp known
  obtain ⟨g, inTree, rfl, made⟩ := exists_file run there
  have composed := (itemFileOf_eq_ok made).1
  have alone : ∀ h ∈ tree.files, h.source.module = g.source.module → h = g :=
    fun h other same => file_eq_of_module run other inTree same
  rcases itemLine_eq_ok.mp found with ⟨kind, rfl⟩ | ⟨kind, rfl⟩
  · have isUnion : item.kind = .union := by simpa [Model.kind?, there] using kind
    have defined := dispatchLine_mem composed isUnion
    exact ⟨.inr rfl, g, inTree, rfl, alone, .inl ⟨kind, rfl, defined⟩⟩
  · exact ⟨.inl rfl, g, inTree, rfl, alone, .inr ⟨kind, rfl⟩⟩

theorem itemLinked {f : ItemFile} (mem : f ∈ tree.files) {line : ImportLine}
    (imported : line ∈ f.imported) (support : line.support? = none) :
    ∃ name, (line = .item name ∨ line = .union name) ∧ ItemLinked m tree name line.render := by
  obtain ⟨item, there, made⟩ := exists_entry run mem
  rcases Imports.mem_of_lines (itemFileOf_eq_ok made).2 imported with helper | ⟨name, _, found⟩
  · rcases Imports.support_of_mem helper with column | ⟨marshal, _⟩
    · rw [support] at column
      contradiction
    · rw [support] at marshal
      contradiction
  · exact ⟨name, itemLinked_of_itemLine run found⟩

theorem variantDefined {name : String} {u : Union} (found : m.get? name = some (.union u))
    {variant : String} (listed : variant ∈ u.variants) : VariantDefined tree variant := by
  obtain ⟨_, _, _, union⟩ := exists_file run found
  have shaped := (itemFileOf_eq_ok union).1.shaped variant listed
  obtain ⟨item, there, kind⟩ := hasShape_iff.mp shaped
  obtain ⟨g, inTree, rfl, made⟩ := exists_file run there
  refine ⟨g, inTree, rfl, fun h other same => file_eq_of_item run other inTree same, ?_⟩
  have composed := (itemFileOf_eq_ok made).1
  rw [variantNames_contains_iff.mpr ⟨name, u, found, listed⟩] at composed
  exact hasBlock_of_variant composed kind

end Closure

theorem generateText_of_ofText {text : String} {m : Model} {tree : Tree}
    (loaded : Model.ofText text = .ok m) (valid : m.validate = .ok ())
    (run : generate m = .ok tree) : generateText text = .ok tree := by
  unfold generateText
  rw [loaded]
  exact bind_ok rfl (bind_ok (ofModel_eq_ok.mpr valid) run)

theorem generateText_eq_ok_iff {text : String} {tree : Tree} :
    generateText text = .ok tree ↔
      ∃ m, (Model.ofText text = .ok m ∧ m.validate = .ok ()) ∧ generate m = .ok tree := by
  constructor
  · intro run
    unfold generateText at run
    cases loaded : Model.ofText text with
    | error f =>
      rw [loaded] at run
      contradiction
    | ok m =>
      rw [loaded] at run
      obtain ⟨_, same, run⟩ := bind_eq_ok.mp run
      cases same
      obtain ⟨_, valid, run⟩ := bind_eq_ok.mp run
      exact ⟨m, ⟨rfl, ofModel_eq_ok.mp valid⟩, run⟩
  · rintro ⟨m, ⟨loaded, valid⟩, run⟩
    exact generateText_of_ofText loaded valid run

theorem generateText_eq_ok {text : String} {tree : Tree} (run : generateText text = .ok tree) :
    ∃ m, Model.ofText text = .ok m ∧ generate m = .ok tree := by
  obtain ⟨m, ⟨loaded, _⟩, generated⟩ := generateText_eq_ok_iff.mp run
  exact ⟨m, loaded, generated⟩

/-- All that the files of a generated tree import is in the tree, and whatever a union calls on its
    variants is defined in their files. -/
theorem generateText_linkClosed {text : String} {tree : Tree}
    (run : generateText text = .ok tree) :
    ∃ m, Model.ofText text = .ok m ∧ LinkClosed m tree := by
  obtain ⟨m, loaded, run⟩ := generateText_eq_ok run
  refine ⟨m, loaded, ?_, ?_, ?_⟩
  · intro f mem line imported module support
    exact supportLinked run loaded mem imported support
  · intro f mem line imported support
    exact itemLinked run mem imported support
  · intro name u found variant listed
    exact variantDefined run found listed

def variantText : String :=
  "<schema><entity name=\"A\"><property name=\"b\" type=\"Int\"/></entity>" ++
  "<union name=\"U\"><variant name=\"A\"/></union></schema>"

theorem variantText_linkClosed :
    ∃ tree, generateText variantText = .ok tree ∧
      ∃ m, Model.ofText variantText = .ok m ∧ LinkClosed m tree := by
  have generates : (generateText variantText).toOption.isSome = true := by decide +kernel
  obtain ⟨tree, some⟩ := Option.isSome_iff_exists.mp generates
  have run := eq_ok_of_toOption some
  exact ⟨tree, run, generateText_linkClosed run⟩

end DataLayer.Code
