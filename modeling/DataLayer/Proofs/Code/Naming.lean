import DataLayer.Proofs.Identifiers
import DataLayer.Proofs.Code.Declarations
import DataLayer.Proofs.Code.Fields
import DataLayer.Proofs.Code.LinkClosure

/- When all names that generated code declares are identifiers. The members of an enumeration always
   are, because they have been looked at. The names of items and the keys of properties never have,
   so that it depends on them: on an item's own name, which is taken as it stands, and on its keys
   in snake case. -/
namespace DataLayer.Code
open Schema Outcome

def IsDocument : PropertyType → Prop
  | .object _ | .union _ => True
  | _ => False

/-- What the names of an item have to be for all names made from them to be identifiers. -/
def Nameable (A : Name.Alphabet) (name : String) : Item → Prop
  | .entity x => A.IsIdentifier name ∧ ∀ p ∈ x.properties.entries,
      A.IsNamed (Name.snakeCase p.1) ∧ (IsDocument p.2.type → A.IsWord (Name.snakeCase p.1).toList)
  | .object x => A.IsIdentifier name ∧ ∀ p ∈ x.properties.entries,
      A.IsWord (Name.snakeCase p.1).toList
  | .union u => A.IsIdentifier name ∧ A.IsWord name.toList ∧ ∀ v ∈ u.variants, A.IsIdentifier v
  | .enumeration _ => A.IsIdentifier name

def ItemFile.names (f : ItemFile) : List String :=
  f.source.module :: f.code.declarations.map NameLine.name

structure Declared (t : Tree) (f : ItemFile) : Prop where
  module : "mod " ++ f.source.module ++ ";" ∈ t.sources.flatMap SourceFile.exportLines
  lines : ∀ d ∈ f.code.declarations, ∃ level, indented level d.line ∈ f.source.body

variable {A : Name.Alphabet}

theorem documentOf_isSome {t : PropertyType} {nullable : Bool}
    {document : Option (WriteExpr × ReadExpr)} (run : documentOf t nullable = .ok document) :
    document.isSome = true ↔ IsDocument t := by
  cases t with
  | object name =>
    obtain ⟨write, _, run⟩ := bind_eq_ok.mp run
    obtain ⟨read, _, same⟩ := bind_eq_ok.mp run
    cases pure_eq_ok.mp same
    simp [IsDocument]
  | union name =>
    obtain ⟨write, _, run⟩ := bind_eq_ok.mp run
    obtain ⟨read, _, same⟩ := bind_eq_ok.mp run
    cases pure_eq_ok.mp same
    simp [IsDocument]
  | scalar _ | enumeration _ | reference _ | inverse _ _ | list _ _ _ =>
    cases run
    simp [IsDocument]

theorem entityFieldOf_names {owner key : String} {isVariant : Bool} {p : Property}
    {binding : Binding} {f : EntityField}
    (run : entityFieldOf owner isVariant key p binding = .ok f) :
    f.key = key ∧ f.ident = Name.fieldIdent key ∧
      (f.document.isSome = true ↔ IsDocument p.type) := by
  obtain ⟨type, _, run⟩ := bind_eq_ok.mp run
  obtain ⟨document, made, run⟩ := bind_eq_ok.mp run
  have stored := documentOf_isSome made
  cases isVariant with
  | true =>
    rw [if_pos rfl] at run
    obtain ⟨part, _, same⟩ := bind_eq_ok.mp run
    cases pure_eq_ok.mp same
    exact ⟨rfl, rfl, stored⟩
  | false =>
    cases pure_eq_ok.mp run
    exact ⟨rfl, rfl, stored⟩

theorem EntityFieldFor.names {m : Model} {owner : String} {isVariant : Bool}
    {p : String × Property} {f : EntityField} (made : EntityFieldFor m owner isVariant p f) :
    (∀ d ∈ f.declaration :: f.columnDeclarations, A.IsIdentifier d.name) ↔
      A.IsNamed (Name.snakeCase p.1) ∧
        (IsDocument p.2.type → A.IsWord (Name.snakeCase p.1).toList) := by
  obtain ⟨binding, _, run⟩ := made
  obtain ⟨key, ident, stored⟩ := entityFieldOf_names run
  rw [List.forall_mem_cons, EntityField.declaration, ident, Name.fieldIdent,
    Name.Alphabet.isIdentifier_escape]
  refine and_congr_right fun named => ?_
  unfold EntityField.columnDeclarations
  rw [key]
  split
  · rename_i document
    have writer : A.IsIdentifier (Name.snakeCase p.1 ++ "_to_column") ↔
        A.IsWord (Name.snakeCase p.1).toList :=
      Name.Alphabet.isIdentifier_append named (by decide) (by decide)
    have reader : A.IsIdentifier (Name.snakeCase p.1 ++ "_from_column") ↔
        A.IsWord (Name.snakeCase p.1).toList :=
      Name.Alphabet.isIdentifier_append named (by decide) (by decide)
    simp [writer, reader, stored.mp document]
  · rename_i none
    have plain : ¬ IsDocument p.2.type := fun document => none (stored.mpr document)
    simp [plain]

theorem objectFieldOf_names {owner : String} {p : String × Property} {f : ObjectField}
    (run : objectFieldOf owner p.1 p.2 = .ok f) :
    (∀ d ∈ f.declaration :: f.accessorDeclarations, A.IsIdentifier d.name) ↔
      A.IsWord (Name.snakeCase p.1).toList := by
  obtain ⟨type, _, run⟩ := bind_eq_ok.mp run
  obtain ⟨read, _, run⟩ := bind_eq_ok.mp run
  obtain ⟨write, _, same⟩ := bind_eq_ok.mp run
  cases pure_eq_ok.mp same
  rw [← Name.Alphabet.isIdentifier_accessors]
  unfold ObjectField.declaration ObjectField.accessorDeclarations
  split <;> simp

theorem memberOf_isIdentifier {owner value : String} {member : Member}
    (run : memberOf owner value = .ok member) : A.IsIdentifier member.ident := by
  unfold memberOf at run
  split at run
  · rename_i valid
    cases run
    exact Name.Alphabet.isIdentifier_escape.mpr
      (.inl (Name.Alphabet.isWord_of_isAsciiIdent valid.1))
  · contradiction

theorem enumerationCodeOf_names {name : String} {x : Enumeration} {c : EnumerationCode}
    (run : enumerationCodeOf name x = .ok c) :
    c.name = name ∧ ∀ member ∈ c.members, A.IsIdentifier member.ident := by
  obtain ⟨members, made, same⟩ := bind_eq_ok.mp run
  cases pure_eq_ok.mp same
  refine ⟨rfl, fun member mem => ?_⟩
  obtain ⟨value, _, given⟩ := exists_left_of_mem (mapM_eq_ok.mp made) mem
  exact memberOf_isIdentifier given

theorem itemCodeOf_names {m : Model} {variants : List String} {name : String} {item : Item}
    {code : ItemCode} (run : itemCodeOf m variants name item = .ok code) :
    (∀ d ∈ code.declarations, A.IsIdentifier d.name) ↔ Nameable A name item := by
  cases item with
  | entity x =>
    obtain ⟨c, made, same⟩ := bind_eq_ok.mp run
    cases pure_eq_ok.mp same
    obtain ⟨named, _, fields⟩ := entityCodeOf_eq_ok made
    have each := forall_mem_iff_of_forall₂ fields fun _ _ => EntityFieldFor.names (A := A)
    rw [ItemCode.declarations, EntityCode.declarations, List.forall_mem_cons, named,
      List.forall_mem_flatMap, each, Nameable]
  | object x =>
    obtain ⟨c, made, same⟩ := bind_eq_ok.mp run
    cases pure_eq_ok.mp same
    obtain ⟨named, _, fields⟩ := objectCodeOf_eq_ok made
    have each := forall_mem_iff_of_forall₂ fields fun _ _ => objectFieldOf_names (A := A)
    rw [ItemCode.declarations, ObjectCode.declarations, List.forall_mem_cons, named,
      List.forall_mem_flatMap, each, Nameable]
  | union u =>
    obtain ⟨c, made, same⟩ := bind_eq_ok.mp run
    cases pure_eq_ok.mp same
    obtain ⟨_, _, same⟩ := bind_eq_ok.mp made
    cases pure_eq_ok.mp same
    rw [ItemCode.declarations, UnionCode.declarations, List.forall_mem_cons, List.forall_mem_cons,
      List.forall_mem_map, Nameable]
    refine and_congr_right fun identifier => ?_
    rw [Name.Alphabet.isIdentifier_dispatchIdent identifier]
  | enumeration e =>
    obtain ⟨c, made, same⟩ := bind_eq_ok.mp run
    cases pure_eq_ok.mp same
    obtain ⟨named, members⟩ := enumerationCodeOf_names (A := A) made
    rw [ItemCode.declarations, EnumerationCode.declarations, List.forall_mem_cons,
      List.forall_mem_map, Nameable, named]
    exact and_iff_left members

theorem members_of_itemCodeOf {m : Model} {variants : List String} {name : String} {item : Item}
    {c : EnumerationCode} (run : itemCodeOf m variants name item = .ok (.enumeration c)) :
    ∀ member ∈ c.members, A.IsIdentifier member.ident := by
  cases item with
  | enumeration e =>
    obtain ⟨_, made, same⟩ := bind_eq_ok.mp run
    cases pure_eq_ok.mp same
    exact (enumerationCodeOf_names made).2
  | entity _ | object _ | union _ =>
    obtain ⟨_, _, same⟩ := bind_eq_ok.mp run
    cases pure_eq_ok.mp same

theorem Nameable.identifier {name : String} {item : Item} (nameable : Nameable A name item) :
    A.IsIdentifier name := by
  cases item with
  | entity _ => exact nameable.1
  | object _ => exact nameable.1
  | union _ => exact nameable.1
  | enumeration _ => exact nameable

theorem itemFileOf_names {m : Model} {variants : List String} {name : String} {item : Item}
    {f : ItemFile} (run : itemFileOf m variants name item = .ok f) :
    (∀ n ∈ f.names, A.IsIdentifier n) ↔ Nameable A name item := by
  have named : f.source.item = name := (itemFileOf_eq_ok run).1.name_eq
  rw [ItemFile.names, List.forall_mem_cons, List.forall_mem_map,
    itemCodeOf_names (itemCodeOf_of_itemFileOf run)]
  refine and_iff_right_of_imp fun nameable => ?_
  rw [SourceFile.module, named]
  exact Name.Alphabet.isIdentifier_moduleName nameable.identifier

theorem declared_of_mem {t : Tree} {f : ItemFile} (mem : f ∈ t.files) : Declared t f where
  module := List.mem_flatMap.mpr ⟨f.source, List.mem_map_of_mem mem, List.mem_cons_self⟩
  lines _ listed := ItemCode.says_declarations listed 0

/-- The names that a generated tree declares are identifiers exactly if the names in the document
    make such, whatever letters there are. Those of the members of enumerations always are. -/
theorem generateText_named {text : String} {tree : Tree} (run : generateText text = .ok tree) :
    ∃ m, Model.ofText text = .ok m ∧ (∀ f ∈ tree.files, Declared tree f) ∧
      ∀ A : Name.Alphabet,
        ((∀ f ∈ tree.files, ∀ n ∈ f.names, A.IsIdentifier n) ↔
          ∀ e ∈ m.items.entries, Nameable A e.1 e.2) ∧
        ∀ f ∈ tree.files, ∀ c, f.code = .enumeration c →
          ∀ member ∈ c.members, A.IsIdentifier member.ident := by
  obtain ⟨m, loaded, run⟩ := generateText_eq_ok run
  refine ⟨m, loaded, fun f mem => declared_of_mem mem, fun A => ⟨?_, ?_⟩⟩
  · exact forall_mem_iff_of_forall₂ (forall₂_of_generate run) fun _ _ => itemFileOf_names
  · intro f mem c coded
    obtain ⟨item, _, made⟩ := exists_entry run mem
    have composed := itemCodeOf_of_itemFileOf made
    rw [coded] at composed
    exact members_of_itemCodeOf composed

def keywordNamesText : String :=
  "<schema><entity name=\"A\"><property name=\"type\" type=\"B\"/></entity>" ++
  "<object name=\"B\"><property name=\"a-b\" type=\"Int\"/></object>" ++
  "<union name=\"U\"><variant name=\"B\"/></union>" ++
  "<enum name=\"Mod\"><value name=\"self\"/></enum></schema>"

def keywordNamesModel : Model where
  items := { entries :=
    [("A", .entity ⟨none, { entries :=
       [("id", idProperty), ("type", ⟨.object "B", true, none⟩)] }⟩),
     ("B", .object ⟨none, { entries := [("a-b", ⟨.scalar "Int", true, none⟩)] }⟩),
     ("U", .union ⟨none, ["B"]⟩),
     ("Mod", .enumeration ⟨none, { names := ["self"] }⟩)] }

theorem keywordNamesText_named :
    ∃ tree, generateText keywordNamesText = .ok tree ∧
      ∀ A : Name.Alphabet, ∀ f ∈ tree.files, ∀ n ∈ f.names, A.IsIdentifier n := by
  have loaded : Model.ofText keywordNamesText = .ok keywordNamesModel :=
    eq_ok_of_toOption (by decide +kernel)
  have generates : (generate keywordNamesModel).toOption.isSome = true := by decide +kernel
  obtain ⟨tree, given⟩ := Option.isSome_iff_exists.mp generates
  have run : generateText keywordNamesText = .ok tree :=
    generateText_of_ofText loaded (eq_ok_of_toOption (by decide +kernel)) (eq_ok_of_toOption given)
  obtain ⟨m, same, _, exact⟩ := generateText_named run
  rw [loaded] at same
  cases same
  refine ⟨tree, run, fun A => (exact A).1.mpr ?_⟩
  have named : ∀ name ∈ ["A", "B", "U", "Mod"], A.IsIdentifier name := by
    have plain : ∀ name ∈ ["A", "B", "U", "Mod"],
        Name.isAsciiIdent name = true ∧ name ≠ "_" ∧ name ∉ Name.codeWords := by decide +kernel
    intro name mem
    obtain ⟨ident, more, free⟩ := plain name mem
    exact Name.Alphabet.isIdentifier_of_isAsciiIdent ident more free
  have words : ∀ key ∈ ["id", "type", "a-b"], A.IsWord (Name.snakeCase key).toList := by
    have plain : ∀ key ∈ ["id", "type", "a-b"],
        Name.isAsciiIdent (Name.snakeCase key) = true := by decide +kernel
    exact fun key mem => Name.Alphabet.isWord_of_isAsciiIdent (plain key mem)
  have union : A.IsWord "U".toList := Name.Alphabet.isWord_of_isAsciiIdent (by decide)
  simp only [keywordNamesModel, List.forall_mem_cons, Nameable, List.not_mem_nil, false_implies,
    implies_true, and_true]
  have id := words "id" (by simp)
  have type := words "type" (by simp)
  refine ⟨⟨named _ (by simp), ⟨.inl id, fun _ => id⟩, .inl type, fun _ => type⟩,
    ⟨named _ (by simp), words _ (by simp)⟩, ⟨named _ (by simp), union, named _ (by simp)⟩,
    named _ (by simp)⟩

def namelessText : String :=
  "<schema><entity name=\"1A\"/><entity name=\"type\"/>" ++
  "<object name=\"A\"><property name=\"b.c\" type=\"Int\"/></object></schema>"

theorem nameless_items_generated : ∃ tree, generateText namelessText = .ok tree ∧
    ∀ name ∈ ["1A", "type", "b.c", "set_b.c"],
      (∃ f ∈ tree.files, name ∈ f.names) ∧ ∀ A : Name.Alphabet, ¬ A.IsIdentifier name := by
  have generates : ((generateText namelessText).toOption.any fun tree =>
      ["1A", "type", "b.c", "set_b.c"].all fun name =>
        tree.files.any fun f => decide (name ∈ f.names)) = true := by decide +kernel
  have bad : ∀ name ∈ ["1A", "type", "b.c", "set_b.c"], name.toList.all (·.toNat < 0x80) = true ∧
      '#' ∉ name.toList ∧ (Name.isAsciiIdent name = false ∨ name ∈ Name.codeWords) := by
    decide +kernel
  obtain ⟨tree, given, shown⟩ := (Option.any_eq_true _ _).mp generates
  refine ⟨tree, eq_ok_of_toOption given, fun name mem => ⟨?_, fun A => ?_⟩⟩
  · obtain ⟨f, there, held⟩ := List.any_eq_true.mp (List.all_eq_true.mp shown name mem)
    exact ⟨f, there, of_decide_eq_true held⟩
  · obtain ⟨ascii, unmarked, bad⟩ := bad name mem
    exact Name.Alphabet.not_isIdentifier_of_ascii ascii unmarked bad

end DataLayer.Code
