import DataLayer.Proofs.Schema.Loading
import DataLayer.Proofs.Schema.Spelling
import DataLayer.Proofs.Xml.Attributes

/- Declarations written as a document. An item is an element with its name, and its properties,
   variants or values are elements inside. Types stand in any of their spellings, attributes in any
   order, and white space stands between tags as it likes. Whichever way they are written, the
   declarations that are read are those that were written. -/
namespace DataLayer.Schema
open Xml Outcome

def optional (key : String) (value : Option String) : List (String × String) :=
  (value.map fun text => (key, text)).toList

def PropertyDeclaration.attributes (d : PropertyDeclaration) (type : String) :
    List (String × String) :=
  ("name", d.name) :: ("type", type) ::
    (optional "derivedFrom" d.derivedFrom ++ optional "description" d.description)

def WrittenProperty (d : PropertyDeclaration) (s : List Char) : Prop :=
  ∃ type : String, d.type.Spells type.toList ∧ Tagged "property" (d.attributes type) Gap s

def WrittenName (element name : String) : List Char → Prop := Tagged element [("name", name)] Gap

namespace Declaration

def description : Declaration → Option String
  | .entity description _ | .object description _ => description
  | .union u => u.description
  | .enumeration e => e.description

def properties : Declaration → List PropertyDeclaration
  | .entity _ properties | .object _ properties => properties
  | .union _ | .enumeration _ => []

def names : Declaration → List String
  | .entity _ properties | .object _ properties => properties.map PropertyDeclaration.name
  | .union u => u.variants
  | .enumeration e => e.values.names

def WrittenInside : Declaration → List Char → Prop
  | .entity _ properties | .object _ properties => InOrder WrittenProperty properties
  | .union u => InOrder (WrittenName "variant") u.variants
  | .enumeration e => InOrder (WrittenName "value") e.values.names

end Declaration

def itemAttributes (e : String × Declaration) : List (String × String) :=
  ("name", e.1) :: optional "description" e.2.description

def WrittenItem (e : String × Declaration) : List Char → Prop :=
  Tagged e.2.kind.word (itemAttributes e) e.2.WrittenInside

/-- A document with one schema element that holds the items in their order. -/
def Writes (items : List (String × Declaration)) (text : String) : Prop :=
  InOrder (fun items => Tagged "schema" [] (InOrder WrittenItem items)) [items] text.toList

def writtenProperty (d : PropertyDeclaration) : List Char :=
  wholeTag "property" (d.attributes d.type.spelling)

def writtenNames (element : String) (names : List String) : List Char :=
  names.flatMap fun name => wholeTag element [("name", name)]

def Declaration.writtenInside : Declaration → List Char
  | .entity _ properties | .object _ properties => properties.flatMap writtenProperty
  | .union u => writtenNames "variant" u.variants
  | .enumeration e => writtenNames "value" e.values.names

def writtenItem (e : String × Declaration) : List Char :=
  openingTag e.2.kind.word (itemAttributes e) ++ (e.2.writtenInside ++ closingTag e.2.kind.word)

def document (items : List (String × Declaration)) : String :=
  String.ofList (openingTag "schema" [] ++ (items.flatMap writtenItem ++ closingTag "schema"))

def Names (names : List String) : Prop := names.Nodup ∧ ∀ name ∈ names, name ≠ ""

instance (names : List String) : Decidable (Names names) := inferInstanceAs (Decidable (_ ∧ _))

def IsDeclared (items : List (String × Declaration)) (name : String) (kind : ItemKind) : Prop :=
  ∃ d, (name, d) ∈ items ∧ d.kind = kind

/-- Items that a document may declare. -/
structure WellFormed (items : List (String × Declaration)) : Prop where
  names : Names (items.map Prod.fst)
  inside : ∀ e ∈ items, Names e.2.names
  types : ∀ e ∈ items, ∀ d ∈ e.2.properties, d.type.Valid
  derived : ∀ e ∈ items, ∀ d ∈ e.2.properties, d.derivedFrom ≠ none →
    ∃ entity item nullable, d.type = .list (.named entity item) nullable ∧
      IsDeclared items entity .entity

theorem writtenProperty_written {d : PropertyDeclaration} (valid : d.type.Valid) :
    WrittenProperty d (writtenProperty d) :=
  ⟨d.type.spelling, TypeExpr.spells_spelling valid, .whole (.refl _) gap_nil⟩

theorem writtenNames_written (element : String) (names : List String) :
    InOrder (WrittenName element) names (writtenNames element names) :=
  inOrder_flatMap fun _ _ => .whole (.refl _) gap_nil

theorem writtenItem_written {e : String × Declaration}
    (valid : ∀ d ∈ e.2.properties, d.type.Valid) : WrittenItem e (writtenItem e) := by
  refine .around (.refl _) ?_
  obtain ⟨name, declared⟩ := e
  cases declared with
  | entity description properties =>
    exact inOrder_flatMap fun d mem => writtenProperty_written (valid d mem)
  | object description properties =>
    exact inOrder_flatMap fun d mem => writtenProperty_written (valid d mem)
  | union u => exact writtenNames_written "variant" u.variants
  | enumeration e => exact writtenNames_written "value" e.values.names

theorem writes_document {items : List (String × Declaration)}
    (valid : ∀ e ∈ items, ∀ d ∈ e.2.properties, d.type.Valid) : Writes items (document items) := by
  have inside : InOrder WrittenItem items (items.flatMap writtenItem) :=
    inOrder_flatMap fun e mem => writtenItem_written (valid e mem)
  have whole : InOrder (fun items => Tagged "schema" [] (InOrder WrittenItem items)) [items]
      ([] ++ ((openingTag "schema" [] ++ (items.flatMap writtenItem ++ closingTag "schema")) ++
        [])) :=
    .cons gap_nil (.around (.refl _) inside) (.nil gap_nil)
  rw [Writes, document, String.toList_ofList]
  simpa using whole

def Keyed (attributes : List (String × String)) : Prop :=
  (∀ a ∈ attributes, PlainName a.1) ∧ (attributes.map Prod.fst).Nodup

theorem Keyed.of_perm {given attributes : List (String × String)} (order : given.Perm attributes)
    (keyed : Keyed attributes) : Keyed given :=
  ⟨fun a mem => keyed.1 a (order.mem_iff.mp mem), (order.map Prod.fst).nodup_iff.mpr keyed.2⟩

/-- The attributes known so far and the rest, as it was written, are those of the tag. -/
def Parts (given : List (String × String)) (known : Attributes) (rest : List Attribute) : Prop :=
  ∃ left, rest = left.map (fun a => ⟨a.1, String.ofList (writtenText a.2)⟩) ∧
    known.entries ++ left = given

theorem attributesOf_written {given : List (String × String)} (element : String)
    (keyed : Keyed given) :
    ∃ t, attributesOf element (writtenAttributes given) = .ok t ∧ t.entries = given := by
  rw [attributesOf, readAttributes_written keyed.1 keyed.2 (by simp)]
  refine (foldlM_reaches (Parts given) ?_ ⟨given, rfl, rfl⟩).imp
    fun t reached => ⟨reached.1, ?_⟩
  · rintro known _ rest ⟨left, parts, all⟩
    cases left with
    | nil => contradiction
    | cons a left =>
      cases parts
      have absent : a.1 ∉ known.keys := by
        have distinct := keyed.2
        rw [← all, List.map_append] at distinct
        exact Table.not_mem_of_nodup distinct
      refine ⟨known.insert a.1 a.2, by simp [resolve?_writtenText], left, rfl, ?_⟩
      rw [Table.entries_insert_of_not_mem absent, ← all]
      simp
  · obtain ⟨_, left, none, all⟩ := reached
    simpa [List.map_eq_nil_iff.mp none.symm] using all

theorem required_eq_ok {attributes : Attributes} {element key value : String}
    (found : attributes.get? key = some value) (nonempty : value ≠ "") :
    required attributes element key = .ok value := by
  have filled : value.isEmpty = false := by simpa using nonempty
  simp only [required, found, filled, Bool.false_eq_true, if_false]

def writtenKeys : List String := ["name", "type", "derivedFrom", "description"]

theorem keyed_of_sublist {attributes : List (String × String)}
    (keys : (attributes.map Prod.fst).Sublist writtenKeys) : Keyed attributes := by
  have plain : ∀ key ∈ writtenKeys, PlainName key := by decide
  exact ⟨fun a mem => plain a.1 (keys.mem (List.mem_map_of_mem mem)), keys.nodup (by decide)⟩

theorem keys_optional (key : String) (value : Option String) :
    ((optional key value).map Prod.fst).Sublist [key] := by
  cases value <;> simp [optional]

theorem keyed_attributes (d : PropertyDeclaration) (type : String) : Keyed (d.attributes type) := by
  have rest := (keys_optional "derivedFrom" d.derivedFrom).append
    (keys_optional "description" d.description)
  rw [← List.map_append] at rest
  exact keyed_of_sublist ((rest.cons_cons "type").cons_cons "name")

theorem keyed_itemAttributes (e : String × Declaration) : Keyed (itemAttributes e) := by
  have rest : ((optional "description" e.2.description).map Prod.fst).Sublist
      ["type", "derivedFrom", "description"] :=
    (keys_optional "description" e.2.description).trans (by decide)
  exact keyed_of_sublist (rest.cons_cons "name")

theorem keyed_name (name : String) : Keyed [("name", name)] :=
  keyed_of_sublist ((List.nil_sublist _).cons_cons "name")

theorem propertyOf_written {d : PropertyDeclaration} {type : String} {t : Attributes}
    (named : d.name ≠ "") (spells : d.type.Spells type.toList)
    (order : t.entries.Perm (d.attributes type)) : propertyOf t = .ok d := by
  have read := TypeExpr.ofText?_of_spells spells
  have nonempty : type ≠ "" := by
    rintro rfl
    contradiction
  have found := Table.get?_of_perm order
  have name : t.get? "name" = some d.name := by simp [found, PropertyDeclaration.attributes]
  have expression : t.get? "type" = some type := by
    simp [found, PropertyDeclaration.attributes, List.lookup_cons]
  have derived : t.get? "derivedFrom" = d.derivedFrom := by
    rw [found, PropertyDeclaration.attributes, optional, optional]
    cases d.derivedFrom <;> cases d.description <;> simp [List.lookup_cons]
  have description : t.get? "description" = d.description := by
    rw [found, PropertyDeclaration.attributes, optional, optional]
    cases d.derivedFrom <;> cases d.description <;> simp [List.lookup_cons]
  refine bind_ok (required_eq_ok name named) (bind_ok (required_eq_ok expression nonempty) ?_)
  rw [read, derived, description]
  rfl

theorem attributesOf_perm {given attributes : List (String × String)} (element : String)
    (keyed : Keyed attributes) (order : given.Perm attributes) :
    ∃ t, attributesOf element (writtenAttributes given) = .ok t ∧ t.entries.Perm attributes := by
  obtain ⟨t, read, entries⟩ := attributesOf_written element (keyed.of_perm order)
  exact ⟨t, read, entries ▸ order⟩

theorem namesOf_written (item duplicated : String) {element : String}
    {children : List Attributes} {names : List String} (distinct : names.Nodup)
    (named : List.Forall₂ (fun n t => required t element "name" = .ok n) names children) :
    ∃ s, namesOf item element duplicated children = .ok s ∧ s.names = names := by
  refine (foldlM_reaches (fun (known : NameSet) rest => ∃ left,
    List.Forall₂ (fun n t => required t element "name" = .ok n) left rest ∧
      known.names ++ left = names) ?_ ⟨names, named, rfl⟩).imp fun s reached => ⟨reached.1, ?_⟩
  · rintro known t rest ⟨left, each, all⟩
    cases each with
    | @cons name _ left _ here behind =>
      have absent : name ∉ known.names := Table.not_mem_of_nodup (all ▸ distinct)
      have added := NameSet.insertNew?_of_not_mem absent
      refine ⟨known.insert name, bind_ok here (by rw [added]; rfl), left, behind, ?_⟩
      rw [NameSet.names_insertNew? added, ← all]
      simp
  · obtain ⟨_, left, none, all⟩ := reached
    cases none
    simpa using all

/-- The inside of an element, up to its end tag, is read as children with these attributes. -/
structure ReadsInside (parent child : String) (s : List Char) (children : List Attributes) :
    Prop where
  fault : ∀ within rest, (readEvents (parent :: within) (s ++ (closingTag parent ++ rest))).fault =
    (readEvents within rest).fault
  events : ∀ within rest fault, readChildren fault parent child 0
    (readEvents (parent :: within) (s ++ (closingTag parent ++ rest))).events =
      .ok (children, (readEvents within rest).events)

section Child
variable {fault : Option Xml.Fault} {parent child : String} {text : List Char} {t : Attributes}
  {events rest : List Event} {children : List Attributes}
  (own : attributesOf child text = .ok t)
  (behind : readChildren fault parent child 0 events = .ok (children, rest))
include own behind

theorem readChildren_whole : readChildren fault parent child 0 (.whole child text :: events) =
    .ok (t :: children, rest) := by
  rw [readChildren, if_pos rfl]
  exact bind_ok own (bind_ok behind rfl)

theorem readChildren_around :
    readChildren fault parent child 0 (.opening child text :: .closing child :: events) =
      .ok (t :: children, rest) := by
  rw [readChildren, if_pos rfl]
  exact bind_ok own (bind_ok behind rfl)

end Child

theorem readsInside_cons {parent child : String} {gap s rest : List Char}
    {attributes : List (String × String)} {children : List Attributes}
    (plain : PlainName child) (keyed : Keyed attributes) (isGap : Gap gap)
    (tagged : Tagged child attributes Gap s) (reads : ReadsInside parent child rest children) :
    ∃ t : Attributes, t.entries.Perm attributes ∧
      ReadsInside parent child (gap ++ (s ++ rest)) (t :: children) := by
  cases tagged with
  | @around given text order inside =>
    obtain ⟨t, own, entries⟩ := attributesOf_perm child keyed order
    have keys := (keyed.of_perm order).1
    have events : ∀ within after, readEvents (parent :: within)
        (gap ++ (openingTag child given ++ (text ++ closingTag child) ++ rest) ++
          (closingTag parent ++ after)) =
        .cons (.opening child (writtenAttributes given)) (.cons (.closing child)
          (readEvents (parent :: within) (rest ++ (closingTag parent ++ after)))) := by
      intro within after
      simp only [List.append_assoc]
      rw [readEvents_gap isGap, readEvents_openingTag plain _ _ keys, readEvents_gap inside,
        readEvents_closingTag plain]
    refine ⟨t, entries, fun within after => ?_, fun within after fault => ?_⟩
    · rw [events]
      exact reads.fault within after
    · rw [events]
      exact readChildren_around own (reads.events within after fault)
  | @whole given order inside =>
    obtain ⟨t, own, entries⟩ := attributesOf_perm child keyed order
    have keys := (keyed.of_perm order).1
    have events : ∀ within after, readEvents (parent :: within)
        (gap ++ (wholeTag child given ++ rest) ++ (closingTag parent ++ after)) =
        .cons (.whole child (writtenAttributes given))
          (readEvents (parent :: within) (rest ++ (closingTag parent ++ after))) := by
      intro within after
      simp only [List.append_assoc]
      rw [readEvents_gap isGap, readEvents_wholeTag plain _ _ keys]
    refine ⟨t, entries, fun within after => ?_, fun within after fault => ?_⟩
    · rw [events]
      exact reads.fault within after
    · rw [events]
      exact readChildren_whole own (reads.events within after fault)

theorem readsInside_inOrder {α : Type} {Piece : α → List Char → Prop}
    {Means : α → Attributes → Prop} {parent child : String} (parentPlain : PlainName parent)
    (childPlain : PlainName child) {pieces : List α} {s : List Char}
    (each : ∀ a ∈ pieces, ∀ text, Piece a text → ∃ attributes, Keyed attributes ∧
      Tagged child attributes Gap text ∧ ∀ t : Attributes, t.entries.Perm attributes → Means a t)
    (written : InOrder Piece pieces s) :
    ∃ children, List.Forall₂ Means pieces children ∧ ReadsInside parent child s children := by
  induction written with
  | @nil gap isGap =>
    have ends : ∀ within after, readEvents (parent :: within)
        (gap ++ (closingTag parent ++ after)) =
        .cons (.closing parent) (readEvents within after) := by
      intro within after
      rw [readEvents_gap isGap, readEvents_closingTag parentPlain]
    refine ⟨[], .nil, fun within after => ?_, fun within after fault => ?_⟩
    · rw [ends]
      rfl
    · rw [ends]
      rfl
  | @cons a pieces gap s rest isGap here behind ih =>
    obtain ⟨children, means, reads⟩ := ih fun b mem => each b (List.mem_cons_of_mem _ mem)
    obtain ⟨attributes, keyed, tagged, meant⟩ := each a List.mem_cons_self s here
    obtain ⟨t, entries, more⟩ := readsInside_cons childPlain keyed isGap tagged reads
    exact ⟨t :: children, .cons (meant t entries) means, more⟩

theorem readsInside_nil {parent child : String} {children : List Attributes}
    (plain : PlainName parent) (reads : ReadsInside parent child [] children) : children = [] := by
  have read := reads.events [] [] none
  rw [List.nil_append, readEvents_closingTag plain] at read
  cases read
  rfl

theorem properties_written {parent : String} (plain : PlainName parent)
    {properties : List PropertyDeclaration} {s : List Char}
    (names : Names (properties.map PropertyDeclaration.name))
    (written : InOrder WrittenProperty properties s) :
    ∃ children, ReadsInside parent "property" s children ∧
      children.mapM propertyOf = .ok properties := by
  have each : ∀ d ∈ properties, ∀ text, WrittenProperty d text → ∃ attributes, Keyed attributes ∧
      Tagged "property" attributes Gap text ∧
      ∀ t : Attributes, t.entries.Perm attributes → propertyOf t = .ok d := by
    rintro d mem text ⟨type, spells, tagged⟩
    have named := names.2 d.name (List.mem_map_of_mem mem)
    exact ⟨_, keyed_attributes d type, tagged, fun t order => propertyOf_written named spells order⟩
  obtain ⟨children, means, reads⟩ := readsInside_inOrder plain (by decide) each written
  exact ⟨children, reads, mapM_eq_ok.mpr means.flip⟩

theorem names_written {parent element item duplicated : String} (plain : PlainName parent)
    (elementPlain : PlainName element) {names : List String} {s : List Char} (good : Names names)
    (written : InOrder (WrittenName element) names s) :
    ∃ children known, ReadsInside parent element s children ∧
      namesOf item element duplicated children = .ok known ∧ known.names = names := by
  have each : ∀ name ∈ names, ∀ text, WrittenName element name text → ∃ attributes,
      Keyed attributes ∧ Tagged element attributes Gap text ∧
      ∀ t : Attributes, t.entries.Perm attributes → required t element "name" = .ok name := by
    intro name mem text tagged
    refine ⟨_, keyed_name name, tagged, fun t order => ?_⟩
    have found : t.get? "name" = some name := by simp [Table.get?_of_perm order]
    exact required_eq_ok found (good.2 name mem)
  obtain ⟨children, means, reads⟩ := readsInside_inOrder plain elementPlain each written
  obtain ⟨known, read, all⟩ := namesOf_written item duplicated good.1 means
  exact ⟨children, known, reads, read, all⟩

theorem plainName_word (kind : ItemKind) : PlainName kind.word := by
  cases kind <;> decide

theorem declaration_written (name : String) {d : Declaration} {s : List Char}
    (names : Names d.names) (written : d.WrittenInside s) :
    ∃ children, ReadsInside d.kind.word d.kind.child s children ∧
      declarationOf d.kind name d.description children = .ok d := by
  have plain := plainName_word d.kind
  cases d with
  | entity description properties =>
    obtain ⟨children, reads, read⟩ := properties_written plain names written
    exact ⟨children, reads, bind_ok read rfl⟩
  | object description properties =>
    obtain ⟨children, reads, read⟩ := properties_written plain names written
    exact ⟨children, reads, bind_ok read rfl⟩
  | union u =>
    obtain ⟨children, known, reads, read, all⟩ := names_written plain (by decide) names written
    exact ⟨children, reads, bind_ok read (by rw [all]; rfl)⟩
  | enumeration e =>
    obtain ⟨description, values, distinct⟩ := e
    obtain ⟨children, ⟨known, _⟩, reads, read, all⟩ :=
      names_written plain (by decide) names written
    cases all
    exact ⟨children, reads, bind_ok read rfl⟩

theorem role_word (kind : ItemKind) : DocumentPlace.role .inside kind.word = .item kind := by
  cases kind <;> rfl

section Item
variable {fault : Option Xml.Fault} {known more : Table Declaration} {kind : ItemKind}
  {name : String} {text : List Char} {attributes : Attributes} {d : Declaration}
  {children : List Attributes} {events after : List Event}
  (own : attributesOf kind.word text = .ok attributes)
  (named : required attributes kind.word "name" = .ok name)
include own named

theorem readDeclarations_whole
    (declared : declarationOf kind name (attributes.get? "description") [] = .ok d)
    (added : addDeclaration known name d = .ok more) :
    readDeclarations fault .inside known (.whole kind.word text :: events) =
      readDeclarations fault .inside more events := by
  rw [readDeclarations, role_word]
  simp only [own, named, declared, added, bind, Except.bind]

theorem readDeclarations_around
    (body : readChildren fault kind.word kind.child 0 events = .ok (children, after))
    (declared : declarationOf kind name (attributes.get? "description") children = .ok d)
    (added : addDeclaration known name d = .ok more) :
    readDeclarations fault .inside known (.opening kind.word text :: events) =
      readDeclarations fault .inside more after := by
  rw [readDeclarations, role_word]
  simp only [own, named, bind, Except.bind]
  split <;> rename_i given <;> rw [body] at given <;> cases given
  simp only [declared, added]

end Item

theorem addDeclaration_of_not_mem {known : Table Declaration} {name : String} {d : Declaration}
    (absent : name ∉ known.keys) : addDeclaration known name d = .ok (known.insert name d) := by
  rw [addDeclaration, Table.insertNew?_of_not_mem absent, Option.elim_some]

theorem itemAttributes_read {e : String × Declaration} {t : Attributes} (named : e.1 ≠ "")
    (order : t.entries.Perm (itemAttributes e)) :
    required t e.2.kind.word "name" = .ok e.1 ∧ t.get? "description" = e.2.description := by
  have found := Table.get?_of_perm order
  constructor
  · exact required_eq_ok (by simp [found, itemAttributes]) named
  · rw [found, itemAttributes, optional]
    cases e.2.description <;> simp [List.lookup_cons]

theorem readDeclarations_writtenItem {known : Table Declaration} {e : String × Declaration}
    {s : List Char} (named : e.1 ≠ "") (names : Names e.2.names) (absent : e.1 ∉ known.keys)
    (written : WrittenItem e s) (within : List String) (rest : List Char) :
    (readEvents within (s ++ rest)).fault = (readEvents within rest).fault ∧
      ∀ fault, readDeclarations fault .inside known (readEvents within (s ++ rest)).events =
        readDeclarations fault .inside (known.insert e.1 e.2) (readEvents within rest).events := by
  have plain := plainName_word e.2.kind
  have keyed := keyed_itemAttributes e
  have added := addDeclaration_of_not_mem (d := e.2) absent
  cases written with
  | @around given text order inside =>
    obtain ⟨t, own, entries⟩ := attributesOf_perm e.2.kind.word keyed order
    obtain ⟨nameRead, description⟩ := itemAttributes_read named entries
    obtain ⟨children, reads, declared⟩ := declaration_written e.1 names inside
    have events : readEvents within ((openingTag e.2.kind.word given ++
        (text ++ closingTag e.2.kind.word)) ++ rest) =
        .cons (.opening e.2.kind.word (writtenAttributes given)) (readEvents
          (e.2.kind.word :: within) (text ++ (closingTag e.2.kind.word ++ rest))) := by
      simp only [List.append_assoc]
      rw [readEvents_openingTag plain _ _ (keyed.of_perm order).1]
    rw [events]
    refine ⟨reads.fault within rest, fun fault => ?_⟩
    exact readDeclarations_around own nameRead (reads.events within rest fault)
      (description ▸ declared) added
  | @whole given order inside =>
    obtain ⟨t, own, entries⟩ := attributesOf_perm e.2.kind.word keyed order
    obtain ⟨nameRead, description⟩ := itemAttributes_read named entries
    obtain ⟨children, reads, declared⟩ := declaration_written e.1 names inside
    cases readsInside_nil plain reads
    rw [readEvents_wholeTag plain _ _ (keyed.of_perm order).1]
    refine ⟨rfl, fun fault => ?_⟩
    exact readDeclarations_whole own nameRead (description ▸ declared) added

theorem readDeclarations_inOrder {known : Table Declaration} {items : List (String × Declaration)}
    {s : List Char} (distinct : (known.keys ++ items.map Prod.fst).Nodup)
    (named : ∀ e ∈ items, e.1 ≠ "") (names : ∀ e ∈ items, Names e.2.names)
    (written : InOrder WrittenItem items s) (within : List String) (rest : List Char) :
    ∃ t, t.entries = known.entries ++ items ∧
      (readEvents ("schema" :: within) (s ++ (closingTag "schema" ++ rest))).fault =
        (readEvents within rest).fault ∧
      ∀ fault, readDeclarations fault .inside known
          (readEvents ("schema" :: within) (s ++ (closingTag "schema" ++ rest))).events =
        readDeclarations fault .behind t (readEvents within rest).events := by
  induction written generalizing known with
  | @nil gap isGap =>
    refine ⟨known, by simp, ?_, fun fault => ?_⟩
    · rw [readEvents_gap isGap, readEvents_closingTag (by decide)]
      rfl
    · rw [readEvents_gap isGap, readEvents_closingTag (by decide)]
      rw [Reading.cons, readDeclarations]
      rfl
  | @cons e items gap s behindText isGap here behind ih =>
    have absent : e.1 ∉ known.keys := Table.not_mem_of_nodup distinct
    have entries : (known.insert e.1 e.2).entries = known.entries ++ [e] :=
      Table.entries_insert_of_not_mem absent
    have later : ((known.insert e.1 e.2).keys ++ items.map Prod.fst).Nodup := by
      simpa [Table.keys, entries] using distinct
    obtain ⟨t, all, faults, reads⟩ := ih later
      (fun b mem => named b (List.mem_cons_of_mem _ mem))
      (fun b mem => names b (List.mem_cons_of_mem _ mem))
    obtain ⟨fault, read⟩ := readDeclarations_writtenItem (named e List.mem_cons_self)
      (names e List.mem_cons_self) absent here ("schema" :: within)
      (behindText ++ (closingTag "schema" ++ rest))
    have shape : gap ++ (s ++ behindText) ++ (closingTag "schema" ++ rest) =
        gap ++ (s ++ (behindText ++ (closingTag "schema" ++ rest))) := by simp
    rw [shape, readEvents_gap isGap]
    refine ⟨t, ?_, fault.trans faults, fun f => (read f).trans (reads f)⟩
    rw [all, entries]
    simp

/-- The declarations read from a document are the items that it was written from. -/
theorem declarationsOf_written {items : List (String × Declaration)} {text : String}
    (good : Names (items.map Prod.fst)) (names : ∀ e ∈ items, Names e.2.names)
    (written : Writes items text) : declarationsOf text = .ok ⟨items, good.1⟩ := by
  have named : ∀ e ∈ items, e.1 ≠ "" := fun e mem => good.2 e.1 (List.mem_map_of_mem mem)
  have schemaPlain : PlainName "schema" := by decide
  rw [declarationsOf, Reading.ofText]
  unfold Writes at written
  generalize text.toList = characters at written
  cases written with
  | @cons _ _ gap s after isGap here behind =>
    cases behind with
    | nil afterGap =>
      have ended : readEvents [] after = .done := by
        have skipped := readEvents_gap afterGap [] []
        rwa [List.append_nil, readEvents] at skipped
      cases here with
      | @around given text order inside =>
        cases order.eq_nil
        have distinct : ((Table.empty : Table Declaration).keys ++ items.map Prod.fst).Nodup :=
          good.1
        obtain ⟨⟨entries, _⟩, all, fault, read⟩ :=
          readDeclarations_inOrder distinct named names inside [] after
        cases all
        have events : readEvents [] (gap ++ ((openingTag "schema" [] ++
            (text ++ closingTag "schema")) ++ after)) =
            .cons (.opening "schema" []) (readEvents ["schema"]
              (text ++ (closingTag "schema" ++ after))) := by
          simp only [List.append_assoc]
          rw [readEvents_gap isGap, readEvents_openingTag schemaPlain _ _ (by simp)]
          rfl
        have role : DocumentPlace.role .before "schema" = .schema := rfl
        rw [events, Reading.cons, fault, readDeclarations, role]
        simp only [read, ended]
        rw [Reading.done, readDeclarations]
        rfl
      | @whole given order inside =>
        cases order.eq_nil
        cases inOrder_nil (fun _ _ => tagged_ne_nil) inside
        have role : DocumentPlace.role .before "schema" = .schema := rfl
        rw [readEvents_gap isGap, readEvents_wholeTag schemaPlain _ _ (by simp), ended,
          Reading.done, Reading.cons, readDeclarations, role]
        simp only
        rw [readDeclarations]
        rfl

end DataLayer.Schema
