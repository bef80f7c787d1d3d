import DataLayer.Proofs.Code.Header

/- When no two names that a generated file brings into scope are one. A file brings the item that it
   declares, the items that it imports and the helpers that it imports, all in one namespace, and
   its text relies on names that are there without an import. Items are kept apart from each other
   because an item is imported once and never into its own file. Nothing keeps them apart from the
   rest, so that it depends on what they are called. -/
namespace DataLayer.Code
open Schema Outcome

/-- The types and modules that a line brings into scope. A function is neither. -/
def ImportLine.typeNames : ImportLine → List String
  | .assertion => []
  | .columns symbols => symbols.map ColumnSymbol.name
  | .marshal => ["marshal"]
  | .item name | .union name => [name]

def ItemFile.itemNames (f : ItemFile) : List String :=
  f.code.name :: f.imported.filterMap ImportLine.item?

def ItemFile.typeNames (f : ItemFile) : List String :=
  f.code.name :: f.imported.flatMap ImportLine.typeNames

/-- No two types or modules of a file are one, whether or not their names are written raw, and no
    item hides one of the names that the text of the file uses without an import. -/
structure Unshadowed (used : List String) (f : ItemFile) : Prop where
  apart : (f.typeNames.map Name.fileStem).Nodup
  visible : ∀ n ∈ f.itemNames, Name.fileStem n ∉ used

def NeedsHelper (m : Model) (name : String) (item : Item) (helper : String) : Prop :=
  item.kind = .entity ∧ helper ∈ ColumnSymbol.all.map ColumnSymbol.name ∨
    m.Converts name item ∧ helper = "marshal"

/-- What the names of an item and of the items it mentions have to be for nothing to be hidden. -/
structure KeptApart (m : Model) (used : List String) (name : String) (item : Item) : Prop where
  items : ∀ a ∈ name :: item.mentions, ∀ b ∈ name :: item.mentions,
    Name.fileStem a = Name.fileStem b → a = b
  helpers : ∀ n ∈ name :: item.mentions, ¬ NeedsHelper m name item (Name.fileStem n)
  visible : ∀ n ∈ name :: item.mentions, Name.fileStem n ∉ used

namespace Imports
variable {i : Imports}

theorem typeNames_of_lines {m : Model} {lines : List ImportLine} (run : i.lines m = .ok lines) :
    lines.flatMap ImportLine.typeNames =
      i.supportLines.flatMap ImportLine.typeNames ++ lines.filterMap ImportLine.item? := by
  obtain ⟨items, each, rfl⟩ := lines_eq_ok.mp run
  have helpers : i.supportLines.filterMap ImportLine.item? = [] :=
    List.filterMap_eq_nil_iff.mpr fun line mem => item?_of_mem_supportLines mem
  have named : items.flatMap ImportLine.typeNames = items.filterMap ImportLine.item? := by
    rw [List.filterMap_eq_flatMap_toList]
    refine List.flatMap_congr fun line mem => ?_
    obtain ⟨name, _, found⟩ := exists_left_of_mem each mem
    have item := item?_of_itemLine found
    cases line with
    | item name => rfl
    | union name => rfl
    | assertion | columns _ | marshal => contradiction
  rw [List.flatMap_append, List.filterMap_append, helpers, named, List.nil_append]

theorem nodup_helpers (i : Imports) : (i.supportLines.flatMap ImportLine.typeNames).Nodup := by
  have all : (ColumnSymbol.all.map ColumnSymbol.name ++ ["marshal"]).Nodup := by decide
  have some : ((ColumnSymbol.all.filter (· ∈ i.columns)).map ColumnSymbol.name).Sublist
      (ColumnSymbol.all.map ColumnSymbol.name) := List.filter_sublist.map _
  refine all.sublist ?_
  rw [supportLines, List.flatMap_append, List.flatMap_append]
  refine List.Sublist.append ?_ ?_
  · cases i.assertion <;> cases i.columns.isEmpty <;> simp [ImportLine.typeNames, some]
  · cases i.marshal <;> simp [ImportLine.typeNames]

end Imports

section Names
variable {m : Model} {item : Item} {f : ItemFile}

theorem ImportsExactly.mem_itemNames (exact : ImportsExactly m item f) {n : String} :
    n ∈ f.itemNames ↔ n ∈ f.source.item :: item.mentions := by
  have named : f.code.name = f.source.item := rfl
  rw [ItemFile.itemNames, exact.items, named, List.mem_cons, List.mem_cons, List.mem_eraseDups,
    List.mem_filter, decide_eq_true_eq]
  by_cases own : n = f.source.item
  · simp [own]
  · simp [own]

theorem ImportsExactly.nodup_itemNames (exact : ImportsExactly m item f) :
    f.itemNames.Nodup := by
  have named : f.code.name = f.source.item := rfl
  rw [ItemFile.itemNames, exact.items, named, List.nodup_cons, List.mem_eraseDups]
  exact ⟨by simp, NameSet.nodup_eraseDups _⟩

theorem ImportsExactly.mem_helpers (exact : ImportsExactly m item f)
    (lines : f.code.imports.lines m = .ok f.imported) {helper : String} :
    helper ∈ f.code.imports.supportLines.flatMap ImportLine.typeNames ↔
      NeedsHelper m f.source.item item helper := by
  have same : ∀ line, line.item? = none →
      (line ∈ f.code.imports.supportLines ↔ line ∈ f.imported) :=
    fun line support => (Imports.mem_lines_iff lines support).symm
  rw [List.mem_flatMap]
  constructor
  · rintro ⟨line, mem, named⟩
    cases line with
    | columns symbols =>
      obtain ⟨isEntity, rfl⟩ := (exact.columns symbols).mp ((same _ rfl).mp mem)
      exact .inl ⟨isEntity, named⟩
    | marshal =>
      exact .inr ⟨exact.marshal.mp ((same _ rfl).mp mem), List.mem_singleton.mp named⟩
    | assertion => contradiction
    | item name => exact absurd (Imports.item?_of_mem_supportLines mem) (Option.some_ne_none _)
    | union name => exact absurd (Imports.item?_of_mem_supportLines mem) (Option.some_ne_none _)
  · rintro (⟨isEntity, named⟩ | ⟨converts, rfl⟩)
    · exact ⟨.columns ColumnSymbol.all,
        (same _ rfl).mpr ((exact.columns _).mpr ⟨isEntity, rfl⟩), named⟩
    · exact ⟨.marshal, (same _ rfl).mpr (exact.marshal.mpr converts), List.mem_singleton.mpr rfl⟩

theorem fileStem_of_helper {name helper : String} (named : NeedsHelper m name item helper) :
    Name.fileStem helper = helper := by
  have plain : ∀ helper ∈ ColumnSymbol.all.map ColumnSymbol.name,
      Name.fileStem helper = helper := by decide +kernel
  rcases named with ⟨_, named⟩ | ⟨_, rfl⟩
  · exact plain helper named
  · decide +kernel

theorem ImportsExactly.nodup_typeNames_iff (exact : ImportsExactly m item f)
    (lines : f.code.imports.lines m = .ok f.imported) :
    (f.typeNames.map Name.fileStem).Nodup ↔
      (f.itemNames.map Name.fileStem).Nodup ∧
        ∀ n ∈ f.itemNames, ¬ NeedsHelper m f.source.item item (Name.fileStem n) := by
  have named := Imports.typeNames_of_lines lines
  have distinct := Imports.nodup_helpers f.code.imports
  have member : ∀ helper, helper ∈ f.code.imports.supportLines.flatMap ImportLine.typeNames ↔
      NeedsHelper m f.source.item item helper := fun _ => exact.mem_helpers lines
  generalize f.code.imports.supportLines.flatMap ImportLine.typeNames = helpers
    at named distinct member
  have plain : helpers.map Name.fileStem = helpers :=
    (List.map_congr_left fun helper mem => fileStem_of_helper ((member helper).mp mem)).trans
      (List.map_id _)
  have moved : f.typeNames.Perm (helpers ++ f.itemNames) := by
    rw [ItemFile.typeNames, named]
    exact List.perm_middle.symm
  have apart := moved.map Name.fileStem
  rw [List.map_append, plain] at apart
  rw [apart.nodup_iff, List.nodup_append, and_iff_right distinct]
  refine and_congr_right fun _ => ?_
  constructor
  · intro disjoint n mem held
    exact disjoint _ ((member _).mpr held) _ (List.mem_map_of_mem mem) rfl
  · intro free helper mem other listed same
    obtain ⟨n, isItem, rfl⟩ := List.mem_map.mp listed
    exact free n isItem (same ▸ (member helper).mp mem)

theorem ImportsExactly.unshadowed_iff (exact : ImportsExactly m item f)
    (lines : f.code.imports.lines m = .ok f.imported) (used : List String) :
    Unshadowed used f ↔ KeptApart m used f.source.item item := by
  have items : (f.itemNames.map Name.fileStem).Nodup ↔
      ∀ a ∈ f.source.item :: item.mentions, ∀ b ∈ f.source.item :: item.mentions,
        Name.fileStem a = Name.fileStem b → a = b := by
    simp only [List.nodup_map_iff_inj_on exact.nodup_itemNames, exact.mem_itemNames]
  have helpers := exact.nodup_typeNames_iff lines
  simp only [items, exact.mem_itemNames] at helpers
  constructor
  · rintro ⟨apart, visible⟩
    obtain ⟨distinct, free⟩ := helpers.mp apart
    exact ⟨distinct, free, fun n mem => visible n (exact.mem_itemNames.mpr mem)⟩
  · rintro ⟨distinct, free, visible⟩
    exact ⟨helpers.mpr ⟨distinct, free⟩, fun n mem => visible n (exact.mem_itemNames.mp mem)⟩

end Names

/-- The items that a file declares and imports are never called alike. Whether it has two types or
    modules of one name, or hides a name that its text uses without an import, depends on what the
    item and those it mentions are called. -/
theorem generateText_unshadowed_iff {text : String} {tree : Tree}
    (run : generateText text = .ok tree) :
    ∃ m, Model.ofText text = .ok m ∧ ∀ f ∈ tree.files, f.itemNames.Nodup ∧
      ∃ item, m.get? f.source.item = some item ∧
        ∀ used, Unshadowed used f ↔ KeptApart m used f.source.item item := by
  obtain ⟨m, loaded, generated⟩ := generateText_eq_ok run
  refine ⟨m, loaded, fun f mem => ?_⟩
  obtain ⟨item, there, made⟩ := exists_entry generated mem
  have found := Table.get?_eq_some_iff.mpr there
  have exact := importsExactly loaded found made
  have lines := (itemFileOf_eq_ok made).2
  exact ⟨exact.nodup_itemNames, item, found, exact.unshadowed_iff lines⟩

def boxText : String :=
  "<schema><union name=\"U\"><variant name=\"Box\"/></union><object name=\"Box\"/></schema>"

theorem boxText_unshadowed_iff :
    ∃ tree, generateText boxText = .ok tree ∧
      ∃ m, Model.ofText boxText = .ok m ∧ ∀ f ∈ tree.files, f.itemNames.Nodup ∧
        ∃ item, m.get? f.source.item = some item ∧
          ∀ used, Unshadowed used f ↔ KeptApart m used f.source.item item := by
  have generates : (generateText boxText).toOption.isSome = true := by decide +kernel
  obtain ⟨tree, some⟩ := Option.isSome_iff_exists.mp generates
  have run := eq_ok_of_toOption some
  exact ⟨tree, run, generateText_unshadowed_iff run⟩

def shadowText : String :=
  "<schema><entity name=\"Entity\"/><object name=\"marshal\"/><entity name=\"String\"/></schema>"

theorem shadowed_names_generated : ∃ tree, generateText shadowText = .ok tree ∧
    (∃ f ∈ tree.files, ¬ f.typeNames.Nodup ∧
      "use super::super::orm::\x7bColumn, ColumnKind, Entity\x7d;" ∈ f.source.uses ∧
      "pub struct Entity \x7b" ∈ f.source.body) ∧
    (∃ f ∈ tree.files, ¬ f.typeNames.Nodup ∧
      "use super::super::marshal;" ∈ f.source.uses ∧
      "pub struct marshal \x7b\x7d" ∈ f.source.body) ∧
    ∃ f ∈ tree.files, "String" ∈ f.itemNames ∧ "    pub id: String," ∈ f.source.body := by
  have shown : ((generateText shadowText).toOption.any fun tree => decide (
      (∃ f ∈ tree.files, ¬ f.typeNames.Nodup ∧
        "use super::super::orm::\x7bColumn, ColumnKind, Entity\x7d;" ∈ f.source.uses ∧
        "pub struct Entity \x7b" ∈ f.source.body) ∧
      (∃ f ∈ tree.files, ¬ f.typeNames.Nodup ∧
        "use super::super::marshal;" ∈ f.source.uses ∧
        "pub struct marshal \x7b\x7d" ∈ f.source.body) ∧
      ∃ f ∈ tree.files, "String" ∈ f.itemNames ∧
        "    pub id: String," ∈ f.source.body)) = true := by decide +kernel
  obtain ⟨tree, given, held⟩ := (Option.any_eq_true _ _).mp shown
  exact ⟨tree, eq_ok_of_toOption given, of_decide_eq_true held⟩

end DataLayer.Code
