import DataLayer.Proofs.Schema.Loading
import DataLayer.Proofs.Xml.Attributes

/- What becomes of the attributes in the tags of a document that loads. A tag with all its values in
   quotes and without a repeated key keeps every attribute. Any other tag loses some of them, and
   the document loads nevertheless. -/
namespace DataLayer.Schema
open Xml Outcome

def Holds (a : Attribute) (entry : String × String) : Prop :=
  a.key = entry.1 ∧ resolve? a.value = some entry.2

def Shows (t : Attributes) (ws : List Written) : Prop :=
  List.Forall₂ (fun w entry => ∃ a, w.attribute? = some a ∧ Holds a entry) ws t.entries

/-- All values are in quotes, and no key is repeated. -/
def ProperlyWritten (ws : List Written) : Prop :=
  (∀ w ∈ ws, w.attribute?.isSome) ∧ (ws.filterMap Written.assigned?).Nodup

instance (ws : List Written) : Decidable (ProperlyWritten ws) :=
  inferInstanceAs (Decidable ((∀ w ∈ ws, w.attribute?.isSome) ∧ _))

/-- The tag of an element is read as it is written if it is written properly, and only then. Without
    a repeated key, it is what stands in quotes that is kept. -/
structure TagRead (e : Element) : Prop where
  spelled : ∃ ws, Spells ws e.attributes
  read : ∀ ws, Spells ws e.attributes → ∃ t, attributesOf e.name e.attributes = .ok t ∧
    (Shows t ws ↔ ProperlyWritten ws) ∧
    ((ws.filterMap Written.assigned?).Nodup → Shows t (ws.filter (·.attribute?.isSome)))

def elementsRead (schema : Element) : List Element :=
  schema.children ++ schema.children.flatMap Element.children

theorem holds_of_foldlM {element : String} {as : List Attribute} {known t : Attributes}
    (distinct : (as.map Attribute.key).Nodup) (fresh : ∀ a ∈ as, a.key ∉ known.keys)
    (run : (as.foldlM (fun known a =>
      match resolve? a.value with
      | some value => .ok (known.insert a.key value)
      | none => .error (.invalidAttribute element a.key a.value)) known :
        Except LoadFault Attributes) = .ok t) :
    ∃ added, t.entries = known.entries ++ added ∧ List.Forall₂ Holds as added := by
  induction as generalizing known with
  | nil =>
    cases pure_eq_ok.mp run
    exact ⟨[], by simp, .nil⟩
  | cons a as ih =>
    rw [List.foldlM_cons] at run
    obtain ⟨more, first, run⟩ := bind_eq_ok.mp run
    obtain ⟨different, distinct⟩ := List.nodup_cons.mp distinct
    split at first
    · rename_i value resolved
      cases first
      have entries : (known.insert a.key value).entries = known.entries ++ [(a.key, value)] :=
        Table.entries_insert_of_not_mem (fresh a List.mem_cons_self)
      have others : ∀ b ∈ as, b.key ∉ (known.insert a.key value).keys := fun b mem found => by
        rw [Table.keys, entries, List.map_append, List.mem_append] at found
        rcases found with old | new
        · exact fresh b (List.mem_cons_of_mem _ mem) old
        · have same : b.key = a.key := by simpa using new
          exact different (same ▸ List.mem_map_of_mem mem)
      obtain ⟨added, all, holds⟩ := ih distinct others run
      exact ⟨(a.key, value) :: added, by rw [all, entries]; simp, .cons ⟨rfl, resolved⟩ holds⟩
    · contradiction

theorem assigned?_of_attribute? {w : Written} {a : Attribute} (quoted : w.attribute? = some a) :
    w.assigned? = some a.key := by
  cases w with
  | quoted key value => cases quoted; rfl
  | _ => contradiction

theorem keys_sublist (ws : List Written) :
    ((ws.filterMap Written.attribute?).map Attribute.key).Sublist
      (ws.filterMap Written.assigned?) := by
  induction ws with
  | nil => exact .slnil
  | cons w ws ih =>
    cases quoted : w.attribute? with
    | some a =>
      have assigned := assigned?_of_attribute? quoted
      rw [List.filterMap_cons_some quoted, List.filterMap_cons_some assigned]
      exact ih.cons_cons a.key
    | none =>
      rw [List.filterMap_cons_none quoted]
      cases assigned : w.assigned? with
      | none => rwa [List.filterMap_cons_none assigned]
      | some key =>
        rw [List.filterMap_cons_some assigned]
        exact ih.cons key

theorem shows_of_holds {t : Attributes} {ws : List Written}
    (holds : List.Forall₂ Holds (ws.filterMap Written.attribute?) t.entries) :
    Shows t (ws.filter (·.attribute?.isSome)) := by
  unfold Shows
  generalize t.entries = entries at holds
  induction ws generalizing entries with
  | nil =>
    cases holds
    exact .nil
  | cons w ws ih =>
    cases quoted : w.attribute? with
    | some a =>
      rw [List.filterMap_cons_some quoted] at holds
      rw [List.filter_cons_of_pos (by rw [quoted]; rfl)]
      cases holds with
      | cons here behind => exact .cons ⟨a, quoted, here⟩ (ih _ behind)
    | none =>
      rw [List.filterMap_cons_none quoted] at holds
      rw [List.filter_cons_of_neg (by rw [quoted]; simp)]
      exact ih _ holds

theorem shows_of_distinct {element : String} {s : List Char} {t : Attributes} {ws : List Written}
    (spells : Spells ws s) (distinct : (ws.filterMap Written.assigned?).Nodup)
    (run : attributesOf element s = .ok t) : Shows t (ws.filter (·.attribute?.isSome)) := by
  rw [attributesOf, readAttributes_spells spells distinct (by simp)] at run
  have keys := (keys_sublist ws).nodup distinct
  obtain ⟨added, entries, holds⟩ := holds_of_foldlM keys (by simp [Table.keys, Table.empty]) run
  have all : t.entries = added := by simpa [Table.empty] using entries
  exact shows_of_holds (all ▸ holds)

theorem properlyWritten_of_shows {t : Attributes} {ws : List Written} (shows' : Shows t ws) :
    ProperlyWritten ws := by
  constructor
  · intro w mem
    obtain ⟨entry, -, a, quoted, -⟩ := exists_right_of_mem shows' mem
    rw [quoted]
    rfl
  · -- The keys of the entries differ, and each attribute has its own entry.
    have keys : ws.filterMap Written.assigned? = t.keys := by
      unfold Shows at shows'
      unfold Table.keys
      generalize t.entries = entries at shows'
      induction shows' with
      | nil => rfl
      | cons here _ ih =>
        obtain ⟨a, quoted, same, -⟩ := here
        rw [List.filterMap_cons_some (assigned?_of_attribute? quoted), ih, same, List.map_cons]
    rw [keys]
    exact t.distinct

theorem tagRead {e : Element} {t : Attributes} (run : attributesOf e.name e.attributes = .ok t) :
    TagRead e where
  spelled := exists_spells e.attributes
  read ws spells := by
    refine ⟨t, run, ⟨properlyWritten_of_shows, fun proper => ?_⟩, fun distinct =>
      shows_of_distinct spells distinct run⟩
    have whole : ws.filter (·.attribute?.isSome) = ws := List.filter_eq_self.mpr proper.1
    exact whole ▸ shows_of_distinct spells proper.2 run

/-- A document that loads has had all the tags of its items read, whatever stands in them. -/
theorem ofText_tagsRead {text : String} {m : Model} (loaded : Model.ofText text = .ok m) :
    ∃ schema, (Reading.ofText text).roots = [schema] ∧ ∀ e ∈ elementsRead schema, TagRead e := by
  obtain ⟨declared, read, run⟩ := bind_eq_ok.mp loaded
  obtain ⟨schema, roots, -, declares⟩ := declarationsOf_eq_ok read
  refine ⟨schema, roots, fun e mem => ?_⟩
  rcases List.mem_append.mp mem with item | child
  · obtain ⟨d, -, kind, attributes, children, -, own, -⟩ := exists_right_of_mem declares item
    exact tagRead own
  · obtain ⟨item, isItem, child⟩ := List.mem_flatMap.mp child
    obtain ⟨d, -, kind, attributes, children, -, -, -, each, -⟩ :=
      exists_right_of_mem declares isItem
    obtain ⟨a, -, -, own⟩ := exists_right_of_mem each child
    exact tagRead own

def retypedText : String :=
  "<schema><entity name=\"A\"><property name=\"p\" type=\"String\" type=\"Int\"/></entity></schema>"

def retypedModel : Model where
  items := { entries :=
    [("A", .entity ⟨none, { entries :=
       [("id", ⟨.scalar "ID", false, none⟩), ("p", ⟨.scalar "String", true, none⟩)] }⟩)] }

theorem ofText_retypedText : Model.ofText retypedText = .ok retypedModel :=
  eq_ok_of_toOption (by decide +kernel)

theorem retypedText_tagsRead : Model.ofText retypedText = .ok retypedModel ∧
    ∃ schema, (Reading.ofText retypedText).roots = [schema] ∧
      ∀ e ∈ elementsRead schema, TagRead e :=
  ⟨ofText_retypedText, ofText_tagsRead ofText_retypedText⟩

theorem repeated_attribute_lost : ∃ m schema e ws, Model.ofText retypedText = .ok m ∧
    (Reading.ofText retypedText).roots = [schema] ∧ e ∈ elementsRead schema ∧
    Spells ws e.attributes ∧ ∀ t, attributesOf e.name e.attributes = .ok t → ¬ Shows t ws := by
  let tag := [("name", "p"), ("type", "String"), ("type", "Int")]
  let ws : List Written := tag.map fun a => .quoted a.1 (String.ofList (writtenText a.2))
  have plain : ∀ a ∈ tag, PlainName a.1 := by decide
  have roots : (Reading.ofText retypedText).roots = [⟨"schema", [],
      [.opening "entity" (writtenAttributes [("name", "A")]),
       .whole "property" (writtenAttributes tag), .closing "entity", .closing "schema"]⟩] := by
    decide +kernel
  have repeated : ¬ ProperlyWritten ws := by decide +kernel
  refine ⟨retypedModel, _, ⟨"property", writtenAttributes tag, []⟩, ws, ofText_retypedText, roots,
    ?_, spells_writtenAttributes plain, fun t _ kept => repeated (properlyWritten_of_shows kept)⟩
  exact List.mem_append_right _ (List.mem_flatMap.mpr ⟨_, List.mem_cons_self, List.mem_cons_self⟩)

end DataLayer.Schema
