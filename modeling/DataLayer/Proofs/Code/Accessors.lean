import DataLayer.Proofs.Identifiers
import DataLayer.Proofs.Code.Declarations
import DataLayer.Proofs.Code.Fields
import DataLayer.Proofs.Code.Success

/- The getters and setters of a value object. They are claimed together, so that no two of them have
   one name, and a setter begins as no other function does. A getter is refused if it is called like
   a function that every value object has. The one that a reader calls to begin with is not defined
   in the same block but derived, and no getter is refused for it. -/
namespace DataLayer.Name

theorem length_escape_le (name : String) : (escape name).length ≤ name.length + 2 := by
  rcases escape_cases name with ⟨_, same⟩ | ⟨_, same⟩ | same
  · rw [same, String.length_append]
    exact Nat.add_le_add_left (by decide) _
  · rw [same, String.length_append, Nat.add_comm]
    exact Nat.le_refl _
  · rw [same]
    exact Nat.le_add_right _ _

theorem fieldIdent_ne_setterIdent (key : String) : fieldIdent key ≠ setterIdent key := by
  intro same
  have short := length_escape_le (snakeCase key)
  have long : (setterIdent key).length = 4 + (snakeCase key).length := String.length_append ..
  rw [← fieldIdent, same, long] at short
  omega

theorem setterIdent_ne {key name : String} (other : name.toList.head? ≠ some 's') :
    setterIdent key ≠ name := by
  rintro rfl
  rw [setterIdent, String.toList_append] at other
  exact other rfl

end DataLayer.Name

namespace DataLayer.Code
open Schema Outcome

def ObjectCode.accessors (c : ObjectCode) : List String :=
  (c.fields.flatMap ObjectField.accessorDeclarations).map NameLine.name

structure AccessorsApart (o : ValueObject) (f : ItemFile) (c : ObjectCode) : Prop where
  declared : ∀ d ∈ c.fields.flatMap ObjectField.accessorDeclarations,
    ∃ level, indented level d.line ∈ f.source.body
  names : c.accessors =
    o.properties.keys.flatMap fun key => [Name.fieldIdent key, Name.setterIdent key]
  distinct : c.accessors.Nodup
  methods : ∀ name ∈ ["new", "to_json", "is_type_of"], name ∉ c.accessors
  called : ∃ text ∈ ["let mut this = Self::default();", "Ok(Self::default())"],
    ∃ level, indented level text ∈ f.source.body
  hidden : "default" ∈ c.accessors ↔ ∃ key ∈ o.properties.keys, Name.snakeCase key = "default"

theorem objectFieldOf_accessors {owner key : String} {p : Property} {f : ObjectField}
    (run : objectFieldOf owner key p = .ok f) :
    f.accessorDeclarations.map NameLine.name = [Name.fieldIdent key, Name.setterIdent key] := by
  obtain ⟨type, _, run⟩ := bind_eq_ok.mp run
  obtain ⟨read, _, run⟩ := bind_eq_ok.mp run
  obtain ⟨write, _, same⟩ := bind_eq_ok.mp run
  cases pure_eq_ok.mp same
  unfold ObjectField.accessorDeclarations
  split
  · rfl
  · rfl

theorem objectCodeOf_accessors {isVariant : Bool} {name : String} {o : ValueObject}
    {c : ObjectCode} (run : objectCodeOf isVariant name o = .ok c) :
    c.accessors =
      o.properties.keys.flatMap fun key => [Name.fieldIdent key, Name.setterIdent key] := by
  have each := (objectCodeOf_eq_ok run).2.2
  have pairs := map_eq_map_of_forall₂ (f := fun p : String × Property =>
      [Name.fieldIdent p.1, Name.setterIdent p.1])
    (each.imp fun p f made => (objectFieldOf_accessors made).symm)
  rw [ObjectCode.accessors, List.map_flatMap, List.flatMap_def, ← pairs, Table.keys,
    List.flatMap_map, List.flatMap_def]

theorem nodup_accessors {o : ValueObject} (fits : ObjectFits o) :
    (o.properties.keys.flatMap fun key =>
      [Name.fieldIdent key, Name.setterIdent key]).Nodup := by
  rw [List.nodup_flatMap]
  refine ⟨fun key _ => ?_, o.properties.distinct.pairwise_of_forall_ne fits.accessors⟩
  simpa using Name.fieldIdent_ne_setterIdent key

theorem mem_accessors_iff {keys : List String} {name : String}
    (other : name.toList.head? ≠ some 's') :
    (name ∈ keys.flatMap fun key => [Name.fieldIdent key, Name.setterIdent key]) ↔
      ∃ key ∈ keys, Name.fieldIdent key = name := by
  rw [List.mem_flatMap]
  refine exists_congr fun key => and_congr_right fun _ => ?_
  rw [List.mem_pair, or_iff_left (Name.setterIdent_ne other).symm, eq_comm]

theorem ObjectCode.says_default (c : ObjectCode) :
    ∃ text ∈ ["let mut this = Self::default();", "Ok(Self::default())"], Says c.body text := by
  have inside : ∀ {header body text}, .block header body ∈ c.readerSteps → .line text ∈ body →
      Says c.body text := by
    intro header body text reader said
    refine says_block (List.mem_append_right _ (List.mem_cons_of_mem _ List.mem_cons_self)) ?_
    refine says_block (?_ : Step.block header body ∈ _) (says_line said)
    simp only [List.mem_append]
    exact .inl (.inl (.inl (.inr reader)))
  cases empty : c.fields.isEmpty with
  | true =>
    refine ⟨"Ok(Self::default())", by simp, inside (List.mem_of_getElem? (i := 4) rfl) ?_⟩
    simp [empty]
  | false =>
    refine ⟨"let mut this = Self::default();", by simp,
      inside (List.mem_of_getElem? (i := 4) rfl) ?_⟩
    simp [empty]

/-- The accessors of an object differ from each other and from all functions that its code defines
    besides, and one of them hides the function that its code calls exactly if a key makes it. -/
theorem itemFileOf_accessorsApart {m : Model} {variants : List String} {name : String}
    {o : ValueObject} {f : ItemFile} (run : itemFileOf m variants name (.object o) = .ok f) :
    ∃ c, f.code = .object c ∧ AccessorsApart o f c := by
  obtain ⟨c, made, same⟩ := bind_eq_ok.mp (itemCodeOf_of_itemFileOf run)
  have code : f.code = .object c := (pure_eq_ok.mp same).symm
  have fits := objectCodeOf_succeeds.mp ⟨c, made⟩
  have names := objectCodeOf_accessors made
  have body : f.source.body = emitted c.body := by rw [ItemFile.source, code, ItemCode.body]
  refine ⟨c, code, ?_, names, names ▸ nodup_accessors fits, ?_, ?_, ?_⟩
  · intro d listed
    have declared : d ∈ c.declarations := by
      obtain ⟨field, mem, accessor⟩ := List.mem_flatMap.mp listed
      exact List.mem_cons_of_mem _
        (List.mem_flatMap.mpr ⟨field, mem, List.mem_cons_of_mem _ accessor⟩)
    rw [body]
    exact ObjectCode.says_declarations declared 0
  · intro method own accessor
    have start : ∀ method ∈ ["new", "to_json", "is_type_of"],
        method.toList.head? ≠ some 's' := by decide
    rw [names, mem_accessors_iff (start method own)] at accessor
    obtain ⟨key, mem, rfl⟩ := accessor
    exact fits.getters key mem own
  · obtain ⟨text, listed, said⟩ := c.says_default
    rw [body]
    exact ⟨text, listed, said 0⟩
  · rw [names, mem_accessors_iff (by decide)]
    refine exists_congr fun key => and_congr_right fun _ => ?_
    exact Name.escape_eq_iff (by decide) (by decide) (by decide)

def accessorsObject : ValueObject where
  description := none
  properties := { entries :=
    [("type", ⟨.scalar "Int", true, none⟩), ("self", ⟨.scalar "Int", false, none⟩),
     ("setOf", ⟨.scalar "Int", true, none⟩)] }

theorem accessorsObject_apart : ∃ f, itemFileOf .empty [] "O" (.object accessorsObject) = .ok f ∧
    ∃ c, f.code = .object c ∧ AccessorsApart accessorsObject f c := by
  have generates : (itemFileOf .empty [] "O" (.object accessorsObject)).toOption.isSome = true := by
    decide +kernel
  obtain ⟨f, some⟩ := Option.isSome_iff_exists.mp generates
  have run := eq_ok_of_toOption some
  exact ⟨f, run, itemFileOf_accessorsApart run⟩

def defaultObject : ValueObject where
  description := none
  properties := { entries := [("default", ⟨.scalar "Int", true, none⟩)] }

/-- A getter hides the function by which the reader begins. -/
theorem default_getter_generated :
    ∃ f c, itemFileOf .empty [] "A" (.object defaultObject) = .ok f ∧ f.code = .object c ∧
      "default" ∈ c.accessors ∧
      "    pub fn default(&self) -> Option<&i32> \x7b" ∈ f.source.body ∧
      "        let mut this = Self::default();" ∈ f.source.body := by
  have shown : ((itemFileOf .empty [] "A" (.object defaultObject)).toOption.any fun f =>
      decide ("    pub fn default(&self) -> Option<&i32> \x7b" ∈ f.source.body ∧
        "        let mut this = Self::default();" ∈ f.source.body)) = true := by decide +kernel
  obtain ⟨f, given, lines⟩ := (Option.any_eq_true _ _).mp shown
  have run := eq_ok_of_toOption given
  obtain ⟨c, made, same⟩ := bind_eq_ok.mp (itemCodeOf_of_itemFileOf run)
  have named : "default" ∈ c.accessors := by
    rw [objectCodeOf_accessors made]
    decide +kernel
  exact ⟨f, c, run, (pure_eq_ok.mp same).symm, named, of_decide_eq_true lines⟩

end DataLayer.Code
