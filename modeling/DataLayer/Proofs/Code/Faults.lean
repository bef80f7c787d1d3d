import DataLayer.Code.Tree
import DataLayer.Proofs.Code.Uses

/- How generation fails. A question to the model that goes unanswered is a fault of the schema, and
   after loading and validation none is left: an enumeration is asked for by the columns of
   properties that refer to it, a variant by its union, and an item by the file that imports it.
   What may still happen is that a type has no form in code or that two names clash. -/
namespace DataLayer.Code
open Schema Outcome

namespace Fault

def OfCode : Fault → Prop
  | .unsupported _ _ | .clash _ => True
  | .load _ | .schema _ | .storage _ => False

end Fault

theorem scalarOf_fails (name : String) : FailsOnly Fault.OfCode (scalarOf name) := by
  unfold scalarOf
  cases Scalar.ofName? name with
  | none => exact failsOnly_error trivial
  | some s => exact failsOnly_ok s

theorem typeOf_fails (holder : Holder) (t : PropertyType) (nullable : Bool) :
    FailsOnly Fault.OfCode (typeOf holder t nullable) := by
  induction t generalizing holder nullable with
  | scalar name => exact failsOnly_bind (scalarOf_fails name) fun s _ => failsOnly_ok _
  | enumeration _ | object _ | union _ | inverse _ _ => exact failsOnly_ok _
  | reference entity =>
    cases holder with
    | entity => exact failsOnly_ok _
    | object => exact failsOnly_ok _
  | list item itemNullable description ih =>
    exact failsOnly_bind (ih .object itemNullable) fun type _ => failsOnly_ok _

theorem readExpr_fails (t : PropertyType) (nullable : Bool) :
    FailsOnly Fault.OfCode (readExpr t nullable) := by
  induction t generalizing nullable with
  | scalar name => exact failsOnly_bind (scalarOf_fails name) fun s _ => failsOnly_ok _
  | enumeration _ | object _ | union _ | reference _ => exact failsOnly_ok _
  | inverse entity field => exact failsOnly_error trivial
  | list item itemNullable description ih =>
    exact failsOnly_bind (ih itemNullable) fun e _ => failsOnly_ok _

theorem writeExpr_fails (t : PropertyType) (nullable : Bool) :
    FailsOnly Fault.OfCode (writeExpr t nullable) := by
  induction t generalizing nullable with
  | scalar name => exact failsOnly_bind (scalarOf_fails name) fun s _ => failsOnly_ok _
  | enumeration _ | object _ | union _ | reference _ => exact failsOnly_ok _
  | inverse entity field => exact failsOnly_error trivial
  | list item itemNullable description ih =>
    exact failsOnly_bind (ih itemNullable) fun e _ => failsOnly_ok _

theorem documentOf_fails (t : PropertyType) (nullable : Bool) :
    FailsOnly Fault.OfCode (documentOf t nullable) := by
  unfold documentOf
  split
  · apply failsOnly_bind (writeExpr_fails _ _)
    intro write _
    exact failsOnly_bind (readExpr_fails _ _) fun read _ => failsOnly_ok _
  · apply failsOnly_bind (writeExpr_fails _ _)
    intro write _
    exact failsOnly_bind (readExpr_fails _ _) fun read _ => failsOnly_ok _
  · exact failsOnly_ok none

theorem recordPartOf_fails (owner key : String) (t : PropertyType) (nullable : Bool) :
    FailsOnly Fault.OfCode (recordPartOf owner key t nullable) := by
  unfold recordPartOf
  split
  · exact failsOnly_error trivial
  · exact failsOnly_ok _
  · apply failsOnly_bind (readExpr_fails _ _)
    intro read _
    exact failsOnly_bind (writeExpr_fails _ _) fun write _ => failsOnly_ok _

theorem entityFieldOf_fails (owner : String) (isVariant : Bool) (key : String) (p : Property)
    (binding : Binding) :
    FailsOnly Fault.OfCode (entityFieldOf owner isVariant key p binding) := by
  unfold entityFieldOf
  apply failsOnly_bind (typeOf_fails _ _ _)
  intro type _
  apply failsOnly_bind (documentOf_fails _ _)
  intro document _
  cases isVariant with
  | true =>
    have part := failsOnly_map (recordPartOf_fails owner key p.type binding.nullable) some
    exact failsOnly_bind part fun part _ => failsOnly_ok _
  | false => exact failsOnly_ok _

theorem claim_fails (s : Scope) (ident source : String) :
    FailsOnly Fault.OfCode (s.claim ident source) := by
  unfold Scope.claim
  split
  · exact failsOnly_ok _
  · split
    · exact failsOnly_ok s
    · exact failsOnly_error trivial

theorem storageOf_fails {m : Model} {p : Property}
    (resolves : m.Resolves p.type ∨ p = idProperty) :
    FailsOnly Fault.OfCode (storageOf m p.type) := by
  rcases resolves with resolves | rfl
  · cases type : p.type with
    | scalar name =>
      simp only [storageOf]
      cases Scalar.ofName? name with
      | none => exact failsOnly_error trivial
      | some s => exact failsOnly_ok _
    | enumeration name =>
      rw [type] at resolves
      obtain ⟨item, found, kind⟩ := Model.kind?_eq_some.mp resolves
      cases item with
      | enumeration e =>
        rw [storageOf, Model.enumeration_of_get? found]
        exact failsOnly_ok _
      | _ => contradiction
    | reference _ | inverse _ _ | object _ | union _ => exact failsOnly_ok _
    | list _ _ _ => exact failsOnly_error trivial
  · exact failsOnly_ok _

theorem entityFields_fails {m : Model} (owner : String) (isVariant : Bool) (scope : Scope)
    {properties : List (String × Property)}
    (resolves : ∀ p ∈ properties, m.Resolves p.2.type ∨ p.2 = idProperty) :
    FailsOnly Fault.OfCode (entityFields m owner isVariant scope properties) := by
  induction properties generalizing scope with
  | nil => exact failsOnly_ok []
  | cons first rest ih =>
    obtain ⟨key, p⟩ := first
    have stored := storageOf_fails (resolves (key, p) List.mem_cons_self)
    apply failsOnly_bind (failsOnly_bind stored fun _ _ => failsOnly_ok _)
    intro binding _
    apply failsOnly_bind (claim_fails _ _ _)
    intro scope _
    apply failsOnly_bind (entityFieldOf_fails _ _ _ _ _)
    intro field _
    have others := ih scope fun p mem => resolves p (List.mem_cons_of_mem _ mem)
    exact failsOnly_bind others fun fields _ => failsOnly_ok _

theorem objectFieldType_fails (owner key : String) (p : Property) :
    FailsOnly Fault.OfCode (objectFieldType owner key p) := by
  unfold objectFieldType
  split
  · exact failsOnly_error trivial
  · exact typeOf_fails _ _ _

theorem claimAccessors_fails (scope : Scope) (keys : List String) :
    FailsOnly Fault.OfCode (claimAccessors scope keys) := by
  induction keys generalizing scope with
  | nil => exact failsOnly_ok scope
  | cons key rest ih =>
    apply failsOnly_bind (claim_fails _ _ _)
    intro getters _
    exact failsOnly_bind (claim_fails _ _ _) fun setters _ => ih setters

theorem objectFieldOf_fails (owner key : String) (p : Property) :
    FailsOnly Fault.OfCode (objectFieldOf owner key p) := by
  unfold objectFieldOf
  apply failsOnly_bind (objectFieldType_fails _ _ _)
  intro type _
  apply failsOnly_bind (readExpr_fails _ _)
  intro read _
  exact failsOnly_bind (writeExpr_fails _ _) fun write _ => failsOnly_ok _

theorem objectCodeOf_fails (isVariant : Bool) (name : String) (o : ValueObject) :
    FailsOnly Fault.OfCode (objectCodeOf isVariant name o) := by
  unfold objectCodeOf
  apply failsOnly_bind (failsOnly_mapM fun p _ => objectFieldType_fails _ _ _)
  intro _ _
  apply failsOnly_bind (claimAccessors_fails _ _)
  intro _ _
  apply failsOnly_bind (failsOnly_mapM fun p _ => objectFieldOf_fails _ _ _)
  intro _ _
  exact failsOnly_ok _

theorem enumerationCodeOf_fails (name : String) (e : Enumeration) :
    FailsOnly Fault.OfCode (enumerationCodeOf name e) := by
  unfold enumerationCodeOf
  have members : FailsOnly Fault.OfCode (e.values.names.mapM (memberOf name)) := by
    apply failsOnly_mapM
    intro value _
    unfold memberOf
    split
    · exact failsOnly_ok _
    · exact failsOnly_error trivial
  exact failsOnly_bind members fun _ _ => failsOnly_ok _

section Loaded
variable {text : String} {m : Model} (loaded : Model.ofText text = .ok m)
  (valid : m.validate = .ok ())
include loaded valid

theorem itemCodeOf_fails (variants : List String) {name : String} {item : Item}
    (mem : (name, item) ∈ m.items.entries) :
    FailsOnly Fault.OfCode (itemCodeOf m variants name item) := by
  cases item with
  | entity x =>
    have fields := entityFields_fails name (variants.contains name)
      (.new ("entity " ++ name)) (entity_resolves loaded mem)
    exact failsOnly_bind (failsOnly_bind fields fun _ _ => failsOnly_ok _) fun _ _ =>
      failsOnly_ok _
  | object x => exact failsOnly_bind (objectCodeOf_fails _ _ _) fun _ _ => failsOnly_ok _
  | union u =>
    have valid := forM_eq_ok.mp valid (name, .union u) mem
    have union := unionCodeOf_succeeds name valid
    exact failsOnly_bind (failsOnly_of_succeeds union) fun _ _ => failsOnly_ok _
  | enumeration x => exact failsOnly_bind (enumerationCodeOf_fails _ _) fun _ _ => failsOnly_ok _

theorem itemFileOf_fails (variants : List String) {name : String} {item : Item}
    (mem : (name, item) ∈ m.items.entries) :
    FailsOnly Fault.OfCode (itemFileOf m variants name item) := by
  unfold itemFileOf
  apply failsOnly_bind (itemCodeOf_fails loaded valid variants mem)
  intro code run
  have lines := lines_succeeds loaded mem (itemCodeOf_composedFrom run)
  exact failsOnly_bind (failsOnly_of_succeeds lines) fun _ _ => failsOnly_ok _

theorem itemFiles_fails (variants : List String) (modules : Scope)
    {entries : List (String × Item)} (within : ∀ e ∈ entries, e ∈ m.items.entries) :
    FailsOnly Fault.OfCode (itemFiles m variants modules entries) := by
  induction entries generalizing modules with
  | nil => exact failsOnly_ok []
  | cons first rest ih =>
    obtain ⟨name, item⟩ := first
    have here := itemFileOf_fails loaded valid variants (within _ List.mem_cons_self)
    apply failsOnly_bind here
    intro file _
    apply failsOnly_bind (claim_fails _ _ _)
    intro claimed _
    have others := ih claimed fun e mem => within e (List.mem_cons_of_mem _ mem)
    exact failsOnly_bind others fun files _ => failsOnly_ok _

theorem generate_fails : FailsOnly Fault.OfCode (generate m) := by
  have files := itemFiles_fails loaded valid m.variantNames (.new modelModule) fun _ mem => mem
  exact failsOnly_bind files fun _ _ => failsOnly_ok _

end Loaded

/-- From a loaded and valid model code is generated, unless a type is not supported or two names
    clash. No item is missed and none is of another kind than expected. -/
theorem generate_of_validate {text : String} {m : Model} (loaded : Model.ofText text = .ok m)
    (valid : m.validate = .ok ()) :
    (∃ tree, generate m = .ok tree) ∨
      (∃ kind name, generate m = .error (.unsupported kind name)) ∨
      ∃ message, generate m = .error (.clash message) := by
  have fails := generate_fails loaded valid
  cases run : generate m with
  | ok tree => exact .inl ⟨tree, rfl⟩
  | error fault =>
    have ofCode := fails fault run
    cases fault with
    | unsupported kind name => exact .inr (.inl ⟨kind, name, rfl⟩)
    | clash message => exact .inr (.inr ⟨message, rfl⟩)
    | load _ | schema _ | storage _ => exact absurd ofCode id

def linkedText : String :=
  "<schema><union name=\"U\"><variant name=\"A\"/></union>" ++
  "<entity name=\"A\"><property name=\"e\" type=\"E\"/></entity>" ++
  "<enum name=\"E\"><value name=\"V\"/></enum></schema>"

theorem linkedText_generates :
    ∃ m, Model.ofText linkedText = .ok m ∧ m.validate = .ok () ∧
      ((∃ tree, generate m = .ok tree) ∨
        (∃ kind name, generate m = .error (.unsupported kind name)) ∨
        ∃ message, generate m = .error (.clash message)) := by
  have loaded : Model.ofText linkedText = .ok ⟨{ entries :=
      [("U", .union ⟨none, ["A"]⟩),
       ("A", .entity ⟨none, { entries :=
         [("id", ⟨.scalar "ID", false, none⟩), ("e", ⟨.enumeration "E", true, none⟩)] }⟩),
       ("E", .enumeration ⟨none, { names := ["V"] }⟩)] }⟩ :=
    eq_ok_of_toOption (by decide +kernel)
  exact ⟨_, loaded, rfl, generate_of_validate loaded rfl⟩

end DataLayer.Code
