import DataLayer.Schema.Validation
import DataLayer.Proofs.Schema.References

/- Declarations in another order. A declaration looks for names among all others, wherever these
   stand, so that it resolves to the same item, and items are checked one by one against names that
   are found in either model. -/
namespace DataLayer.Schema
open Outcome

section Kinds
variable {kinds others : Table ItemKind} (same : ∀ name, kinds.get? name = others.get? name)
include same

theorem namedType_congr (name : String) : namedType kinds name = namedType others name := by
  unfold namedType
  rw [same name]

theorem typeExpr_resolve_congr (t : TypeExpr) : t.resolve kinds = t.resolve others := by
  induction t with
  | named name nullable => exact namedType_congr same name
  | list item nullable ih => rw [TypeExpr.resolve, TypeExpr.resolve, ih]

theorem relatedEntity?_congr (t : TypeExpr) :
    t.relatedEntity? kinds = t.relatedEntity? others := by
  unfold TypeExpr.relatedEntity?
  split
  · rw [same]
  · rfl

theorem propertyDeclaration_resolve_congr (d : PropertyDeclaration) :
    d.resolve kinds = d.resolve others := by
  unfold PropertyDeclaration.resolve
  rw [typeExpr_resolve_congr same, relatedEntity?_congr same]

theorem resolveProperties_congr (owner : String) (declared : List PropertyDeclaration) :
    resolveProperties kinds owner declared = resolveProperties others owner declared := by
  unfold resolveProperties
  simp only [propertyDeclaration_resolve_congr same]

theorem declaration_resolve_congr (name : String) (d : Declaration) :
    d.resolve kinds name = d.resolve others name := by
  cases d with
  | entity description declared =>
    rw [Declaration.resolve, Declaration.resolve, resolveProperties_congr same]
  | object description declared =>
    rw [Declaration.resolve, Declaration.resolve, resolveProperties_congr same]
  | union u => rfl
  | enumeration e => rfl

end Kinds

theorem resolve_entries_succeeds {kinds : Table ItemKind} {start : Model}
    {entries : List (String × Declaration)} :
    Succeeds (entries.foldlM
      (fun model e => do return model.insert e.1 (← e.2.resolve kinds e.1)) start) ↔
      ∀ d ∈ entries, Succeeds (d.2.resolve kinds d.1) := by
  induction entries generalizing start with
  | nil => exact iff_of_true (succeeds_ok start) (by simp)
  | cons d rest ih =>
    rw [List.foldlM_cons, succeeds_bind_of_iff fun _ _ => ih, succeeds_bind_pure,
      List.forall_mem_cons]

section Reordered
variable {a b : Table Declaration} (order : a.entries.Perm b.entries)
include order

theorem kinds_of_perm (name : String) :
    (a.map Declaration.kind).get? name = (b.map Declaration.kind).get? name := by
  rw [Table.get?_map, Table.get?_map, Table.get?_eq_of_perm order]

theorem declaration_resolve_of_perm (name : String) (d : Declaration) :
    d.resolve (a.map Declaration.kind) name = d.resolve (b.map Declaration.kind) name :=
  declaration_resolve_congr (kinds_of_perm order) name d

theorem resolveAll_of_perm {m : Model} (run : resolveAll a = .ok m) :
    ∃ n, resolveAll b = .ok n ∧ m.items.entries.Perm n.items.entries := by
  have each := resolve_entries_succeeds.mp ⟨m, run⟩
  have succeeds : Succeeds (resolveAll b) := by
    refine resolve_entries_succeeds.mpr fun d mem => ?_
    rw [← declaration_resolve_of_perm order]
    exact each d (order.mem_iff.mpr mem)
  obtain ⟨n, other⟩ := succeeds
  have moved := resolveAll_eq_ok other
  simp only [← declaration_resolve_of_perm order] at moved
  have unique : Relator.RightUnique fun (d : String × Declaration) (e : String × Item) =>
      e.1 = d.1 ∧ d.2.resolve (a.map Declaration.kind) d.1 = .ok e.2 := by
    rintro d ⟨name, item⟩ ⟨otherName, otherItem⟩ ⟨rfl, here⟩ ⟨rfl, there⟩
    rw [here] at there
    cases there
    rfl
  exact ⟨n, other, perm_of_forall₂ unique order (resolveAll_eq_ok run) moved⟩

end Reordered

theorem validate_of_perm {m n : Model} (order : m.items.entries.Perm n.items.entries)
    (valid : m.validate = .ok ()) : n.validate = .ok () := by
  have item : m.item = n.item := by
    funext name
    rw [Model.item, Model.item, Model.get?, Model.get?, Table.get?_eq_of_perm order]
  have check : validateItem m = validateItem n := by
    funext name x
    unfold validateItem validateVariant
    rw [item]
  refine forM_eq_ok.mpr fun e mem => ?_
  rw [← check]
  exact forM_eq_ok.mp valid e (order.mem_iff.mpr mem)

end DataLayer.Schema
