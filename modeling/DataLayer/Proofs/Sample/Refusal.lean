import DataLayer.Proofs.Sample.LifeCycle
import DataLayer.Sample.Owner

/- Values that are no records. A reader looks its properties up and never asks if there is anything
   to look them up in, so that such a value is read as a record without members. It is refused for
   the first property that may not be null, or for the missing name of a variant. Metadata have no
   such property, and in their place any value passes for empty metadata. -/
namespace DataLayer.Json

def Value.IsRecord (v : Value) : Prop := ∃ members, v = .object members

end DataLayer.Json

namespace DataLayer.Record
open Json

theorem member?_of_not_record {v : Value} (other : ¬ v.IsRecord) (key : String) :
    v.member? key = none := by
  cases v with
  | object members => exact absurd ⟨members, rfl⟩ other
  | null | boolean _ | integer _ | double _ | string _ | array _ => rfl

theorem field_of_not_record {v : Value} (other : ¬ v.IsRecord) (key : String) :
    field v key = .null := by
  rw [field, member?_of_not_record other, Option.getD_none]

theorem readAt_of_not_record {α : Type} {v : Value} (other : ¬ v.IsRecord) (c : Codec α)
    (key : String) : c.readAt v key = c.read .null := by
  rw [Codec.readAt, field_of_not_record other]

theorem discriminator?_of_not_record {v : Value} (other : ¬ v.IsRecord) :
    discriminator? v = none := by
  rw [discriminator?, member?_of_not_record other, Option.bind_none]

theorem readNonNull_of_ne_null {α : Type} {v : Value} (present : v ≠ .null)
    (read : Value → Except Fault α) (write : α → Except Unset Value) :
    (⟨Codec.readNonNull read, write⟩ : Codec α).nullable.read v = (read v).map some := by
  have notNull : v.isNull = false := Bool.eq_false_iff.mpr fun null =>
    present (Value.isNull_iff.mp null)
  simp only [Codec.nullable, Codec.readNonNull, notNull, Bool.false_eq_true, if_false]

end DataLayer.Record

namespace DataLayer.Sample
open Record Json Outcome
variable {v : Value}

theorem Metadata.read_of_not_record (other : ¬ v.IsRecord) : read v = .ok {} := by
  rw [read, readAt_of_not_record other]
  rfl

theorem Circle.read_of_not_record (other : ¬ v.IsRecord) :
    read v = .error (.wrongKind "number" "null") := by
  rw [read, readAt_of_not_record other]
  rfl

theorem Square.read_of_not_record (other : ¬ v.IsRecord) :
    read v = .error (.wrongKind "32-bit integer" "null") := by
  rw [read, readAt_of_not_record other]
  rfl

theorem Shape.read_of_not_record (other : ¬ v.IsRecord) :
    read v = .error (.unknownVariant "Shape" none) := by
  rw [read, discriminator?_of_not_record other]

theorem Drawing.read_of_not_record (other : ¬ v.IsRecord) :
    read v = .error (.wrongKind "string" "null") := by
  rw [read, readAt_of_not_record other]
  rfl

theorem Account.read_of_not_record (other : ¬ v.IsRecord) :
    read v = .error (.wrongKind "string" "null") := by
  rw [read, readAt_of_not_record other]
  rfl

theorem Owner.read_of_not_record (other : ¬ v.IsRecord) :
    read v = .error (.unknownVariant "Owner" none) := by
  rw [read, discriminator?_of_not_record other]

namespace Drawing

theorem shapes_records {record : Value} {elements : List Value}
    (listed : field record "shapes" = .array elements) (succeeds : Succeeds (new (some record))) :
    ∀ e ∈ elements, e.IsRecord := by
  intro e mem
  by_contra other
  obtain ⟨d, begun⟩ := succeeds
  obtain ⟨shapes, read, _⟩ := (new_reads begun).shapes
  rw [Codec.readAt, listed] at read
  obtain ⟨s, _, given⟩ := exists_right_of_mem (mapM_eq_ok.mp read) mem
  have refused : Shape.codec.read e = .error (.unknownVariant "Shape" none) :=
    Shape.read_of_not_record other
  rw [refused] at given
  contradiction

theorem metadataCodec_read_of_not_record (other : ¬ v.IsRecord) (present : v ≠ .null) :
    metadataCodec.read v = .ok (some {}) := by
  rw [metadataCodec, Metadata.codec, readNonNull_of_ne_null present,
    Metadata.read_of_not_record other]
  rfl

/-- What is no record passes for empty metadata. -/
theorem new_of_wrong_metadata {record repaired : Value} (other : ¬ (field record "meta").IsRecord)
    (present : field record "meta" ≠ .null) (empty : field repaired "meta" = .object [])
    (same : ∀ key ≠ "meta", field repaired key = field record key) :
    new (some record) = new (some repaired) := by
  have unseen : metadataCodec.readAt record "meta" = metadataCodec.readAt repaired "meta" := by
    rw [Codec.readAt, Codec.readAt, metadataCodec_read_of_not_record other present, empty]
    rfl
  have seen : ∀ {α : Type} (c : Codec α) (key : String), key ≠ "meta" →
      c.readAt record key = c.readAt repaired key := fun c key differs => by
    rw [Codec.readAt, Codec.readAt, same key differs]
  change read record = read repaired
  rw [read, read, unseen, seen _ "status" (by decide), seen _ "owner" (by decide),
    seen _ "shapes" (by decide), seen _ "weights" (by decide), seen _ "payload" (by decide)]

theorem metadata_of_not_record {record : Value} {d : Drawing}
    (other : ¬ (field record "meta").IsRecord) (present : field record "meta" ≠ .null)
    (begun : new (some record) = .ok d) : d.metadata = some {} := by
  have read : metadataCodec.read (field record "meta") = .ok d.metadata :=
    (new_reads begun).metadata
  rw [metadataCodec_read_of_not_record other present] at read
  exact (Except.ok.inj read).symm

end Drawing

theorem Account.drawing_record {record : Value} (succeeds : Succeeds (new (some record))) :
    field record "drawing" = .null ∨ (field record "drawing").IsRecord := by
  rw [or_iff_not_imp_left]
  intro present
  by_contra other
  obtain ⟨a, begun⟩ := succeeds
  obtain ⟨_, _, run⟩ := bind_eq_ok.mp begun
  obtain ⟨_, _, run⟩ := bind_eq_ok.mp run
  obtain ⟨_, _, run⟩ := bind_eq_ok.mp run
  obtain ⟨_, read, _⟩ := bind_eq_ok.mp run
  rw [Codec.readAt, drawingColumn, Drawing.codec, readNonNull_of_ne_null present,
    Drawing.read_of_not_record other] at read
  contradiction

/-- What readers make of a value that is no record. All but one refuse it, wherever it stands. -/
structure OutOfPlace (v : Value) : Prop where
  circle : Circle.new (some v) = .error (.wrongKind "number" "null")
  square : Square.new (some v) = .error (.wrongKind "32-bit integer" "null")
  drawing : Drawing.new (some v) = .error (.wrongKind "string" "null")
  account : Account.new (some v) = .error (.wrongKind "string" "null")
  shape : Shape.read v = .error (.unknownVariant "Shape" none)
  owner : Owner.read v = .error (.unknownVariant "Owner" none)
  metadata : Metadata.new (some v) = .ok {}
  amongShapes : ∀ record elements, field record "shapes" = .array elements → v ∈ elements →
    ¬ Succeeds (Drawing.new (some record))
  asDrawing : ∀ record, field record "drawing" = v → v ≠ .null →
    ¬ Succeeds (Account.new (some record))
  asMetadata : ∀ record, field record "meta" = v → v ≠ .null →
    ∀ d, Drawing.new (some record) = .ok d → d.metadata = some {}
  likeEmpty : ∀ record repaired, field record "meta" = v → v ≠ .null →
    field repaired "meta" = .object [] →
    (∀ key ≠ "meta", field repaired key = field record key) →
    Drawing.new (some record) = Drawing.new (some repaired)

theorem outOfPlace_of_not_record (other : ¬ v.IsRecord) : OutOfPlace v where
  circle := Circle.read_of_not_record other
  square := Square.read_of_not_record other
  drawing := Drawing.read_of_not_record other
  account := Account.read_of_not_record other
  shape := Shape.read_of_not_record other
  owner := Owner.read_of_not_record other
  metadata := Metadata.read_of_not_record other
  amongShapes _ _ listed mem succeeds := other (Drawing.shapes_records listed succeeds v mem)
  asDrawing _ held present succeeds := by
    rcases Account.drawing_record succeeds with null | record
    · exact present (held ▸ null)
    · exact other (held ▸ record)
  asMetadata _ held present _ begun :=
    Drawing.metadata_of_not_record (held ▸ other) (held ▸ present) begun
  likeEmpty _ _ held present empty same :=
    Drawing.new_of_wrong_metadata (held ▸ other) (held ▸ present) empty same

def drawingRecord (metadata : Value) : Value :=
  .object [("meta", metadata), ("shapes", .array []), ("status", .string "ACTIVE")]

theorem number_not_record (n : Int) : ¬ (Value.integer n).IsRecord := by
  rintro ⟨_, same⟩
  contradiction

theorem number_outOfPlace :
    OutOfPlace (.integer 5) ∧
      Drawing.new (some (drawingRecord (.integer 5))) =
        Drawing.new (some (drawingRecord (.object []))) := by
  have number := outOfPlace_of_not_record (number_not_record 5)
  refine ⟨number, number.likeEmpty _ _ rfl (by simp) rfl fun key differs => ?_⟩
  have unlike : (key == "meta") = false := beq_eq_false_iff_ne.mpr differs
  simp [drawingRecord, field, Value.member?, List.lookup_cons, unlike]

theorem number_passes_for_metadata :
    ¬ (Value.integer 5).IsRecord ∧ Metadata.new (some (.integer 5)) = .ok {} ∧
      Drawing.new (some (drawingRecord (.integer 5))) =
        .ok { status? := some .active, shapes? := some [], metadata := some {} } :=
  ⟨number_not_record 5, rfl, rfl⟩

end DataLayer.Sample
