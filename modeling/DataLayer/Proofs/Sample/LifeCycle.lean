import DataLayer.Proofs.Record.Objects
import DataLayer.Sample.Drawing

/- The life of the objects of the sample model. An object is new or read from a record, and then its
   properties are set in any order and any number of times. At every moment its getters return what
   was set last, and it can be written if no required property is missing, in it or in the objects
   that it holds. -/
namespace DataLayer.Sample
open Record Json Number Time

theorem Status.codec_total : Status.codec.Total := Codec.member_total

namespace Metadata

inductive Setting
  | tag (value : Option String)

def set : Setting → Metadata → Metadata
  | .tag value => setTag value

def tagProperty : Property Metadata Setting String :=
  .ofNullable "tag" Codec.text.nullable tag fun
    | .tag value => some value

def missing (_ : Metadata) : List Unset := []

def parts (m : Metadata) : Parts := [("tag", Codec.text.nullable.write m.tag)]

structure LifeCycle : Prop where
  tag : tagProperty.Nullable new set Metadata.tag
  written : WritesParts write ["tag"] missing parts

theorem tag_kept : tagProperty.Kept new set := by
  refine Property.ofNullable_kept ⟨_, rfl, rfl⟩ (fun v m begun => ?_) fun s m => by cases s; rfl
  obtain ⟨tag, read, run⟩ := Outcome.bind_eq_ok.mp begun
  cases Outcome.pure_eq_ok.mp run
  exact read

theorem write_eq (m : Metadata) : write m = recordOf m.parts := by
  simp only [write, parts, recordOf_eq_bind, bind_members_cons, List.mapM_nil, pure_bind]

theorem parts_misses (m : Metadata) : Misses (recordOf m.parts) m.missing := by
  have tag := Codec.text_total.nullable m.tag
  exact misses_recordOf [[]] (.cons tag .nil)

theorem lifeCycle : LifeCycle where
  tag := tag_kept.nullable
  written := writesParts_of_recordOf (by decide) (fun _ => rfl) write_eq parts_misses

theorem write_misses (m : Metadata) : Misses (codec.write m) m.missing :=
  lifeCycle.written.fails m

end Metadata

namespace Circle

inductive Setting
  | radius (value : Binary64)

def set : Setting → Circle → Circle
  | .radius value => setRadius value

def radiusProperty : Property Circle Setting Binary64 :=
  .ofRequired "radius" Codec.double radius? fun
    | .radius value => some value

def missing (c : Circle) : List Unset := unset "Circle" "radius" c.radius?

def parts (c : Circle) : Parts :=
  [(discriminatorKey, .ok (.string typeName)), ("radius", c.radius >>= Codec.double.write)]

structure LifeCycle : Prop where
  radius : radiusProperty.Required new set "Circle" Circle.radius
  written : WritesParts write [discriminatorKey, "radius"] missing parts

theorem radius_kept : radiusProperty.Kept new set := by
  refine Property.ofRequired_kept ⟨_, rfl, rfl⟩ (fun v c begun => ?_) fun s c => by cases s; rfl
  obtain ⟨radius, read, run⟩ := Outcome.bind_eq_ok.mp begun
  cases Outcome.pure_eq_ok.mp run
  exact ⟨radius, read, rfl⟩

theorem write_eq (c : Circle) : write c = recordOf c.parts := by
  simp only [write, parts, recordOf_eq_bind, bind_members_cons, List.mapM_nil, pure_bind,
    bind_assoc]
  rfl

theorem parts_misses (c : Circle) : Misses (recordOf c.parts) c.missing := by
  have radius := Codec.double_total.required "Circle" "radius" c.radius?
  have all : Misses (recordOf c.parts) [[], c.missing].flatten :=
    misses_recordOf _ (.cons (misses_ok _) (.cons radius .nil))
  simpa using all

theorem lifeCycle : LifeCycle where
  radius := radius_kept.required Property.ofRequired_sets "Circle"
  written := writesParts_of_recordOf (by decide) (fun _ => rfl) write_eq parts_misses

end Circle

namespace Square

inductive Setting
  | side (value : Int32)
  | createdAt (value : Option Timestamp)

def set : Setting → Square → Square
  | .side value => setSide value
  | .createdAt value => setCreatedAt value

def sideProperty : Property Square Setting Int32 :=
  .ofRequired "side" Codec.integer side? fun
    | .side value => some value
    | _ => none

def createdAtProperty : Property Square Setting Timestamp :=
  .ofNullable "createdAt" Codec.timestamp.nullable createdAt fun
    | .createdAt value => some value
    | _ => none

def missing (s : Square) : List Unset := unset "Square" "side" s.side?

def parts (s : Square) : Parts :=
  [(discriminatorKey, .ok (.string typeName)), ("side", s.side >>= Codec.integer.write),
   ("createdAt", Codec.timestamp.nullable.write s.createdAt)]

structure LifeCycle : Prop where
  side : sideProperty.Required new set "Square" Square.side
  createdAt : createdAtProperty.Nullable new set Square.createdAt
  written : WritesParts write [discriminatorKey, "side", "createdAt"] missing parts

theorem new_reads {v : Value} {s : Square} (begun : new (some v) = .ok s) :
    (∃ side, Codec.integer.readAt v "side" = .ok side ∧ s.side? = some side) ∧
      Codec.timestamp.nullable.readAt v "createdAt" = .ok s.createdAt := by
  obtain ⟨side, sideRead, run⟩ := Outcome.bind_eq_ok.mp begun
  obtain ⟨createdAt, createdRead, run⟩ := Outcome.bind_eq_ok.mp run
  cases Outcome.pure_eq_ok.mp run
  exact ⟨⟨side, sideRead, rfl⟩, createdRead⟩

theorem side_kept : sideProperty.Kept new set :=
  Property.ofRequired_kept ⟨_, rfl, rfl⟩ (fun _ _ begun => (new_reads begun).1)
    fun s _ => by cases s <;> rfl

theorem createdAt_kept : createdAtProperty.Kept new set :=
  Property.ofNullable_kept ⟨_, rfl, rfl⟩ (fun _ _ begun => (new_reads begun).2)
    fun s _ => by cases s <;> rfl

theorem write_eq (s : Square) : write s = recordOf s.parts := by
  simp only [write, parts, recordOf_eq_bind, bind_members_cons, List.mapM_nil, pure_bind,
    bind_assoc]
  rfl

theorem parts_misses (s : Square) : Misses (recordOf s.parts) s.missing := by
  have side := Codec.integer_total.required "Square" "side" s.side?
  have createdAt := Codec.timestamp_total.nullable s.createdAt
  have all : Misses (recordOf s.parts) [[], s.missing, []].flatten :=
    misses_recordOf _ (.cons (misses_ok _) (.cons side (.cons createdAt .nil)))
  simpa using all

theorem lifeCycle : LifeCycle where
  side := side_kept.required Property.ofRequired_sets "Square"
  createdAt := createdAt_kept.nullable
  written := writesParts_of_recordOf (by decide) (fun _ => rfl) write_eq parts_misses

end Square

namespace Shape

def missing : Shape → List Unset
  | .circle c => c.missing
  | .square s => s.missing

theorem write_misses (s : Shape) : Misses (codec.write s) s.missing := by
  cases s with
  | circle c => exact Circle.lifeCycle.written.fails c
  | square q => exact Square.lifeCycle.written.fails q

end Shape

namespace Drawing

inductive Setting
  | status (value : Status)
  | owner (value : Option String)
  | shapes (value : List Shape)
  | weights (value : Option (List (Option Int)))
  | payload (value : Option (List UInt8))
  | metadata (value : Option Metadata)

def set : Setting → Drawing → Drawing
  | .status value => setStatus value
  | .owner value => setOwner value
  | .shapes value => setShapes value
  | .weights value => setWeights value
  | .payload value => setPayload value
  | .metadata value => setMetadata value

def statusProperty : Property Drawing Setting Status :=
  .ofRequired "status" Status.codec status? fun
    | .status value => some value
    | _ => none

def ownerProperty : Property Drawing Setting String :=
  .ofNullable "owner" Codec.text.nullable owner fun
    | .owner value => some value
    | _ => none

def shapesProperty : Property Drawing Setting (List Shape) :=
  .ofRequired "shapes" shapesCodec shapes? fun
    | .shapes value => some value
    | _ => none

def weightsProperty : Property Drawing Setting (List (Option Int)) :=
  .ofNullable "weights" weightsCodec weights fun
    | .weights value => some value
    | _ => none

def payloadProperty : Property Drawing Setting (List UInt8) :=
  .ofNullable "payload" payloadCodec payload fun
    | .payload value => some value
    | _ => none

def metadataProperty : Property Drawing Setting Metadata :=
  .ofNullable "meta" metadataCodec metadata fun
    | .metadata value => some value
    | _ => none

/-- The properties that keep an object from being written, in the order of writing, those of the
    objects that it holds included. -/
def missing (d : Drawing) : List Unset :=
  unset "Drawing" "status" d.status? ++ unset "Drawing" "shapes" d.shapes? ++
    d.shapes?.elim [] (·.flatMap Shape.missing) ++ d.metadata.elim [] Metadata.missing

def parts (d : Drawing) : Parts :=
  [("status", d.status >>= Status.codec.write), ("owner", Codec.text.nullable.write d.owner),
   ("shapes", d.shapes >>= shapesCodec.write), ("weights", weightsCodec.write d.weights),
   ("payload", payloadCodec.write d.payload), ("meta", metadataCodec.write d.metadata)]

structure LifeCycle : Prop where
  status : statusProperty.Required new set "Drawing" Drawing.status
  owner : ownerProperty.Nullable new set Drawing.owner
  shapes : shapesProperty.Required new set "Drawing" Drawing.shapes
  weights : weightsProperty.Nullable new set Drawing.weights
  payload : payloadProperty.Nullable new set Drawing.payload
  metadata : metadataProperty.Nullable new set Drawing.metadata
  written : WritesParts write ["status", "owner", "shapes", "weights", "payload", "meta"] missing
    parts

structure ReadFrom (v : Value) (d : Drawing) : Prop where
  status : ∃ status, Status.codec.readAt v "status" = .ok status ∧ d.status? = some status
  owner : Codec.text.nullable.readAt v "owner" = .ok d.owner
  shapes : ∃ shapes, shapesCodec.readAt v "shapes" = .ok shapes ∧ d.shapes? = some shapes
  weights : weightsCodec.readAt v "weights" = .ok d.weights
  payload : payloadCodec.readAt v "payload" = .ok d.payload
  metadata : metadataCodec.readAt v "meta" = .ok d.metadata

theorem new_reads {v : Value} {d : Drawing} (begun : new (some v) = .ok d) : d.ReadFrom v := by
  obtain ⟨status, statusRead, run⟩ := Outcome.bind_eq_ok.mp begun
  obtain ⟨owner, ownerRead, run⟩ := Outcome.bind_eq_ok.mp run
  obtain ⟨shapes, shapesRead, run⟩ := Outcome.bind_eq_ok.mp run
  obtain ⟨weights, weightsRead, run⟩ := Outcome.bind_eq_ok.mp run
  obtain ⟨payload, payloadRead, run⟩ := Outcome.bind_eq_ok.mp run
  obtain ⟨metadata, metadataRead, run⟩ := Outcome.bind_eq_ok.mp run
  cases Outcome.pure_eq_ok.mp run
  exact ⟨⟨status, statusRead, rfl⟩, ownerRead, ⟨shapes, shapesRead, rfl⟩, weightsRead, payloadRead,
    metadataRead⟩

theorem status_kept : statusProperty.Kept new set :=
  Property.ofRequired_kept ⟨_, rfl, rfl⟩ (fun _ _ begun => (new_reads begun).status)
    fun s _ => by cases s <;> rfl

theorem owner_kept : ownerProperty.Kept new set :=
  Property.ofNullable_kept ⟨_, rfl, rfl⟩ (fun _ _ begun => (new_reads begun).owner)
    fun s _ => by cases s <;> rfl

theorem shapes_kept : shapesProperty.Kept new set :=
  Property.ofRequired_kept ⟨_, rfl, rfl⟩ (fun _ _ begun => (new_reads begun).shapes)
    fun s _ => by cases s <;> rfl

theorem weights_kept : weightsProperty.Kept new set :=
  Property.ofNullable_kept ⟨_, rfl, rfl⟩ (fun _ _ begun => (new_reads begun).weights)
    fun s _ => by cases s <;> rfl

theorem payload_kept : payloadProperty.Kept new set :=
  Property.ofNullable_kept ⟨_, rfl, rfl⟩ (fun _ _ begun => (new_reads begun).payload)
    fun s _ => by cases s <;> rfl

theorem metadata_kept : metadataProperty.Kept new set :=
  Property.ofNullable_kept ⟨_, rfl, rfl⟩ (fun _ _ begun => (new_reads begun).metadata)
    fun s _ => by cases s <;> rfl

theorem write_eq (d : Drawing) : write d = recordOf d.parts := by
  simp only [write, parts, recordOf_eq_bind, bind_members_cons, List.mapM_nil, pure_bind,
    bind_assoc]

theorem parts_misses (d : Drawing) : Misses (recordOf d.parts) d.missing := by
  have status := Status.codec_total.required "Drawing" "status" d.status?
  have owner := Codec.text_total.nullable d.owner
  have shapes := Codec.required_misses "Drawing" "shapes" d.shapes?
    (Codec.list_misses Shape.write_misses)
  have weights := Codec.wholeNumber_total.nullable.list.nullable d.weights
  have payload := Codec.bytes_total.nullable d.payload
  have metadata := Codec.nullable_misses Metadata.write_misses d.metadata
  have all : Misses (recordOf d.parts) [unset "Drawing" "status" d.status?, [],
      unset "Drawing" "shapes" d.shapes? ++ d.shapes?.elim [] (·.flatMap Shape.missing), [], [],
      d.metadata.elim [] Metadata.missing].flatten :=
    misses_recordOf _ (.cons status (.cons owner (.cons shapes (.cons weights (.cons payload
      (.cons metadata .nil))))))
  simpa [missing] using all

theorem lifeCycle : LifeCycle where
  status := status_kept.required Property.ofRequired_sets "Drawing"
  owner := owner_kept.nullable
  shapes := shapes_kept.required Property.ofRequired_sets "Drawing"
  weights := weights_kept.nullable
  payload := payload_kept.nullable
  metadata := metadata_kept.nullable
  written := writesParts_of_recordOf (by decide) (fun _ => rfl) write_eq parts_misses

end Drawing

/-- All objects of the model hold what they were given last, property by property, and are written
    in full or not at all. -/
theorem objects_lifeCycle :
    Metadata.LifeCycle ∧ Circle.LifeCycle ∧ Square.LifeCycle ∧ Drawing.LifeCycle :=
  ⟨Metadata.lifeCycle, Circle.lifeCycle, Square.lifeCycle, Drawing.lifeCycle⟩

example : (afterAll Drawing.set {} [.shapes [.square ⟨some 2, none⟩, .circle {}],
    .status .active]).write = .error ⟨"Circle", "radius"⟩ := rfl

end DataLayer.Sample
