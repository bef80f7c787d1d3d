import DataLayer.Proofs.Record.Codecs
import DataLayer.Sample.Owner

/- Records of the sample model written and read back. Whatever has been read has all its required
   properties, so that it can be written. It is read back as it was if its moments are whole
   milliseconds of years with four digits. -/
namespace DataLayer.Sample
open Record Json Number Time

theorem Status.codec_restores (s : Status) : Status.codec.Restores s :=
  Codec.member_restores (ofName?_name s)

theorem Status.codec_solid : Status.codec.Solid := Codec.member_solid

namespace Metadata

theorem restores (m : Metadata) : (⟨read, write⟩ : Codec Metadata).Restores m := by
  obtain ⟨tag, tagWritten, tagBack⟩ :=
    Codec.nullable_restores Codec.text_solid fun s (_ : s ∈ m.tag) => Codec.text_restores s
  have distinct : ["tag"].Nodup := by decide
  refine ⟨.ofMembers [("tag", tag)], ?_, ?_⟩
  · exact Outcome.bind_ok tagWritten rfl
  · exact Outcome.bind_ok (Codec.readAt_ofMembers "tag" distinct rfl tagBack) rfl

theorem codec_solid : codec.Solid := by
  intro m v run
  obtain ⟨tag, _, run⟩ := Outcome.bind_eq_ok.mp run
  cases Outcome.pure_eq_ok.mp run
  rfl

theorem codec_restores (m : Metadata) : codec.Restores m :=
  Codec.readNonNull_restores codec_solid m.restores

end Metadata

namespace Circle

def Complete (c : Circle) : Prop := ∃ radius : Double, c.radius? = some (.finite radius)

theorem read_complete : (⟨read, write⟩ : Codec Circle).Yields Complete := by
  intro v c run
  obtain ⟨radius, length, run⟩ := Outcome.bind_eq_ok.mp run
  cases Outcome.pure_eq_ok.mp run
  obtain ⟨d, rfl⟩ := Codec.double_yields _ _ length
  exact ⟨d, rfl⟩

theorem restores {c : Circle} (complete : c.Complete) :
    (⟨read, write⟩ : Codec Circle).Restores c := by
  obtain ⟨radius⟩ := c
  obtain ⟨length, rfl⟩ := complete
  obtain ⟨form, written, back⟩ := Codec.double_restores length
  have distinct : [discriminatorKey, "radius"].Nodup := by decide
  refine ⟨.ofMembers [(discriminatorKey, .string typeName), ("radius", form)], ?_, ?_⟩
  · exact Outcome.bind_ok rfl (Outcome.bind_ok written rfl)
  · exact Outcome.bind_ok (Codec.readAt_ofMembers "radius" distinct rfl back) rfl

theorem discriminator?_write {c : Circle} {v : Value} (run : c.write = .ok v) :
    discriminator? v = some typeName := by
  obtain ⟨_, _, run⟩ := Outcome.bind_eq_ok.mp run
  obtain ⟨form, _, run⟩ := Outcome.bind_eq_ok.mp run
  cases Outcome.pure_eq_ok.mp run
  have distinct : [discriminatorKey, "radius"].Nodup := by decide
  exact discriminator?_ofMembers distinct rfl

end Circle

namespace Square

def moments (s : Square) : List Timestamp := s.createdAt.toList

def Complete (s : Square) : Prop := (∃ side, s.side? = some side) ∧ ∀ t ∈ s.moments, t.Readable

theorem read_complete : (⟨read, write⟩ : Codec Square).Yields Complete := by
  intro v s run
  obtain ⟨side, _, run⟩ := Outcome.bind_eq_ok.mp run
  obtain ⟨createdAt, created, run⟩ := Outcome.bind_eq_ok.mp run
  cases Outcome.pure_eq_ok.mp run
  have readable := Codec.nullable_yields Codec.timestamp_yields _ _ created
  exact ⟨⟨side, rfl⟩, fun t held => readable t (Option.mem_toList.mp held)⟩

theorem restores {s : Square} (complete : s.Complete) (inMillis : ∀ t ∈ s.moments, t.InMillis) :
    (⟨read, write⟩ : Codec Square).Restores s := by
  obtain ⟨⟨side, set⟩, readable⟩ := complete
  obtain ⟨side?, createdAt⟩ := s
  subst set
  obtain ⟨sideForm, sideWritten, sideBack⟩ := Codec.integer_restores side
  have moment : ∀ t ∈ createdAt, Codec.timestamp.Restores t := by
    intro t held
    have listed := Option.mem_toList.mpr held
    exact Codec.timestamp_restores (readable t listed) (inMillis t listed)
  obtain ⟨createdForm, createdWritten, createdBack⟩ :=
    Codec.nullable_restores Codec.formatted_solid moment
  have distinct : [discriminatorKey, "side", "createdAt"].Nodup := by decide
  refine ⟨.ofMembers [(discriminatorKey, .string typeName), ("side", sideForm),
    ("createdAt", createdForm)], ?_, ?_⟩
  · apply Outcome.bind_ok rfl
    apply Outcome.bind_ok sideWritten
    exact Outcome.bind_ok createdWritten rfl
  · refine Outcome.bind_ok (Codec.readAt_ofMembers "side" distinct rfl sideBack) ?_
    exact Outcome.bind_ok (Codec.readAt_ofMembers "createdAt" distinct rfl createdBack) rfl

theorem discriminator?_write {s : Square} {v : Value} (run : s.write = .ok v) :
    discriminator? v = some typeName := by
  obtain ⟨_, _, run⟩ := Outcome.bind_eq_ok.mp run
  obtain ⟨sideForm, _, run⟩ := Outcome.bind_eq_ok.mp run
  obtain ⟨createdForm, _, run⟩ := Outcome.bind_eq_ok.mp run
  cases Outcome.pure_eq_ok.mp run
  have distinct : [discriminatorKey, "side", "createdAt"].Nodup := by decide
  exact discriminator?_ofMembers distinct rfl

end Square

namespace Shape

def moments : Shape → List Timestamp
  | .circle _ => []
  | .square s => s.moments

def Complete : Shape → Prop
  | .circle c => c.Complete
  | .square s => s.Complete

theorem read_eq_ok {v : Value} {s : Shape} : read v = .ok s ↔
    (discriminator? v = some Circle.typeName ∧ ∃ c, Circle.read v = .ok c ∧ s = .circle c) ∨
    (discriminator? v = some Square.typeName ∧ ∃ q, Square.read v = .ok q ∧ s = .square q) := by
  unfold read
  constructor
  · intro run
    split at run
    · rename_i named
      obtain ⟨c, inner, same⟩ := Outcome.map_eq_ok.mp run
      exact .inl ⟨named, c, inner, same.symm⟩
    · rename_i named
      obtain ⟨q, inner, same⟩ := Outcome.map_eq_ok.mp run
      exact .inr ⟨named, q, inner, same.symm⟩
    · contradiction
  · rintro (⟨named, c, inner, rfl⟩ | ⟨named, q, inner, rfl⟩)
    · simp [named, Circle.typeName, inner, Except.map]
    · simp [named, Square.typeName, inner, Except.map]

theorem read_names {v : Value} {s : Shape} (run : read v = .ok s) :
    discriminator? v = some s.typeName ∧
      ((∃ c, s = .circle c) ↔ discriminator? v = some Circle.typeName) ∧
      ((∃ q, s = .square q) ↔ discriminator? v = some Square.typeName) := by
  rcases read_eq_ok.mp run with ⟨named, c, _, rfl⟩ | ⟨named, q, _, rfl⟩
  · simp [named, typeName, Circle.typeName, Square.typeName]
  · simp [named, typeName, Circle.typeName, Square.typeName]

theorem read_complete : codec.Yields Complete := by
  intro v s run
  rcases read_eq_ok.mp run with ⟨_, c, inner, rfl⟩ | ⟨_, q, inner, rfl⟩
  · exact Circle.read_complete v c inner
  · exact Square.read_complete v q inner

theorem restores {s : Shape} (complete : s.Complete) (inMillis : ∀ t ∈ s.moments, t.InMillis) :
    codec.Restores s := by
  cases s with
  | circle c =>
    obtain ⟨v, written, back⟩ := Circle.restores complete
    have named := Circle.discriminator?_write written
    exact ⟨v, written, read_eq_ok.mpr (.inl ⟨named, c, back, rfl⟩)⟩
  | square q =>
    obtain ⟨v, written, back⟩ := Square.restores complete inMillis
    have named := Square.discriminator?_write written
    exact ⟨v, written, read_eq_ok.mpr (.inr ⟨named, q, back, rfl⟩)⟩

end Shape

namespace Drawing

def moments (d : Drawing) : List Timestamp := (d.shapes?.getD []).flatMap Shape.moments

def Complete (d : Drawing) : Prop :=
  (∃ status, d.status? = some status) ∧
    ∃ shapes, d.shapes? = some shapes ∧ ∀ s ∈ shapes, s.Complete

theorem read_complete : (⟨read, write⟩ : Codec Drawing).Yields Complete := by
  intro v d run
  obtain ⟨status, _, run⟩ := Outcome.bind_eq_ok.mp run
  obtain ⟨owner, _, run⟩ := Outcome.bind_eq_ok.mp run
  obtain ⟨shapes, drawn, run⟩ := Outcome.bind_eq_ok.mp run
  obtain ⟨weights, _, run⟩ := Outcome.bind_eq_ok.mp run
  obtain ⟨payload, _, run⟩ := Outcome.bind_eq_ok.mp run
  obtain ⟨metadata, _, run⟩ := Outcome.bind_eq_ok.mp run
  cases Outcome.pure_eq_ok.mp run
  have complete := Codec.list_yields Shape.read_complete _ _ drawn
  exact ⟨⟨status, rfl⟩, shapes, rfl, complete⟩

theorem weightsCodec_restores (weights : Option (List (Option Int))) :
    weightsCodec.Restores weights := by
  refine Codec.nullable_restores Codec.list_solid fun list _ => ?_
  refine Codec.list_restores fun weight _ => ?_
  exact Codec.nullable_restores Codec.formatted_solid fun n _ => Codec.wholeNumber_restores n

theorem payloadCodec_restores (payload : Option (List UInt8)) : payloadCodec.Restores payload :=
  Codec.nullable_restores Codec.formatted_solid fun data _ => Codec.bytes_restores data

theorem metadataCodec_restores (metadata : Option Metadata) :
    metadataCodec.Restores metadata :=
  Codec.nullable_restores Metadata.codec_solid fun m _ => m.codec_restores

theorem restores {d : Drawing} (complete : d.Complete) (inMillis : ∀ t ∈ d.moments, t.InMillis) :
    (⟨read, write⟩ : Codec Drawing).Restores d := by
  obtain ⟨⟨status, statusSet⟩, shapes, shapesSet, each⟩ := complete
  obtain ⟨status?, owner, shapes?, weights, payload, metadata⟩ := d
  subst statusSet shapesSet
  have shape : ∀ s ∈ shapes, Shape.codec.Restores s := by
    intro s drawn
    refine Shape.restores (each s drawn) fun t held => inMillis t ?_
    exact List.mem_flatMap.mpr ⟨s, drawn, held⟩
  obtain ⟨statusForm, statusWritten, statusBack⟩ := Status.codec_restores status
  obtain ⟨ownerForm, ownerWritten, ownerBack⟩ :=
    Codec.nullable_restores Codec.text_solid fun s (_ : s ∈ owner) => Codec.text_restores s
  obtain ⟨shapesForm, shapesWritten, shapesBack⟩ := Codec.list_restores shape
  obtain ⟨weightsForm, weightsWritten, weightsBack⟩ := weightsCodec_restores weights
  obtain ⟨payloadForm, payloadWritten, payloadBack⟩ := payloadCodec_restores payload
  obtain ⟨metadataForm, metadataWritten, metadataBack⟩ := metadataCodec_restores metadata
  have distinct : ["status", "owner", "shapes", "weights", "payload", "meta"].Nodup := by decide
  refine ⟨.ofMembers [("status", statusForm), ("owner", ownerForm), ("shapes", shapesForm),
    ("weights", weightsForm), ("payload", payloadForm), ("meta", metadataForm)], ?_, ?_⟩
  · apply Outcome.bind_ok rfl
    apply Outcome.bind_ok statusWritten
    apply Outcome.bind_ok ownerWritten
    apply Outcome.bind_ok rfl
    apply Outcome.bind_ok shapesWritten
    apply Outcome.bind_ok weightsWritten
    apply Outcome.bind_ok payloadWritten
    exact Outcome.bind_ok metadataWritten rfl
  · refine Outcome.bind_ok (Codec.readAt_ofMembers "status" distinct rfl statusBack) ?_
    refine Outcome.bind_ok (Codec.readAt_ofMembers "owner" distinct rfl ownerBack) ?_
    refine Outcome.bind_ok (Codec.readAt_ofMembers "shapes" distinct rfl shapesBack) ?_
    refine Outcome.bind_ok (Codec.readAt_ofMembers "weights" distinct rfl weightsBack) ?_
    refine Outcome.bind_ok (Codec.readAt_ofMembers "payload" distinct rfl payloadBack) ?_
    exact Outcome.bind_ok (Codec.readAt_ofMembers "meta" distinct rfl metadataBack) rfl

theorem codec_solid : codec.Solid := by
  intro d v run
  obtain ⟨_, _, run⟩ := Outcome.bind_eq_ok.mp run
  obtain ⟨status, _, run⟩ := Outcome.bind_eq_ok.mp run
  obtain ⟨owner, _, run⟩ := Outcome.bind_eq_ok.mp run
  obtain ⟨_, _, run⟩ := Outcome.bind_eq_ok.mp run
  obtain ⟨shapes, _, run⟩ := Outcome.bind_eq_ok.mp run
  obtain ⟨weights, _, run⟩ := Outcome.bind_eq_ok.mp run
  obtain ⟨payload, _, run⟩ := Outcome.bind_eq_ok.mp run
  obtain ⟨metadata, _, run⟩ := Outcome.bind_eq_ok.mp run
  cases Outcome.pure_eq_ok.mp run
  rfl

end Drawing

namespace Account

def columnMoments (drawing : Option Drawing) : List Timestamp :=
  drawing.toList.flatMap Drawing.moments

def moments (a : Account) : List Timestamp := columnMoments a.drawing

def Complete (a : Account) : Prop := ∀ d ∈ a.drawing, d.Complete

theorem drawingColumn_complete : drawingColumn.Yields fun drawing => ∀ d ∈ drawing, d.Complete :=
  Codec.nullable_yields (Codec.readNonNull_yields Drawing.read_complete)

theorem drawingColumn_restores {drawing : Option Drawing} (complete : ∀ d ∈ drawing, d.Complete)
    (inMillis : ∀ t ∈ columnMoments drawing, t.InMillis) : drawingColumn.Restores drawing := by
  refine Codec.nullable_restores Drawing.codec_solid fun d stored => ?_
  refine Codec.readNonNull_restores Drawing.codec_solid ?_
  refine Drawing.restores (complete d stored) fun t held => inMillis t ?_
  exact List.mem_flatMap.mpr ⟨d, Option.mem_toList.mpr stored, held⟩

theorem read_complete : (⟨read, write⟩ : Codec Account).Yields Complete := by
  intro v a run
  obtain ⟨id, _, run⟩ := Outcome.bind_eq_ok.mp run
  obtain ⟨balance, _, run⟩ := Outcome.bind_eq_ok.mp run
  obtain ⟨status, _, run⟩ := Outcome.bind_eq_ok.mp run
  obtain ⟨drawing, stored, run⟩ := Outcome.bind_eq_ok.mp run
  cases Outcome.pure_eq_ok.mp run
  exact drawingColumn_complete _ _ stored

theorem restores {a : Account} (complete : a.Complete) (inMillis : ∀ t ∈ a.moments, t.InMillis) :
    (⟨read, write⟩ : Codec Account).Restores a := by
  obtain ⟨idForm, idWritten, idBack⟩ := Codec.text_restores a.id
  obtain ⟨balanceForm, balanceWritten, balanceBack⟩ := Codec.wholeNumber_restores a.balance
  obtain ⟨statusForm, statusWritten, statusBack⟩ :=
    Codec.nullable_restores Status.codec_solid fun s (_ : s ∈ a.status) => s.codec_restores
  obtain ⟨drawingForm, drawingWritten, drawingBack⟩ := drawingColumn_restores complete inMillis
  have distinct : [discriminatorKey, "id", "balance", "status", "drawing"].Nodup := by decide
  refine ⟨.ofMembers [(discriminatorKey, .string typeName), ("id", idForm),
    ("balance", balanceForm), ("status", statusForm), ("drawing", drawingForm)], ?_, ?_⟩
  · apply Outcome.bind_ok idWritten
    apply Outcome.bind_ok balanceWritten
    apply Outcome.bind_ok statusWritten
    exact Outcome.bind_ok drawingWritten rfl
  · refine Outcome.bind_ok (Codec.readAt_ofMembers "id" distinct rfl idBack) ?_
    refine Outcome.bind_ok (Codec.readAt_ofMembers "balance" distinct rfl balanceBack) ?_
    refine Outcome.bind_ok (Codec.readAt_ofMembers "status" distinct rfl statusBack) ?_
    exact Outcome.bind_ok (Codec.readAt_ofMembers "drawing" distinct rfl drawingBack) rfl

theorem discriminator?_write {a : Account} {v : Value} (run : a.write = .ok v) :
    discriminator? v = some typeName := by
  obtain ⟨idForm, _, run⟩ := Outcome.bind_eq_ok.mp run
  obtain ⟨balanceForm, _, run⟩ := Outcome.bind_eq_ok.mp run
  obtain ⟨statusForm, _, run⟩ := Outcome.bind_eq_ok.mp run
  obtain ⟨drawingForm, _, run⟩ := Outcome.bind_eq_ok.mp run
  cases Outcome.pure_eq_ok.mp run
  have distinct : [discriminatorKey, "id", "balance", "status", "drawing"].Nodup := by decide
  exact discriminator?_ofMembers distinct rfl

end Account

namespace Owner

def moments : Owner → List Timestamp
  | .account a => a.moments
  | .circle _ => []

def Complete : Owner → Prop
  | .account a => a.Complete
  | .circle c => c.Complete

theorem read_eq_ok {v : Value} {o : Owner} : read v = .ok o ↔
    (discriminator? v = some Account.typeName ∧ ∃ a, Account.read v = .ok a ∧ o = .account a) ∨
    (discriminator? v = some Circle.typeName ∧ ∃ c, Circle.read v = .ok c ∧ o = .circle c) := by
  unfold read
  constructor
  · intro run
    split at run
    · rename_i named
      obtain ⟨a, inner, same⟩ := Outcome.map_eq_ok.mp run
      exact .inl ⟨named, a, inner, same.symm⟩
    · rename_i named
      obtain ⟨c, inner, same⟩ := Outcome.map_eq_ok.mp run
      exact .inr ⟨named, c, inner, same.symm⟩
    · contradiction
  · rintro (⟨named, a, inner, rfl⟩ | ⟨named, c, inner, rfl⟩)
    · simp [named, Account.typeName, inner, Except.map]
    · simp [named, Circle.typeName, inner, Except.map]

theorem read_names {v : Value} {o : Owner} (run : read v = .ok o) :
    discriminator? v = some o.typeName ∧
      ((∃ a, o = .account a) ↔ discriminator? v = some Account.typeName) ∧
      ((∃ c, o = .circle c) ↔ discriminator? v = some Circle.typeName) := by
  rcases read_eq_ok.mp run with ⟨named, a, _, rfl⟩ | ⟨named, c, _, rfl⟩
  · simp [named, typeName, Account.typeName, Circle.typeName]
  · simp [named, typeName, Account.typeName, Circle.typeName]

theorem read_complete : codec.Yields Complete := by
  intro v o run
  rcases read_eq_ok.mp run with ⟨_, a, inner, rfl⟩ | ⟨_, c, inner, rfl⟩
  · exact Account.read_complete v a inner
  · exact Circle.read_complete v c inner

theorem restores {o : Owner} (complete : o.Complete) (inMillis : ∀ t ∈ o.moments, t.InMillis) :
    codec.Restores o := by
  cases o with
  | account a =>
    obtain ⟨v, written, back⟩ := Account.restores complete inMillis
    have named := Account.discriminator?_write written
    exact ⟨v, written, read_eq_ok.mpr (.inl ⟨named, a, back, rfl⟩)⟩
  | circle c =>
    obtain ⟨v, written, back⟩ := Circle.restores complete
    have named := Circle.discriminator?_write written
    exact ⟨v, written, read_eq_ok.mpr (.inr ⟨named, c, back, rfl⟩)⟩

end Owner

/-- All that can be read, alone or from a column, is written without fault and read back as it was,
    and the record of a union names the variant that is read from it. -/
theorem records_roundTrip :
    (⟨fun v => Metadata.new (some v), Metadata.write⟩ : Codec Metadata).RoundTrips (fun _ => []) ∧
    (⟨fun v => Circle.new (some v), Circle.write⟩ : Codec Circle).RoundTrips (fun _ => []) ∧
    (⟨fun v => Square.new (some v), Square.write⟩ : Codec Square).RoundTrips Square.moments ∧
    (⟨fun v => Drawing.new (some v), Drawing.write⟩ : Codec Drawing).RoundTrips Drawing.moments ∧
    (⟨fun v => Account.new (some v), Account.write⟩ : Codec Account).RoundTrips Account.moments ∧
    Account.drawingColumn.RoundTrips Account.columnMoments ∧
    Shape.codec.RoundTrips Shape.moments ∧
    Owner.codec.RoundTrips Owner.moments ∧
    (∀ v s, Shape.codec.read v = .ok s → discriminator? v = some s.typeName ∧
      ((∃ c, s = .circle c) ↔ discriminator? v = some "Circle") ∧
      ((∃ q, s = .square q) ↔ discriminator? v = some "Square")) ∧
    ∀ v o, Owner.codec.read v = .ok o → discriminator? v = some o.typeName ∧
      ((∃ a, o = .account a) ↔ discriminator? v = some "Account") ∧
      ((∃ c, o = .circle c) ↔ discriminator? v = some "Circle") := by
  refine ⟨?_, ?_, ?_, ?_, ?_, ?_, ?_, ?_, ?_, ?_⟩
  · intro v m _ _
    exact m.restores
  · intro v c run _
    exact Circle.restores (Circle.read_complete v c run)
  · intro v s run inMillis
    exact Square.restores (Square.read_complete v s run) inMillis
  · intro v d run inMillis
    exact Drawing.restores (Drawing.read_complete v d run) inMillis
  · intro v a run inMillis
    exact Account.restores (Account.read_complete v a run) inMillis
  · intro v drawing run inMillis
    exact Account.drawingColumn_restores (Account.drawingColumn_complete v drawing run) inMillis
  · intro v s run inMillis
    exact Shape.restores (Shape.read_complete v s run) inMillis
  · intro v o run inMillis
    exact Owner.restores (Owner.read_complete v o run) inMillis
  · intro v s run
    exact Shape.read_names run
  · intro v o run
    exact Owner.read_names run

def leapRecord : Value :=
  .object [("meta", .object [("tag", .string "new")]),
    ("shapes", .array [.object [("createdAt", .string "2016-12-31t23:59:60.25Z"),
      ("isTypeOf", .string "Square"), ("side", .integer 3)]]),
    ("status", .string "ACTIVE"), ("weights", .array [.string "+1_0", .null])]

def leapDrawing : Drawing where
  status? := some .active
  shapes? := some [.square ⟨some 3, some ⟨1483228799, 1250000000⟩⟩]
  weights := some [some 10, none]
  metadata := some ⟨some "new"⟩

theorem leapDrawing_restored :
    Drawing.new (some leapRecord) = .ok leapDrawing ∧
      (∀ t ∈ leapDrawing.moments, t.InMillis) ∧
      (⟨fun v => Drawing.new (some v), Drawing.write⟩ : Codec Drawing).Restores leapDrawing := by
  have run : Drawing.new (some leapRecord) = .ok leapDrawing :=
    Outcome.eq_ok_of_toOption (by decide +kernel)
  have inMillis : ∀ t ∈ leapDrawing.moments, t.InMillis := by decide +kernel
  exact ⟨run, inMillis, records_roundTrip.2.2.2.1 leapRecord leapDrawing run inMillis⟩

end DataLayer.Sample
