import DataLayer.Proofs.Identifiers
import DataLayer.Proofs.Code.Generation
import DataLayer.Proofs.Code.Blocks

/- The members of an enumeration and the two functions between members and values. Both functions
   have an arm for every value in order, and the first arm that fits decides. No two values are one,
   so that reading always finds the member; writing finds the value again only if no two members are
   one. Members are values that have been escaped, which only takes a value to that of another one
   where a reserved word stands beside itself with an underscore. -/
namespace DataLayer.Code
open Schema Outcome

section Lookup
variable {α : Type} {xs : List α} {key val : α → String}

theorem find?_key_eq_some_iff (distinct : (xs.map key).Nodup) {k : String} {x : α} :
    xs.find? (key · = k) = some x ↔ x ∈ xs ∧ key x = k := by
  constructor
  · intro found
    exact ⟨List.mem_of_find?_eq_some found, by simpa using List.find?_some found⟩
  · rintro ⟨mem, rfl⟩
    cases found : xs.find? (key · = key x) with
    | none =>
      have missing := List.find?_eq_none.mp found x mem
      simp at missing
    | some y =>
      have same : key y = key x := by simpa using List.find?_some found
      rw [List.inj_on_of_nodup_map distinct (List.mem_of_find?_eq_some found) mem same]

theorem find?_map_eq_some_iff (distinct : (xs.map key).Nodup) {k v : String} :
    (xs.find? (key · = k)).map val = some v ↔ ∃ x ∈ xs, key x = k ∧ val x = v := by
  simp only [Option.map_eq_some_iff, find?_key_eq_some_iff distinct, and_assoc]

end Lookup

namespace EnumerationCode
variable (c : EnumerationCode)

def memberSteps : List Step := c.members.map fun m => .line (m.ident ++ ",")

def writingSteps : List Step :=
  [.block "match self"
    (c.members.map fun m => .line ("Self::" ++ m.ident ++ " => \"" ++ m.value ++ "\","))]

/-- The function that reads a value: an arm for every value in order, and one that refuses
    everything else. -/
def parsingSteps : List Step :=
  [.block "match s"
    ((c.members.map fun m => .line ("\"" ++ m.value ++ "\" => Ok(Self::" ++ m.ident ++ "),")) ++
     [.line ("other => Err(format!(\"unknown " ++ c.name ++ " member '\x7bother\x7d'\")),")])]

def written? (ident : String) : Option String :=
  (c.members.find? (·.ident = ident)).map Member.value

def parsed? (value : String) : Option String :=
  (c.members.find? (·.value = value)).map Member.ident

theorem balanced_memberSteps : Balanced c.memberSteps :=
  balanced_map fun _ => ⟨_, rfl⟩

theorem balanced_writingSteps : Balanced c.writingSteps :=
  balanced_block (balanced_map fun _ => ⟨_, rfl⟩)

theorem balanced_parsingSteps : Balanced c.parsingSteps := by
  have arms : Balanced (c.members.map fun m =>
      .line ("\"" ++ m.value ++ "\" => Ok(Self::" ++ m.ident ++ "),")) :=
    balanced_map fun _ => ⟨_, rfl⟩
  refine balanced_block fun level => ?_
  simp [arms level]

def methods : List Step :=
  [.line "/// Members in declaration order.",
   .line ("pub const VALUES: &'static [Self] = &[" ++
     ", ".intercalate (c.members.map fun m => "Self::" ++ m.ident) ++ "];"),
   .blank, .line "/// Returns the member name.", .line "#[must_use]",
   .block "pub const fn as_str(&self) -> &'static str" c.writingSteps]

def parserMethods : List Step :=
  [.line "type Err = String;", .blank,
   .block "fn from_str(s: &str) -> Result<Self, Self::Err>" c.parsingSteps]

theorem each_methods : ∀ step ∈ c.methods, Balanced [step] := by
  simp [methods, balanced_block, balanced_writingSteps]

theorem each_parserMethods : ∀ step ∈ c.parserMethods, Balanced [step] := by
  simp [parserMethods, balanced_block, balanced_parsingSteps]

theorem each_enumSteps : ∀ step ∈ c.enumSteps, Balanced [step] := by
  intro step mem
  simp only [enumSteps, List.mem_cons, List.not_mem_nil, or_false] at mem
  rcases mem with rfl | rfl | rfl | rfl
  · exact balanced_doc _
  · exact balanced_line _
  · exact balanced_line _
  · exact balanced_block c.balanced_memberSteps

theorem hasDefinition_enum :
    HasDefinition (emitted c.body) ("pub enum " ++ c.name) c.memberSteps := by
  have placed : PlacesBlock c.enumSteps ("pub enum " ++ c.name) c.memberSteps :=
    placesBlock_of_mem c.each_enumSteps c.balanced_memberSteps (by simp [enumSteps, memberSteps])
  have whole : c.body = c.enumSteps ++
      ([.blank] ++ c.methodSteps ++ [.blank] ++ c.displaySteps ++ [.blank] ++ c.parserSteps) := by
    simp only [body, List.append_assoc]
  rw [whole]
  exact placed.append_left 0

theorem hasMethod_write :
    HasMethod (emitted c.body) c.name "pub const fn as_str(&self) -> &'static str"
      c.writingSteps := by
  have whole : c.body = (c.enumSteps ++ [.blank]) ++ .block ("impl " ++ c.name) c.methods ::
      ([.blank] ++ c.displaySteps ++ [.blank] ++ c.parserSteps) := by
    simp only [body, methodSteps, methods, writingSteps, List.append_assoc, List.cons_append,
      List.nil_append]
  rw [whole]
  refine hasMethod_of_placesBlock ?_ (balanced_of_each c.each_methods) ?_
  · intro level
    simp [balanced_of_each c.each_enumSteps level]
  · exact placesBlock_of_mem c.each_methods c.balanced_writingSteps (by simp [methods])

theorem hasMethod_parse :
    HasMethod (emitted c.body) ("std::str::FromStr for " ++ c.name)
      "fn from_str(s: &str) -> Result<Self, Self::Err>" c.parsingSteps := by
  have header : "impl std::str::FromStr for " ++ c.name =
      "impl " ++ ("std::str::FromStr for " ++ c.name) := by
    rw [← String.append_assoc]
    rfl
  have whole : c.body =
      (c.enumSteps ++ [.blank] ++ c.methodSteps ++ [.blank] ++ c.displaySteps ++ [.blank]) ++
        .block ("impl " ++ ("std::str::FromStr for " ++ c.name)) c.parserMethods :: [] := by
    rw [← header]
    rfl
  rw [whole]
  refine hasMethod_of_placesBlock ?_ (balanced_of_each c.each_parserMethods) ?_
  · have methods : Balanced c.methodSteps := balanced_block (balanced_of_each c.each_methods)
    intro level
    simp [balanced_of_each c.each_enumSteps level, methods level, displaySteps]
  · exact placesBlock_of_mem c.each_parserMethods c.balanced_parsingSteps (by simp [parserMethods])

end EnumerationCode

structure MembersFor (e : Enumeration) (c : EnumerationCode) (lines : List String) : Prop where
  members : c.members = e.values.names.map fun value => ⟨value, Name.escape value⟩
  declared : HasDefinition lines ("pub enum " ++ c.name) c.memberSteps
  writes : HasMethod lines c.name "pub const fn as_str(&self) -> &'static str" c.writingSteps
  parses : HasMethod lines ("std::str::FromStr for " ++ c.name)
    "fn from_str(s: &str) -> Result<Self, Self::Err>" c.parsingSteps
  parsed : ∀ member ∈ c.members, c.parsed? member.value = some member.ident
  distinct : (c.members.map Member.ident).Nodup ↔
    ∀ word ∈ Name.reserved, word ∈ e.values.names → word ++ "_" ∉ e.values.names
  inverse : (∀ ident value, c.written? ident = some value ↔ c.parsed? value = some ident) ↔
    (c.members.map Member.ident).Nodup
  associated : ∀ name ∈ ["VALUES", "Err"],
    name ∈ c.members.map Member.ident ↔ name ∈ e.values.names

theorem memberOf_eq_ok {owner value : String} {member : Member} :
    memberOf owner value = .ok member ↔
      (Name.isAsciiIdent value = true ∧ value ≠ "_") ∧ member = ⟨value, Name.escape value⟩ := by
  unfold memberOf
  split
  · rename_i valid
    rw [and_iff_right valid, Except.ok.injEq, eq_comm]
  · rename_i invalid
    exact iff_of_false (by simp) fun valid => invalid valid.1

theorem enumerationCodeOf_eq_ok {name : String} {e : Enumeration} {c : EnumerationCode}
    (run : enumerationCodeOf name e = .ok c) :
    c.name = name ∧ (∀ value ∈ e.values.names, Name.isAsciiIdent value = true) ∧
      c.members = e.values.names.map fun value => ⟨value, Name.escape value⟩ := by
  obtain ⟨members, made, same⟩ := bind_eq_ok.mp run
  cases pure_eq_ok.mp same
  have each := mapM_eq_ok.mp made
  refine ⟨rfl, fun value listed => ?_, ?_⟩
  · obtain ⟨member, _, valid⟩ := exists_right_of_mem each listed
    exact (memberOf_eq_ok.mp valid).1.1
  · have same := map_eq_map_of_forall₂ (g := id)
      (each.imp fun value member valid => (memberOf_eq_ok.mp valid).2.symm)
    rw [List.map_id] at same
    exact same.symm

/-- Values are only escaped alike where a reserved word stands beside itself with an underscore. -/
theorem nodup_map_escape_iff {values : List String} (distinct : values.Nodup)
    (idents : ∀ value ∈ values, Name.isAsciiIdent value = true) :
    (values.map Name.escape).Nodup ↔
      ∀ word ∈ Name.reserved, word ∈ values → word ++ "_" ∉ values := by
  have unmarked : ∀ value ∈ values, '#' ∉ value.toList := fun value listed =>
    Name.Alphabet.unmarked_of_isAsciiIdent (idents value listed)
  rw [List.nodup_map_iff_inj_on distinct]
  constructor
  · intro injective word held listed extended
    have alike : Name.escape word = Name.escape (word ++ "_") :=
      (Name.escape_eq_escape_iff (unmarked word listed) (unmarked _ extended)).mpr
        (.inr (.inl ⟨held, rfl⟩))
    have longer := congrArg String.length (injective word listed _ extended alike)
    rw [String.length_append] at longer
    have one : "_".length = 1 := rfl
    omega
  · intro apart a first b second same
    rcases (Name.escape_eq_escape_iff (unmarked a first) (unmarked b second)).mp same with
      rfl | ⟨held, rfl⟩ | ⟨held, rfl⟩
    · rfl
    · exact absurd second (apart a held first)
    · exact absurd first (apart b held second)

/-- The functions between members and values are inverse to each other exactly if no two members
    are one. -/
theorem EnumerationCode.inverse_iff {c : EnumerationCode}
    (distinct : (c.members.map Member.value).Nodup) :
    (∀ ident value, c.written? ident = some value ↔ c.parsed? value = some ident) ↔
      (c.members.map Member.ident).Nodup := by
  have parsed : ∀ ident value, c.parsed? value = some ident ↔
      ∃ member ∈ c.members, member.value = value ∧ member.ident = ident :=
    fun _ _ => find?_map_eq_some_iff distinct
  constructor
  · intro inverse
    rw [List.nodup_map_iff_inj_on (List.Nodup.of_map _ distinct)]
    intro a first b second same
    have value : ∀ member ∈ c.members, c.written? member.ident = some member.value :=
      fun member mem => (inverse _ _).mpr ((parsed _ _).mpr ⟨member, mem, rfl, rfl⟩)
    have here := value a first
    rw [same, value b second] at here
    exact List.inj_on_of_nodup_map distinct first second (Option.some.inj here).symm
  · intro apart ident value
    rw [parsed]
    exact (find?_map_eq_some_iff apart).trans
      (exists_congr fun _ => and_congr_right fun _ => and_comm)

/-- Members stand for the values one by one and in order, and reading finds the member of every
    value. Writing finds the value of every member, and the members differ, exactly if no reserved
    word is a value beside itself with an underscore. -/
theorem itemFileOf_membersFor {m : Model} {variants : List String} {name : String}
    {e : Enumeration} {f : ItemFile}
    (run : itemFileOf m variants name (.enumeration e) = .ok f) :
    ∃ c, f.code = .enumeration c ∧ c.name = name ∧ MembersFor e c f.source.body := by
  obtain ⟨c, made, same⟩ := bind_eq_ok.mp (itemCodeOf_of_itemFileOf run)
  have code : f.code = .enumeration c := (pure_eq_ok.mp same).symm
  have body : f.source.body = emitted c.body := by rw [ItemFile.source, code, ItemCode.body]
  obtain ⟨named, idents, members⟩ := enumerationCodeOf_eq_ok made
  have values : c.members.map Member.value = e.values.names := by
    rw [members, List.map_map]
    exact List.map_id _
  have escaped : c.members.map Member.ident = e.values.names.map Name.escape := by
    rw [members, List.map_map]
    rfl
  have distinct : (c.members.map Member.value).Nodup := values ▸ e.values.distinct
  rw [body]
  refine ⟨c, code, named, members, c.hasDefinition_enum, c.hasMethod_write, c.hasMethod_parse, ?_,
    ?_, EnumerationCode.inverse_iff distinct, ?_⟩
  · intro member mem
    exact (find?_map_eq_some_iff distinct).mpr ⟨member, mem, rfl, rfl⟩
  · rw [escaped]
    exact nodup_map_escape_iff e.values.distinct idents
  · intro other listed
    have plain : ∀ other ∈ ["VALUES", "Err"], '#' ∉ other.toList ∧ '_' ∉ other.toList ∧
        other ∉ Name.reserved ∧ other ∉ Name.keywords := by decide
    obtain ⟨unmarked, joined, free⟩ := plain other listed
    rw [escaped, List.mem_map]
    simp only [Name.escape_eq_iff unmarked joined free, exists_eq_right]

def memberValues : Enumeration where
  description := none
  values := { names := ["type", "self", "B_"] }

theorem memberValues_membersFor :
    ∃ f, itemFileOf .empty [] "E" (.enumeration memberValues) = .ok f ∧
      ∃ c, f.code = .enumeration c ∧ c.name = "E" ∧ MembersFor memberValues c f.source.body := by
  have generates :
      (itemFileOf .empty [] "E" (.enumeration memberValues)).toOption.isSome = true := by
    decide +kernel
  obtain ⟨f, some⟩ := Option.isSome_iff_exists.mp generates
  have run := eq_ok_of_toOption some
  exact ⟨f, run, itemFileOf_membersFor run⟩

def alikeValues : Enumeration where
  description := none
  values := { names := ["self", "self_", "Err", "VALUES"] }

theorem alike_members_generated :
    ∃ f c, itemFileOf .empty [] "E" (.enumeration alikeValues) = .ok f ∧
      f.code = .enumeration c ∧
      c.members.map Member.ident = ["self_", "self_", "Err", "VALUES"] ∧
      c.parsed? "self_" = some "self_" ∧ c.written? "self_" = some "self" := by
  have generates :
      (itemFileOf .empty [] "E" (.enumeration alikeValues)).toOption.isSome = true := by
    decide +kernel
  obtain ⟨f, some⟩ := Option.isSome_iff_exists.mp generates
  have run := eq_ok_of_toOption some
  obtain ⟨c, made, same⟩ := bind_eq_ok.mp (itemCodeOf_of_itemFileOf run)
  have members := (enumerationCodeOf_eq_ok made).2.2
  have shown : c.members.map Member.ident = ["self_", "self_", "Err", "VALUES"] ∧
      c.parsed? "self_" = .some "self_" ∧ c.written? "self_" = .some "self" := by
    rw [EnumerationCode.parsed?, EnumerationCode.written?, members]
    decide +kernel
  exact ⟨f, c, run, (pure_eq_ok.mp same).symm, shown⟩

end DataLayer.Code
