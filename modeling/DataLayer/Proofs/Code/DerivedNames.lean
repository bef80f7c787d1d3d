import DataLayer.Proofs.Code.Written
import DataLayer.Proofs.Identifiers

/- What generated code makes of a name that is an identifier of ASCII: another one, in lower case, and
   where this would be a keyword its raw form or, if there is none, one with an underscore more. The
   file of a module is called after the identifier alone. -/
namespace DataLayer.Name
open Text

def isSmallPart (c : Char) : Bool := c.isLower || c.isDigit || c == '_'

/-- An identifier of small letters, digits and underscores, which may have a meaning of its own. -/
def IsSmallWord (name : String) : Prop :=
  isAsciiIdent name = true ∧ name.toList.all isSmallPart = true

def IsSmallIdentifier (name : String) : Prop :=
  IsSmallWord name ∧ name ≠ "_" ∧ name ∉ codeWords

instance (name : String) : Decidable (IsSmallWord name) := inferInstanceAs (Decidable (_ ∧ _))

theorem isAsciiIdent_append {name suffix : String} (ident : isAsciiIdent name = true)
    (parts : suffix.toList.all isIdentPart = true) : isAsciiIdent (name ++ suffix) = true := by
  unfold isAsciiIdent at ident ⊢
  rw [String.toList_append]
  cases characters : name.toList with
  | nil => simp [characters] at ident
  | cons c rest =>
    rw [characters, Bool.and_eq_true] at ident
    change (isIdentStart c && (rest ++ suffix.toList).all isIdentPart) = true
    rw [List.all_append, ident.1, ident.2, parts]
    rfl

theorem IsSmallWord.append {name suffix : String} (word : IsSmallWord name)
    (parts : suffix.toList.all isIdentPart = true) (small : suffix.toList.all isSmallPart = true) :
    IsSmallWord (name ++ suffix) := by
  refine ⟨isAsciiIdent_append word.1 parts, ?_⟩
  rw [String.toList_append, List.all_append, word.2, small]
  rfl

theorem IsSmallWord.parts {name : String} (word : IsSmallWord name) :
    name.toList.all isIdentPart = true :=
  List.all_eq_true.mpr (Alphabet.isIdentPart_of_isAsciiIdent word.1)

theorem isSmallWord_snakeCase {name : String} (ident : isAsciiIdent name = true) :
    IsSmallWord (snakeCase name) := by
  have ascii : ∀ c ∈ name.toList, c.toNat < 0x80 := fun c mem =>
    toNat_lt_of_isIdentPart (Alphabet.isIdentPart_of_isAsciiIdent ident c mem)
  have small := isSmall_of_mem_snakeCase ascii
  have word : Alphabet.plain.IsWord (snakeCase name).toList :=
    Alphabet.isWord_snakeCase (Alphabet.isWord_of_isAsciiIdent ident)
  have made : isAsciiIdent (snakeCase name) = true :=
    (Alphabet.isWord_iff_of_ascii fun c mem => (small c mem).1).mp word
  refine ⟨made, List.all_eq_true.mpr fun c mem => ?_⟩
  have table : ∀ n < 0x80, isIdentPart (Char.ofNat n) = true → isUppercase (Char.ofNat n) = false →
      isSmallPart (Char.ofNat n) = true := by
    decide +kernel
  have entry := table c.toNat (small c mem).1
  rw [Char.ofNat_toNat] at entry
  exact entry (Alphabet.isIdentPart_of_isAsciiIdent made c mem) (small c mem).2.1

theorem IsSmallWord.identifier {name : String} (word : IsSmallWord name)
    (underscore : '_' ∈ name.toList) (long : 1 < name.toList.length) : IsSmallIdentifier name := by
  refine ⟨word, ?_, fun listed => (codeWords_known name listed).1 underscore⟩
  rintro rfl
  exact absurd long (by decide)

/-- A word is escaped into an identifier that its file has the name of, or into the raw form of what
    its file has the name of. -/
theorem IsSmallWord.escape {name : String} (word : IsSmallWord name) :
    escape name = fileStem (escape name) ∧ IsSmallIdentifier (fileStem (escape name)) ∨
      escape name = "r#" ++ fileStem (escape name) ∧ fileStem (escape name) ∈ rawWords := by
  have unmarked : ¬ ['r', '#'] <+: name.toList := fun mark =>
    Alphabet.unmarked_of_isAsciiIdent word.1 (mark.subset (by simp))
  by_cases held : name ∈ reserved
  · obtain ⟨_, _, more, free⟩ := reserved_extended name held
    rw [(fileStem_reserved name held).1, Name.escape, if_pos held]
    exact .inl ⟨rfl, word.append (by decide) (by decide), more, free⟩
  · rw [fileStem_escape unmarked held, Name.escape, if_neg held]
    by_cases keyword : name ∈ keywords
    · rw [if_pos keyword]
      exact .inr ⟨rfl, (keywords_raw name keyword).1⟩
    · rw [if_neg keyword]
      refine .inl ⟨rfl, word, ?_, fun listed => (codeWords_known name listed).2.elim keyword held⟩
      rintro rfl
      exact held (by decide)

theorem IsSmallWord.isIdentifier_escape {name : String} (word : IsSmallWord name) :
    IsSmallIdentifier (Name.escape name) ∨ IsRaw (Name.escape name) := by
  rcases word.escape with ⟨same, identifier⟩ | ⟨same, raw⟩
  · exact .inl (same ▸ identifier)
  · exact .inr ⟨_, raw, same⟩

theorem isSmallIdentifier_setterIdent {name : String} (ident : isAsciiIdent name = true) :
    IsSmallIdentifier (setterIdent name) := by
  have word := isSmallWord_snakeCase ident
  have setter : IsSmallWord "set_" := by decide
  refine (setter.append word.parts word.2).identifier ?_ ?_
  · rw [String.toList_append]
    exact List.mem_append_left _ (by decide)
  · rw [String.toList_append, List.length_append]
    exact Nat.lt_add_right _ (by decide)

theorem isSmallIdentifier_dispatchIdent {name : String} (ident : isAsciiIdent name = true) :
    IsSmallIdentifier (dispatchIdent name) := by
  have word := isSmallWord_snakeCase ident
  refine (word.append (by decide) (by decide)).identifier ?_ ?_
  · rw [String.toList_append]
    exact List.mem_append_right _ (by decide)
  · rw [String.toList_append, List.length_append]
    exact Nat.lt_add_left _ (by decide)

end DataLayer.Name

namespace DataLayer.Code
open Name

structure WellNamed (name : String) : Prop where
  module : IsSmallIdentifier (moduleName name) ∨ IsRaw (moduleName name)
  field : IsSmallIdentifier (fieldIdent name) ∨ IsRaw (fieldIdent name)
  setter : IsSmallIdentifier (setterIdent name)
  dispatch : IsSmallIdentifier (dispatchIdent name)
  path : ∀ f : SourceFile, f.item = name → ∃ stem, f.path = "model/" ++ stem ++ ".rs" ∧
    (f.module = stem ∧ IsSmallIdentifier stem ∨ f.module = "r#" ++ stem ∧ stem ∈ rawWords)

theorem wellNamed_of_isAsciiIdent {name : String} (ident : isAsciiIdent name = true) :
    WellNamed name := by
  have word := isSmallWord_snakeCase ident
  refine ⟨word.isIdentifier_escape, word.isIdentifier_escape, isSmallIdentifier_setterIdent ident,
    isSmallIdentifier_dispatchIdent ident, ?_⟩
  rintro f rfl
  exact ⟨fileStem f.module, rfl, word.escape⟩

theorem wellNamed_type : isAsciiIdent "Type" = true ∧ moduleName "Type" = "r#type" ∧
    WellNamed "Type" :=
  ⟨by decide, by decide +kernel, wellNamed_of_isAsciiIdent (by decide)⟩

end DataLayer.Code
