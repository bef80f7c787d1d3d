import DataLayer.Proofs.SnakeCase

/- Which names are identifiers of the generated code, and what the conversions of names make of
   them. Letters and digits are those of any alphabet that goes on from the one of ASCII, so that
   the laws hold however many letters the compiler knows. -/
namespace DataLayer.Name
open Text

def codeWords : List String :=
  ["abstract", "as", "async", "await", "become", "box", "break", "const", "continue", "crate", "do",
   "dyn", "else", "enum", "extern", "false", "final", "fn", "for", "gen", "if", "impl", "in", "let",
   "loop", "macro", "match", "mod", "move", "mut", "override", "priv", "pub", "ref", "return",
   "self", "Self", "static", "struct", "super", "trait", "true", "try", "type", "typeof", "unsafe",
   "unsized", "use", "virtual", "where", "while", "yield"]

def rawWords : List String := codeWords.filter (· ∉ ["crate", "self", "Self", "super"])

def IsRaw (name : String) : Prop := ∃ word ∈ rawWords, name = "r#" ++ word

/-- The characters of words: letters, and digits or whatever else may follow the first letter. -/
structure Alphabet where
  isLetter : Char → Bool
  isDigit : Char → Bool
  ascii : ∀ c, c.toNat < 0x80 → isLetter c = c.isAlpha ∧ isDigit c = c.isDigit
  lowercase_letter : ∀ c, isLetter c = true → ∃ first rest, lowercase c = first :: rest ∧
    isLetter first = true ∧ ∀ d ∈ rest, isLetter d = true ∨ isDigit d = true
  lowercase_digit : ∀ c, isDigit c = true → ∀ d ∈ lowercase c, isLetter d = true ∨ isDigit d = true

theorem bounds_of_isIdentPart {c : Char} (part : isIdentPart c = true) :
    0x20 < c.toNat ∧ c.toNat < 0x5B ∨ 0x5D < c.toNat ∧ c.toNat < 0x80 := by
  delta isIdentPart Char.isAlphanum Char.isAlpha Char.isUpper Char.isLower Char.isDigit at part
  simp only [Bool.or_eq_true, Bool.and_eq_true, decide_eq_true_eq, beq_iff_eq] at part
  rcases part with ((⟨least, most⟩ | ⟨least, most⟩) | ⟨least, most⟩) | rfl
  · have least : 0x41 ≤ c.toNat := least
    have most : c.toNat ≤ 0x5A := most
    omega
  · have least : 0x61 ≤ c.toNat := least
    have most : c.toNat ≤ 0x7A := most
    omega
  · have least : 0x30 ≤ c.toNat := least
    have most : c.toNat ≤ 0x39 := most
    omega
  · decide

theorem toNat_lt_of_isIdentPart {c : Char} (part : isIdentPart c = true) : c.toNat < 0x80 := by
  have bounds := bounds_of_isIdentPart part
  omega

theorem lowercase_ascii : ∀ n < 0x80,
    ((Char.ofNat n).isAlpha = true → lowercase (Char.ofNat n) ≠ [] ∧
      (lowercase (Char.ofNat n)).all Char.isAlpha = true) ∧
    ((Char.ofNat n).isDigit = true → (lowercase (Char.ofNat n)).all Char.isDigit = true) := by
  decide +kernel

def Alphabet.plain : Alphabet where
  isLetter := Char.isAlpha
  isDigit := Char.isDigit
  ascii _ _ := ⟨rfl, rfl⟩
  lowercase_letter c letter := by
    have bound : c.toNat < 0x80 :=
      toNat_lt_of_isIdentPart (by simp [isIdentPart, Char.isAlphanum, letter])
    have small := (lowercase_ascii c.toNat bound).1
    rw [Char.ofNat_toNat] at small
    obtain ⟨nonempty, letters⟩ := small letter
    obtain ⟨first, rest, form⟩ := List.exists_cons_of_ne_nil nonempty
    rw [form, List.all_eq_true, List.forall_mem_cons] at letters
    exact ⟨first, rest, form, letters.1, fun d mem => .inl (letters.2 d mem)⟩
  lowercase_digit c digit d mem := by
    have bound : c.toNat < 0x80 :=
      toNat_lt_of_isIdentPart (by simp [isIdentPart, Char.isAlphanum, digit])
    have same := (lowercase_ascii c.toNat bound).2
    rw [Char.ofNat_toNat] at same
    exact .inr (List.all_eq_true.mp (same digit) d mem)

theorem raw_kept : ∀ word ∈ rawWords, '#' ∈ ("r#" ++ word).toList ∧ '_' ∉ ("r#" ++ word).toList ∧
    snakeCase ("r#" ++ word) = "r#" ++ word := by
  decide +kernel

theorem keywords_raw : ∀ word ∈ keywords, word ∈ rawWords ∧ isAsciiIdent word = true := by
  decide +kernel

/-- A word without a raw form gets an underscore, and then it has no meaning any more. -/
theorem reserved_extended : ∀ word ∈ reserved, isAsciiIdent word = true ∧
    isAsciiIdent (word ++ "_") = true ∧ word ++ "_" ≠ "_" ∧ word ++ "_" ∉ codeWords := by
  decide +kernel

theorem codeWords_known : ∀ word ∈ codeWords, '_' ∉ word.toList ∧
    (word ∈ keywords ∨ word ∈ reserved) := by
  decide +kernel

theorem reserved_escaped : ∀ word ∈ reserved, escape (word ++ "_") = word ++ "_" := by
  decide +kernel

theorem escape_cases (name : String) :
    name ∈ reserved ∧ escape name = name ++ "_" ∨
      name ∈ keywords ∧ escape name = "r#" ++ name ∨ escape name = name := by
  unfold escape
  split
  · rename_i held
    exact .inl ⟨held, rfl⟩
  · split
    · rename_i keyword
      exact .inr (.inl ⟨keyword, rfl⟩)
    · exact .inr (.inr rfl)

theorem mark_mem (name : String) : '#' ∈ ("r#" ++ name).toList := by simp

theorem escape_eq_iff {name word : String} (unmarked : '#' ∉ word.toList)
    (joined : '_' ∉ word.toList) (free : word ∉ reserved ∧ word ∉ keywords) :
    escape name = word ↔ name = word := by
  constructor
  · rintro rfl
    rcases escape_cases name with ⟨_, same⟩ | ⟨_, same⟩ | same
    · rw [same] at joined
      simp at joined
    · rw [same] at unmarked
      exact absurd (mark_mem name) unmarked
    · exact same.symm
  · rintro rfl
    rw [escape, if_neg free.1, if_neg free.2]

/-- Two names without marks are escaped alike only if one of them gets the underscore that the other
    one has. -/
theorem escape_eq_escape_iff {a b : String} (first : '#' ∉ a.toList) (second : '#' ∉ b.toList) :
    escape a = escape b ↔
      a = b ∨ (a ∈ reserved ∧ b = a ++ "_") ∨ (b ∈ reserved ∧ a = b ++ "_") := by
  have unmarked : ∀ {name : String}, '#' ∉ name.toList → '#' ∉ (name ++ "_").toList := by
    intro name unmarked
    simpa using unmarked
  constructor
  · intro same
    rcases escape_cases a with ⟨held, form⟩ | ⟨_, form⟩ | form <;> rw [form] at same <;>
      rcases escape_cases b with ⟨other, form⟩ | ⟨_, form⟩ | form <;> rw [form] at same
    · exact .inl ((String.append_left_inj _).mp same)
    · exact absurd (same ▸ mark_mem b) (unmarked first)
    · exact .inr (.inl ⟨held, same.symm⟩)
    · exact absurd (same ▸ mark_mem a) (unmarked second)
    · exact .inl ((String.append_right_inj _).mp same)
    · exact absurd (same ▸ mark_mem a) second
    · exact .inr (.inr ⟨other, same⟩)
    · exact absurd (same ▸ mark_mem b) first
    · exact .inl same
  · rintro (rfl | ⟨held, rfl⟩ | ⟨held, rfl⟩)
    · rfl
    · rw [reserved_escaped a held, escape, if_pos held]
    · rw [reserved_escaped b held, escape, if_pos held]

namespace Alphabet
variable (A : Alphabet)

def Starts (c : Char) : Prop := A.isLetter c = true ∨ c = '_'

def Follows (c : Char) : Prop := A.isLetter c = true ∨ A.isDigit c = true ∨ c = '_'

def IsWord : List Char → Prop
  | [] => False
  | c :: rest => A.Starts c ∧ ∀ d ∈ rest, A.Follows d

/-- A word that is neither a lone underscore nor one with a meaning of its own, or a raw form. -/
def IsIdentifier (name : String) : Prop :=
  A.IsWord name.toList ∧ name ≠ "_" ∧ name ∉ codeWords ∨ IsRaw name

def IsNamed (name : String) : Prop := A.IsWord name.toList ∨ IsRaw name

variable {A}

theorem starts_iff {c : Char} (ascii : c.toNat < 0x80) :
    A.Starts c ↔ isIdentStart c = true := by
  rw [Starts, (A.ascii c ascii).1, isIdentStart, Bool.or_eq_true, beq_iff_eq]

theorem follows_iff {c : Char} (ascii : c.toNat < 0x80) :
    A.Follows c ↔ isIdentPart c = true := by
  rw [Follows, (A.ascii c ascii).1, (A.ascii c ascii).2, isIdentPart, Char.isAlphanum,
    Bool.or_eq_true, Bool.or_eq_true, beq_iff_eq, or_assoc]

theorem Starts.follows {c : Char} (starts : A.Starts c) : A.Follows c :=
  starts.imp id .inr

theorem follows_of_isIdentPart {c : Char} (part : isIdentPart c = true) : A.Follows c :=
  (follows_iff (toNat_lt_of_isIdentPart part)).mpr part

theorem follows_of_isWord {s : List Char} (word : A.IsWord s) : ∀ c ∈ s, A.Follows c := by
  cases s with
  | nil => exact word.elim
  | cons c rest => exact List.forall_mem_cons.mpr ⟨word.1.follows, word.2⟩

theorem isWord_iff_of_ascii {s : String} (ascii : ∀ c ∈ s.toList, c.toNat < 0x80) :
    A.IsWord s.toList ↔ isAsciiIdent s = true := by
  unfold isAsciiIdent
  cases characters : s.toList with
  | nil => simp [IsWord]
  | cons c rest =>
    rw [characters, List.forall_mem_cons] at ascii
    rw [Bool.and_eq_true, List.all_eq_true]
    exact and_congr (starts_iff ascii.1)
      (forall₂_congr fun d mem => follows_iff (ascii.2 d mem))

theorem isIdentPart_of_isAsciiIdent {s : String} (ident : isAsciiIdent s = true) :
    ∀ c ∈ s.toList, isIdentPart c = true := by
  unfold isAsciiIdent at ident
  split at ident
  · contradiction
  · rename_i c rest characters
    obtain ⟨start, parts⟩ := Bool.and_eq_true _ _ ▸ ident
    rw [characters, List.forall_mem_cons]
    refine ⟨?_, List.all_eq_true.mp parts⟩
    simp only [isIdentStart, isIdentPart, Char.isAlphanum, Bool.or_eq_true] at start ⊢
    exact start.imp .inl id

theorem unmarked_of_isAsciiIdent {s : String} (ident : isAsciiIdent s = true) :
    '#' ∉ s.toList := by
  intro mark
  exact absurd (isIdentPart_of_isAsciiIdent ident '#' mark) (by decide)

theorem isWord_of_isAsciiIdent {s : String} (ident : isAsciiIdent s = true) :
    A.IsWord s.toList :=
  (isWord_iff_of_ascii fun c mem =>
    toNat_lt_of_isIdentPart (isIdentPart_of_isAsciiIdent ident c mem)).mpr ident

theorem isWord_append {s t : List Char} (follows : ∀ c ∈ t, A.Follows c) (nonempty : s ≠ []) :
    A.IsWord (s ++ t) ↔ A.IsWord s := by
  cases s with
  | nil => exact absurd rfl nonempty
  | cons c rest =>
    simp only [List.cons_append, IsWord, List.forall_mem_append]
    exact ⟨fun word => ⟨word.1, word.2.1⟩, fun word => ⟨word.1, word.2, follows⟩⟩

theorem follows_lowercase {c : Char} (follows : A.Follows c) : ∀ d ∈ lowercase c, A.Follows d := by
  intro d mem
  rcases follows with letter | digit | rfl
  · obtain ⟨first, rest, form, start, more⟩ := A.lowercase_letter c letter
    rw [form] at mem
    rcases List.mem_cons.mp mem with rfl | mem
    · exact .inl start
    · exact (more d mem).imp id .inl
  · exact (A.lowercase_digit c digit d mem).imp id .inl
  · have same : lowercase '_' = ['_'] := by decide +kernel
    rw [same, List.mem_singleton] at mem
    exact .inr (.inr mem)

theorem isWord_lowercase {c : Char} (starts : A.Starts c) : A.IsWord (lowercase c) := by
  rcases starts with letter | rfl
  · obtain ⟨first, rest, form, start, more⟩ := A.lowercase_letter c letter
    rw [form]
    exact ⟨.inl start, fun d mem => (more d mem).imp id .inl⟩
  · have same : lowercase '_' = ['_'] := by decide +kernel
    rw [same]
    exact ⟨.inr rfl, by simp⟩

theorem follows_snakeFrom {s : List Char} (follows : ∀ c ∈ s, A.Follows c) (before : Option Char)
    (parted : Bool) : ∀ c ∈ snakeFrom before parted s, A.Follows c :=
  forall_mem_snakeFrom (.inr (.inr rfl)) (fun c mem _ _ => follows_lowercase (follows c mem))
    before parted

theorem isWord_snakeCase {name : String} (word : A.IsWord name.toList) :
    A.IsWord (snakeCase name).toList := by
  rw [snakeCase, String.toList_ofList]
  cases characters : name.toList with
  | nil => rwa [characters] at word
  | cons c rest =>
    rw [characters] at word
    have noBreak : ¬ (c = '-' ∨ c = ' ') := by
      rintro (rfl | rfl)
      · exact absurd ((starts_iff (by decide)).mp word.1) (by decide)
      · exact absurd ((starts_iff (by decide)).mp word.1) (by decide)
    have first : opensWord none c rest.head? = false := by simp [opensWord]
    have start := isWord_lowercase word.1
    have nonempty : lowercase c ≠ [] := by
      intro none
      rw [none] at start
      exact start
    have behind := follows_snakeFrom word.2 (some c) (c == '_')
    rw [snakeFrom, if_neg noBreak, first]
    exact (isWord_append behind nonempty).mpr start

theorem not_follows_mark : ¬ A.Follows '#' := by
  intro follows
  exact absurd ((follows_iff (by decide)).mp follows) (by decide)

theorem mark_of_isRaw {name : String} (raw : IsRaw name) : '#' ∈ name.toList := by
  obtain ⟨word, listed, rfl⟩ := raw
  exact (raw_kept word listed).1

theorem isIdentifier_escape {name : String} :
    A.IsIdentifier (escape name) ↔ A.IsNamed name := by
  by_cases held : name ∈ reserved
  · obtain ⟨ident, extended, more, free⟩ := reserved_extended name held
    rw [escape, if_pos held]
    exact iff_of_true (.inl ⟨isWord_of_isAsciiIdent extended, more, free⟩)
      (.inl (isWord_of_isAsciiIdent ident))
  · by_cases keyword : name ∈ keywords
    · obtain ⟨raw, ident⟩ := keywords_raw name keyword
      rw [escape, if_neg held, if_pos keyword]
      exact iff_of_true (.inr ⟨name, raw, rfl⟩) (.inl (isWord_of_isAsciiIdent ident))
    · have lone : name ≠ "_" := by
        rintro rfl
        exact held (by decide)
      have free : name ∉ codeWords := fun listed =>
        (codeWords_known name listed).2.elim keyword held
      rw [escape, if_neg held, if_neg keyword, IsIdentifier, IsNamed, and_iff_left ⟨lone, free⟩]

theorem isIdentifier_of_isAsciiIdent {name : String} (ident : isAsciiIdent name = true)
    (more : name ≠ "_") (free : name ∉ codeWords) : A.IsIdentifier name :=
  .inl ⟨isWord_of_isAsciiIdent ident, more, free⟩

theorem not_isIdentifier_of_ascii {name : String}
    (ascii : name.toList.all (·.toNat < 0x80) = true) (unmarked : '#' ∉ name.toList)
    (bad : isAsciiIdent name = false ∨ name ∈ codeWords) : ¬ A.IsIdentifier name := by
  rintro (⟨word, _, free⟩ | raw)
  · rcases bad with noWord | meant
    · exact absurd ((isWord_iff_of_ascii (by simpa using ascii)).mp word) (by simp [noWord])
    · exact free meant
  · exact unmarked (mark_of_isRaw raw)

/-- A name in which an underscore stands among other characters has no meaning of its own. -/
theorem isIdentifier_iff_isWord {name : String} (underscore : '_' ∈ name.toList)
    (long : 1 < name.toList.length) : A.IsIdentifier name ↔ A.IsWord name.toList := by
  have more : name ≠ "_" := by
    rintro rfl
    exact absurd long (by decide)
  constructor
  · rintro (⟨word, _⟩ | ⟨word, listed, rfl⟩)
    · exact word
    · exact absurd underscore (raw_kept word listed).2.1
  · intro word
    exact .inl ⟨word, more, fun listed => (codeWords_known name listed).1 underscore⟩

theorem IsIdentifier.isNamed {name : String} (identifier : A.IsIdentifier name) :
    A.IsNamed name :=
  identifier.imp And.left id

theorem IsNamed.snakeCase {name : String} (named : A.IsNamed name) :
    A.IsNamed (snakeCase name) := by
  rcases named with word | ⟨word, listed, rfl⟩
  · exact .inl (isWord_snakeCase word)
  · rw [(raw_kept word listed).2.2]
    exact .inr ⟨word, listed, rfl⟩

theorem isIdentifier_moduleName {name : String} (identifier : A.IsIdentifier name) :
    A.IsIdentifier (moduleName name) :=
  isIdentifier_escape.mpr identifier.isNamed.snakeCase

theorem isIdentifier_append {name suffix : String} (named : A.IsNamed name)
    (follows : suffix.toList.all isIdentPart = true) (underscore : '_' ∈ suffix.toList) :
    A.IsIdentifier (name ++ suffix) ↔ A.IsWord name.toList := by
  have nonempty : name.toList ≠ [] := by
    rcases named with word | raw
    · intro none
      rw [none] at word
      exact word
    · exact List.ne_nil_of_mem (mark_of_isRaw raw)
  have long : 1 < (name ++ suffix).toList.length := by
    have first := List.length_pos_iff.mpr nonempty
    have second := List.length_pos_of_mem underscore
    rw [String.toList_append, List.length_append]
    omega
  have held : '_' ∈ (name ++ suffix).toList := by
    rw [String.toList_append]
    exact List.mem_append_right _ underscore
  have more : ∀ c ∈ suffix.toList, A.Follows c := fun c mem =>
    follows_of_isIdentPart (List.all_eq_true.mp follows c mem)
  rw [isIdentifier_iff_isWord held long, String.toList_append, isWord_append more nonempty]

theorem isIdentifier_dispatchIdent {name : String} (identifier : A.IsIdentifier name) :
    A.IsIdentifier (dispatchIdent name) ↔ A.IsWord name.toList := by
  have named := identifier.isNamed
  rw [dispatchIdent, isIdentifier_append named.snakeCase (by decide) (by decide)]
  rcases named with word | ⟨word, listed, rfl⟩
  · exact iff_of_true (isWord_snakeCase word) word
  · rw [(raw_kept word listed).2.2]

/-- A raw form makes a getter and no setter, and digits make a setter and no getter. -/
theorem isIdentifier_accessors {key : String} :
    A.IsIdentifier (fieldIdent key) ∧ A.IsIdentifier (setterIdent key) ↔
      A.IsWord (snakeCase key).toList := by
  have held : '_' ∈ (setterIdent key).toList := by
    rw [setterIdent, String.toList_append]
    exact List.mem_append_left _ (by decide)
  have long : 1 < (setterIdent key).toList.length := by
    rw [setterIdent, String.toList_append, List.length_append]
    exact Nat.lt_add_right _ (by decide)
  rw [fieldIdent, isIdentifier_escape, isIdentifier_iff_isWord held long, setterIdent,
    String.toList_append]
  constructor
  · rintro ⟨word | raw, setter⟩
    · exact word
    · have mark := List.mem_append_right "set_".toList (mark_of_isRaw raw)
      exact absurd (follows_of_isWord setter '#' mark) not_follows_mark
  · intro word
    rw [isWord_append (follows_of_isWord word) (by decide)]
    exact ⟨.inl word, isWord_of_isAsciiIdent (by decide)⟩

end Alphabet

end DataLayer.Name
