import DataLayer.Proofs.Xml.Writing

/- The attributes that a tag is written with, whether they are well-formed or not. Every text of a
   tag spells some. Where no key is assigned twice, those in quotes are read in their order and the
   others are passed over. -/
namespace DataLayer.Xml

/-- An attribute as it is written: with its value in quotes, with a bare word instead, with a quote
    that is never closed, or without an equals sign. -/
inductive Written
  | quoted (key value : String)
  | unquoted (key word : String)
  | unclosed (key value : String)
  | valueless (key : String)
  deriving DecidableEq

namespace Written

def assigned? : Written → Option String
  | .quoted key _ | .unquoted key _ | .unclosed key _ => some key
  | .valueless _ => none

def attribute? : Written → Option Attribute
  | .quoted key value => some ⟨key, value⟩
  | _ => none

end Written

def IsKey (key : String) : Prop :=
  ∃ first more, key.toList = first :: more ∧ isSpace first = false ∧ ∀ c ∈ more, endsKey c = false

def Visible (s : List Char) : Prop := ∀ c, s.head? = some c → isSpace c = false

inductive Assigns (key : String) : List Char → List Char → Prop
  | intro {gap before after rest : List Char} (isKey : IsKey key) (isGap : Gap gap)
      (isBefore : Gap before) (isAfter : Gap after) (visible : Visible rest) :
      Assigns key (gap ++ (key.toList ++ (before ++ '=' :: (after ++ rest)))) rest

structure BareWord (word rest : List Char) : Prop where
  unspaced : ∀ c ∈ word, isSpace c = false
  unquoted : ∀ c, word.head? = some c → isQuote c = false
  ends : ∀ c, rest.head? = some c → word ≠ [] ∧ isSpace c = true

inductive Spells : List Written → List Char → Prop
  | nil {gap : List Char} (isGap : Gap gap) : Spells [] gap
  | quoted {ws : List Written} {key value : String} {q : Char} {s rest : List Char}
      (assigns : Assigns key s (q :: (value.toList ++ q :: rest))) (quote : isQuote q = true)
      (inside : q ∉ value.toList) (behind : Spells ws rest) : Spells (.quoted key value :: ws) s
  | unquoted {ws : List Written} {key word : String} {s rest : List Char}
      (assigns : Assigns key s (word.toList ++ rest)) (bare : BareWord word.toList rest)
      (behind : Spells ws rest) : Spells (.unquoted key word :: ws) s
  | unclosed {key value : String} {q : Char} {s : List Char}
      (assigns : Assigns key s (q :: value.toList)) (quote : isQuote q = true)
      (inside : q ∉ value.toList) : Spells [.unclosed key value] s
  | valueless {ws : List Written} {key : String} {gap before rest : List Char} (isKey : IsKey key)
      (isGap : Gap gap) (isBefore : Gap before)
      (next : ∀ c, rest.head? = some c → before ≠ [] ∧ isSpace c = false ∧ c ≠ '=')
      (behind : Spells ws rest) :
      Spells (.valueless key :: ws) (gap ++ (key.toList ++ (before ++ rest)))

theorem splitRun {p : Char → Bool} {run rest : List Char} (each : ∀ c ∈ run, p c = true)
    (stops : ∀ c, rest.head? = some c → p c = false) :
    (run ++ rest).takeWhile p = run ∧ (run ++ rest).dropWhile p = rest := by
  rw [List.takeWhile_append_of_pos each, List.dropWhile_append_of_pos each]
  cases rest with
  | nil => exact ⟨List.append_nil run, rfl⟩
  | cons c rest => simp [stops c rfl]

theorem skipSpaces_gap {gap rest : List Char} (isGap : Gap gap) (visible : Visible rest) :
    skipSpaces (gap ++ rest) = rest :=
  (splitRun isGap visible).2

theorem visible_key {key : String} (isKey : IsKey key) (rest : List Char) :
    Visible (key.toList ++ rest) := by
  obtain ⟨first, more, characters, visible, -⟩ := isKey
  intro c head
  rw [characters] at head
  cases head
  exact visible

theorem splitKey {key : String} {before rest : List Char} (isKey : IsKey key)
    (isBefore : Gap before)
    (ends : ∀ c, rest.head? = some c → before ≠ [] ∨ endsKey c = true) :
    ∃ first more, key.toList = first :: more ∧
      (more ++ (before ++ rest)).takeWhile (!endsKey ·) = more ∧
      (more ++ (before ++ rest)).dropWhile (!endsKey ·) = before ++ rest := by
  obtain ⟨first, more, characters, -, inKey⟩ := isKey
  refine ⟨first, more, characters, splitRun (fun c mem => ?_) fun c head => ?_⟩
  · rw [inKey c mem, Bool.not_false]
  · cases before with
    | nil => simpa using ends c head
    | cons d before =>
      cases head
      have space := isBefore c List.mem_cons_self
      simp [endsKey, space]

def readValue (known : List (List Char)) (key : String) : List Char → List Attribute
  | [] => []
  | q :: value =>
      if !isQuote q then readAttributes (key.toList :: known) (skipWord value)
      else
        match value.dropWhile (· != q) with
        | [] => []
        | _ :: after =>
            ⟨key, String.ofList (value.takeWhile (· != q))⟩ ::
              readAttributes (key.toList :: known) after

section Reading
variable {known : List (List Char)} {key : String} {s rest : List Char}

theorem readAttributes_gap {gap : List Char} (isGap : Gap gap) : readAttributes known gap = [] := by
  have none : skipSpaces gap = [] := by
    simpa using @skipSpaces_gap gap [] isGap (by simp [Visible])
  rw [readAttributes]
  split <;> rename_i given
  · rfl
  · rw [none] at given
    contradiction

theorem readAttributes_valueless {gap before : List Char} (isKey : IsKey key) (isGap : Gap gap)
    (isBefore : Gap before)
    (next : ∀ c, rest.head? = some c → before ≠ [] ∧ isSpace c = false ∧ c ≠ '=') :
    readAttributes known (gap ++ (key.toList ++ (before ++ rest))) =
      readAttributes known rest := by
  have start := skipSpaces_gap isGap (visible_key isKey (before ++ rest))
  have equals : skipSpaces (before ++ rest) = rest :=
    skipSpaces_gap isBefore fun c head => (next c head).2.1
  obtain ⟨first, more, characters, -, behind⟩ :=
    splitKey isKey isBefore fun c head => .inl (next c head).1
  rw [← behind] at equals
  rw [characters] at start ⊢
  rw [readAttributes]
  split <;> rename_i given <;> rw [start] at given <;> cases given
  simp only
  split
  · rename_i given
    cases equals.symm.trans given
    exact (readAttributes_gap gap_nil).symm
  · rename_i c after given
    cases equals.symm.trans given
    rw [if_pos (next c rfl).2.2]

theorem readAttributes_assigns (assigns : Assigns key s rest) (fresh : key.toList ∉ known) :
    readAttributes known s = readValue known key rest := by
  obtain ⟨isKey, isGap, isBefore, isAfter, visible⟩ := assigns
  rename_i gap before after
  have start := skipSpaces_gap isGap (visible_key isKey (before ++ '=' :: (after ++ rest)))
  have equals : skipSpaces (before ++ '=' :: (after ++ rest)) = '=' :: (after ++ rest) :=
    skipSpaces_gap isBefore (by rintro c ⟨⟩; rfl)
  have value := skipSpaces_gap isAfter visible
  have ends : ∀ c, ('=' :: (after ++ rest)).head? = some c → before ≠ [] ∨ endsKey c = true := by
    rintro c ⟨⟩
    exact .inr rfl
  obtain ⟨first, more, characters, inKey, behind⟩ := splitKey isKey isBefore ends
  rw [← behind] at equals
  rw [characters] at fresh
  rw [characters, List.cons_append] at start ⊢
  rw [readAttributes]
  split <;> rename_i given <;> rw [start] at given <;> cases given
  simp only
  split <;> rename_i given <;> rw [equals] at given <;> cases given
  rw [if_neg (by simp), inKey, if_neg fresh]
  split
  · rename_i given
    cases value.symm.trans given
    rfl
  · rename_i q text given
    cases value.symm.trans given
    have same : String.ofList (first :: more) = key := by rw [← characters, String.ofList_toList]
    rw [same, readValue, ← characters]
    split
    · rfl
    · split <;> rename_i given <;> simp only [given]

theorem splitQuoted {q : Char} {value : List Char} (inside : q ∉ value) (rest : List Char) :
    (value ++ q :: rest).takeWhile (· != q) = value ∧
      (value ++ q :: rest).dropWhile (· != q) = q :: rest := by
  refine splitRun (fun c mem => ?_) fun c head => ?_
  · have differs : c ≠ q := fun same => inside (same ▸ mem)
    simpa using differs
  · cases head
    simp

theorem readValue_quoted {value : String} {q : Char} (quote : isQuote q = true)
    (inside : q ∉ value.toList) :
    readValue known key (q :: (value.toList ++ q :: rest)) =
      ⟨key, value⟩ :: readAttributes (key.toList :: known) rest := by
  obtain ⟨text, behind⟩ := splitQuoted inside rest
  rw [readValue, quote, Bool.not_true, if_neg Bool.false_ne_true, behind, text,
    String.ofList_toList]

theorem readValue_unclosed {value : List Char} {q : Char} (quote : isQuote q = true)
    (inside : q ∉ value) : readValue known key (q :: value) = [] := by
  have behind : value.dropWhile (· != q) = [] := by
    have each : ∀ c ∈ value, (c != q) = true := fun c mem => by
      have differs : c ≠ q := fun same => inside (same ▸ mem)
      simpa using differs
    simpa using (@splitRun (· != q) value [] each (by simp)).2
  rw [readValue, quote, Bool.not_true, if_neg Bool.false_ne_true, behind]

theorem readValue_unquoted {word : List Char} (bare : BareWord word rest) :
    readValue known key (word ++ rest) = readAttributes (key.toList :: known) rest := by
  cases word with
  | nil =>
    cases rest with
    | nil => exact (readAttributes_gap gap_nil).symm
    | cons c rest => exact absurd rfl (bare.ends c rfl).1
  | cons c word =>
    have skipped : skipWord (word ++ rest) = rest := by
      refine (splitRun (fun d mem => ?_) fun d head => ?_).2
      · rw [bare.unspaced d (List.mem_cons_of_mem c mem), Bool.not_false]
      · rw [(bare.ends d head).2, Bool.not_true]
    rw [List.cons_append, readValue, bare.unquoted c rfl, Bool.not_false, if_pos rfl, skipped]

end Reading

/-- Where no key is assigned twice, the attributes in quotes are read, in their order. -/
theorem readAttributes_spells {known : List (List Char)} {ws : List Written} {s : List Char}
    (spells : Spells ws s) (distinct : (ws.filterMap Written.assigned?).Nodup)
    (fresh : ∀ key ∈ ws.filterMap Written.assigned?, key.toList ∉ known) :
    readAttributes known s = ws.filterMap Written.attribute? := by
  -- A key that has been assigned is known to all that is read behind it.
  have later : ∀ {known : List (List Char)} {key : String} {keys : List String},
      (key :: keys).Nodup → (∀ k ∈ key :: keys, k.toList ∉ known) →
      keys.Nodup ∧ ∀ k ∈ keys, k.toList ∉ key.toList :: known := by
    intro known key keys distinct fresh
    obtain ⟨different, distinct⟩ := List.nodup_cons.mp distinct
    refine ⟨distinct, fun k mem found => ?_⟩
    rcases List.mem_cons.mp found with same | found
    · exact different (String.toList_inj.mp same ▸ mem)
    · exact fresh k (List.mem_cons_of_mem _ mem) found
  induction spells generalizing known with
  | nil isGap => exact readAttributes_gap isGap
  | quoted assigns quote inside behind ih =>
    obtain ⟨others, unknown⟩ := later distinct fresh
    rw [readAttributes_assigns assigns (fresh _ List.mem_cons_self), readValue_quoted quote inside,
      ih others unknown]
    rfl
  | unquoted assigns bare behind ih =>
    obtain ⟨others, unknown⟩ := later distinct fresh
    rw [readAttributes_assigns assigns (fresh _ List.mem_cons_self), readValue_unquoted bare,
      ih others unknown]
    rfl
  | unclosed assigns quote inside =>
    rw [readAttributes_assigns assigns (fresh _ List.mem_cons_self),
      readValue_unclosed quote inside]
    rfl
  | valueless isKey isGap isBefore next behind ih =>
    rw [readAttributes_valueless isKey isGap isBefore next, ih distinct fresh]
    rfl

theorem exists_run (p : Char → Bool) (s : List Char) : ∃ run rest, s = run ++ rest ∧
    (∀ c ∈ run, p c = true) ∧ ∀ c, rest.head? = some c → p c = false := by
  induction s with
  | nil => exact ⟨[], [], rfl, by simp, by simp⟩
  | cons c s ih =>
    cases kind : p c with
    | false => exact ⟨[], c :: s, rfl, by simp, by rintro d ⟨⟩; exact kind⟩
    | true =>
      obtain ⟨run, rest, rfl, each, stops⟩ := ih
      refine ⟨c :: run, rest, rfl, fun d mem => ?_, stops⟩
      rcases List.mem_cons.mp mem with rfl | mem
      · exact kind
      · exact each d mem

theorem exists_spells_assigns {key : String} {s rest : List Char} (assigns : Assigns key s rest)
    (visible : Visible rest) (behind : ∀ after, after <:+ rest → ∃ ws, Spells ws after) :
    ∃ ws, Spells ws s := by
  have written : ∀ text : List Char, ∃ given : String, given.toList = text := fun text =>
    ⟨String.ofList text, String.toList_ofList⟩
  cases rest with
  | nil =>
    have bare : BareWord "".toList [] := ⟨by simp, by simp, by simp⟩
    exact ⟨[.unquoted key ""], .unquoted assigns bare (.nil gap_nil)⟩
  | cons q value =>
    cases quote : isQuote q with
    | true =>
      by_cases closed : q ∈ value
      · obtain ⟨text, after, rfl, inside⟩ := List.eq_append_cons_of_mem closed
        obtain ⟨ws, spells⟩ := behind after ⟨q :: (text ++ [q]), by simp⟩
        obtain ⟨text, rfl⟩ := written text
        exact ⟨_, .quoted assigns quote inside spells⟩
      · obtain ⟨value, rfl⟩ := written value
        exact ⟨_, .unclosed assigns quote closed⟩
    | false =>
      obtain ⟨word, after, same, unspaced, ends⟩ := exists_run (!isSpace ·) (q :: value)
      obtain ⟨ws, spells⟩ := behind after ⟨word, same.symm⟩
      have begins : word.head? = some q := by
        cases word with
        | nil =>
          have spaced := ends q (by rw [← List.nil_append after, ← same]; rfl)
          simp [visible q rfl] at spaced
        | cons c word =>
          cases same
          rfl
      have bare : BareWord word after := by
        refine ⟨fun c mem => by simpa using unspaced c mem, fun c head => ?_, fun c head => ?_⟩
        · cases begins.symm.trans head
          exact quote
        · exact ⟨by rintro rfl; simp at begins, by simpa using ends c head⟩
      obtain ⟨word, rfl⟩ := written word
      rw [same] at assigns
      exact ⟨_, .unquoted assigns bare spells⟩

theorem exists_spells (s : List Char) : ∃ ws, Spells ws s := by
  induction bound : s.length using Nat.strongRecOn generalizing s with
  | ind length ih =>
    obtain ⟨gap, text, rfl, isGap, visible⟩ := exists_run isSpace s
    cases text with
    | nil =>
      rw [List.append_nil]
      exact ⟨[], .nil isGap⟩
    | cons first text =>
      obtain ⟨more, behind, rfl, inKey, ends⟩ := exists_run (!endsKey ·) text
      obtain ⟨before, rest, rfl, isBefore, next⟩ := exists_run isSpace behind
      have isKey : IsKey (String.ofList (first :: more)) :=
        ⟨first, more, String.toList_ofList, visible first rfl, fun c mem => by
          simpa using inKey c mem⟩
      have shape : gap ++ first :: (more ++ (before ++ rest)) =
          gap ++ ((String.ofList (first :: more)).toList ++ (before ++ rest)) := by
        rw [String.toList_ofList, List.cons_append]
      have shorter : ∀ after, after <:+ rest → ∃ ws, Spells ws after := fun after suffix => by
        have small := suffix.length_le
        simp only [List.length_append, List.length_cons] at bound
        exact ih after.length (by omega) after rfl
      rw [shape]
      -- An equals sign behind the key makes the difference.
      by_cases equals : ∃ value, rest = '=' :: value
      · obtain ⟨value, rfl⟩ := equals
        obtain ⟨after, value, rfl, isAfter, visible⟩ := exists_run isSpace value
        refine exists_spells_assigns (.intro isKey isGap isBefore isAfter visible) visible ?_
        intro tail suffix
        exact shorter tail (suffix.trans ⟨'=' :: after, rfl⟩)
      · obtain ⟨ws, spells⟩ := shorter rest (List.suffix_refl rest)
        refine ⟨_, .valueless isKey isGap isBefore (fun c head => ?_) spells⟩
        obtain ⟨tail, rfl⟩ := List.head?_eq_some_iff.mp head
        have other : c ≠ '=' := fun same => equals ⟨tail, by rw [same]⟩
        refine ⟨?_, next c rfl, other⟩
        rintro rfl
        have stops := ends c rfl
        simp [endsKey, other, next c rfl] at stops

theorem isKey_of_plainName {key : String} (plain : PlainName key) : IsKey key := by
  obtain ⟨first, more, characters, -⟩ := exists_head_of_plainName plain
  have visible : ∀ c ∈ key.toList, isSpace c = false := fun c mem => by
    simpa using not_isSpace_of_isAlphanum (plain.2 c mem)
  refine ⟨first, more, characters, visible first (characters ▸ List.mem_cons_self), ?_⟩
  intro c mem
  have inKey : c ∈ key.toList := characters ▸ List.mem_cons_of_mem first mem
  have notEquals : c ≠ '=' := by
    rintro rfl
    exact absurd (plain.2 _ inKey) (by decide)
  simp [endsKey, notEquals, visible c inKey]

theorem spells_writtenAttributes {attributes : List (String × String)}
    (plain : ∀ a ∈ attributes, PlainName a.1) :
    Spells (attributes.map fun a => .quoted a.1 (String.ofList (writtenText a.2)))
      (writtenAttributes attributes) := by
  induction attributes with
  | nil => exact .nil gap_nil
  | cons a rest ih =>
    have behind := ih fun b mem => plain b (List.mem_cons_of_mem _ mem)
    have isKey := isKey_of_plainName (plain a List.mem_cons_self)
    have space : Gap [' '] := by simp [Gap, isSpace]
    have visible : Visible ('"' :: (writtenText a.2 ++ '"' :: writtenAttributes rest)) := by
      rintro c ⟨⟩
      rfl
    have assigns := Assigns.intro isKey space gap_nil gap_nil visible
    have shape : writtenAttributes (a :: rest) = [' '] ++ (a.1.toList ++ ([] ++ '=' :: ([] ++
        '"' :: (writtenText a.2 ++ '"' :: writtenAttributes rest)))) := by
      simp [writtenAttributes]
    rw [← shape, ← String.toList_ofList (l := writtenText a.2)] at assigns
    have inside : '"' ∉ (String.ofList (writtenText a.2)).toList := by
      rw [String.toList_ofList]
      exact quote_not_mem_writtenText a.2
    exact .quoted assigns rfl inside behind

theorem readAttributes_written {known : List (List Char)} {attributes : List (String × String)}
    (plain : ∀ a ∈ attributes, PlainName a.1) (distinct : (attributes.map Prod.fst).Nodup)
    (fresh : ∀ a ∈ attributes, a.1.toList ∉ known) :
    readAttributes known (writtenAttributes attributes) =
      attributes.map fun a => ⟨a.1, String.ofList (writtenText a.2)⟩ := by
  let quoted : String × String → Written := fun a => .quoted a.1 (String.ofList (writtenText a.2))
  have keys : (attributes.map quoted).filterMap Written.assigned? = attributes.map Prod.fst := by
    rw [List.filterMap_map]
    exact congrFun (List.filterMap_eq_map (f := Prod.fst)) attributes
  have unknown : ∀ key ∈ (attributes.map quoted).filterMap Written.assigned?,
      key.toList ∉ known := by
    rw [keys]
    intro key mem
    obtain ⟨a, isA, rfl⟩ := List.mem_map.mp mem
    exact fresh a isA
  rw [readAttributes_spells (spells_writtenAttributes plain) (keys ▸ distinct) unknown,
    List.filterMap_map]
  let inQuotes : String × String → Attribute := fun a => ⟨a.1, String.ofList (writtenText a.2)⟩
  exact congrFun (List.filterMap_eq_map (f := inQuotes)) attributes

end DataLayer.Xml
