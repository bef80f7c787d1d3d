import DataLayer.Proofs.Record.Codecs
import DataLayer.Proofs.Text.Hex
import DataLayer.Proofs.Text.Slices

/- Bytes in a record, exactly: how they are written, that they are read back, and what else they are
   read from. A reader that cuts a text at positions counted in bytes reads the same, and no cut
   that it makes is outside of the text or within a character. -/
namespace DataLayer.Record.Codec
open Json Text

def hexName : String := "0x-prefixed hex string"

section Positions

def hexNumber? (s : List Char) : Option UInt8 :=
  let digits := match s with
    | '+' :: rest => rest
    | s => s
  ((number? 16 digits).filter (· < 256)).map UInt8.ofNat

/-- The bytes whose pairs begin at these positions. The first pair that is no byte is refused, and
    a pair that cannot be cut out ends everything. -/
def pairsAt (refusal : Fault) (digits : List Char) :
    List Nat → Option (Except Fault (List UInt8))
  | [] => some (.ok [])
  | start :: rest => do
      let pair ← slice? digits start (start + 2)
      match hexNumber? pair with
      | none => return .error refusal
      | some byte => return (← pairsAt refusal digits rest).map (byte :: ·)

def readByPositions (v : Value) : Option (Except Fault (List UInt8)) :=
  match text.read v with
  | .error f => some (.error f)
  | .ok s =>
      let refusal := Fault.badValue hexName s
      match s.toList with
      | '0' :: 'x' :: digits =>
          if digits.all (·.toNat < 0x80) && byteSize digits % 2 == 0 then
            pairsAt refusal digits (List.range' 0 (byteSize digits / 2) 2)
          else some (.error refusal)
      | _ => some (.error refusal)

theorem hexNumber?_pair (high low : Char) : hexNumber? [high, low] = hexByte? high low := by
  have small : ∀ {s : List Char}, s.length ≤ 2 →
      ((number? 16 s).filter (· < 256)).map UInt8.ofNat = (number? 16 s).map UInt8.ofNat := by
    intro s short
    cases read : number? 16 s with
    | none => rfl
    | some n =>
      have fits := Nat.lt_of_lt_of_le (number?_lt read) (Nat.pow_le_pow_right (by decide) short)
      simp [Option.filter, fits]
  by_cases signed : high = '+'
  · subst signed
    exact small (by simp)
  · have unsigned : hexNumber? [high, low] =
        ((number? 16 [high, low]).filter (· < 256)).map UInt8.ofNat := by
      unfold hexNumber?
      split
      · rename_i same
        exact absurd (List.cons.inj same).1 signed
      · rfl
    rw [unsigned, small (by simp), hexByte?, if_neg signed]

def outcomeOf (refusal : Fault) (read : Option (List UInt8)) : Except Fault (List UInt8) :=
  match read with
  | some data => .ok data
  | none => .error refusal

/-- In ASCII text every pair is cut out of its place, as far as the positions go. -/
theorem pairsAt_range' (refusal : Fault) {before rest : List Char}
    (first : ∀ c ∈ before, c.toNat < 0x80) (ascii : ∀ c ∈ rest, c.toNat < 0x80)
    (even : Even rest.length) :
    pairsAt refusal (before ++ rest) (List.range' before.length (rest.length / 2) 2) =
      some (outcomeOf refusal (hexBytes? rest)) := by
  fun_induction hexBytes? rest generalizing before with
  | case1 => rfl
  | case2 high low rest ih =>
    obtain ⟨pair, behind⟩ := List.forall_mem_append.mp (show ∀ c ∈ [high, low] ++ rest, _ from ascii)
    have moved : before ++ high :: low :: rest = (before ++ [high, low]) ++ rest := by simp
    have cut : slice? (before ++ high :: low :: rest) before.length (before.length + 2) =
        some [high, low] :=
      slice?_eq_some_iff.mpr ⟨before, rest, rfl, byteSize_of_ascii first,
        by rw [byteSize_of_ascii pair]; rfl⟩
    have later := ih (List.forall_mem_append.mpr ⟨first, pair⟩) behind
      (by simpa [Nat.even_add_one] using even)
    have steps : (high :: low :: rest).length / 2 = rest.length / 2 + 1 := by
      simp only [List.length_cons]
      omega
    rw [List.length_append, ← moved] at later
    rw [steps, List.range'_succ]
    cases read : hexByte? high low with
    | none => simp [pairsAt, cut, hexNumber?_pair, read, outcomeOf]
    | some byte =>
      have next : [high, low].length = 2 := rfl
      rw [next] at later
      simp only [pairsAt, cut, hexNumber?_pair, read, later, Option.bind_eq_bind, Option.bind_some,
        Option.pure_def]
      cases hexBytes? rest <;> rfl
  | case3 digits some single =>
    obtain ⟨c, rfl⟩ := exists_eq_singleton some single
    exact absurd even (by simp)

theorem bytes_read_string (s : String) :
    bytes.read (.string s) = outcomeOf (.badValue hexName s) (ofHexText? s.toList) := by
  rw [bytes, formatted_read_string]
  cases ofHexText? s.toList <;> rfl

theorem outcomeOf_eq_ok {refusal : Fault} {read : Option (List UInt8)} {data : List UInt8} :
    outcomeOf refusal read = .ok data ↔ read = some data := by
  cases read <;> simp [outcomeOf]

/-- Cutting a text at positions gives what reading it pair by pair gives, and never fails. -/
theorem readByPositions_eq (v : Value) : readByPositions v = some (bytes.read v) := by
  cases v with
  | string s =>
    rw [bytes_read_string]
    simp only [readByPositions, text]
    split
    · rename_i digits marked
      rw [marked, ofHexText?]
      split
      · rename_i wellFormed
        rw [Bool.and_eq_true, List.all_eq_true, beq_iff_eq] at wellFormed
        obtain ⟨ascii, even⟩ := wellFormed
        replace ascii : ∀ c ∈ digits, c.toNat < 0x80 := fun c mem => by simpa using ascii c mem
        have size := byteSize_of_ascii ascii
        rw [size] at even ⊢
        exact pairsAt_range' _ (List.forall_mem_nil _) ascii (Nat.even_iff.mpr even)
      · rename_i illFormed
        have unread : ¬ IsHexBody digits := by
          intro body
          have ascii : digits.all (·.toNat < 0x80) = true := by simpa using body.ascii
          have even := Nat.even_iff.mp body.1
          rw [byteSize_of_ascii body.ascii, ascii, even] at illFormed
          exact illFormed rfl
        rw [hexBytes?_eq_none unread]
        rfl
    · rename_i unmarked
      have unread : ¬ IsHexText s.toList := by
        rintro ⟨digits, marked, _⟩
        exact unmarked digits marked
      rw [ofHexText?_eq_none unread]
      rfl
  | _ => rfl

end Positions

theorem bytes_hexForm (data : List UInt8) :
    ∃ s digits, bytes.write data = .ok (.string s) ∧ s.toList = '0' :: 'x' :: digits ∧
      HexForm data digits ∧ bytes.read (.string s) = .ok data := by
  refine ⟨String.ofList (hexText data), data.flatMap hexPair, rfl, ?_, hexForm_flatMap data, ?_⟩
  · rw [String.toList_ofList, hexText]
  · rw [bytes_read_string, String.toList_ofList, ofHexText?_hexText]
    rfl

/-- From which values bytes are read, what is written for them, and how all else is refused. -/
structure ReadsHexText (v : Value) : Prop where
  accepted : (∃ data, bytes.read v = .ok data) ↔ ∃ s, v = .string s ∧ IsHexText s.toList
  rewritten : ∀ s data, v = .string s → bytes.read v = .ok data →
    bytes.write data = .ok (.string (String.ofList (s.toList.map writtenHex)))
  refused : ∀ s, v = .string s → ¬ IsHexText s.toList →
    bytes.read v = .error (.badValue "0x-prefixed hex string" s)
  misplaced : (∀ s, v ≠ .string s) → bytes.read v = .error (.wrongKind "string" v.kind)
  completed : readByPositions v = some (bytes.read v)
  unsigned : ∀ s, v = .string s → '+' ∉ s.toList →
    (IsHexText s.toList ↔ ∃ digits, s.toList = '0' :: 'x' :: digits ∧ Even digits.length ∧
      ∀ c ∈ digits, IsHexDigit c) ∧
    s.toList.map writtenHex = s.toList.map Char.toLower

theorem bytes_readsHexText (v : Value) : ReadsHexText v where
  accepted := by
    constructor
    · rintro ⟨data, read⟩
      cases v with
      | string s =>
        rw [bytes_read_string, outcomeOf_eq_ok] at read
        exact ⟨s, rfl, exists_ofHexText?_iff.mp ⟨data, read⟩⟩
      | _ => contradiction
    · rintro ⟨s, rfl, readable⟩
      obtain ⟨data, read⟩ := exists_ofHexText?_iff.mpr readable
      exact ⟨data, by rw [bytes_read_string, read]; rfl⟩
  rewritten := by
    rintro s data rfl read
    rw [bytes_read_string, outcomeOf_eq_ok] at read
    rw [← hexText_of_ofHexText? read]
    rfl
  refused := by
    rintro s rfl unread
    rw [bytes_read_string, ofHexText?_eq_none unread]
    rfl
  misplaced := by
    intro other
    cases v with
    | string s => exact absurd rfl (other s)
    | _ => rfl
  completed := readByPositions_eq v
  unsigned := by
    intro s _ unsigned
    exact ⟨isHexText_iff_of_unsigned unsigned, map_writtenHex_of_unsigned unsigned⟩

theorem signed_pair_read :
    bytes.read (.string "0x+f") = .ok [15] ∧
      (¬ ∃ digits, "0x+f".toList = '0' :: 'x' :: digits ∧ Even digits.length ∧
        ∀ c ∈ digits, IsHexDigit c) ∧
      bytes.write [15] = .ok (.string "0x0f") := by
  have characters : "0x+f".toList = ['0', 'x', '+', 'f'] := by decide
  refine ⟨?_, ?_, rfl⟩
  · rw [bytes_read_string, characters]
    rfl
  · rintro ⟨digits, same, _, each⟩
    rw [characters] at same
    cases same
    exact not_isHexDigit_plus (each '+' List.mem_cons_self)

end DataLayer.Record.Codec
