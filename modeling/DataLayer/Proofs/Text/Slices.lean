import Mathlib.Data.List.Basic

/- Parts of a text by positions that are counted in bytes. There is no part if one of its ends is
   outside of the text or within a character. In a text of ASCII characters every position is one
   of a character. -/
namespace DataLayer.Text

def byteSize : List Char → Nat
  | [] => 0
  | c :: s => c.utf8Size + byteSize s

/-- A text in two, of which the first takes up so many bytes. -/
def splitAtByte? : Nat → List Char → Option (List Char × List Char)
  | 0, s => some ([], s)
  | _ + 1, [] => none
  | n + 1, c :: rest =>
      if c.utf8Size ≤ n + 1 then
        (splitAtByte? (n + 1 - c.utf8Size) rest).map fun (before, behind) => (c :: before, behind)
      else none

def slice? (s : List Char) (start stop : Nat) : Option (List Char) :=
  if start ≤ stop then do
    let (_, behind) ← splitAtByte? start s
    let (inside, _) ← splitAtByte? (stop - start) behind
    return inside
  else none

theorem byteSize_nil : byteSize [] = 0 := rfl

theorem byteSize_cons (c : Char) (s : List Char) : byteSize (c :: s) = c.utf8Size + byteSize s :=
  rfl

theorem byteSize_of_ascii {s : List Char} (ascii : ∀ c ∈ s, c.toNat < 0x80) :
    byteSize s = s.length := by
  induction s with
  | nil => rfl
  | cons c s ih =>
    rw [List.forall_mem_cons] at ascii
    have single : c.utf8Size = 1 := Char.utf8Size_eq_one_iff.mpr (Nat.le_of_lt_succ ascii.1)
    rw [byteSize_cons, single, ih ascii.2, List.length_cons, Nat.add_comm]

theorem byteSize_eq_zero {s : List Char} : byteSize s = 0 ↔ s = [] := by
  cases s with
  | nil => simp [byteSize_nil]
  | cons c s =>
    have some := c.utf8Size_pos
    simp [byteSize_cons]
    omega

theorem splitAtByte?_eq_some_iff {n : Nat} {s before behind : List Char} :
    splitAtByte? n s = some (before, behind) ↔ s = before ++ behind ∧ byteSize before = n := by
  fun_induction splitAtByte? n s generalizing before behind with
  | case1 s =>
    rw [byteSize_eq_zero]
    constructor
    · rintro ⟨⟩
      exact ⟨rfl, rfl⟩
    · rintro ⟨rfl, rfl⟩
      rfl
  | case2 n =>
    refine iff_of_false (by simp) ?_
    rintro ⟨empty, size⟩
    obtain ⟨rfl, rfl⟩ := List.append_eq_nil_iff.mp empty.symm
    contradiction
  | case3 n c rest fits ih =>
    rw [Option.map_eq_some_iff]
    constructor
    · rintro ⟨⟨front, back⟩, parted, same⟩
      cases same
      obtain ⟨rfl, size⟩ := ih.mp parted
      refine ⟨rfl, ?_⟩
      rw [byteSize_cons, size]
      omega
    · rintro ⟨whole, size⟩
      cases before with
      | nil => contradiction
      | cons d front =>
        obtain ⟨rfl, rfl⟩ := List.cons.inj whole
        rw [byteSize_cons] at size
        exact ⟨(front, behind), ih.mpr ⟨rfl, by omega⟩, rfl⟩
  | case4 n c rest large =>
    refine iff_of_false (by simp) ?_
    rintro ⟨whole, size⟩
    cases before with
    | nil => contradiction
    | cons d front =>
      obtain ⟨rfl, rfl⟩ := List.cons.inj whole
      rw [byteSize_cons] at size
      omega

theorem slice?_eq_some_iff {s inside : List Char} {start stop : Nat} :
    slice? s start stop = some inside ↔ ∃ before behind, s = before ++ (inside ++ behind) ∧
      byteSize before = start ∧ start + byteSize inside = stop := by
  unfold slice?
  split
  · rename_i ordered
    constructor
    · intro found
      obtain ⟨⟨before, rest⟩, first, found⟩ := Option.bind_eq_some_iff.mp found
      obtain ⟨⟨part, behind⟩, second, same⟩ := Option.bind_eq_some_iff.mp found
      cases same
      obtain ⟨rfl, start⟩ := splitAtByte?_eq_some_iff.mp first
      obtain ⟨rfl, size⟩ := splitAtByte?_eq_some_iff.mp second
      exact ⟨before, behind, rfl, start, by omega⟩
    · rintro ⟨before, behind, whole, first, last⟩
      have here := splitAtByte?_eq_some_iff.mpr ⟨whole, first⟩
      have there : splitAtByte? (stop - start) (inside ++ behind) = some (inside, behind) :=
        splitAtByte?_eq_some_iff.mpr ⟨rfl, by omega⟩
      simp [here, there]
  · rename_i reversed
    refine iff_of_false (by simp) ?_
    rintro ⟨before, behind, _, _, last⟩
    omega

end DataLayer.Text
