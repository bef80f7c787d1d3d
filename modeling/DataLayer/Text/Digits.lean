/- Natural numbers by their digits, most significant first. -/
namespace DataLayer.Text

def digitValue? (base : Nat) (c : Char) : Option Nat :=
  let value? :=
    if '0' ≤ c ∧ c ≤ '9' then some (c.toNat - '0'.toNat)
    else if 'a' ≤ c ∧ c ≤ 'f' then some (c.toNat - 'a'.toNat + 10)
    else if 'A' ≤ c ∧ c ≤ 'F' then some (c.toNat - 'A'.toNat + 10)
    else none
  value?.filter (· < base)

def number? (base : Nat) (digits : List Char) : Option Nat :=
  if digits.isEmpty then none
  else digits.foldl
    (fun sofar c => sofar.bind fun n => (digitValue? base c).map (n * base + ·)) (some 0)

def padded (width n : Nat) : List Char :=
  let digits := Nat.toDigits 10 n
  List.replicate (width - digits.length) '0' ++ digits

theorem digitValue?_lt {base n : Nat} {c : Char} (digit : digitValue? base c = some n) :
    n < base := by
  simp only [digitValue?, Option.filter_eq_some_iff, decide_eq_true_eq] at digit
  exact digit.2

end DataLayer.Text
