import DataLayer.Text.Digits

/- Bytes as text: a mark and two hexadecimal digits for each byte, high half first. Small letters
   are written, and letters of either case are read. -/
namespace DataLayer.Text

def hexPair (byte : UInt8) : List Char :=
  [Nat.digitChar (byte.toNat / 16), Nat.digitChar (byte.toNat % 16)]

def hexText (bytes : List UInt8) : List Char := '0' :: 'x' :: bytes.flatMap hexPair

/-- The byte that two characters stand for. In front of a single digit a plus sign may stand. -/
def hexByte? (high low : Char) : Option UInt8 :=
  (number? 16 (if high = '+' then [low] else [high, low])).map UInt8.ofNat

def hexBytes? : List Char → Option (List UInt8)
  | [] => some []
  | high :: low :: rest => do
      let byte ← hexByte? high low
      return byte :: (← hexBytes? rest)
  | _ => none

def ofHexText? : List Char → Option (List UInt8)
  | '0' :: 'x' :: digits => hexBytes? digits
  | _ => none

end DataLayer.Text
