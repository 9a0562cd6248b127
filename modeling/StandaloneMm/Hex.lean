/-!
Hexadecimal text of numbers: the digits alone, with a fixed width, or behind `0x`.
-/
namespace StandaloneMm.Hex

def lower (n : Nat) : String := String.ofList (Nat.toDigits 16 n)

def upper (n : Nat) : String := String.ofList ((Nat.toDigits 16 n).map Char.toUpper)

/-- Zeros are put in front until `width` digits stand; longer numbers are not cut. -/
def pad (width : Nat) (digits : String) : String :=
  String.ofList (List.replicate (width - digits.length) '0') ++ digits

def upperPadded (width n : Nat) : String := pad width (upper n)

def lowerPadded (width n : Nat) : String := pad width (lower n)

/-- The digits are upper case, the mark `0x` is not. -/
def upperMarked (n : Nat) : String := "0x" ++ upper n

def lowerMarked (n : Nat) : String := "0x" ++ lower n

end StandaloneMm.Hex
