import PluginHost.Text.Blank

/-!
# Whole numbers in decimal

`readNat` reads a whole number within a bound: digits alone, with an optional plus sign.  Leading
zeros are allowed, blanks are not.
-/

namespace PluginHost.Text

/-- An ASCII digit. -/
def isDigit (c : Char) : Bool := '0' ≤ c && c ≤ '9'

/-- The number of an ASCII digit. -/
def digitValue (c : Char) : Nat := c.toNat - 48

/-- The number that a run of digits stands for, behind the number `acc`. -/
def digitsValue (acc : Nat) (cs : List Char) : Nat :=
  cs.foldl (fun n c => n * 10 + digitValue c) acc

@[simp] theorem digitsValue_nil (acc : Nat) : digitsValue acc [] = acc := by
  rw [digitsValue, List.foldl_nil]

theorem digitsValue_cons (acc : Nat) (c : Char) (cs : List Char) :
    digitsValue acc (c :: cs) = digitsValue (acc * 10 + digitValue c) cs := by
  rw [digitsValue, List.foldl_cons, digitsValue]

/-- The number of a nonempty run of digits that is at most `bound`. -/
def readDigits (bound : Nat) (cs : List Char) : Option Nat :=
  if cs.isEmpty || !cs.all isDigit then none
  else
    let n := digitsValue 0 cs
    if n ≤ bound then some n else none

/-- The number of a run of digits, with an optional plus sign, that is at most `bound`. -/
def readNat (bound : Nat) : List Char → Option Nat
  | '+' :: rest => readDigits bound rest
  | cs => readDigits bound cs

/-- The largest number of 32 bits. -/
def maxUInt32 : Nat := 4294967295

/-- The largest number of 64 bits. -/
def maxUInt64 : Nat := 18446744073709551615

/-- The largest signed number of 64 bits. -/
def maxInt64 : Nat := 9223372036854775807

/-- The number in decimal, with leading zeros up to `width` digits. -/
def padded (width n : Nat) : String :=
  let digits := Nat.toDigits 10 n
  String.ofList (List.replicate (width - digits.length) '0' ++ digits)

end PluginHost.Text
