/-!
# Double precision numbers

Numbers with a fraction are kept in the binary format of 64 bits: a sign, and a magnitude whose
53 leading bits are kept.  A magnitude is stored as the 63 lower bits of the format, so that the
order of the codes is the order of the numbers; the code `2047 * 2 ^ 52` stands for everything
that is too large.  All arithmetic is on natural numbers, with one rounding per operation: to the
nearest magnitude, halves to the even one.
-/

namespace PluginHost.Decimal

/-- A number in double precision: its sign, and the code of its magnitude. -/
structure Double where
  negative : Bool
  magnitude : Nat
  deriving DecidableEq, Repr

namespace Double

/-- The code of the magnitudes that are too large. -/
def infinite : Nat := 2047 * Nat.pow 2 52

/-- The number zero, with a sign. -/
def zero (negative : Bool) : Double := ⟨negative, 0⟩

/-- A quotient rounded to a whole number, halves to the even one. -/
def roundQuotient (num den : Nat) : Nat :=
  let q := num / den
  let r := num % den
  if den < 2 * r || (2 * r == den && q % 2 == 1) then q + 1 else q

/-- The exponent `e` for which `num / den` lies in `[2 ^ e, 2 ^ (e + 1))`. -/
def exponentOf (num den : Nat) : Int :=
  let guess : Int := (Nat.log2 num : Int) - (Nat.log2 den : Int)
  let reaches : Bool :=
    if guess < 0 then den ≤ num * Nat.pow 2 (-guess).toNat else den * Nat.pow 2 guess.toNat ≤ num
  if reaches then guess else guess - 1

/-- The code of the magnitude nearest to `num / den`. -/
def magnitudeOfRatio (num den : Nat) : Nat :=
  if num == 0 || den == 0 then 0
  else
    let e := max (exponentOf num den) (-1022)
    -- the unit in the last place is `2 ^ (e - 52)`
    let shift := e - 52
    let m := if shift < 0 then roundQuotient (num * Nat.pow 2 (-shift).toNat) den
      else roundQuotient num (den * Nat.pow 2 shift.toNat)
    let code := (e + 1022).toNat * Nat.pow 2 52 + m
    min code infinite

/-- A finite magnitude as `m * 2 ^ q`. -/
def significand (code : Nat) : Nat × Int :=
  let field : Nat := code / Nat.pow 2 52
  let fraction : Nat := code % Nat.pow 2 52
  if field == 0 then (fraction, -1074) else (Nat.pow 2 52 + fraction, (field : Int) - 1075)

/-- A finite magnitude as a quotient. -/
def ratio (code : Nat) : Nat × Nat :=
  let (m, q) := significand code
  if q < 0 then (m, Nat.pow 2 (-q).toNat) else (m * Nat.pow 2 q.toNat, 1)

/-- The rounded product of two finite magnitudes. -/
def mulMagnitude (a b : Nat) : Nat :=
  let (an, ad) := ratio a
  let (bn, bd) := ratio b
  magnitudeOfRatio (an * bn) (ad * bd)

/-- The rounded quotient of two finite magnitudes, the second of them not zero. -/
def divMagnitude (a b : Nat) : Nat :=
  let (an, ad) := ratio a
  let (bn, bd) := ratio b
  magnitudeOfRatio (an * bd) (ad * bn)

/-- The magnitude nearest to a power of ten. -/
def powerOfTen (k : Nat) : Nat := magnitudeOfRatio (Nat.pow 10 k) 1

/-- Scales a magnitude by a negative power of ten that is out of the table's reach, in steps of
`10 ^ 308`. -/
def scaleDown : Nat → Nat → Nat → Nat
  | 0, f, _ => f
  | fuel + 1, f, k =>
      if k ≤ 308 then divMagnitude f (powerOfTen k)
      else if f == 0 then 0
      else scaleDown fuel (divMagnitude f (powerOfTen 308)) (k - 308)

/-- The magnitude of `digits * 10 ^ exponent`: the digits are rounded first, then multiplied or
divided by a rounded power of ten.  It is `none` when the result is too large. -/
def magnitudeOfDecimal (digits : Nat) (exponent : Int) : Option Nat :=
  let f := magnitudeOfRatio digits 1
  if 0 ≤ exponent then
    if 308 < exponent then (if f == 0 then some 0 else none)
    else
      let product := mulMagnitude f (powerOfTen exponent.toNat)
      if infinite ≤ product then none else some product
  else
    let k := (-exponent).toNat
    some (scaleDown 8 f (min k 2000))

end Double

end PluginHost.Decimal
