import PluginHost.Decimal.Double

/-!
# Shortest decimal text

`shortest` finds, for a magnitude in double precision, the fewest decimal digits that read back
as the same number, and among those the nearest.  Every magnitude covers an interval of reals
that round to it, with its ends when its code is even.  For one, two, … seventeen digits the two
neighbours of the value on that decimal grid are tested against the interval.

`Double.text` writes the digits: positionally while the decimal exponent is between -5 and 15,
with at least one digit after the point, otherwise in scientific form with a signed exponent.
-/

namespace PluginHost.Decimal

/-- Four times the value and the two ends of the interval that rounds to a magnitude, over a
common power of two: `(low, value, high, q)` stands for `low * 2 ^ q` and so on. -/
def Double.interval (code : Nat) : Nat × Nat × Nat × Int :=
  let (m, q) := Double.significand code
  let atPower := code % Nat.pow 2 52 == 0 && 1 < code / Nat.pow 2 52
  (if atPower then 4 * m - 1 else 4 * m - 2, 4 * m, 4 * m + 2, q - 2)

/-- `a * 2 ^ q` compared with `b * 10 ^ p`: both as natural numbers over a common denominator. -/
def alignScales (a : Nat) (q : Int) (b : Nat) (p : Int) : Nat × Nat :=
  let left := a * Nat.pow 2 q.toNat * Nat.pow 10 (-p).toNat
  let right := b * Nat.pow 10 p.toNat * Nat.pow 2 (-q).toNat
  (left, right)

/-- The number `d * 10 ^ p` rounds to the magnitude. -/
def roundsTo (code : Nat) (d : Nat) (p : Int) : Bool :=
  let (low, _, high, q) := Double.interval code
  let (l, x) := alignScales low q d p
  let (h, y) := alignScales high q d p
  if code % 2 == 0 then l ≤ x && y ≤ h else l < x && y < h

/-- The largest `d` with `d * 10 ^ p` at most the value. -/
def gridBelow (code : Nat) (p : Int) : Nat :=
  let (_, v, _, q) := Double.interval code
  (v * Nat.pow 2 q.toNat * Nat.pow 10 (-p).toNat) / (Nat.pow 10 p.toNat * Nat.pow 2 (-q).toNat)

/-- The exponent of the leading decimal digit of the value. -/
def leadingExponent (code : Nat) : Int :=
  let (_, v, _, q) := Double.interval code
  let guess : Int := (((Nat.log2 v : Int) + q) * 30103) / 100000
  -- the guess is at most one too small or too large
  let atLeast (k : Int) : Bool :=
    let (x, y) := alignScales v q 1 k
    y ≤ x
  if atLeast (guess + 1) then guess + 1 else if atLeast guess then guess else guess - 1

/-- The nearest of two neighbours on a grid; a tie goes to the even one. -/
def nearer (code : Nat) (d : Nat) (p : Int) : Nat :=
  let (_, v, _, q) := Double.interval code
  let (x, y) := alignScales (2 * v) q (2 * d + 1) p
  if x < y then d else if y < x then d + 1 else if d % 2 == 0 then d else d + 1

/-- The first grid, from `count` digits on, that has a point in the interval. -/
def searchGrids (code : Nat) (lead : Int) : Nat → Nat → Nat × Int
  | 0, count => (gridBelow code (lead - count + 1), lead - count + 1)
  | fuel + 1, count =>
      let p := lead - count + 1
      let d := gridBelow code p
      match roundsTo code d p, roundsTo code (d + 1) p with
      | true, true => (nearer code d p, p)
      | true, false => (d, p)
      | false, true => (d + 1, p)
      | false, false => searchGrids code lead fuel (count + 1)

/-- Drops the zeros at the end of a number, counting them. -/
def dropZeros : Nat → Nat → Int → Nat × Int
  | 0, d, p => (d, p)
  | fuel + 1, d, p => if d % 10 == 0 && 0 < d then dropZeros fuel (d / 10) (p + 1) else (d, p)

/-- The fewest digits `d` and their exponent `p` for which `d * 10 ^ p` reads back as the
magnitude. -/
def shortest (code : Nat) : Nat × Int :=
  if code == 0 then (0, 0)
  else
    let (d, p) := searchGrids code (leadingExponent code) 17 1
    dropZeros 20 d p

/-- How a number with a fraction is laid out. -/
structure Layout where
  /-- The smallest decimal exponent that is written positionally. -/
  lowest : Int
  /-- The largest decimal exponent that is written positionally. -/
  highest : Int

/-- Positional from 0.00001 up to sixteen digits before the point. -/
def layout : Layout := ⟨-5, 15⟩

/-- The digits of `d * 10 ^ p` laid out as a text. -/
def digitsText (d : Nat) (p : Int) : String :=
  let digits := Nat.toDigits 10 d
  let count := digits.length
  let lead := p + count - 1
  if layout.lowest ≤ lead && lead ≤ layout.highest then
    if 0 ≤ p then
      String.ofList (digits ++ List.replicate p.toNat '0' ++ ['.', '0'])
    else if 0 ≤ lead then
      let whole := (lead + 1).toNat
      String.ofList (digits.take whole ++ '.' :: digits.drop whole)
    else
      String.ofList ('0' :: '.' :: List.replicate (-lead - 1).toNat '0' ++ digits)
  else
    let fraction := match digits.drop 1 with
      | [] => []
      | more => '.' :: more
    let sign := if lead < 0 then '-' else '+'
    String.ofList (digits.take 1 ++ fraction ++ 'e' :: sign :: Nat.toDigits 10 lead.natAbs)

/-- The shortest text that reads back as the number. -/
def Double.text (x : Double) : String :=
  let sign := if x.negative then "-" else ""
  if x.magnitude == 0 then sign ++ "0.0"
  else
    let (d, p) := shortest x.magnitude
    sign ++ digitsText d p

end PluginHost.Decimal
