import PluginHost.Decimal.Double
import PluginHost.Text.Numeral
import PluginHost.Toml.Value

/-!
# Numbers, truth values and dates of TOML

A value that is no text and no container is a run of characters without blanks; `scalar?` tells
what it stands for.  Only a date may be followed by a time behind one blank, which `withTime?`
puts together.
-/

namespace PluginHost.Toml

open Text

/-- A digit of a base up to sixteen. -/
def digitOf (base : Nat) (c : Char) : Option Nat :=
  let value :=
    if isDigit c then some (digitValue c)
    else if 'a' ≤ c && c ≤ 'f' then some (c.toNat - 87)
    else if 'A' ≤ c && c ≤ 'F' then some (c.toNat - 55)
    else none
  value.filter (· < base)

/-- The number of a run of digits, in which single underscores may stand between digits. -/
def digitRun? (base : Nat) : Nat → List Char → Option Nat
  | _, [] => none
  | acc, [c] => do some (acc * base + (← digitOf base c))
  | acc, c :: '_' :: rest => do digitRun? base (acc * base + (← digitOf base c)) rest
  | acc, c :: rest => do digitRun? base (acc * base + (← digitOf base c)) rest

/-- A run of decimal digits without a leading zero. -/
def decimal? (cs : List Char) : Option Nat :=
  match cs with
  | ['0'] => some 0
  | '0' :: _ => none
  | cs => digitRun? 10 0 cs

/-- A signed number of 64 bits. -/
def inRange (i : Int) : Option Int :=
  if -(maxInt64 + 1 : Int) ≤ i && i ≤ maxInt64 then some i else none

/-- A whole number. -/
def integer? : List Char → Option Int
  | '0' :: 'x' :: cs => digitRun? 16 0 cs >>= fun n => inRange n
  | '0' :: 'o' :: cs => digitRun? 8 0 cs >>= fun n => inRange n
  | '0' :: 'b' :: cs => digitRun? 2 0 cs >>= fun n => inRange n
  | '+' :: cs => decimal? cs >>= fun n => inRange n
  | '-' :: cs => decimal? cs >>= fun n => inRange (-(n : Int))
  | cs => decimal? cs >>= fun n => inRange n

/-- The digits of a run, without underscores. -/
def digitsOnly (cs : List Char) : List Char := cs.filter (· != '_')

/-- An exponent behind its letter. -/
def exponent? : List Char → Option Int
  | '-' :: cs => (digitRun? 10 0 cs).map fun n => -(n : Int)
  | '+' :: cs => (digitRun? 10 0 cs).map fun n => (n : Int)
  | cs => (digitRun? 10 0 cs).map fun n => (n : Int)

/-- The number of `digits * 10 ^ exponent` is too large for double precision. -/
def tooLarge (digits : List Char) (exponent : Int) : Bool :=
  let n := digitsValue 0 digits
  if n == 0 then false
  else if 400 < exponent + digits.length then true
  else if exponent + digits.length < 0 then false
  else
    let (num, den) :=
      if 0 ≤ exponent then (n * Nat.pow 10 exponent.toNat, 1) else (n, Nat.pow 10 (-exponent).toNat)
    Decimal.Double.infinite ≤ Decimal.Double.magnitudeOfRatio num den

/-- A number without a sign that has a fraction, an exponent or both.  It has to be finite when
`bounded`. -/
def unsignedFloat? (bounded : Bool) (cs : List Char) : Bool :=
  let whole := cs.takeWhile fun c => isDigit c || c == '_'
  let rest := cs.dropWhile fun c => isDigit c || c == '_'
  if (decimal? whole).isNone then false
  else
    let finite (digits : List Char) (exponent : Int) : Bool :=
      !(bounded && tooLarge digits exponent)
    match rest with
    | '.' :: rest =>
        let fraction := rest.takeWhile fun c => isDigit c || c == '_'
        let rest := rest.dropWhile fun c => isDigit c || c == '_'
        let digits := digitsOnly whole ++ digitsOnly fraction
        let places : Int := (digitsOnly fraction).length
        if (digitRun? 10 0 fraction).isNone then false
        else
          match rest with
          | [] => finite digits (-places)
          | 'e' :: rest => (exponent? rest).any fun e => finite digits (e - places)
          | 'E' :: rest => (exponent? rest).any fun e => finite digits (e - places)
          | _ => false
    | 'e' :: rest => (exponent? rest).any fun e => finite (digitsOnly whole) e
    | 'E' :: rest => (exponent? rest).any fun e => finite (digitsOnly whole) e
    | _ => false

/-- A number that is not whole.  The number with a minus sign may be of any size. -/
def isFloat : List Char → Bool
  | '+' :: cs => isSpecial cs || unsignedFloat? true cs
  | '-' :: cs => isSpecial cs || unsignedFloat? false cs
  | cs => isSpecial cs || unsignedFloat? true cs
where
  /-- The two numbers that have no digits. -/
  isSpecial (cs : List Char) : Bool := cs == "inf".toList || cs == "nan".toList

/-- Two digits between two bounds. -/
def twoDigits? (low high : Nat) : List Char → Option (Nat × List Char)
  | a :: b :: rest =>
      if isDigit a && isDigit b then
        let n := digitValue a * 10 + digitValue b
        if low ≤ n && n ≤ high then some (n, rest) else none
      else none
  | _ => none

/-- A year of four digits. -/
def year? : List Char → Option (Nat × List Char)
  | a :: b :: c :: d :: rest =>
      if [a, b, c, d].all isDigit then some (digitsValue 0 [a, b, c, d], rest) else none
  | _ => none

/-- The rest behind a fixed character. -/
def after? (c : Char) : List Char → Option (List Char)
  | [] => none
  | d :: rest => if d == c then some rest else none

/-- The number of days of a month. -/
def daysIn (year month : Nat) : Nat :=
  if month == 2 then
    if year % 4 == 0 && (year % 100 != 0 || year % 400 == 0) then 29 else 28
  else if [4, 6, 9, 11].contains month then 30
  else 31

/-- A date, as its text. -/
def date? (cs : List Char) : Option (String × List Char) := do
  let (year, cs) ← year? cs
  let cs ← after? '-' cs
  let (month, cs) ← twoDigits? 1 12 cs
  let cs ← after? '-' cs
  let (day, cs) ← twoDigits? 1 (daysIn year month) cs
  some (padded 4 year ++ "-" ++ padded 2 month ++ "-" ++ padded 2 day, cs)

/-- The fraction of a second, to nine places, as its text. -/
def secondFraction? : List Char → Option (String × List Char)
  | '.' :: cs =>
      let digits := cs.takeWhile isDigit
      if digits.isEmpty then none
      else
        let kept := ((digits.take 9).reverse.dropWhile (· == '0')).reverse
        some (if kept.isEmpty then "" else "." ++ String.ofList kept, cs.dropWhile isDigit)
  | cs => some ("", cs)

/-- A time of day, as its text. -/
def time? (cs : List Char) : Option (String × List Char) := do
  let (hour, cs) ← twoDigits? 0 23 cs
  let cs ← after? ':' cs
  let (minute, cs) ← twoDigits? 0 59 cs
  let cs ← after? ':' cs
  let (second, cs) ← twoDigits? 0 60 cs
  let (fraction, cs) ← secondFraction? cs
  some (padded 2 hour ++ ":" ++ padded 2 minute ++ ":" ++ padded 2 second ++ fraction, cs)

/-- The distance from universal time, as its text. -/
def offset? : List Char → Option String
  | [] => some ""
  | ['Z'] => some "Z"
  | ['z'] => some "Z"
  | sign :: cs => do
      if sign != '+' && sign != '-' then none
      else
        let (hours, cs) ← twoDigits? 0 23 cs
        let cs ← after? ':' cs
        let (minutes, cs) ← twoDigits? 0 59 cs
        if cs.isEmpty then
          let shown := if hours == 0 && minutes == 0 then "+" else String.ofList [sign]
          some (shown ++ padded 2 hours ++ ":" ++ padded 2 minutes)
        else none

/-- A time of day with its distance from universal time, behind a date. -/
def timeBehind? (date : String) (cs : List Char) : Option String := do
  let (time, cs) ← time? cs
  some (date ++ "T" ++ time ++ (← offset? cs))

/-- A date, a time, or both. -/
def datetime? (cs : List Char) : Option String :=
  match date? cs with
  | some (date, []) => some date
  | some (date, 'T' :: cs) => timeBehind? date cs
  | some (date, 't' :: cs) => timeBehind? date cs
  | some _ => none
  | none =>
      match time? cs with
      | some (time, []) => some time
      | _ => none

/-- A date with the time that stands behind a blank. -/
def withTime? (date time : List Char) : Option String :=
  match date? date with
  | some (date, []) => timeBehind? date time
  | _ => none

/-- What a run of characters stands for. -/
def scalar? (cs : List Char) : Option Value :=
  if cs == "true".toList then some (.boolean true)
  else if cs == "false".toList then some (.boolean false)
  else
    match integer? cs with
    | some i => some (.integer i)
    | none =>
        match datetime? cs with
        | some text => some (.datetime text)
        | none => if isFloat cs then some .float else none

end PluginHost.Toml
