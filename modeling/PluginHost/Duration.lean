import PluginHost.Text.Numeral

/-!
# Durations

A length of time in whole seconds and nanoseconds.  Its text uses the largest unit of which it
holds at least one, with the fraction in that unit and without trailing zeros.
-/

namespace PluginHost

/-- A length of time. -/
structure Duration where
  seconds : Nat
  nanoseconds : Nat := 0
  deriving DecidableEq, Repr

namespace Duration

/-- A duration of milliseconds. -/
def ofMilliseconds (n : Nat) : Duration := ⟨n / 1000, n % 1000 * 1000000⟩

/-- No time at all. -/
def isZero (d : Duration) : Bool := d.seconds == 0 && d.nanoseconds == 0

/-- The digits behind the point: `fraction` of `10 ^ width`, without trailing zeros. -/
def fractionText (width fraction : Nat) : String :=
  let digits := ((Text.padded width fraction).toList.reverse.dropWhile (· == '0')).reverse
  if digits.isEmpty then "" else "." ++ String.ofList digits

/-- The text of a duration. -/
def text (d : Duration) : String :=
  if d.seconds > 0 then toString d.seconds ++ fractionText 9 d.nanoseconds ++ "s"
  else if d.nanoseconds ≥ 1000000 then
    toString (d.nanoseconds / 1000000) ++ fractionText 6 (d.nanoseconds % 1000000) ++ "ms"
  else if d.nanoseconds ≥ 1000 then
    toString (d.nanoseconds / 1000) ++ fractionText 3 (d.nanoseconds % 1000) ++ "µs"
  else toString d.nanoseconds ++ "ns"

end Duration

end PluginHost
