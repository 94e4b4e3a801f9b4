import HttpServer.Text.Number

/-!
# Spans of time

A span is a number of nanoseconds. In configurations it is a number of seconds in binary floating
point, which is rounded to the nearest nanosecond, a half going to the even neighbour
(`Duration.ofSeconds?`). Waiting is done in whole milliseconds, so a deadline is rounded up
(`Duration.milliseconds`).
-/

namespace HttpServer

/-- A span of time in nanoseconds. -/
structure Duration where
  nanoseconds : Nat
  deriving DecidableEq

namespace Duration

def ofMilliseconds (ms : Nat) : Duration := ⟨ms * 1000000⟩

def seconds (d : Duration) : Nat := d.nanoseconds / 1000000000

def fraction (d : Duration) : Nat := d.nanoseconds % 1000000000

/-- The milliseconds after which the span has passed. -/
def milliseconds (d : Duration) : Nat := (d.nanoseconds + 999999) / 1000000

/-- The quotient rounded to the nearest number, a half to the even one. -/
def divideToNearest (numerator denominator : Nat) : Nat :=
  let quotient := numerator / denominator
  let twice := 2 * (numerator % denominator)
  if twice < denominator then quotient
  else if denominator < twice then quotient + 1
  else if quotient % 2 = 0 then quotient
  else quotient + 1

/-- The span of a number of seconds; `none` for numbers below zero, for those of 2⁶⁴ and above, and
for what is no number. -/
def ofSeconds? (x : Float) : Option Duration :=
  let bits := x.toBits.toNat
  let negative := bits >>> 63 = 1
  let exponent := (bits >>> 52) % (1 <<< 11)
  let digits := bits % (1 <<< 52)
  let mantissa := if exponent = 0 then digits else digits + (1 <<< 52)
  let scale := max exponent 1
  if exponent = 2047 ∨ (negative ∧ mantissa ≠ 0) then none
  else if 1075 ≤ scale then
    let whole := mantissa <<< (scale - 1075)
    if whole < wordBound then some ⟨whole * 1000000000⟩ else none
  else some ⟨divideToNearest (mantissa * 1000000000) (1 <<< (1075 - scale))⟩

end Duration

end HttpServer
