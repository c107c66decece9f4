/-!
# Binary floating-point numbers

The finite numbers of the 64-bit binary format, as sign, mantissa and exponent. Rounding goes
to the nearest number of the format and, halfway, to the one with an even mantissa. All
arithmetic is exact arithmetic on natural numbers followed by one rounding.

The shortest decimal text of a number is found on the decimal grids themselves: the first grid
on which a neighbour of the number reads back as the number gives the digits.
-/

namespace Rollout.Json

/-- The number `±mantissa * 2^exponent`. -/
structure Binary64 where
  negative : Bool
  mantissa : Nat
  exponent : Int
  deriving DecidableEq, Repr, Inhabited

namespace Binary64

/-- The exponent of the subnormal numbers, the least there is. -/
def minExponent : Int := -1074

def maxExponent : Int := 971

/-- The quotient rounded to a whole number, halves to even. -/
def roundDiv (num den : Nat) : Nat :=
  let q := num / den
  let r := num % den
  if 2 * r < den then q
  else if den < 2 * r then q + 1
  else if q % 2 = 0 then q else q + 1

def twoTo (n : Nat) : Nat := Nat.pow 2 n

/-- `num / (den * 2^e)` as a quotient of natural numbers. -/
def shifted (num den : Nat) (e : Int) : Nat × Nat :=
  if 0 ≤ e then (num, den * twoTo e.toNat) else (num * twoTo (-e).toNat, den)

/-- The exponent at which a positive quotient has a 53-bit mantissa, or the least one. -/
def exponentFor (num den : Nat) : Int :=
  let guess : Int := (Nat.log2 num : Int) - (Nat.log2 den : Int) - 52
  let (n, d) := shifted num den guess
  max minExponent (if n < twoTo 52 * d then guess - 1 else guess)

/-- The number nearest to a quotient, or none if it is beyond the finite numbers. -/
def ofQuotient? (negative : Bool) (num den : Nat) : Option Binary64 :=
  if num = 0 then some ⟨negative, 0, minExponent⟩
  else
    let e := exponentFor num den
    let (n, d) := shifted num den e
    let m := roundDiv n d
    let (m, e) := if m = twoTo 53 then (twoTo 52, e + 1) else (m, e)
    if maxExponent < e then none else some ⟨negative, m, e⟩

def ofNat (n : Nat) : Binary64 := (ofQuotient? false n 1).getD ⟨false, 0, minExponent⟩

def neg (x : Binary64) : Binary64 := { x with negative := !x.negative }

def toQuotient (x : Binary64) : Nat × Nat :=
  if 0 ≤ x.exponent then (x.mantissa * twoTo x.exponent.toNat, 1)
  else (x.mantissa, twoTo (-x.exponent).toNat)

def mul? (x y : Binary64) : Option Binary64 :=
  let (a, b) := x.toQuotient
  let (c, d) := y.toQuotient
  ofQuotient? false (a * c) (b * d)

def div? (x y : Binary64) : Option Binary64 :=
  let (a, b) := x.toQuotient
  let (c, d) := y.toQuotient
  ofQuotient? false (a * d) (b * c)

def powerOfTen (k : Nat) : Binary64 := ofNat (Nat.pow 10 k)

/-- A magnitude scaled by a power of ten, by one rounded product or quotient with a rounded
power; far below one, repeated quotients by `10^308` come first. The first argument bounds
their number. -/
def scale? : Nat → Binary64 → Int → Option Binary64
  | steps, x, k =>
    if k.natAbs ≤ 308 then
      if 0 ≤ k then x.mul? (powerOfTen k.natAbs) else x.div? (powerOfTen k.natAbs)
    else if x.mantissa = 0 then some x
    else if 0 ≤ k then none
    else
      match steps with
      | 0 => none
      | steps + 1 => (x.div? (powerOfTen 308)).bind fun y => scale? steps y (k + 308)

/-- The number that a decimal significand and exponent are read as. -/
def ofDecimal? (negative : Bool) (significand : Nat) (exponent : Int) : Option Binary64 :=
  (scale? exponent.natAbs (ofNat significand) exponent).map fun x => { x with negative }

/-- The interval of quotients that round to a positive number: lower and upper end over one
denominator, and whether the ends belong to it. -/
def interval (x : Binary64) : Nat × Nat × Nat × Bool :=
  let (num, den) := x.toQuotient
  -- half the distance to a neighbour is a quarter unit below a power of two
  let unit := if 0 ≤ x.exponent then twoTo x.exponent.toNat else 1
  let below := if x.mantissa = twoTo 52 ∧ minExponent < x.exponent then unit else 2 * unit
  (4 * num - below, 4 * num + 2 * unit, 4 * den, x.mantissa % 2 = 0)

def tenTo (k : Int) : Nat × Nat :=
  if 0 ≤ k then (Nat.pow 10 k.toNat, 1) else (1, Nat.pow 10 (-k).toNat)

def readsBack (x : Binary64) (d : Nat) (k : Int) : Bool :=
  let (low, high, den, closed) := x.interval
  let (p, q) := tenTo k
  let left := d * p * den
  if closed then low * q ≤ left && left ≤ high * q else low * q < left && left < high * q

/-- The greatest `k` with `10^k` at most the quotient, searched downwards. -/
def decimalExponent (num den : Nat) : Int :=
  go 700 330
where
  go : Nat → Int → Int
    | 0, k => k
    | steps + 1, k =>
      let (p, q) := tenTo k
      if p * den ≤ num * q then k else go steps (k - 1)

/-- On the grid of multiples of `10^k`, the neighbour of the number that reads back as it; of
two, the nearer one, and of two equally near ones the even one. -/
def onGrid? (x : Binary64) (k : Int) : Option Nat :=
  let (num, den) := x.toQuotient
  let (p, q) := tenTo k
  let d := num * q / (den * p)
  match x.readsBack d k, x.readsBack (d + 1) k with
  | true, true => some (roundDiv (num * q) (den * p))
  | true, false => some d
  | false, true => some (d + 1)
  | false, false => none

/-- The first grid of at most 17 digits with a neighbour that reads back. -/
def shortestFrom (x : Binary64) (k : Int) : Nat → Nat × Int
  | 0 => ((x.onGrid? k).getD 0, k)
  | steps + 1 =>
    match x.onGrid? k with
    | some d => (d, k)
    | none => shortestFrom x (k - 1) steps

def shortest (x : Binary64) : Nat × Int :=
  let (num, den) := x.toQuotient
  let (d, k) := shortestFrom x (decimalExponent num den) 17
  if d % 10 = 0 then (d / 10, k + 1) else (d, k)

/-- The text of digits times a power of ten: positional with a point from `10^-5` up to
`10^16`, else with one digit before the point and a signed exponent. -/
def layout (digits : String) (k : Int) : String :=
  let length := digits.length
  let scientific : Int := k + length - 1
  if -5 ≤ scientific ∧ scientific < 16 then
    if 0 ≤ k then digits ++ String.ofList (List.replicate k.toNat '0') ++ ".0"
    else if 0 ≤ scientific then
      let whole := (scientific + 1).toNat
      String.ofList (digits.toList.take whole) ++ "." ++
        String.ofList (digits.toList.drop whole)
    else
      "0." ++ String.ofList (List.replicate (-scientific - 1).toNat '0') ++ digits
  else
    let head := String.ofList (digits.toList.take 1)
    let tail := digits.toList.drop 1
    let point := if tail.isEmpty then "" else "." ++ String.ofList tail
    let sign := if scientific < 0 then "-" else "+"
    head ++ point ++ "e" ++ sign ++ toString scientific.natAbs

def toText (x : Binary64) : String :=
  let magnitude :=
    if x.mantissa = 0 then "0.0"
    else
      let (d, k) := x.shortest
      layout (toString d) k
  if x.negative then "-" ++ magnitude else magnitude

end Binary64

end Rollout.Json
