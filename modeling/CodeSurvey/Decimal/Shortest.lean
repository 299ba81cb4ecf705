/-!
# Decimal numbers and binary fractions

A `Decimal` is a natural number times a power of ten. `Decimal.toFloat` gives the nearest binary
fraction of 64 bits, `Decimal.shortest` the decimal with the fewest digits that reads back as a
given one.
-/

namespace CodeSurvey

/-- The number `digits * 10 ^ exponent`. -/
structure Decimal where
  digits : Nat
  exponent : Int
  deriving DecidableEq

namespace Decimal

/-- The number of decimal digits of a positive number. -/
def width (n : Nat) : Nat := (Nat.toDigits 10 n).length

/-- The nearest binary fraction. Numbers of more than 400 digits before the point are infinite,
and those with more than 400 zeros after it are zero. -/
def toFloat (d : Decimal) : Float :=
  if d.digits = 0 then 0.0
  else
    let magnitude := d.exponent + width d.digits
    if magnitude > 400 then 1.0 / 0.0
    else if magnitude < -400 then 0.0
    else Float.ofScientific d.digits (d.exponent < 0) d.exponent.natAbs

/-- A positive binary fraction, `m * 2 ^ q`. -/
structure Fraction where
  m : Nat
  q : Int

/-- The fraction that 64 bits stand for, without its sign. -/
def Fraction.ofBits (bits : Nat) : Fraction :=
  let e : Nat := bits / Nat.pow 2 52 % Nat.pow 2 11
  let f : Nat := bits % Nat.pow 2 52
  if e = 0 then ⟨f, -1074⟩ else ⟨Nat.pow 2 52 + f, (e : Int) - 1075⟩

/-- The fraction divided by `10 ^ g`, as numerator and denominator. -/
def Fraction.over (x : Fraction) (g : Int) : Nat × Nat :=
  (x.m * Nat.pow 2 x.q.toNat * Nat.pow 10 (-g).toNat,
    Nat.pow 2 (-x.q).toNat * Nat.pow 10 g.toNat)

/-- The number of digits before the point: the least `k` with the fraction below `10 ^ k`, which is
negative where zeros follow the point. -/
def Fraction.scale (x : Fraction) : Int :=
  let guess := ((Nat.log2 x.m : Int) + x.q) * 30103 / 100000
  ([guess - 1, guess, guess + 1].find? fun k =>
    let (num, den) := x.over k
    num < den).getD (guess + 2)

/-- The decimal of the grid `10 ^ g` that reads back as `value`, the nearer one if two do. -/
def onGrid? (value : Float) (x : Fraction) (g : Int) : Option Decimal :=
  let (num, den) := x.over g
  let low := num / den
  let readsBack (n : Nat) : Bool := (Decimal.toFloat ⟨n, g⟩).toBits == value.toBits
  let twice := 2 * (num % den)
  let nearest := if twice < den || (twice == den && low % 2 == 0) then [low, low + 1]
    else [low + 1, low]
  (nearest.find? fun n => n != 0 && readsBack n).map fun n => ⟨n, g⟩

/-- The decimal with the fewest digits that reads back as the positive finite `value`, and of
those the nearest. -/
def shortest (value : Float) : Decimal :=
  let x := Fraction.ofBits value.toBits.toNat
  let k := x.scale
  ((List.range 17).findSome? fun n => onGrid? value x (k - (n + 1 : Nat))).getD ⟨x.m, 0⟩

/-- The decimal without zeros at the end of its digits. -/
def trimmed (d : Decimal) : Decimal :=
  let zeros := ((Nat.toDigits 10 d.digits).reverse.takeWhile (· == '0')).length
  ⟨d.digits / Nat.pow 10 zeros, d.exponent + zeros⟩

end Decimal

end CodeSurvey
