import CodeSurvey.Decimal.Shortest

/-!
# How numbers are written

Numbers from 0.0001 up to below 10 ^ 16 are written with a point and at least one digit on either
side of it; others with an exponent of two digits or more and its sign.
-/

namespace CodeSurvey

def zeros (n : Nat) : List Char := List.replicate n '0'

/-- A number of at least two digits. -/
def twoDigits (n : Nat) : List Char :=
  let digits := Nat.toDigits 10 n
  zeros (2 - digits.length) ++ digits

namespace Decimal

/-- The notation of a positive number. -/
def text (d : Decimal) : List Char :=
  let d := d.trimmed
  let digits := Nat.toDigits 10 d.digits
  let point := d.exponent + digits.length
  if -4 < point ∧ point ≤ 16 then
    if point ≤ 0 then '0' :: '.' :: zeros (-point).toNat ++ digits
    else if d.exponent ≥ 0 then digits ++ zeros d.exponent.toNat ++ ['.', '0']
    else digits.take point.toNat ++ '.' :: digits.drop point.toNat
  else
    let power := point - 1
    let mantissa := match digits with
      | first :: second :: rest => first :: '.' :: second :: rest
      | _ => digits
    mantissa ++ 'e' :: (if power < 0 then '-' else '+') :: twoDigits power.natAbs

end Decimal

/-- The notation of a binary fraction; the digits are the fewest that read back as it. -/
def floatText (x : Float) : String :=
  if x.isNaN then "nan"
  else
    let sign := if x.toBits.toNat ≥ Nat.pow 2 63 then ['-'] else []
    let x := x.abs
    if x.isInf then String.ofList (sign ++ ['i', 'n', 'f'])
    else if x == 0.0 then String.ofList (sign ++ ['0', '.', '0'])
    else String.ofList (sign ++ (Decimal.shortest x).text)

end CodeSurvey
