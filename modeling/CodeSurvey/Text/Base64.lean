import CodeSurvey.Text.Encoding

/-!
# Base 64

Four characters of an alphabet of 64 stand for three bytes. Characters outside of the alphabet are
passed over, and an equals sign that fills up a group of four ends the text.
-/

namespace CodeSurvey.Text

/-- The place of a character in the alphabet. -/
def sextet? (c : Char) : Option Nat :=
  if 'A' ≤ c ∧ c ≤ 'Z' then some (c.toNat - 65)
  else if 'a' ≤ c ∧ c ≤ 'z' then some (c.toNat - 71)
  else if '0' ≤ c ∧ c ≤ '9' then some (c.toNat + 4)
  else if c = '+' then some 62
  else if c = '/' then some 63
  else none

/-- The bytes that a text stands for, if its last group is complete. -/
def base64? (text : Text) : Option Bytes :=
  go text 0 0 0 []
where
  /-- `size` characters of the present group are read, `carry` holds the bits that do not fill a
  byte yet, and `pads` equals signs stand after the last character. -/
  go : Text → (size carry pads : Nat) → Bytes → Option Bytes
    | [], size, _, _, done => if size = 0 then some done.reverse else none
    | c :: rest, size, carry, pads, done =>
      if c == '=' then
        if 2 ≤ size then
          if 4 ≤ size + pads + 1 then some done.reverse else go rest size carry (pads + 1) done
        else go rest size carry pads done
      else match sextet? c with
        | none => go rest size carry pads done
        | some n =>
          match size with
          | 0 => go rest 1 n 0 done
          | 1 => go rest 2 (n % 16) 0 (UInt8.ofNat (carry * 4 + n / 16) :: done)
          | 2 => go rest 3 (n % 4) 0 (UInt8.ofNat (carry * 16 + n / 4) :: done)
          | _ => go rest 0 0 0 (UInt8.ofNat (carry * 64 + n) :: done)

end CodeSurvey.Text
