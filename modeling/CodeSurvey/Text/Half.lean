import CodeSurvey.Text.Basic

/-!
# Halves of pairs

The 16-bit units from 0xD800 to 0xDFFF stand for characters in pairs only. An escape may name one
of them without the other. Such a half is no character; in a text the last characters for private
use stand for the halves, and where the text is written the half is written as an escape. So these
2048 characters, from U+10F800 to U+10FFFF, do not stand for themselves in any text: one that has
them for what they are is taken for a text with halves.
-/

namespace CodeSurvey.Text

def isHighHalf (n : Nat) : Bool := 0xD800 ≤ n && n ≤ 0xDBFF

def isLowHalf (n : Nat) : Bool := 0xDC00 ≤ n && n ≤ 0xDFFF

/-- The first of the characters that stand for halves. -/
def firstHalf : Nat := 0x10F800

/-- The character that a code names, or that stands for the half that it names. -/
def charOf (n : Nat) : Char :=
  if isHighHalf n || isLowHalf n then Char.ofNat (firstHalf + (n - 0xD800)) else Char.ofNat n

/-- The half that a character stands for. No character from U+10F800 on is taken for itself. -/
def half? (c : Char) : Option Nat :=
  if firstHalf ≤ c.toNat then some (c.toNat - firstHalf + 0xD800) else none

def isHalf (c : Char) : Bool := (half? c).isSome

/-- The code of a character, or of the half that it stands for. -/
def codeOf (c : Char) : Nat := (half? c).getD c.toNat

/-- The codes of a string, by which strings are put in order. -/
def codes (s : String) : List Nat := (of s).map codeOf

/-- Whether a string comes before another one. -/
def Precedes (a b : String) : Prop := List.Lex (· < ·) (codes a) (codes b)

instance : DecidableRel Precedes :=
  fun a b => inferInstanceAs (Decidable (List.Lex (· < ·) (codes a) (codes b)))

/-- Whether a string is another one or comes before it. -/
def inOrder (a b : String) : Bool := !decide (Precedes b a)

/-- The character of a pair of halves. -/
def ofPair (high low : Nat) : Char := Char.ofNat (0x10000 + (high - 0xD800) * 1024 + (low - 0xDC00))

end CodeSurvey.Text
