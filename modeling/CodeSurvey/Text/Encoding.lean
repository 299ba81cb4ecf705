import CodeSurvey.Text.Basic

/-!
# Bytes and characters

Files hold bytes. `decode` reads UTF-8 and passes over what is not UTF-8: a byte that starts no
well-formed sequence is dropped and reading goes on at the next byte. `decode?` refuses such input.
`joinLines` turns every line end written with a carriage return into a line feed.
-/

namespace CodeSurvey

abbrev Bytes := List UInt8

namespace Bytes

/-- A byte `10xxxxxx`, which continues a sequence. -/
def isTail (b : UInt8) : Bool := 0x80 ≤ b && b ≤ 0xBF

def tailBits (b : UInt8) : Nat := b.toNat % 64

/-- The character that starts at the front of the bytes and the number of bytes after its first. -/
def firstChar? : Bytes → Option (Char × Nat)
  | [] => none
  | a :: rest =>
    if a < 0x80 then some (Char.ofNat a.toNat, 0)
    else if 0xC2 ≤ a && a ≤ 0xDF then
      match rest with
      | b :: _ => if isTail b then some (Char.ofNat (a.toNat % 32 * 64 + tailBits b), 1) else none
      | [] => none
    else if 0xE0 ≤ a && a ≤ 0xEF then
      match rest with
      | b :: c :: _ =>
        let low := if a == 0xE0 then 0xA0 else 0x80
        let high := if a == 0xED then 0x9F else 0xBF
        if low ≤ b && b ≤ high && isTail c then
          some (Char.ofNat (a.toNat % 16 * 4096 + tailBits b * 64 + tailBits c), 2)
        else none
      | _ => none
    else if 0xF0 ≤ a && a ≤ 0xF4 then
      match rest with
      | b :: c :: d :: _ =>
        let low := if a == 0xF0 then 0x90 else 0x80
        let high := if a == 0xF4 then 0x8F else 0xBF
        if low ≤ b && b ≤ high && isTail c && isTail d then
          some (Char.ofNat
            (a.toNat % 8 * 262144 + tailBits b * 4096 + tailBits c * 64 + tailBits d), 3)
        else none
      | _ => none
    else none

/-- The characters of the bytes, without the bytes that belong to none. -/
def decode (bytes : Bytes) : Text :=
  go bytes 0 []
where
  /-- `skip` bytes of the last character are still to be passed over. -/
  go : Bytes → Nat → Text → Text
    | [], _, done => done.reverse
    | _ :: rest, skip + 1, done => go rest skip done
    | a :: rest, 0, done =>
      match firstChar? (a :: rest) with
      | some (c, size) => go rest size (c :: done)
      | none => go rest 0 done

/-- The characters of the bytes, if they are well-formed throughout. -/
def decode? (bytes : Bytes) : Option Text :=
  go bytes 0 []
where
  go : Bytes → Nat → Text → Option Text
    | [], _, done => some done.reverse
    | _ :: rest, skip + 1, done => go rest skip done
    | a :: rest, 0, done =>
      match firstChar? (a :: rest) with
      | some (c, size) => go rest size (c :: done)
      | none => none

end Bytes

/-- Writes each carriage return, and each pair of carriage return and line feed, as a line feed. -/
def Text.joinLines (text : Text) : Text :=
  go text [] false
where
  go : Text → Text → Bool → Text
    | [], done, _ => done.reverse
    | c :: rest, done, cr =>
      if cr && c == '\n' then go rest done false
      else if c == '\r' then go rest ('\n' :: done) true
      else go rest (c :: done) false

end CodeSurvey
