import CodeSurvey.Text.Encoding
import CodeSurvey.Text.Half

/-!
# Bytes of JSON documents

A document may come in UTF-8, UTF-16 or UTF-32. Which one it is shows in a byte order mark, or else
in the null bytes around the first character, which is one of ASCII.
-/

namespace CodeSurvey.Json

inductive ByteOrder where
  | bigEndian
  | littleEndian

/-- How characters are written as bytes. -/
inductive Encoding where
  | utf8
  | utf16 (order : ByteOrder)
  | utf32 (order : ByteOrder)

/-- The encoding of bytes without a byte order mark. -/
def plainEncoding : Bytes → Encoding
  | [0, _] => .utf16 .bigEndian
  | [_, 0] => .utf16 .littleEndian
  | a :: b :: c :: d :: _ =>
    if a = 0 then (if b = 0 then .utf32 .bigEndian else .utf16 .bigEndian)
    else if b = 0 then
      (if c = 0 ∧ d = 0 then .utf32 .littleEndian else .utf16 .littleEndian)
    else .utf8
  | _ => .utf8

/-- The encoding of a document, and its bytes without the byte order mark. -/
def encodingOf : Bytes → Encoding × Bytes
  | 0 :: 0 :: 0xFE :: 0xFF :: rest => (.utf32 .bigEndian, rest)
  | 0xFF :: 0xFE :: 0 :: 0 :: rest => (.utf32 .littleEndian, rest)
  | 0xFE :: 0xFF :: rest => (.utf16 .bigEndian, rest)
  | 0xFF :: 0xFE :: rest => (.utf16 .littleEndian, rest)
  | 0xEF :: 0xBB :: 0xBF :: rest => (.utf8, rest)
  | bytes => (plainEncoding bytes, bytes)

/-- The number that bytes stand for. -/
def ByteOrder.number (order : ByteOrder) (bytes : Bytes) : Nat :=
  let ordered := match order with
    | .bigEndian => bytes
    | .littleEndian => bytes.reverse
  ordered.foldl (fun n b => 256 * n + b.toNat) 0

/-- The 16-bit units of the bytes, if they are all complete. -/
def units16? (order : ByteOrder) : Bytes → Option (List Nat)
  | [] => some []
  | a :: b :: rest => (units16? order rest).map (order.number [a, b] :: ·)
  | [_] => none

/-- The characters of 16-bit units. A half without the other one stands for itself. -/
def ofUnits16 : List Nat → Text
  | [] => []
  | [n] => [Text.charOf n]
  | high :: low :: rest =>
    if Text.isHighHalf high && Text.isLowHalf low then Text.ofPair high low :: ofUnits16 rest
    else Text.charOf high :: ofUnits16 (low :: rest)

/-- The characters of the bytes, four for each, if they are all complete and there are such. -/
def ofUnits32? (order : ByteOrder) : Bytes → Option Text
  | [] => some []
  | a :: b :: c :: d :: rest =>
    let n := order.number [a, b, c, d]
    if n < 0x110000 then (ofUnits32? order rest).map (Text.charOf n :: ·) else none
  | _ => none

/-- The text of a document in any of the encodings. -/
def decode? (bytes : Bytes) : Option Text :=
  match encodingOf bytes with
  | (.utf8, bytes) => bytes.decode?
  | (.utf16 order, bytes) => (units16? order bytes).map ofUnits16
  | (.utf32 order, bytes) => ofUnits32? order bytes

end CodeSurvey.Json
