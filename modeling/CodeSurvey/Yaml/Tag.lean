import CodeSurvey.Yaml.Cursor
import CodeSurvey.Text.Encoding

/-!
# Names, tags and directives

A tag is written with a handle, whose meaning a directive may set, and a suffix.
-/

namespace CodeSurvey.Yaml

/-- Reads the name of an anchor or an alias after its indicator. -/
def readName : Reader String := fun k =>
  let (name, k) := k.skip 1 |>.span isNameChar
  let isFree (c : Char) : Bool := isGapOrBreak c || "?:,]\x7d%@".toList.contains c ||
    c == Char.ofNat 0x60
  if name.isEmpty || !k.endsOr isFree then .error .malformed
  else .ok (String.ofList name, k)

/-! ## Handles and suffixes -/

/-- Reads a handle: an exclamation mark, or a name between two. -/
def readHandle : Reader String := fun k =>
  if !k.sees (· == '!') then .error .malformed
  else
    let k := k.next
    if k.sees isSpace then .ok ("!", k)
    else
      let (name, k) := k.span isNameChar
      if k.sees (· == '!') then .ok (String.ofList ('!' :: name ++ ['!']), k.next)
      else .error .malformed

def isSuffixChar (c : Char) : Bool :=
  isNameChar c || ";/?:@&=+$,.!~*'()[]%".toList.contains c

/-- Reads bytes written as a percent sign and two hexadecimal digits each. -/
def readEscapedBytes : (n : Nat) → Cursor → Bytes → Except Fault (Bytes × Cursor)
  | 0, k, done => .ok (done.reverse, k)
  | n + 1, k, done =>
    match k.rest with
    | '%' :: a :: b :: _ =>
      match Json.hexDigit? a, Json.hexDigit? b with
      | some a, some b => readEscapedBytes n (k.skip 3) (UInt8.ofNat (16 * a + b) :: done)
      | _, _ => .error .malformed
    | '%' :: _ => .error .malformed
    | _ => .ok (done.reverse, k)

/-- Reads a suffix in at most `n` pieces. -/
def readSuffixPieces : (n : Nat) → Cursor → Text → Except Fault (Text × Cursor)
  | 0, k, done => .ok (done, k)
  | n + 1, k, done =>
    if k.sees (· == '%') then
      match readEscapedBytes (k.rest.length + 1) k [] with
      | .error fault => .error fault
      | .ok (bytes, k) =>
        match bytes.decode? with
        | some piece => readSuffixPieces n k (done ++ piece)
        | none => .error .malformed
    else
      let (piece, k) := k.span fun c => isSuffixChar c && c != '%'
      if piece.isEmpty then .ok (done, k) else readSuffixPieces n k (done ++ piece)

def readSuffix : Reader String := fun k =>
  match readSuffixPieces (k.rest.length + 1) k [] with
  | .error fault => .error fault
  | .ok ([], _) => .error .malformed
  | .ok (suffix, k) => .ok (String.ofList suffix, k)

/-- A tag as it is written. Without a handle the suffix is the whole tag. -/
structure TagText where
  handle : Option String
  suffix : String

/-- The characters of a tag up to a space or a line end. -/
def tagWord (k : Cursor) : Text := (k.span fun c => c != ' ' && !isBreak c).1

/-- Reads a tag without looking at what follows it. -/
def readTagText : Reader TagText := fun k =>
  match k.after? 1 with
  | some '<' =>
    match readSuffix (k.skip 2) with
    | .error fault => .error fault
    | .ok (suffix, k) =>
      if k.sees (· == '>') then .ok (⟨none, suffix⟩, k.next) else .error .malformed
  | c =>
    if c.all isGapOrBreak then .ok (⟨none, "!"⟩, k.next)
    else if (tagWord k.next).contains '!' then
      match readHandle k with
      | .error fault => .error fault
      | .ok (handle, k) => (readSuffix k).map fun (suffix, k) => (⟨some handle, suffix⟩, k)
    else (readSuffix k.next).map fun (suffix, k) => (⟨some "!", suffix⟩, k)

/-- Reads a tag, which ends before a space, a line end or the end of the text. -/
def readTag : Reader TagText := fun k =>
  match readTagText k with
  | .error fault => .error fault
  | .ok (tag, k) =>
    if k.endsOr fun c => c == ' ' || isBreak c then .ok (tag, k) else .error .malformed

/-! ## Directives -/

inductive Directive where
  | version (major : Nat)
  | tag (handle suffix : String)
  | other

/-- Reads a number of a version. -/
def readVersionNumber : Reader Nat := fun k =>
  let (digits, k) := k.span Json.isDigit
  if digits.isEmpty then .error .malformed
  else if digits.length > Text.maxDigits then .error (.tooLong digits.length)
  else .ok (Json.digitsValue digits, k)

def readVersion : Reader Directive := fun k =>
  match readVersionNumber (k.skipWhile isSpace) with
  | .error fault => .error fault
  | .ok (major, k) =>
    if !k.sees (· == '.') then .error .malformed
    else match readVersionNumber k.next with
      | .error fault => .error fault
      | .ok (_, k) =>
        if k.endsOr fun c => c == ' ' || isBreak c then .ok (.version major, k)
        else .error .malformed

def readTagDirective : Reader Directive := fun k =>
  match readHandle (k.skipWhile isSpace) with
  | .error fault => .error fault
  | .ok (handle, k) =>
    if !k.sees isSpace then .error .malformed
    else match readSuffix (k.skipWhile isSpace) with
      | .error fault => .error fault
      | .ok (suffix, k) =>
        if k.endsOr fun c => c == ' ' || isBreak c then .ok (.tag handle suffix, k)
        else .error .malformed

/-- Reads a directive with the rest of its line. Directives with other names mean nothing. -/
def readDirective : Reader Directive := fun k => do
  let (name, k) := k.next.span isNameChar
  if name.isEmpty || !k.endsOr (fun c => c == ' ' || isBreak c) then .error .malformed
  else
    let (directive, k) ←
      if name = Text.of "YAML" then readVersion k
      else if name = Text.of "TAG" then readTagDirective k
      else .ok (Directive.other, k.skipWhile (!isBreak ·))
    match k.skipLineRest? with
    | some k => .ok (directive, k)
    | none => .error .malformed

end CodeSurvey.Yaml
