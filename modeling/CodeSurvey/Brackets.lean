import CodeSurvey.Text.Blank

/-!
# Bracketed text

`bodyAfter?` reads what stands between an opening bracket and the closing bracket that matches it.
`flattenNested` empties the brackets of a text, and `splitTopLevel` cuts a text at the separators
that stand outside all brackets.
-/

namespace CodeSurvey

/-- The text up to the closer that matches an opener just before the text. -/
def bodyAfter? (opener closer : Char) (text : Text) : Option Text :=
  go text 0 []
where
  /-- `depth` inner brackets are open. -/
  go : Text → Nat → Text → Option Text
    | [], _, _ => none
    | c :: rest, depth, body =>
      if c = opener then go rest (depth + 1) (c :: body)
      else if c = closer then
        match depth with
        | 0 => some body.reverse
        | depth + 1 => go rest depth (c :: body)
      else go rest depth (c :: body)

/-- The text between the opener at position `i` and the closer that matches it. -/
def balancedSpan (text : Text) (i : Nat) (opener closer : Char) : Option Text :=
  match text.drop i with
  | [] => none
  | c :: rest => if c = opener then bodyAfter? opener closer rest else none

/-- Like `balancedSpan` for an opener that is `k` characters before the end. Where its closer is
not found by the end of the text, the search goes on at the start, and the span found is what lies
between the opener and the closer, which is empty if the closer comes first. -/
def balancedSpanFromEnd (text : Text) (k : Nat) (opener closer : Char) : Option Text :=
  let i := text.length - k
  match text.drop i with
  | [] => none
  | c :: rest =>
    if c = opener then
      match bodyAfter? opener closer rest with
      | some body => some body
      | none =>
        (bodyAfter? opener closer (rest ++ text)).map fun body =>
          let stop := body.length - rest.length
          (text.take stop).drop (if k = 1 then 0 else i + 1)
    else none

/-- The text with nothing left between an opener and its closer. -/
def flattenNested (opener closer : Char) (body : Text) : Text :=
  go body 0 []
where
  go : Text → Nat → Text → Text
    | [], _, kept => kept.reverse
    | c :: rest, depth, kept =>
      if c = opener then go rest (depth + 1) (if depth = 0 then c :: kept else kept)
      else
        match depth with
        | 0 => go rest 0 (c :: kept)
        | depth + 1 =>
          if c = closer then go rest depth (if depth = 0 then c :: kept else kept)
          else go rest (depth + 1) kept

def isOpener (c : Char) : Bool := c == '{' || c == '[' || c == '(' || c == '<'

def isCloser (c : Char) : Bool := c == '}' || c == ']' || c == ')' || c == '>'

/-- The number of open brackets after `c`; a closer without an opener counts for nothing. -/
def depthAfter (depth : Nat) (c : Char) : Nat :=
  if isOpener c then depth + 1 else if isCloser c then depth - 1 else depth

/-- The pieces between the separators outside all brackets, trimmed, without the empty ones. -/
def splitTopLevel (isSeparator : Char → Bool) (body : Text) : List Text :=
  ((go body 0 [] []).map Text.trim).filter (!·.isEmpty)
where
  go : Text → Nat → Text → List Text → List Text
    | [], _, piece, done => (piece.reverse :: done).reverse
    | c :: rest, depth, piece, done =>
      let depth := depthAfter depth c
      if isSeparator c && depth == 0 then go rest 0 [] (piece.reverse :: done)
      else go rest depth (c :: piece) done

end CodeSurvey
