import CodeSurvey.Text.Encoding
import Mathlib.Data.List.TakeWhile

/-!
# Texts whose lines end otherwise

The lines of a file may end with a carriage return, alone or before a line feed, instead of a line
feed. Rewriting them (`Bytes.withEnds`) does not change the text that is read
(`Bytes.joinLines_decode_withEnds`), also where the bytes are not well-formed: a sequence that a
line end breaks off is broken off by either.
-/

namespace CodeSurvey

/-- How a line may end, but for a line feed. -/
inductive LineEnd where
  | cr
  | crlf
  deriving DecidableEq

namespace LineEnd

def bytes : LineEnd → Bytes
  | cr => [13]
  | crlf => [13, 10]

def text : LineEnd → Text
  | cr => ['\r']
  | crlf => ['\r', '\n']

end LineEnd

/-- The bytes with every line feed rewritten. -/
def Bytes.withEnds (e : LineEnd) (bytes : Bytes) : Bytes :=
  bytes.flatMap fun b => if b = 10 then e.bytes else [b]

/-- The text with every line feed rewritten. -/
def Text.withEnds (e : LineEnd) (text : Text) : Text :=
  text.flatMap fun c => if c = '\n' then e.text else [c]

/-! ## Lines joined again -/

namespace Text

variable {e : LineEnd} {c : Char} {text : Text}

theorem withEnds_cons_lineFeed (e : LineEnd) (text : Text) :
    Text.withEnds e ('\n' :: text) = e.text ++ Text.withEnds e text := rfl

theorem withEnds_cons (other : c ≠ '\n') :
    Text.withEnds e (c :: text) = c :: Text.withEnds e text := by
  simp [withEnds, other]

theorem joinLines_of_clean (clean : '\r' ∉ text) : text.joinLines = text := by
  have go (rest done : Text) (clean : '\r' ∉ rest) :
      joinLines.go rest done false = done.reverse ++ rest := by
    induction rest generalizing done with
    | nil => simp [joinLines.go]
    | cons c rest ih =>
      obtain ⟨first, later⟩ := not_or.1 (mt List.mem_cons.2 clean)
      rw [joinLines.go, if_neg (by simp), if_neg (by simpa using Ne.symm first), ih _ later]
      simp
  exact go text [] clean

/-- A rewritten line end is read as the line feed that it was. The induction is on the text that was
rewritten; a carriage return is left open only by line ends without line feeds. -/
theorem joinLines_withEnds (e : LineEnd) (clean : '\r' ∉ text) :
    (Text.withEnds e text).joinLines = text := by
  have go (rest done : Text) (cr : Bool) (open_ : cr = true → e = .cr) (clean : '\r' ∉ rest) :
      joinLines.go (Text.withEnds e rest) done cr = done.reverse ++ rest := by
    induction rest generalizing done cr with
    | nil => simp [withEnds, joinLines.go]
    | cons c rest ih =>
      obtain ⟨first, later⟩ := not_or.1 (mt List.mem_cons.2 clean)
      by_cases lineFeed : c = '\n'
      · subst lineFeed
        rw [withEnds_cons_lineFeed]
        cases e with
        | cr =>
          rw [LineEnd.text, List.singleton_append, joinLines.go, if_neg (by simp), if_pos (by simp),
            ih _ true (fun _ => rfl) later]
          simp
        | crlf =>
          have closed : cr = false := by simpa using open_
          rw [LineEnd.text, List.cons_append, List.singleton_append, joinLines.go,
            if_neg (by simp), if_pos (by simp), joinLines.go, if_pos (by simp),
            ih _ false (by simp) later]
          simp
      · rw [withEnds_cons lineFeed, joinLines.go, if_neg (by simp [lineFeed]),
          if_neg (by simpa using Ne.symm first), ih _ false (by simp) later]
        simp
  exact go text [] false (by simp) clean

end Text

namespace Bytes

variable {e : LineEnd} {a : UInt8} {bytes rest : Bytes} {c : Char} {size : Nat}

theorem withEnds_cons_lineFeed (e : LineEnd) (rest : Bytes) :
    Bytes.withEnds e (10 :: rest) = e.bytes ++ Bytes.withEnds e rest := rfl

theorem withEnds_cons (other : a ≠ 10) :
    Bytes.withEnds e (a :: rest) = a :: Bytes.withEnds e rest := by
  simp [withEnds, other]

/-! ## Characters -/

theorem isTail_of_between {low high b : UInt8} (least : 0x80 ≤ low) (most : high ≤ 0xBF)
    (between : (decide (low ≤ b) && decide (b ≤ high)) = true) : isTail b = true := by
  simp only [isTail, Bool.and_eq_true, decide_eq_true_eq] at between ⊢
  exact ⟨UInt8.le_trans least between.1, UInt8.le_trans between.2 most⟩

/-- Only the bytes that continue a sequence matter for the character at the front. -/
theorem firstChar?_takeWhile (a : UInt8) (rest : Bytes) :
    firstChar? (a :: rest.takeWhile isTail) = firstChar? (a :: rest) := by
  -- The bounds for the second byte are among those of all bytes that continue a sequence.
  have second {b p low q high : UInt8} (cut : isTail b = false) (least : 0x80 ≤ low)
      (most : high ≤ 0xBF) :
      (decide ((if a == p then low else 0x80) ≤ b) &&
        decide (b ≤ if a == q then high else 0xBF)) = false := by
    rw [← Bool.not_eq_true]
    intro between
    have tail := isTail_of_between (by split; exacts [least, UInt8.le_refl _])
      (by split; exacts [most, UInt8.le_refl _]) between
    rw [cut] at tail
    cases tail
  match rest with
  | [] => rfl
  | b :: rest =>
    cases first : isTail b with
    | false =>
      have three := @second b 0xE0 0xA0 0xED 0x9F first (by decide) (by decide)
      have four := @second b 0xF0 0x90 0xF4 0x8F first (by decide) (by decide)
      rw [List.takeWhile_cons_of_neg (by simp [first])]
      rcases rest with _ | ⟨c, _ | ⟨d, rest⟩⟩ <;> simp only [firstChar?, first, three, four] <;>
        simp
    | true =>
      rw [List.takeWhile_cons_of_pos first]
      match rest with
      | [] => rfl
      | c :: rest =>
        cases next : isTail c with
        | false =>
          rw [List.takeWhile_cons_of_neg (by simp [next])]
          rcases rest with _ | ⟨d, rest⟩ <;> simp [firstChar?, next]
        | true =>
          rw [List.takeWhile_cons_of_pos next]
          match rest with
          | [] => rfl
          | d :: rest =>
            cases last : isTail d with
            | false =>
              rw [List.takeWhile_cons_of_neg (by simp [last])]
              simp [firstChar?, last]
            | true =>
              rw [List.takeWhile_cons_of_pos last]
              simp [firstChar?]

/-- The bytes of a character after its first continue its sequence. -/
theorem size_le (found : firstChar? (a :: rest) = some (c, size)) :
    size ≤ (rest.takeWhile isTail).length := by
  rw [← firstChar?_takeWhile] at found
  generalize rest.takeWhile isTail = tails at found
  unfold firstChar? at found
  grind

/-- A character is the byte that it starts with, or none of ASCII: the bits of several bytes make a
greater number. -/
theorem exists_code (found : firstChar? (a :: rest) = some (c, size)) :
    ∃ n, c = Char.ofNat n ∧ (n = a.toNat ∨ 128 ≤ n) := by
  rw [firstChar?.eq_def] at found
  simp only at found
  split at found
  · cases found
    exact ⟨_, rfl, .inl rfl⟩
  · split at found
    · next lead =>
      split at found
      · next b _ _ =>
        obtain ⟨-, same⟩ := Option.ite_none_right_eq_some.1 found
        cases same
        refine ⟨_, rfl, .inr ?_⟩
        simp only [Bool.and_eq_true, decide_eq_true_eq, UInt8.le_iff_toNat_le] at lead
        simp at lead
        omega
      · cases found
    · split at found
      · next lead =>
        split at found
        · next b c' _ _ =>
          obtain ⟨tails, same⟩ := Option.ite_none_right_eq_some.1 found
          cases same
          refine ⟨_, rfl, .inr ?_⟩
          simp only [Bool.and_eq_true, decide_eq_true_eq, UInt8.le_iff_toNat_le, beq_iff_eq,
            tailBits] at lead tails ⊢
          simp at lead
          by_cases least : a = 0xE0
          · subst least
            simp at tails ⊢
            omega
          · have : a.toNat ≠ 224 := fun same => least (UInt8.toNat_inj.1 same)
            omega
        · cases found
      · split at found
        · next lead =>
          split at found
          · next b c' d _ _ =>
            obtain ⟨tails, same⟩ := Option.ite_none_right_eq_some.1 found
            cases same
            refine ⟨_, rfl, .inr ?_⟩
            simp only [Bool.and_eq_true, decide_eq_true_eq, UInt8.le_iff_toNat_le, beq_iff_eq,
              tailBits] at lead tails ⊢
            simp at lead
            by_cases least : a = 0xF0
            · subst least
              simp at tails ⊢
              omega
            · have : a.toNat ≠ 240 := fun same => least (UInt8.toNat_inj.1 same)
              omega
          · cases found
        · cases found

theorem toNat_of_ofNat {n : Nat} (same : Char.ofNat n = c) (some : c ≠ Char.ofNat 0) :
    n = c.toNat := by
  subst same
  by_cases valid : n.isValidChar
  · rw [Char.ofNat, dif_pos valid]
    rfl
  · exact absurd (by rw [Char.ofNat, dif_neg valid]; rfl) some

/-- A character of ASCII is read from its own byte only. -/
theorem byte_of_firstChar? (found : firstChar? (a :: rest) = some (c, size))
    (small : c.toNat < 128) (some : c ≠ Char.ofNat 0) : a.toNat = c.toNat := by
  obtain ⟨n, same, code⟩ := exists_code found
  have value := toNat_of_ofNat same.symm some
  omega

/-! ## Decoding -/

theorem decode_go (bytes : Bytes) (skip : Nat) (done : Text) :
    decode.go bytes skip done = done.reverse ++ decode (bytes.drop skip) := by
  induction bytes generalizing skip done with
  | nil => simp [decode, decode.go]
  | cons a rest ih =>
    cases skip with
    | succ skip => rw [decode.go, ih, List.drop_succ_cons]
    | zero =>
      rw [List.drop_zero, decode, decode.go, decode.go]
      split
      · next c size _ => rw [ih, ih]; simp
      · rw [ih, ih]; simp

theorem decode_char (found : firstChar? (a :: rest) = some (c, size)) :
    decode (a :: rest) = c :: decode (rest.drop size) := by
  rw [decode, decode.go, found]
  exact decode_go rest size [c]

theorem decode_stray (stray : firstChar? (a :: rest) = none) :
    decode (a :: rest) = decode rest := by
  rw [decode, decode.go, stray]
  exact decode_go rest 0 []

theorem decode?_go (bytes : Bytes) (skip : Nat) (done : Text) :
    decode?.go bytes skip done = (decode? (bytes.drop skip)).map (done.reverse ++ ·) := by
  induction bytes generalizing skip done with
  | nil => simp [decode?, decode?.go]
  | cons a rest ih =>
    cases skip with
    | succ skip => rw [decode?.go, ih, List.drop_succ_cons]
    | zero =>
      rw [List.drop_zero, decode?, decode?.go, decode?.go]
      split
      · next c size _ => rw [ih, ih, Option.map_map]; simp [Function.comp_def]
      · rfl

theorem decode?_char (found : firstChar? (a :: rest) = some (c, size)) :
    decode? (a :: rest) = (decode? (rest.drop size)).map (c :: ·) := by
  rw [decode?, decode?.go, found]
  exact decode?_go rest size [c]

theorem decode?_stray (stray : firstChar? (a :: rest) = none) : decode? (a :: rest) = none := by
  rw [decode?, decode?.go, stray]

/-- What holds of bytes if it holds of those after the first character, or after a byte that starts
none, holds of all. -/
theorem reading_induction {P : Bytes → Prop} (nil : P [])
    (char : ∀ a rest c size, firstChar? (a :: rest) = some (c, size) → P (rest.drop size) →
      P (a :: rest))
    (stray : ∀ a rest, firstChar? (a :: rest) = none → P rest → P (a :: rest)) (bytes : Bytes) :
    P bytes := by
  match bytes with
  | [] => exact nil
  | a :: rest =>
    cases found : firstChar? (a :: rest) with
    | none => exact stray a rest found (reading_induction nil char stray rest)
    | some read =>
      exact char a rest read.1 read.2 found (reading_induction nil char stray (rest.drop read.2))
termination_by bytes.length
decreasing_by
  · exact Nat.lt_succ_self _
  · rw [List.length_drop, List.length_cons]
    omega

theorem decode_of_decode? {text : Text} (found : bytes.decode? = some text) :
    bytes.decode = text := by
  induction bytes using reading_induction generalizing text with
  | nil => cases found; rfl
  | char a rest c size first ih =>
    rw [decode?_char first] at found
    obtain ⟨later, read, rfl⟩ := Option.map_eq_some_iff.1 found
    rw [decode_char first, ih read]
  | stray a rest first ih => rw [decode?_stray first] at found; cases found

/-- There is a carriage return in a text only if there is one in its bytes. -/
theorem not_mem_decode (clean : 13 ∉ bytes) : '\r' ∉ bytes.decode := by
  induction bytes using reading_induction with
  | nil => exact List.not_mem_nil
  | char a rest c size found ih =>
    obtain ⟨first, later⟩ := not_or.1 (mt List.mem_cons.2 clean)
    rw [decode_char found, List.mem_cons, not_or]
    refine ⟨?_, ih fun member => later (List.mem_of_mem_drop member)⟩
    rintro rfl
    exact first (UInt8.toNat_inj.1 (byte_of_firstChar? found (by decide) (by decide))).symm
  | stray a rest found ih =>
    rw [decode_stray found]
    exact ih (not_or.1 (mt List.mem_cons.2 clean)).2

/-! ## Rewritten bytes -/

theorem withEnds_append (e : LineEnd) (front behind : Bytes) :
    Bytes.withEnds e (front ++ behind) = Bytes.withEnds e front ++ Bytes.withEnds e behind :=
  List.flatMap_append

theorem withEnds_of_tails (e : LineEnd) {tails : Bytes} (h : ∀ b ∈ tails, isTail b = true) :
    Bytes.withEnds e tails = tails := by
  induction tails with
  | nil => rfl
  | cons b tails ih =>
    obtain ⟨first, later⟩ := List.forall_mem_cons.1 h
    have other : b ≠ 10 := fun same => by rw [same] at first; exact absurd first (by decide)
    rw [withEnds_cons other, ih later]

/-- The bytes that continue a sequence stay, and none is added. -/
theorem takeWhile_withEnds (e : LineEnd) (rest : Bytes) :
    (Bytes.withEnds e rest).takeWhile isTail = rest.takeWhile isTail := by
  induction rest with
  | nil => rfl
  | cons b rest ih =>
    by_cases lineFeed : b = 10
    · subst lineFeed
      cases e <;> rfl
    · rw [withEnds_cons lineFeed, List.takeWhile_cons, List.takeWhile_cons, ih]

theorem firstChar?_withEnds (e : LineEnd) (a : UInt8) (rest : Bytes) :
    firstChar? (a :: Bytes.withEnds e rest) = firstChar? (a :: rest) := by
  rw [← firstChar?_takeWhile, takeWhile_withEnds, firstChar?_takeWhile]

theorem drop_withEnds (e : LineEnd) (found : firstChar? (a :: rest) = some (c, size)) :
    (Bytes.withEnds e rest).drop size = Bytes.withEnds e (rest.drop size) := by
  have inside := size_le found
  have tails : ∀ b ∈ rest.takeWhile isTail, isTail b = true := fun b => List.mem_takeWhile_imp
  rw [← List.takeWhile_append_dropWhile (p := isTail) (l := rest), withEnds_append,
    withEnds_of_tails e tails, List.drop_append_of_le_length inside,
    List.drop_append_of_le_length inside, withEnds_append,
    withEnds_of_tails e fun b member => tails b (List.mem_of_mem_drop member)]

theorem ne_lineFeed (found : firstChar? (a :: rest) = some (c, size)) (other : a ≠ 10) :
    c ≠ '\n' := by
  rintro rfl
  exact other (UInt8.toNat_inj.1 (byte_of_firstChar? found (by decide) (by decide)))

/-- Rewriting line ends goes through to the text, whatever is left out of it. -/
theorem decode_withEnds (e : LineEnd) (bytes : Bytes) :
    (Bytes.withEnds e bytes).decode = Text.withEnds e bytes.decode := by
  induction bytes using reading_induction with
  | nil => rfl
  | char a rest c size found ih =>
    by_cases lineFeed : a = 10
    · subst lineFeed
      cases (show firstChar? (10 :: rest) = some ('\n', 0) from rfl).symm.trans found
      rw [decode_char found, Text.withEnds_cons_lineFeed, withEnds_cons_lineFeed, ← ih,
        List.drop_zero]
      cases e with
      | cr =>
        rw [show LineEnd.bytes .cr ++ Bytes.withEnds .cr rest = 13 :: Bytes.withEnds .cr rest from
          rfl, decode_char rfl]
        rfl
      | crlf =>
        rw [show LineEnd.bytes .crlf ++ Bytes.withEnds .crlf rest =
          13 :: 10 :: Bytes.withEnds .crlf rest from rfl, decode_char rfl, List.drop_zero,
          decode_char rfl]
        rfl
    · rw [withEnds_cons lineFeed, decode_char ((firstChar?_withEnds e a rest).trans found),
        decode_char found, drop_withEnds e found, ih,
        Text.withEnds_cons (ne_lineFeed found lineFeed)]
  | stray a rest found ih =>
    have other : a ≠ 10 := fun same => by rw [same] at found; cases found
    rw [withEnds_cons other, decode_stray ((firstChar?_withEnds e a rest).trans found),
      decode_stray found, ih]

theorem decode?_withEnds (e : LineEnd) (bytes : Bytes) :
    (Bytes.withEnds e bytes).decode? = bytes.decode?.map (Text.withEnds e) := by
  induction bytes using reading_induction with
  | nil => rfl
  | char a rest c size found ih =>
    by_cases lineFeed : a = 10
    · subst lineFeed
      cases (show firstChar? (10 :: rest) = some ('\n', 0) from rfl).symm.trans found
      rw [decode?_char found, withEnds_cons_lineFeed, Option.map_map]
      have later : (Bytes.withEnds e rest).decode? = (decode? rest).map (Text.withEnds e) := ih
      cases e with
      | cr =>
        rw [show LineEnd.bytes .cr ++ Bytes.withEnds .cr rest = 13 :: Bytes.withEnds .cr rest from
          rfl, decode?_char rfl, List.drop_zero, later, Option.map_map]
        rfl
      | crlf =>
        rw [show LineEnd.bytes .crlf ++ Bytes.withEnds .crlf rest =
          13 :: 10 :: Bytes.withEnds .crlf rest from rfl, decode?_char rfl, List.drop_zero,
          decode?_char rfl, List.drop_zero, later, Option.map_map, Option.map_map]
        rfl
    · rw [withEnds_cons lineFeed, decode?_char ((firstChar?_withEnds e a rest).trans found),
        decode?_char found, drop_withEnds e found, ih, Option.map_map, Option.map_map]
      congr 1
      funext text
      exact (Text.withEnds_cons (ne_lineFeed found lineFeed)).symm
  | stray a rest found ih =>
    have other : a ≠ 10 := fun same => by rw [same] at found; cases found
    rw [withEnds_cons other, decode?_stray ((firstChar?_withEnds e a rest).trans found),
      decode?_stray found]
    rfl

/-- With its line ends rewritten a file reads the same. -/
theorem joinLines_decode_withEnds (e : LineEnd) (clean : 13 ∉ bytes) :
    (Bytes.withEnds e bytes).decode.joinLines = bytes.decode.joinLines := by
  have text := not_mem_decode clean
  rw [decode_withEnds, Text.joinLines_withEnds e text, Text.joinLines_of_clean text]

/-- It is also refused if it was refused before. -/
theorem map_joinLines_decode?_withEnds (e : LineEnd) (clean : 13 ∉ bytes) :
    (Bytes.withEnds e bytes).decode?.map Text.joinLines = bytes.decode?.map Text.joinLines := by
  rw [decode?_withEnds]
  cases read : bytes.decode? with
  | none => rfl
  | some text =>
    have clean : '\r' ∉ text := decode_of_decode? read ▸ not_mem_decode clean
    rw [Option.map_some, Option.map_some, Option.map_some, Text.joinLines_withEnds e clean,
      Text.joinLines_of_clean clean]

end Bytes

end CodeSurvey
