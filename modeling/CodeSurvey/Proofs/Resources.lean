import CodeSurvey.Proofs.Extractors
import CodeSurvey.Proofs.Glob
import CodeSurvey.Proofs.Replacement
import CodeSurvey.Proofs.Words

/-!
# Resources and the options that choose among their routes

A line that declares a resource gives its standard routes (`Routes.pluralRoutes`, and
`Routes.singularRoutes` for a singular one). With the option `only` it gives those of the actions
that are listed, with `except` all others, so that the two part the standard routes between them
whatever symbols are listed (`Routes.options_part_routes`).
-/

namespace CodeSurvey

/-! ## Lines as they are written -/

/-- A symbol: a name, and perhaps a mark at its end. -/
structure RubySymbol where
  name : Text
  mark : Text
  isName : IsName name
  isMark : mark ∈ [[], ['?'], ['!'], ['=']]

namespace RubySymbol

def text (x : RubySymbol) : Text := ':' :: (x.name ++ x.mark)

theorem not_mem_mark (x : RubySymbol) : ':' ∉ x.mark := by
  have marks : ∀ mark ∈ ([[], ['?'], ['!'], ['=']] : List Text), ':' ∉ mark := by decide
  exact marks _ x.isMark

/-- A name ends before its mark. -/
theorem isWord_head?_mark (x : RubySymbol) {rest : Text}
    (stop : ∀ c, rest.head? = some c → isWord c = false) :
    ∀ c, (x.mark ++ rest).head? = some c → isWord c = false := by
  have marks : ∀ mark ∈ ([[], ['?'], ['!'], ['=']] : List Text), ∀ c ∈ mark, isWord c = false := by
    decide
  exact Text.forall_head?_append (marks _ x.isMark) stop

/-- No symbol holds a character that is neither its colon nor a part of a name or mark. -/
theorem not_mem_text {c : Char} (noWord : isWord c = false) (other : c ∉ [':', '?', '!', '='])
    (x : RubySymbol) : c ∉ x.text := by
  have marks : ∀ mark ∈ ([[], ['?'], ['!'], ['=']] : List Text), ∀ d ∈ mark,
      d ∈ [':', '?', '!', '='] := by decide
  simp only [text, List.mem_cons, List.mem_append, not_or]
  refine ⟨?_, fun inName => ?_, fun inMark => other (marks _ x.isMark c inMark)⟩
  · rintro rfl
    exact other (.head _)
  · rw [x.isName.2 c inName] at noWord
    cases noWord

theorem not_mem_joined {c : Char} (noWord : isWord c = false) (other : c ∉ [':', '?', '!', '='])
    (separator : c ∉ Text.of ", ") (xs : List RubySymbol) :
    c ∉ Text.joinWith (Text.of ", ") (xs.map text) :=
  Glob.not_mem_joinWith separator (List.forall_mem_map.2 fun x _ => x.not_mem_text noWord other)

/-- Symbols between brackets. -/
def listText (xs : List RubySymbol) : Text :=
  '[' :: (Text.joinWith (Text.of ", ") (xs.map text) ++ [']'])

end RubySymbol

/-- The option of a resource with its value. -/
def optionText (option : String) (value : Text) : Text :=
  Text.of ", " ++ (option.toList ++ (Text.of ": " ++ value))

/-- How a line names the resource that it declares. -/
structure ResourceLine where
  indent : Text
  name : Text
  isGap : IsGap indent
  isName : IsName name

namespace ResourceLine

/-- The line with a keyword and options. -/
def text (x : ResourceLine) (keyword : String) (options : Text) : Text :=
  x.indent ++ (keyword.toList ++ (Text.of " :" ++ (x.name ++ options)))

/-- The name that the routes have. -/
def resource (x : ResourceLine) : String := String.ofList x.name

end ResourceLine

namespace Routes

open Pattern Place

/-- The routes of a resource. -/
def pluralRoutes (w : String) : List Route :=
  [⟨"GET", "/" ++ w, railsFile, some (w ++ "#index")⟩,
   ⟨"GET", "/" ++ w ++ "/:id", railsFile, some (w ++ "#show")⟩,
   ⟨"POST", "/" ++ w, railsFile, some (w ++ "#create")⟩,
   ⟨"PUT", "/" ++ w ++ "/:id", railsFile, some (w ++ "#update")⟩,
   ⟨"DELETE", "/" ++ w ++ "/:id", railsFile, some (w ++ "#destroy")⟩]

/-- The routes of a singular resource. -/
def singularRoutes (w : String) : List Route :=
  [⟨"GET", "/" ++ w, railsFile, some (w ++ "#show")⟩,
   ⟨"POST", "/" ++ w, railsFile, some (w ++ "#create")⟩,
   ⟨"PUT", "/" ++ w, railsFile, some (w ++ "#update")⟩,
   ⟨"DELETE", "/" ++ w, railsFile, some (w ++ "#destroy")⟩]

def resourceKinds : List (String × (String → List Route)) :=
  [("resources", pluralRoutes), ("resource", singularRoutes)]

/-- Whether a line gives these routes in every file of routes that it is a line of. -/
def Gives (line : Text) (routes : List Route) : Prop :=
  ∀ (s : Source) (text : Text) (before after : List Text), text.lines = before ++ line :: after →
    s.read railsFile = .ok (some text) →
      rails.scan.run s = .ok (before.flatMap railsLine ++ (routes ++ after.flatMap railsLine))

theorem gives_railsLine (line : Text) : Gives line (railsLine line) := by
  intro s text before after lines readable
  rw [run_rails, readable]
  show Except.ok (inRails railsFile text) = _
  rw [inRails, lines, List.flatMap_append, List.flatMap_cons]

/-! ## The parts of a line -/

/-- A line is read as the keyword, the name and the options. -/
theorem exists_matchAt?_resource {keyword : String} {options : Text}
    (known : keyword = "resources" ∨ keyword = "resource") (x : ResourceLine)
    (stop : ∀ c, options.head? = some c → isWord c = false) (inLine : '\n' ∉ options) :
    ∃ m, railsResource.matchAt? (start (x.text keyword options)) = some m ∧
      m.string 1 = keyword ∧ m.string 2 = x.resource ∧ m.group 3 = options := by
  obtain ⟨indent, name, isGap, isName⟩ := x
  let t₂ := name ++ options
  let t₁ := [' '] ++ (Text.of ":" ++ t₂)
  let t₀ := keyword.toList ++ t₁
  have start_ : textStart.Offers (between none (indent ++ t₀)) [] _ [] := offers_test rfl
  have indent_ : blanks.Offers (between none (indent ++ t₀)) []
      (between (lastOf none indent) t₀) [] := by
    refine offers_many _ isGap.isBlank ?_ (Nat.zero_le _)
    rcases known with rfl | rfl <;> exact stops_cons (by decide)
  have keyword_ : Offers ("resource" ++ opt "s") (between (lastOf none indent) t₀) []
      (between (lastOf (lastOf none indent) keyword.toList) t₁) [] := by
    rcases known with rfl | rfl
    · exact (offers_lit _ (Text.of "resource") (Text.of "s" ++ t₁)).seq
        (offers_lit _ (Text.of "s") t₁).left
    · exact (offers_lit _ (Text.of "resource") t₁).seq
        (.right (refuses_lit (by decide) _ [] _) offers_empty)
  have space_ (p : Option Char) (g : Groups) :
      blanks1.Offers (between p ([' '] ++ (Text.of ":" ++ t₂))) g _ g :=
    offers_many p isGap_space.isBlank (stops_cons (by decide)) (Nat.le_refl _)
  have colon_ (p : Option Char) (g : Groups) := offers_lit (g := g) p (Text.of ":") t₂
  have name_ (p : Option Char) (g : Groups) := offers_many (g := g) p isName.2 stop
    (List.length_pos_iff.2 isName.1)
  have options_ (p : Option Char) (g : Groups) :
      (some0 (· != '\n')).Offers (between p (options ++ [])) g _ g :=
    offers_many p (Text.bne_of_not_mem inLine) stops_nil (Nat.zero_le _)
  rw [List.append_nil] at options_
  have whole := ((((((start_.seq indent_).seq (keyword_.group (n := 1))).seq (space_ _ _)).seq
    (colon_ _ _)).seq ((name_ _ _).group (n := 2))).seq ((options_ _ _).group (n := 3))).seq
    (offers_test rfl : textEnd.Offers (between _ []) _ _ _)
  refine ⟨_, matchAt?_of_offers whole, ?_, ?_, ?_⟩
  · show String.ofList (Place.upTo _ _) = _
    rw [Place.upTo_eq rfl, String.ofList_toList]
  · show String.ofList (Place.upTo _ _) = _
    rw [Place.upTo_eq rfl]
    rfl
  · show Place.upTo _ _ = _
    exact Place.upTo_eq (List.append_nil _).symm

/-! ## Symbols -/

/-- The names of symbols. -/
def symbolNames (xs : List RubySymbol) : List String := xs.map fun x => String.ofList x.name

/-- A symbol starts with a colon. -/
theorem rubySymbol_opensWith : rubySymbol.OpensWith ':' := (opensWith_lit ':' []).seq _

/-- A symbol is read with its name. -/
theorem exists_findAll_symbol (x : RubySymbol) (previous : Option Char) {rest : Text}
    (stop : ∀ c, rest.head? = some c → isWord c = false) : ∃ m last,
      rubySymbol.findAll (between previous (x.text ++ rest)) =
        m :: rubySymbol.findAll (between last rest) ∧ m.string 1 = String.ofList x.name := by
  have colon := offers_lit (g := []) previous [':'] (x.name ++ (x.mark ++ rest))
  have name := (offers_many (g := []) (some ':') x.isName.2 (x.isWord_head?_mark stop)
    (List.length_pos_iff.2 x.isName.1)).group (n := 1)
  have found := matchAt?_of_offers (x := rubySymbol) (colon.seq name)
  have split : x.text ++ rest = [':'] ++ (x.name ++ (x.mark ++ rest)) := by
    simp [RubySymbol.text]
  rw [split, findAll_of_matchAt? found, rubySymbol_opensWith.findAll_append x.not_mem_mark]
  · refine ⟨_, _, rfl, ?_⟩
    show String.ofList (Place.upTo _ _) = _
    rw [Place.upTo_eq rfl]
  · show (x.mark ++ rest).length < ([':'] ++ (x.name ++ (x.mark ++ rest))).length
    simp only [List.length_append, List.length_singleton]
    omega

/-- Symbols behind the first one of a list. -/
def moreSymbols (xs : List RubySymbol) : Text := xs.flatMap fun x => Text.of ", " ++ x.text

theorem findAll_symbols (x : RubySymbol) (xs : List RubySymbol) (previous : Option Char) :
    (rubySymbol.findAll (between previous (x.text ++ moreSymbols xs))).map (·.string 1) =
      symbolNames (x :: xs) := by
  induction xs generalizing x previous with
  | nil =>
    obtain ⟨m, last, found, name⟩ := exists_findAll_symbol x previous stops_nil
    rw [show moreSymbols [] = [] from rfl, found, List.map_cons, name]
    rfl
  | cons next xs ih =>
    have more : moreSymbols (next :: xs) = Text.of ", " ++ (next.text ++ moreSymbols xs) := by
      simp [moreSymbols]
    have stop : ∀ c, (moreSymbols (next :: xs)).head? = some c → isWord c = false := by
      rw [more]
      exact stops_cons (by decide)
    obtain ⟨m, last, found, name⟩ := exists_findAll_symbol x previous stop
    rw [found, more, rubySymbol_opensWith.findAll_append (by decide), List.map_cons, name, ih]
    rfl

/-- The symbols of a list are read in their order. -/
theorem names_symbols (xs : List RubySymbol) :
    rubySymbol.names 1 (Text.joinWith (Text.of ", ") (xs.map (·.text))) = symbolNames xs := by
  cases xs with
  | nil => rfl
  | cons x xs =>
    rw [List.map_cons, Text.joinWith_cons, List.flatMap_map]
    exact findAll_symbols x xs none

/-! ## Options -/

/-- An option is read where its name stands before a colon. -/
theorem prefix_of_reads_symbolsOption {option : String} {t : Text} {rec : List (Nat × Text)}
    (reads : (symbolsOption option).Reads t rec) : option.toList ++ [':'] <+: t := by
  have named {rec : List (Nat × Text)} {s : Text}
      (reads : Reads (lit option.toList ++ ":") s rec) : s = option.toList ++ [':'] := by
    obtain ⟨_, _, _, _, first, second, rfl, -⟩ := reads_seq_iff.1 reads
    cases first
    cases second
    rfl
  cases reads with
  | left reads =>
    obtain ⟨s₄, _, reads, in₄⟩ := reads.exists_prefix
    obtain ⟨s₃, _, reads, in₃⟩ := reads.exists_prefix
    obtain ⟨s₂, _, reads, in₂⟩ := reads.exists_prefix
    obtain ⟨s₁, _, reads, in₁⟩ := reads.exists_prefix
    rw [← named reads]
    exact in₁.trans (in₂.trans (in₃.trans in₄))
  | right reads =>
    obtain ⟨s₃, _, reads, in₃⟩ := reads.exists_prefix
    obtain ⟨s₂, _, reads, in₂⟩ := reads.exists_prefix
    obtain ⟨s₁, _, reads, in₁⟩ := reads.exists_prefix
    rw [← named reads]
    exact in₁.trans (in₂.trans in₃)

/-- The text of an option is passed over up to the option. -/
theorem find_optionText {option : String} (known : option ∈ ["only", "except"]) (value : Text) :
    (symbolsOption option).find (optionText option value) = (symbolsOption option).find?
      (between (some ' ') (option.toList ++ (Text.of ": " ++ value))) := by
  let rest := option.toList ++ (Text.of ": " ++ value)
  show (symbolsOption option).find? (between none (Text.of ", " ++ rest)) = _
  refine find?_append_of_none fun u c v split =>
    matchAt?_of_refuses (refuses_of_reads fun t rec reads inFront => ?_)
  have starts := (prefix_of_reads_symbolsOption reads).trans inFront
  have member : c ∈ Text.of ", " := by rw [split]; simp
  have other : ∀ c ∈ Text.of ", ", ∀ option ∈ ["only", "except"],
      (option.toList ++ [':']).head? ≠ some c := by decide
  refine other c member option known ?_
  obtain ⟨r, whole⟩ := starts
  have nonempty : option.toList ++ [':'] ≠ [] := by simp
  have first := congrArg List.head? whole
  rwa [List.head?_append_of_ne_nil _ nonempty] at first

/-- An option with a list of symbols is read with their names. -/
theorem exists_find_list {option : String} (known : option ∈ ["only", "except"])
    (xs : List RubySymbol) : ∃ m,
      (symbolsOption option).find (optionText option (RubySymbol.listText xs)) = some m ∧
        optionSymbols m = symbolNames xs := by
  let inner := Text.joinWith (Text.of ", ") (xs.map (·.text))
  have closed : ']' ∉ inner :=
    RubySymbol.not_mem_joined (by decide) (by decide) (by decide) xs
  have name_ := offers_lit (g := []) (some ' ') option.toList
    ([':'] ++ ([' '] ++ (['['] ++ (inner ++ [']']))))
  have colon_ (p : Option Char) := offers_lit (g := []) p [':']
    ([' '] ++ (['['] ++ (inner ++ [']'])))
  have space_ (p : Option Char) :
      blanks.Offers (between p ([' '] ++ (['['] ++ (inner ++ [']'])))) [] _ [] :=
    offers_many p isGap_space.isBlank (stops_cons (by decide)) (Nat.zero_le _)
  have open_ (p : Option Char) := offers_lit (g := []) p ['['] (inner ++ [']'])
  have inner_ (p : Option Char) :
      (group 1 (some0 (· != ']'))).Offers (between p (inner ++ [']'])) [] _ _ :=
    .group (offers_many p (Text.bne_of_not_mem closed) (stops_cons (by decide)) (Nat.zero_le _))
  have close_ (p : Option Char) (g : Groups) := offers_lit (g := g) p [']'] []
  have whole := (((((name_.seq (colon_ _)).seq (space_ _)).seq (open_ _)).seq (inner_ _)).seq
    (close_ _ _)).left (y := lit option.toList ++ ":" ++ blanks ++ ":" ++ group 2 word)
  refine ⟨_, (find_optionText known _).trans (find?_of_matchAt? (matchAt?_of_offers whole)), ?_⟩
  rw [← names_symbols]
  show rubySymbol.names 1 (Place.upTo _ _) = _
  rw [Place.upTo_eq rfl]

/-- An option with one symbol is read with its name. -/
theorem exists_find_single {option : String} (known : option ∈ ["only", "except"])
    (x : RubySymbol) : ∃ m,
      (symbolsOption option).find (optionText option x.text) = some m ∧
        optionSymbols m = symbolNames [x] := by
  have name_ := offers_lit (g := []) (some ' ') option.toList
    ([':'] ++ ([' '] ++ ([':'] ++ (x.name ++ x.mark))))
  have colon_ (p : Option Char) := offers_lit (g := []) p [':']
    ([' '] ++ ([':'] ++ (x.name ++ x.mark)))
  have space_ (p : Option Char) :
      blanks.Offers (between p ([' '] ++ ([':'] ++ (x.name ++ x.mark)))) [] _ [] :=
    offers_many p isGap_space.isBlank (stops_cons (by decide)) (Nat.zero_le _)
  have colon'_ (p : Option Char) := offers_lit (g := []) p [':'] (x.name ++ x.mark)
  have stop : ∀ c, x.mark.head? = some c → isWord c = false := by
    have ends := x.isWord_head?_mark stops_nil
    rwa [List.append_nil] at ends
  have symbol_ (p : Option Char) := (offers_many (g := []) p x.isName.2 stop
    (List.length_pos_iff.2 x.isName.1)).group (n := 2)
  -- Without a bracket there is no list.
  have noBracket : '[' ∉ option.toList ++ (Text.of ": " ++ x.text) := by
    have names : ∀ option ∈ ["only", "except"], '[' ∉ option.toList ++ Text.of ": " := by decide
    rw [← List.append_assoc, List.mem_append, not_or]
    exact ⟨names option known, x.not_mem_text (by decide) (by decide)⟩
  have noList : Refuses (lit option.toList ++ ":" ++ blanks ++ "[" ++
      group 1 (some0 (· != ']')) ++ "]")
      (between (some ' ') (option.toList ++ (Text.of ": " ++ x.text))) [] := by
    refine refuses_of_reads fun t rec reads inFront => noBracket (inFront.subset ?_)
    obtain ⟨s₂, _, reads, in₂⟩ := reads.exists_prefix
    obtain ⟨s₁, _, reads, in₁⟩ := reads.exists_prefix
    obtain ⟨_, _, _, _, -, bracket, rfl, -⟩ := reads_seq_iff.1 reads
    cases bracket
    exact (in₁.trans in₂).subset (List.mem_append_right _ (.head _))
  have whole := Offers.right noList ((((name_.seq (colon_ _)).seq (space_ _)).seq (colon'_ _)).seq
    (symbol_ _))
  refine ⟨_, (find_optionText known _).trans (find?_of_matchAt? (matchAt?_of_offers whole)), ?_⟩
  show [String.ofList (Place.upTo _ _)] = _
  rw [Place.upTo_eq rfl]
  rfl

/-- Whether no colon follows a `y`. -/
def ColonsApart : Text → Prop := List.IsChain fun c d => c = 'y' → d ≠ ':'

theorem colonsApart_append {s t : Text} (inFront : ColonsApart s) (behind : ColonsApart t)
    (joint : t.head? = some ':' → s.getLast? ≠ some 'y') : ColonsApart (s ++ t) := by
  refine List.isChain_append.2 ⟨inFront, behind, ?_⟩
  rintro c last d first rfl rfl
  exact joint first last

theorem colonsApart_symbol (x : RubySymbol) : ColonsApart x.text := by
  have inName : ':' ∉ x.name := fun member => absurd (x.isName.2 _ member) (by decide)
  have noColon : ':' ∉ x.name ++ x.mark := by
    rw [List.mem_append, not_or]
    exact ⟨inName, x.not_mem_mark⟩
  have all : (x.text).Pairwise fun c d => c = 'y' → d ≠ ':' := by
    refine List.pairwise_cons.2 ⟨fun d _ y => absurd y (by decide), ?_⟩
    exact List.pairwise_of_forall_mem_list fun c _ d member _ => ne_of_mem_of_not_mem member noColon
  exact all.isChain

theorem colonsApart_symbols (x : RubySymbol) (xs : List RubySymbol) :
    ColonsApart (x.text ++ moreSymbols xs) := by
  induction xs generalizing x with
  | nil =>
    rw [show moreSymbols [] = [] from rfl, List.append_nil]
    exact colonsApart_symbol x
  | cons next xs ih =>
    have more : moreSymbols (next :: xs) = Text.of ", " ++ (next.text ++ moreSymbols xs) := by
      simp [moreSymbols]
    have comma : ColonsApart (Text.of ", ") := by
      unfold ColonsApart
      decide
    rw [more]
    exact colonsApart_append (colonsApart_symbol x)
      (colonsApart_append comma (ih next) fun _ => by decide) fun colon => by cases colon

theorem colonsApart_listText (xs : List RubySymbol) : ColonsApart (RubySymbol.listText xs) := by
  have bracket (c : Char) : ColonsApart [c] := List.isChain_singleton c
  have inner : ColonsApart (Text.joinWith (Text.of ", ") (xs.map (·.text))) := by
    cases xs with
    | nil => exact List.isChain_nil
    | cons x xs =>
      rw [List.map_cons, Text.joinWith_cons, List.flatMap_map]
      exact colonsApart_symbols x xs
  exact colonsApart_append (bracket '[')
    (colonsApart_append inner (bracket ']') fun colon => by cases colon) fun _ => by decide

/-- Where the option `except` is given there is no option `only`, whatever the symbols are. -/
theorem find_only_of_except {value : Text} (apart : ColonsApart value) :
    (symbolsOption "only").find (optionText "except" value) = none := by
  rw [Option.eq_none_iff_forall_ne_some]
  intro m found
  obtain ⟨t, below⟩ := first_of_find? found
  obtain ⟨rest, reads⟩ := matches_of_find found
  have inText : Text.of "only:" <:+: optionText "except" value := by
    obtain ⟨r, starts⟩ := prefix_of_reads_symbolsOption reads
    refine ⟨t, r ++ m.last.rest, ?_⟩
    show t ++ ("only".toList ++ [':']) ++ _ = _
    rw [List.append_assoc, ← List.append_assoc _ r, starts, ← rest]
    exact below.symm
  have front : ColonsApart (Text.of ", except: ") := by
    unfold ColonsApart
    decide
  have all : ColonsApart (Text.of ", except: " ++ value) :=
    colonsApart_append front apart fun _ => by decide
  have none : ¬ ColonsApart (Text.of "only:") := by
    unfold ColonsApart
    decide
  exact none <| List.IsChain.infix all inText

/-! ## The routes that options leave -/

/-- Whether a route is that of one of the actions. -/
def isOf (w : String) (actions : List String) (r : Route) : Bool :=
  actions.any fun action => r.handler == some (w ++ "#" ++ action)

/-- What a value of the options `only` and `except` stands for. -/
structure Lists (value : Text) (names : List String) : Prop where
  read : ∀ option ∈ ["only", "except"], ∃ m,
    (symbolsOption option).find (optionText option value) = some m ∧ optionSymbols m = names
  apart : ColonsApart value
  inLine : '\n' ∉ value

theorem lists_list (xs : List RubySymbol) : Lists (RubySymbol.listText xs) (symbolNames xs) where
  read _ known := exists_find_list known xs
  apart := colonsApart_listText xs
  inLine := by
    have inside := RubySymbol.not_mem_joined (c := '\n') (by decide) (by decide) (by decide) xs
    simp [RubySymbol.listText, inside]

theorem lists_single (x : RubySymbol) : Lists x.text (symbolNames [x]) where
  read _ known := exists_find_single known x
  apart := colonsApart_symbol x
  inLine := x.not_mem_text (by decide) (by decide)

theorem actionFilter_only {value : Text} {names : List String} (lists : Lists value names) :
    actionFilter (optionText "only" value) = some names := by
  obtain ⟨m, found, symbols⟩ := lists.read "only" (.head _)
  rw [actionFilter, found]
  exact congrArg some symbols

theorem actionFilter_except {value : Text} {names : List String} (lists : Lists value names) :
    actionFilter (optionText "except" value) =
      some ((railsActions.map (·.action)).filter fun action => !names.contains action) := by
  obtain ⟨m, found, symbols⟩ := lists.read "except" (.tail _ (.head _))
  rw [actionFilter, find_only_of_except lists.apart, found, ← symbols]

/-- The route of an action. -/
def actionRoute (w : String) (singular : Bool) (a : RailsAction) : Route :=
  ⟨a.method, if a.member && !singular then "/" ++ w ++ "/:id" else "/" ++ w, railsFile,
    some (w ++ "#" ++ a.action)⟩

theorem isOf_actionRoute (w : String) (singular : Bool) (actions : List String) (a : RailsAction) :
    isOf w actions (actionRoute w singular a) = actions.contains a.action := by
  rw [List.contains_eq_any_beq, isOf]
  congr 1
  funext action
  rw [Bool.eq_iff_iff, beq_iff_eq, beq_iff_eq, actionRoute, Option.some_inj,
    String.append_right_inj]

theorem resourceRoutes_nil (w : String) (singular : Bool) :
    resourceRoutes w singular [] =
      (railsActions.filter fun a => !(singular && a.action == "index")).map
        (actionRoute w singular) := by
  have unlimited : actionFilter [] = none := by decide
  rw [resourceRoutes, unlimited]
  simp only [Option.all_none, Bool.and_true]
  rfl

/-- Of the routes of a resource those of the actions that its options allow are left. -/
theorem resourceRoutes_of_filter {w : String} {singular : Bool} {options : Text}
    {actions : List String} (allowed : actionFilter options = some actions) :
    resourceRoutes w singular options =
      (resourceRoutes w singular []).filter (isOf w actions) := by
  rw [resourceRoutes_nil, List.filter_map, List.filter_filter, resourceRoutes, allowed]
  simp only [Function.comp_def, isOf_actionRoute, Option.all_some, Bool.and_comm]
  rfl

/-- What the option `except` leaves are the routes of the actions that are not listed. -/
theorem filter_except (w : String) (singular : Bool) (names : List String) :
    (resourceRoutes w singular []).filter
        (isOf w ((railsActions.map (·.action)).filter fun action => !names.contains action)) =
      (resourceRoutes w singular []).filter (!isOf w names ·) := by
  refine List.filter_congr fun r member => ?_
  rw [resourceRoutes_nil] at member
  obtain ⟨a, inActions, rfl⟩ := List.mem_map.1 member
  rw [isOf_actionRoute, isOf_actionRoute, Bool.eq_iff_iff, List.contains_iff_mem, List.mem_filter,
    and_iff_right (List.mem_map_of_mem (List.mem_of_mem_filter inActions))]

theorem resourceRoutes_standard {keyword : String} {standard : String → List Route}
    (known : (keyword, standard) ∈ resourceKinds) (w : String) :
    resourceRoutes w (keyword == "resource") [] = standard w := by
  simp only [resourceKinds, List.mem_cons, List.not_mem_nil, or_false, Prod.mk.injEq] at known
  rcases known with ⟨rfl, rfl⟩ | ⟨rfl, rfl⟩ <;> rw [resourceRoutes_nil]
  · simp [railsActions, actionRoute, pluralRoutes, String.append_assoc]
  · simp [railsActions, actionRoute, singularRoutes, String.append_assoc]

theorem keyword_of_mem {keyword : String} {standard : String → List Route}
    (known : (keyword, standard) ∈ resourceKinds) :
    keyword = "resources" ∨ keyword = "resource" := by
  simp only [resourceKinds, List.mem_cons, List.not_mem_nil, or_false, Prod.mk.injEq] at known
  exact known.imp And.left And.left

/-- A singular resource has no member with an identifier. -/
theorem no_identifier_singular {w : Text} (isName : IsName w) :
    ∀ r ∈ singularRoutes (String.ofList w), ':' ∉ r.path.toList := by
  have inName : ':' ∉ w := fun member => absurd (isName.2 _ member) (by decide)
  simp [singularRoutes, inName]

theorem nodup_standard {keyword : String} {standard : String → List Route}
    (known : (keyword, standard) ∈ resourceKinds) (w : String) : (standard w).Nodup := by
  rw [← resourceRoutes_standard known, resourceRoutes_nil]
  have actions : (railsActions.map (·.action)).Nodup := by decide
  have handler : Function.Injective fun action => some (w ++ "#" ++ action) :=
    fun _ _ same => String.append_right_inj _ |>.1 (Option.some_inj.1 same)
  have handlers : (fun r : Route => r.handler) ∘ actionRoute w (keyword == "resource") =
      (fun action => some (w ++ "#" ++ action)) ∘ (·.action) := rfl
  refine List.Nodup.of_map (·.handler) ?_
  rw [List.map_map, handlers, ← List.map_map]
  exact (actions.sublist (List.filter_sublist.map _)).map handler

/-- The routes of a line are those of its resource under its options. -/
theorem gives_text {keyword : String} {options : Text}
    (known : keyword = "resources" ∨ keyword = "resource") (x : ResourceLine)
    (stop : ∀ c, options.head? = some c → isWord c = false) (inLine : '\n' ∉ options) :
    Gives (x.text keyword options) (resourceRoutes x.resource (keyword == "resource") options) := by
  obtain ⟨m, found, key, name, rest⟩ := exists_matchAt?_resource known x stop inLine
  have routes : railsLine (x.text keyword options) =
      resourceRoutes x.resource (keyword == "resource") options := by
    rw [railsLine, found, ← key, ← name, ← rest]
  exact routes ▸ gives_railsLine _

/-- How two lists of routes part a third one between them: each keeps its order, none of them is in
both and all are in one. -/
structure Parts (whole kept dropped : List Route) : Prop where
  kept_sublist : kept.Sublist whole
  dropped_sublist : dropped.Sublist whole
  disjoint : kept.Disjoint dropped
  perm : (kept ++ dropped).Perm whole

theorem parts_filter (p : Route → Bool) (whole : List Route) :
    Parts whole (whole.filter p) (whole.filter (!p ·)) where
  kept_sublist := List.filter_sublist
  dropped_sublist := List.filter_sublist
  disjoint r kept dropped := by
    have holds := List.of_mem_filter kept
    have fails := List.of_mem_filter dropped
    rw [holds] at fails
    cases fails
  perm := List.filter_append_perm p whole

theorem gives_optionText {keyword : String} (known : keyword = "resources" ∨ keyword = "resource")
    (x : ResourceLine) {option : String} (option_ : option ∈ ["only", "except"]) {value : Text}
    (inLine : '\n' ∉ value) : Gives (x.text keyword (optionText option value))
      (resourceRoutes x.resource (keyword == "resource") (optionText option value)) := by
  refine gives_text known x (stops_cons (by decide)) ?_
  have front : ∀ option ∈ ["only", "except"],
      '\n' ∉ Text.of ", " ++ (option.toList ++ Text.of ": ") := by decide
  rw [optionText, ← List.append_assoc option.toList, ← List.append_assoc, List.mem_append, not_or]
  exact ⟨front option option_, inLine⟩

section
variable {keyword : String} {standard : String → List Route}
  (known : (keyword, standard) ∈ resourceKinds) (x : ResourceLine)
  {value : Text} {names : List String} (lists : Lists value names)
include known lists

theorem gives_only : Gives (x.text keyword (optionText "only" value))
    ((standard x.resource).filter (isOf x.resource names)) := by
  have gives := gives_optionText (keyword_of_mem known) x (.head ["except"]) lists.inLine
  rwa [resourceRoutes_of_filter (actionFilter_only lists), resourceRoutes_standard known] at gives

theorem gives_except : Gives (x.text keyword (optionText "except" value))
    ((standard x.resource).filter (!isOf x.resource names ·)) := by
  have gives := gives_optionText (keyword_of_mem known) x (.tail "only" (.head [])) lists.inLine
  rwa [resourceRoutes_of_filter (actionFilter_except lists), filter_except,
    resourceRoutes_standard known] at gives

end

/-- The option `only` with some symbols and the option `except` with the same ones part the standard
routes of a resource, and one symbol is a list of one. -/
theorem options_part_routes {keyword : String} {standard : String → List Route}
    (known : (keyword, standard) ∈ resourceKinds) (x : ResourceLine) (xs : List RubySymbol) :
    Gives (x.text keyword []) (standard x.resource) ∧ (standard x.resource).Nodup ∧
    (keyword = "resource" → ∀ r ∈ standard x.resource, ':' ∉ r.path.toList) ∧
    (∃ kept dropped,
      Gives (x.text keyword (optionText "only" (RubySymbol.listText xs))) kept ∧
      Gives (x.text keyword (optionText "except" (RubySymbol.listText xs))) dropped ∧
      Parts (standard x.resource) kept dropped ∧
      kept = (standard x.resource).filter (isOf x.resource (symbolNames xs))) ∧
    ∀ option ∈ ["only", "except"], ∀ y : RubySymbol, ∃ routes,
      Gives (x.text keyword (optionText option y.text)) routes ∧
      Gives (x.text keyword (optionText option (RubySymbol.listText [y]))) routes := by
  have keyword_ := keyword_of_mem known
  refine ⟨?_, nodup_standard known _, ?_, ?_, ?_⟩
  · rw [← resourceRoutes_standard known]
    exact gives_text keyword_ x stops_nil List.not_mem_nil
  · rintro rfl
    obtain rfl : standard = singularRoutes := by simpa [resourceKinds] using known
    exact no_identifier_singular x.isName
  · exact ⟨_, _, gives_only known x (lists_list xs), gives_except known x (lists_list xs),
      parts_filter _ _, rfl⟩
  · have options : ∀ option ∈ ["only", "except"], option = "only" ∨ option = "except" := by decide
    intro option member y
    rcases options option member with rfl | rfl
    · exact ⟨_, gives_only known x (lists_single y), gives_only known x (lists_list [y])⟩
    · exact ⟨_, gives_except known x (lists_single y), gives_except known x (lists_list [y])⟩

/-- A resource with the name of an option. -/
def onlyResource : ResourceLine :=
  ⟨Text.of "  ", Text.of "only", by unfold IsGap; decide, ⟨by decide, by decide⟩⟩

/-- Symbols of which two are actions, and one of these has a mark. -/
def mixedSymbols : List RubySymbol :=
  [⟨Text.of "index", [], ⟨by decide, by decide⟩, by decide⟩,
   ⟨Text.of "except", [], ⟨by decide, by decide⟩, by decide⟩,
   ⟨Text.of "update", ['!'], ⟨by decide, by decide⟩, by decide⟩]

theorem onlyResource_parted : ∃ kept dropped,
    Gives (Text.of "  resources :only, only: [:index, :except, :update!]") kept ∧
    Gives (Text.of "  resources :only, except: [:index, :except, :update!]") dropped ∧
    Parts (pluralRoutes "only") kept dropped ∧
    kept = [⟨"GET", "/only", railsFile, some "only#index"⟩,
      ⟨"PUT", "/only/:id", railsFile, some "only#update"⟩] := by
  obtain ⟨-, -, -, ⟨kept, dropped, only, except, parts, chosen⟩, -⟩ :=
    options_part_routes (.head _ : ("resources", pluralRoutes) ∈ resourceKinds) onlyResource
      mixedSymbols
  exact ⟨kept, dropped, only, except, parts, chosen.trans (by decide)⟩

end Routes

end CodeSurvey
