import CodeSurvey.Proofs.Blocks
import CodeSurvey.Proofs.Flattening
import CodeSurvey.Proofs.Scan
import CodeSurvey.Proofs.Words
import CodeSurvey.Routes.Rust

/-!
# Registrations as they are written

A registration names a path and, in the same call, a handler for each method (`Registration`). The
handlers are read from the arguments of the call, which end at the parenthesis that closes it. So
each registration gives the routes that are written in it and none of another one
(`Routes.axum_reads_written`).
-/

namespace CodeSurvey

open Pattern (wordOr)

/-! ## Registrations as they are written -/

/-- What registers a handler, with the method that it is registered for. -/
def axumVerbs : List (String × String) :=
  [("get", "GET"), ("post", "POST"), ("put", "PUT"), ("patch", "PATCH"), ("delete", "DELETE")]

structure MethodHandler where
  verb : String
  method : String
  name : Text
  known : (verb, method) ∈ axumVerbs
  nonempty : name ≠ []
  isPath : ∀ c ∈ name, wordOr [':'] c = true

def MethodHandler.text (h : MethodHandler) : Text := h.verb.toList ++ '(' :: (h.name ++ [')'])

/-- A registration with its line. -/
structure Registration where
  indent : Text
  path : Text
  first : MethodHandler
  others : List MethodHandler
  isGap : IsGap indent
  noQuote : '"' ∉ path
  isBare : IsBare '(' ')' path

namespace Registration

/-- A handler and those behind it. -/
def chain (h : MethodHandler) (others : List MethodHandler) : Text :=
  h.text ++ others.flatMap fun h => '.' :: h.text

def arguments (x : Registration) : Text :=
  '"' :: (x.path ++ ("\", ".toList ++ chain x.first x.others))

def text (x : Registration) : Text := x.indent ++ (".route".toList ++ '(' :: (x.arguments ++ [')']))

/-- The routes that are registered in a file. -/
def routes (file : String) (x : Registration) : List Route :=
  (x.first :: x.others).map fun h =>
    ⟨h.method, String.ofList x.path, file, some (String.ofList h.name)⟩

/-- Registrations, each on the line below the one before. -/
def lines (xs : List Registration) : Text := joinedLines (xs.map text)

end Registration

/-! ### Characters -/

theorem MethodHandler.noDot (h : MethodHandler) : '.' ∉ h.text := by
  have verbs : ∀ verb ∈ axumVerbs, '.' ∉ verb.1.toList := by decide
  have name : '.' ∉ h.name := fun member => absurd (h.isPath _ member) (by decide)
  simp only [text, List.mem_append, List.mem_cons, List.not_mem_nil, or_false, not_or]
  exact ⟨verbs _ h.known, by decide, name, by decide⟩

theorem MethodHandler.getLast?_text (h : MethodHandler) : h.text.getLast? = some ')' := by
  have closed : h.text = (h.verb.toList ++ '(' :: h.name) ++ [')'] := by
    simp [text]
  rw [closed, List.getLast?_concat]

theorem MethodHandler.isBalanced (h : MethodHandler) : IsBalanced '(' ')' h.text := by
  have verbs : ∀ verb ∈ axumVerbs, IsBare '(' ')' verb.1.toList := by decide
  have name : IsBare '(' ')' h.name :=
    ⟨fun member => absurd (h.isPath _ member) (by decide),
      fun member => absurd (h.isPath _ member) (by decide)⟩
  have none : IsBare '(' ')' [] := by decide
  have group : ∀ g ∈ [(h.name, ([] : Text))], IsBalanced '(' ')' g.1 ∧ IsBare '(' ')' g.2 :=
    List.forall_mem_singleton.2 ⟨isBalanced_of_isBare name, none⟩
  have whole := isBalanced_withGroups (by decide) (verbs _ h.known) group
  rwa [withGroups_cons, withGroups_nil] at whole

theorem Registration.isBalanced (x : Registration) : IsBalanced '(' ')' x.arguments := by
  have bare {t : Text} (noParenthesis : IsBare '(' ')' t) : IsBalanced '(' ')' t :=
    isBalanced_of_isBare noParenthesis
  have chain (h : MethodHandler) (others : List MethodHandler) :
      IsBalanced '(' ')' (chain h others) := by
    refine isBalanced_append (by decide) h.isBalanced ?_
    induction others with
    | nil => exact bare (by decide)
    | cons h others ih =>
      rw [List.flatMap_cons]
      have dotted : IsBalanced '(' ')' (['.'] ++ h.text) :=
        isBalanced_append (by decide) (bare (by decide)) h.isBalanced
      exact isBalanced_append (by decide) dotted ih
  have inner := isBalanced_append (by decide) (bare (by decide) : IsBalanced _ _ "\", ".toList)
    (chain x.first x.others)
  have quoted := isBalanced_append (by decide) (bare x.isBare) inner
  exact isBalanced_append (by decide) (bare (by decide) : IsBalanced _ _ ['"']) quoted

namespace Routes

open Pattern Place Registration

/-! ## Handlers -/

/-- Where a handler is read, a verb comes first, and a parenthesis after it. -/
theorem exists_of_reads_axumMethod {t : Text} {rec : List (Nat × Text)}
    (reads : axumMethod.Reads t rec) : ∃ verb ∈ axumVerbs, ∃ gap, (∀ c ∈ gap, isBlank c = true) ∧
      verb.1.toList ++ gap ++ ['('] <+: t := by
  -- What is behind the first parenthesis is left out, part by part.
  obtain ⟨_, _, reads₄, in₄⟩ := reads.exists_prefix
  obtain ⟨_, _, reads₃, in₃⟩ := reads₄.exists_prefix
  obtain ⟨_, _, reads₂, in₂⟩ := reads₃.exists_prefix
  obtain ⟨_, _, reads₁, in₁⟩ := reads₂.exists_prefix
  obtain ⟨_, _, _, _, upToGap, parenthesis, rfl, -⟩ := reads_seq_iff.1 reads₁
  obtain ⟨_, _, gap, _, upToVerb, blank, rfl, -⟩ := reads_seq_iff.1 upToGap
  obtain ⟨_, _, _, _, edge, named, rfl, -⟩ := reads_seq_iff.1 upToVerb
  obtain ⟨_, verb, -⟩ := reads_group_iff.1 named
  obtain ⟨word, member, rfl⟩ := exists_of_reads_oneOf (by decide) verb
  cases edge
  cases parenthesis
  obtain ⟨entry, known, rfl⟩ := List.mem_map.1 (show word ∈ axumVerbs.map (·.1) from member)
  exact ⟨entry, known, gap, (reads_many_iff.1 blank).1, in₁.trans (in₂.trans (in₃.trans in₄))⟩

theorem exists_cons_of_mem_axumVerbs {verb : String × String} (known : verb ∈ axumVerbs) :
    ∃ c word, verb.1.toList = c :: word ∧ isWord c = true := by
  have verbs : ∀ verb ∈ axumVerbs, verb.1.toList.head?.any isWord = true := by decide
  obtain ⟨c, first, word⟩ := (Option.any_eq_true _ _).1 (verbs verb known)
  obtain ⟨word', whole⟩ := List.head?_eq_some_iff.1 first
  exact ⟨c, word', whole, word⟩

/-- A verb has to be there where a handler is read. -/
theorem matchAt?_method_of_ne {c : Char}
    (other : ∀ verb ∈ axumVerbs, verb.1.toList.head? ≠ some c) (previous : Option Char)
    (rest : Text) : axumMethod.matchAt? (between previous (c :: rest)) = none := by
  refine matchAt?_of_refuses (refuses_of_reads fun t rec reads inFront => ?_)
  obtain ⟨verb, known, gap, -, starts⟩ := exists_of_reads_axumMethod reads
  obtain ⟨d, word, whole, -⟩ := exists_cons_of_mem_axumVerbs known
  have first := starts.trans inFront
  rw [whole] at first
  refine other verb known ?_
  rw [whole, (List.cons_prefix_cons.1 first).1]
  rfl

theorem exists_matchAt?_method (h : MethodHandler) {previous : Option Char}
    (apart : isAfterWord (between previous []) = false) (rest : Text) : ∃ m,
      axumMethod.matchAt? (between previous (h.text ++ rest)) = some m ∧ m.upper 1 = h.method ∧
      m.string 2 = String.ofList h.name ∧ m.last = between (some ')') rest := by
  obtain ⟨verb, method, name, known, nonempty, isPath⟩ := h
  let t₁ := ['('] ++ (name ++ ([')'] ++ rest))
  have whole : verb.toList ++ '(' :: (name ++ [')']) ++ rest = verb.toList ++ t₁ := by
    simp [t₁]
  have edge_ : wordEdge.Offers (between previous (verb.toList ++ t₁)) []
      (between previous (verb.toList ++ t₁)) [] := by
    obtain ⟨c, word, starts, isWord⟩ := exists_cons_of_mem_axumVerbs known
    refine offers_test ?_
    show (isAfterWord (between previous []) != (verb.toList ++ t₁).head?.any _) = true
    rw [apart, starts, List.cons_append, List.head?_cons, Option.any_some, isWord]
    rfl
  have verb_ : rustVerbs.Offers (between previous (verb.toList ++ t₁)) []
      (between (lastOf previous verb.toList) t₁) [] := by
    refine offers_oneOf (by decide) ?_ _ _
    exact (List.mem_map_of_mem known : verb ∈ axumVerbs.map (·.1))
  have open_ (p : Option Char) (g : Groups) := offers_lit (g := g) p ['('] (name ++ ([')'] ++ rest))
  have visible : ∀ c, (name ++ ([')'] ++ rest)).head? = some c → isBlank c = false := by
    refine Text.forall_head?_of_ne_nil (fun c member => ?_) nonempty
    exact isBlank_of_apart (by decide +kernel) (isPath c member)
  have name_ (p : Option Char) (g : Groups) := offers_many (g := g) p isPath
    (stops_cons (by decide) : ∀ c, ([')'] ++ rest).head? = some c → wordOr [':'] c = false)
    (List.length_pos_iff.2 nonempty)
  have close_ (p : Option Char) (g : Groups) := offers_lit (g := g) p [')'] rest
  have all := ((((((edge_.seq (verb_.group (n := 1))).seq
    (offers_noGap (stops_cons (by decide)))).seq (open_ _ _)).seq
    (offers_noGap visible)).seq ((name_ _ _).group (n := 2))).seq
    (offers_noGap (stops_cons (by decide)))).seq (close_ _ _)
  refine ⟨_, (congrArg (fun t => axumMethod.matchAt? (between previous t)) whole).trans
    (matchAt?_of_offers all), ?_, ?_, rfl⟩
  · show upperOf (String.ofList (Place.upTo _ _)) = method
    rw [Place.upTo_eq rfl, String.ofList_toList]
    have verbs : ∀ entry ∈ axumVerbs, upperOf entry.1 = entry.2 := by decide
    exact verbs (verb, method) known
  · show String.ofList (Place.upTo _ _) = _
    rw [Place.upTo_eq rfl]

/-- A handler has a parenthesis, and no quote before it. -/
theorem axumMethod_needs : axumMethod.Needs '(' '"' := by
  intro t rec reads
  obtain ⟨verb, known, gap, blank, starts⟩ := exists_of_reads_axumMethod reads
  have verbs : ∀ verb ∈ axumVerbs, '"' ∉ verb.1.toList := by decide
  refine ⟨_, starts, by simp, ?_⟩
  simp only [List.mem_append, not_or]
  exact ⟨⟨verbs verb known, fun member => absurd (blank _ member) (by decide)⟩, by decide⟩

/-- No handler is read in the path. -/
theorem findAll_method_path (x : Registration) :
    axumMethod.findAll (start x.arguments) =
      axumMethod.findAll (between (some ' ') (chain x.first x.others)) := by
  let rest := ' ' :: chain x.first x.others
  have outside : '(' ∉ '"' :: x.path :=
    List.not_mem_cons_of_ne_of_not_mem (by decide) x.isBare.1
  have path : axumMethod.findAll (between none (('"' :: x.path) ++ '"' :: ',' :: rest)) =
      axumMethod.findAll (between (lastOf none ('"' :: x.path)) ('"' :: ',' :: rest)) :=
    axumMethod_needs.findAll_append outside none _
  have other (c : Char) (member : c ∈ ['"', ',', ' ']) (previous : Option Char) (rest : Text) :
      axumMethod.findAll (between previous (c :: rest)) =
        axumMethod.findAll (between (some c) rest) := by
    have verbs : ∀ c ∈ ['"', ',', ' '], ∀ verb ∈ axumVerbs, verb.1.toList.head? ≠ some c := by
      decide
    exact findAll_of_none (matchAt?_method_of_ne (verbs c member) previous rest)
  have whole : x.arguments = ('"' :: x.path) ++ '"' :: ',' :: rest := rfl
  rw [start_eq, whole, path, other '"' (by decide), other ',' (by decide)]
  exact other ' ' (by decide) (some ',') (chain x.first x.others)

/-- The handlers of a chain are read in their order. -/
theorem map_findAll_chain (file path : String) (h : MethodHandler) (others : List MethodHandler)
    {previous : Option Char} (apart : isAfterWord (between previous []) = false) :
    (axumMethod.findAll (between previous (chain h others))).map
        (fun m => (⟨m.upper 1, path, file, some (m.string 2)⟩ : Route)) =
      (h :: others).map fun h => ⟨h.method, path, file, some (String.ofList h.name)⟩ := by
  have long {m : Match} {h : MethodHandler} {previous : Option Char} {rest : Text}
      (last : m.last = between (some ')') rest) :
      m.last.size < (between previous (h.text ++ rest)).size := by
    rw [last]
    show rest.length < (h.text ++ rest).length
    simp only [MethodHandler.text, List.length_append, List.length_cons]
    omega
  induction others generalizing h previous with
  | nil =>
    obtain ⟨m, found, method, name, last⟩ := exists_matchAt?_method h apart []
    have nothing : axumMethod.matchAt? (between (some ')') []) = none := by
      refine matchAt?_of_refuses (refuses_of_reads fun t rec reads inFront => ?_)
      obtain ⟨verb, -, gap, -, starts⟩ := exists_of_reads_axumMethod reads
      simp [List.prefix_nil.1 inFront] at starts
    rw [chain, List.flatMap_nil, findAll_of_matchAt? found (long last), last, findAll_nil nothing,
      List.map_singleton, method, name]
    rfl
  | cons next others ih =>
    have whole : chain h (next :: others) = h.text ++ '.' :: chain next others := by
      simp [chain]
    obtain ⟨m, found, method, name, last⟩ :=
      exists_matchAt?_method h apart ('.' :: chain next others)
    rw [whole, findAll_of_matchAt? found (long last), last,
      findAll_of_none (matchAt?_method_of_ne (by decide) _ _), List.map_cons, method, name,
      ih next rfl]
    rfl

/-! ## Calls -/

theorem callArguments?_call (x : Registration) (previous : Option Char) (rest : Text) :
    callArguments? (between previous (".route".toList ++ '(' :: (x.arguments ++ ')' :: rest))) =
      some x.arguments := by
  have opened : (".route".toList ++ '(' :: (x.arguments ++ ')' :: rest)).dropWhile (· != '(') =
      '(' :: (x.arguments ++ ')' :: rest) := rfl
  show bodyAfter? '(' ')' ((List.dropWhile _ (".route".toList ++ _)).drop 1) = _
  rw [opened]
  exact (bodyAfter?_eq_some_iff (by decide)).2 ⟨x.isBalanced, rest, rfl⟩

theorem exists_matchAt?_route (x : Registration) (previous : Option Char) (rest : Text) : ∃ m,
    axumRoute.matchAt? (between previous (".route".toList ++ '(' :: (x.arguments ++ rest))) =
      some m ∧ m.string 1 = String.ofList x.path ∧
      m.last = between (some ',') (' ' :: (chain x.first x.others ++ rest)) := by
  let t₄ := [','] ++ (' ' :: (chain x.first x.others ++ rest))
  let t₃ := ['"'] ++ t₄
  let t₂ := x.path ++ t₃
  let t₁ := ['('] ++ (['"'] ++ t₂)
  have whole : ".route".toList ++ '(' :: (x.arguments ++ rest) = ".route".toList ++ t₁ := by
    simp [t₁, t₂, t₃, t₄, Registration.arguments]
  have route_ := offers_lit (g := []) previous ".route".toList t₁
  have open_ (p : Option Char) (g : Groups) := offers_lit (g := g) p ['('] (['"'] ++ t₂)
  have quote_ (p : Option Char) (g : Groups) := offers_lit (g := g) p ['"'] t₂
  have path_ (p : Option Char) (g : Groups) :
      (some0 (· != '"')).Offers (between p t₂) g (between (lastOf p x.path) t₃) g :=
    offers_many p (Text.bne_of_not_mem x.noQuote) (stops_cons (by decide)) (Nat.zero_le _)
  have quote'_ (p : Option Char) (g : Groups) := offers_lit (g := g) p ['"'] t₄
  have comma_ (p : Option Char) (g : Groups) :=
    offers_lit (g := g) p [','] (' ' :: (chain x.first x.others ++ rest))
  have all := (((((((route_.seq (offers_noGap (stops_cons (by decide)))).seq (open_ _ _)).seq
    (offers_noGap (stops_cons (by decide)))).seq (quote_ _ _)).seq ((path_ _ _).group (n := 1))).seq
    (quote'_ _ _)).seq (offers_noGap (stops_cons (by decide)))).seq (comma_ _ _)
  rw [whole]
  refine ⟨_, matchAt?_of_offers all, ?_, rfl⟩
  show String.ofList (Place.upTo _ _) = _
  rw [Place.upTo_eq rfl]

/-! ## Between calls -/

theorem matchAt?_route_of_refuses {p : Place} (refuses : (lit ".route".toList).Refuses p []) :
    axumRoute.matchAt? p = none :=
  matchAt?_of_refuses ((((((((refuses.seq _).seq _).seq _).seq _).seq _).seq _).seq _).seq _)

theorem axumRoute_opensWith : axumRoute.OpensWith '.' :=
  ((((((((opensWith_lit '.' "route".toList).seq _).seq _).seq _).seq _).seq _).seq _).seq _).seq _

theorem findAll_route_of_ne {c : Char} (other : c ≠ '.') (previous : Option Char) (rest : Text) :
    axumRoute.findAll (between previous (c :: rest)) = axumRoute.findAll (between (some c) rest) :=
  axumRoute_opensWith.findAll_append (s := [c])
    (fun member => other (List.mem_singleton.1 member).symm) previous rest

/-- What registers a handler is no registration of a path. -/
theorem matchAt?_route_of_verb (h : MethodHandler) (previous : Option Char) (rest : Text) :
    axumRoute.matchAt? (between previous ('.' :: (h.text ++ rest))) = none := by
  refine matchAt?_route_of_refuses (refuses_of_reads fun t rec reads inFront => ?_)
  cases reads
  obtain ⟨c, word, whole, -⟩ := exists_cons_of_mem_axumVerbs h.known
  have verbs : ∀ verb ∈ axumVerbs, verb.1.toList.head? ≠ some 'r' := by decide
  have second : 'r' :: "oute".toList <+: h.text ++ rest := (List.cons_prefix_cons.1 inFront).2
  rw [MethodHandler.text, whole] at second
  refine verbs _ h.known ?_
  rw [whole, (List.cons_prefix_cons.1 second).1]
  rfl

theorem findAll_route_chain (h : MethodHandler) (others : List MethodHandler)
    (previous : Option Char) (rest : Text) :
    axumRoute.findAll (between previous (chain h others ++ rest)) =
      axumRoute.findAll (between (some ')') rest) := by
  have last (h : MethodHandler) (previous : Option Char) : lastOf previous h.text = some ')' := by
    rw [lastOf, h.getLast?_text]
    rfl
  induction others generalizing h previous with
  | nil =>
    rw [chain, List.flatMap_nil, List.append_nil, axumRoute_opensWith.findAll_append h.noDot, last]
  | cons next others ih =>
    have whole : chain h (next :: others) ++ rest =
        h.text ++ '.' :: (chain next others ++ rest) := by
      simp [chain]
    have dot : axumRoute.matchAt? (between (some ')') ('.' :: (chain next others ++ rest))) =
        none := by
      rw [chain, List.append_assoc]
      exact matchAt?_route_of_verb next _ _
    rw [whole, axumRoute_opensWith.findAll_append h.noDot, last, findAll_of_none dot]
    exact ih next _

/-! ## Files -/

def routesAt (file : String) (m : Match) : List Route :=
  match callArguments? m.first with
  | none => []
  | some arguments => (axumMethod.all arguments).map fun h =>
    ⟨h.upper 1, m.string 1, file, some (h.string 2)⟩

/-- The routes that are registered from a place on. -/
def routesFrom (file : String) (p : Place) : List Route :=
  (axumRoute.findAll p).flatMap (routesAt file)

theorem routesFrom_registration (file : String) (x : Registration) (previous : Option Char)
    (rest : Text) : routesFrom file (between previous (x.text ++ rest)) =
      x.routes file ++ routesFrom file (between (some ')') rest) := by
  have whole : x.text ++ rest =
      x.indent ++ (".route".toList ++ '(' :: (x.arguments ++ ')' :: rest)) := by
    simp [Registration.text]
  have noDot : '.' ∉ x.indent := fun member => absurd (x.isGap _ member).1 (by decide)
  obtain ⟨m, found, path, last⟩ := exists_matchAt?_route x (lastOf previous x.indent) (')' :: rest)
  have long : m.last.size < (between (lastOf previous x.indent)
      (".route".toList ++ '(' :: (x.arguments ++ ')' :: rest))).size := by
    rw [last]
    show (' ' :: (chain x.first x.others ++ ')' :: rest)).length < List.length _
    simp only [Registration.arguments, List.length_append, List.length_cons]
    omega
  have read : routesAt file m = x.routes file := by
    rw [routesAt, (matches_of_matchAt? found).2, callArguments?_call]
    show (axumMethod.findAll (start x.arguments)).map _ = _
    rw [findAll_method_path, path, map_findAll_chain file _ _ _ rfl]
    rfl
  rw [routesFrom, whole, axumRoute_opensWith.findAll_append noDot, findAll_of_matchAt? found long,
    List.flatMap_cons, read, last, findAll_route_of_ne (by decide), findAll_route_chain,
    findAll_route_of_ne (by decide)]
  rfl

theorem routesFrom_append (file : String) {s : Text} (noDot : '.' ∉ s) (previous : Option Char)
    (rest : Text) : routesFrom file (between previous (s ++ rest)) =
      routesFrom file (between (lastOf previous s) rest) := by
  rw [routesFrom, axumRoute_opensWith.findAll_append noDot, routesFrom]

theorem routesFrom_of_noDot (file : String) {s : Text} (noDot : '.' ∉ s) (previous : Option Char) :
    routesFrom file (between previous s) = [] := by
  rw [routesFrom, axumRoute_opensWith.findAll_eq_nil noDot, List.flatMap_nil]

theorem routesFrom_lines (file : String) (xs : List Registration) {ending : Text}
    (noDot : '.' ∉ ending) (previous : Option Char) :
    routesFrom file (between previous (lines xs ++ ending)) = xs.flatMap (·.routes file) := by
  have feed (previous : Option Char) (rest : Text) :
      routesFrom file (between previous ('\n' :: rest)) =
        routesFrom file (between (some '\n') rest) := by
    rw [routesFrom, findAll_route_of_ne (by decide), routesFrom]
  exact read_joinedLines (fun _ => True)
    (fun x previous rest _ => ⟨_, routesFrom_registration file x previous rest⟩) feed
    (routesFrom_of_noDot file noDot) trivial xs trivial

section
variable {s : Source} {l : List String} {file : String} {opening ending : Text}
  {xs : List Registration}
  (listed : s.files = .ok l) (chosen : findFiles ["**/*.rs"] l = [file])
  (opens : '.' ∉ opening) (ends : '.' ∉ ending)
  (readable : s.read file = .ok (some (opening ++ (lines xs ++ ending))))
include listed chosen opens ends readable

/-- Of the registrations in a file each gives the routes that are written in it. -/
theorem axum_reads_written : axum.scan.run s = .ok (xs.flatMap (·.routes file)) := by
  rw [axum, Scan.run_eachFile listed, chosen, ← routesFrom_lines file xs ends (lastOf none opening),
    ← routesFrom_append file opens]
  exact Scan.run_eachText_singleton readable _

end

/-! ### Users -/

/-- A handler with the name of a method. -/
def getUsers : MethodHandler :=
  ⟨"get", "GET", "get".toList, by decide, by decide, by decide⟩

def postUsers : MethodHandler :=
  ⟨"post", "POST", "users::post".toList, by decide, by decide, by decide⟩

/-- The registration of a path and, below it, that of another one. -/
def userRegistrations : List Registration :=
  [⟨"\t".toList, "/users".toList, getUsers, [postUsers], by decide, by decide, by decide⟩,
   ⟨"\t".toList, "/delete".toList, postUsers, [], by decide, by decide, by decide⟩]

/-- The file with these registrations. -/
def usersSource : Source :=
  .ofTexts [("src/main.rs", "Router::new()\n".toList ++ (lines userRegistrations ++ ";\n".toList))]

theorem axum_users_read : axum.scan.run usersSource =
    .ok [⟨"GET", "/users", "src/main.rs", some "get"⟩,
      ⟨"POST", "/users", "src/main.rs", some "users::post"⟩,
      ⟨"POST", "/delete", "src/main.rs", some "users::post"⟩] := by
  have chosen : findFiles ["**/*.rs"] ["src/main.rs"] = ["src/main.rs"] := by decide +kernel
  have readable : usersSource.read "src/main.rs" =
      .ok (some ("Router::new()\n".toList ++ (lines userRegistrations ++ ";\n".toList))) := rfl
  exact axum_reads_written rfl chosen (by decide) (by decide) readable

end Routes

end CodeSurvey
