import HttpServer.FormData
import HttpServer.HttpProtocolHandler
import HttpServer.Regex

/-!
# Routes

`CreateRouteEntry` of `application/http/http_protocol_handler.cpp`: a pattern becomes a regular
expression, in which a parameter is the group `([^/]+)` and a character stands for itself, with
a backslash before it if it is one of `.*+?^$|{}()`.

The brackets and the backslash are not on this list. A `[` opens a class of characters, and a
`\` takes what is behind it along. Nothing else goes wrong: where no pattern has them – or only a
`\` that the backslash of a `}` makes whole again – every path is routed as the patterns are
written, by `routed_as_written`. Where a pattern has one, this pattern or what it begins with is
not, by `prefixes_routed_iff`.
-/

/-! ## Patterns as they are written -/

/-- What a pattern is made of: characters, and parameters with their names. -/
inductive PatternItem
  | literal (c : UInt8)
  | param (name : Bytes)

/-- **The reading of a pattern**: a parameter is a colon with the name behind it, up to the next
slash or the end. -/
def patternItems : Bytes → List PatternItem
  | [] => []
  | c :: rest =>
    if c = 0x3A then
      .param (rest.takeWhile (· != 0x2F)) :: patternItems (rest.dropWhile (· != 0x2F))
    else .literal c :: patternItems rest
  termination_by pattern => pattern.length
  decreasing_by
    · exact Nat.lt_succ_of_le (List.dropWhile_suffix _).length_le
    · exact Nat.lt_succ_self _

/-- The names of the parameters. -/
def paramNames (items : List PatternItem) : List Bytes :=
  items.filterMap fun
    | .literal _ => none
    | .param name => some name

/-- **The path is the pattern with these values for its parameters**, none of which is empty or
has a slash. -/
inductive AsWritten : List PatternItem → List Bytes → Bytes → Prop
  | nil : AsWritten [] [] []
  | literal {c items values path} (rest : AsWritten items values path) :
    AsWritten (.literal c :: items) values (c :: path)
  | param {name items value values path} (hne : value ≠ []) (hslash : 0x2F ∉ value)
    (rest : AsWritten items values path) :
    AsWritten (.param name :: items) (value :: values) (value ++ path)

/-- **A path is routed as the patterns are written**: the handler is that of the earliest pattern
that the path can be read as, if there is one, and the parameters are what its parameters stand
for. -/
def RoutedAsWritten {σ : Type*} (patterns : List (Bytes × HttpHandler σ)) (path : Bytes) :
    Option (HttpHandler σ × StringMap) → Prop
  | none => ∀ p ∈ patterns, ∀ values, ¬AsWritten (patternItems p.1) values path
  | some (handler, params) =>
    ∃ before pattern after values, patterns = before ++ (pattern, handler) :: after
      ∧ (∀ p ∈ before, ∀ values, ¬AsWritten (patternItems p.1) values path)
      ∧ AsWritten (patternItems pattern) values path
      ∧ ∀ name, params.lookup name
          = lastValue ((paramNames (patternItems pattern)).zip values) name

/-! ## The source -/

namespace HttpProtocolHandler

variable {σ : Type*} (t : RegexTraits)

/-- The characters that get a backslash. `strchr` finds the zero at the end of the string, too. -/
def isEscaped (c : UInt8) : Bool := c ∈ lit ".*+?^$|\x7b\x7d()" ++ [0]

/-- The loop of `CreateRouteEntry`: the part of the regular expression for the rest of the
pattern, and the names in it. -/
def routeRegex : Bytes → Bytes × List Bytes
  | [] => ([], [])
  | c :: rest =>
    if c = 0x3A then
      let (regexPattern, names) := routeRegex (rest.dropWhile (· != 0x2F))
      (lit "([^/]+)" ++ regexPattern, rest.takeWhile (· != 0x2F) :: names)
    else
      let (regexPattern, names) := routeRegex rest
      ((if isEscaped c then [0x5C, c] else [c]) ++ regexPattern, names)
  termination_by pattern => pattern.length
  decreasing_by
    · exact Nat.lt_succ_of_le (List.dropWhile_suffix _).length_le
    · exact Nat.lt_succ_self _

/-- `CreateRouteEntry`, which throws what the constructor of the regular expression throws. -/
def createRouteEntry (pattern : Bytes) (handler : HttpHandler σ) :
    Except RegexError (RouteEntry σ) :=
  let (regexPattern, paramNames) := routeRegex pattern
  (Regex.compile t (0x5E :: regexPattern ++ [0x24])).map fun (regex, groups) =>
    { pattern, handler, regex := regex.regexMatch groups, paramNames }

/-- The registration of a list of routes, one after the other, in one of the tables: `Get`,
`Post`, `Put` and `Delete`. -/
def addRoutes : List (RouteEntry σ) → List (Bytes × HttpHandler σ) →
    Except RegexError (List (RouteEntry σ))
  | routes, [] => .ok routes
  | routes, (pattern, handler) :: patterns =>
    (createRouteEntry t pattern handler).bind fun entry => addRoutes (routes ++ [entry]) patterns

/-- **Patterns are routed as they are written**: none is refused, and every path goes where it
should. -/
def RoutesAsWritten (patterns : List (Bytes × HttpHandler σ)) : Prop :=
  ∃ routes, addRoutes t [] patterns = .ok routes
    ∧ ∀ path, RoutedAsWritten patterns path (matchRoute routes path)

end HttpProtocolHandler

/-! ## A path has one reading -/

/-- A parameter has a slash or nothing behind it. -/
def Separated : List PatternItem → Prop
  | [] => True
  | .literal _ :: items => Separated items
  | .param _ :: items => (∀ item ∈ items.head?, item = .literal 0x2F) ∧ Separated items

/-- The name of a parameter ends at a slash or at the end. -/
theorem separated_patternItems (pattern : Bytes) : Separated (patternItems pattern) := by
  induction pattern using patternItems.induct with
  | case1 =>
    rw [patternItems]
    trivial
  | case2 rest ih =>
    rw [patternItems, if_pos rfl]
    refine ⟨?_, ih⟩
    cases hrest : rest.dropWhile (· != 0x2F) with
    | nil => simp [patternItems]
    | cons c rest' =>
      have hhead := List.head?_dropWhile_not (· != 0x2F) rest
      obtain rfl : c = 0x2F := by simpa [hrest] using hhead
      rw [patternItems, if_neg (by decide)]
      simp
  | case3 c rest hc ih =>
    rw [patternItems, if_neg hc]
    exact ih

namespace AsWritten

variable {items : List PatternItem} {values : List Bytes} {path : Bytes}

/-- A value for each parameter. -/
theorem length_eq (h : AsWritten items values path) :
    values.length = (paramNames items).length := by
  induction h with
  | nil => rfl
  | literal _ ih => exact ih
  | param _ _ _ ih => simpa [paramNames] using ih

/-- Where the reading goes on with a slash or not at all, the path does. -/
theorem head?_eq (h : AsWritten items values path)
    (hhead : ∀ item ∈ items.head?, item = .literal 0x2F) : ∀ c ∈ path.head?, c = 0x2F := by
  cases h with
  | nil => simp
  | literal _ =>
    have hc := hhead _ rfl
    simpa using hc
  | param _ _ _ =>
    have hparam := hhead _ rfl
    simp at hparam

/-- A value goes as far as the next slash. -/
theorem takeWhile_append {value : Bytes} (hslash : 0x2F ∉ value)
    (hpath : ∀ c ∈ path.head?, c = 0x2F) :
    (value ++ path).takeWhile (· != 0x2F) = value := by
  have hvalue : ∀ c ∈ value, (c != 0x2F) = true := by
    intro c hc
    rw [bne_iff_ne]
    rintro rfl
    exact hslash hc
  rw [List.takeWhile_append_of_pos hvalue]
  cases path with
  | nil => simp
  | cons c path =>
    obtain rfl := hpath c rfl
    simp

/-- **A path has one reading.** -/
theorem unique (hsep : Separated items) {values' : List Bytes} (h : AsWritten items values path)
    (h' : AsWritten items values' path) : values = values' := by
  induction h generalizing values' with
  | nil =>
    cases h'
    rfl
  | literal _ ih =>
    cases h' with
    | literal rest' => exact ih hsep rest'
  | @param name items value values path hne hslash rest ih =>
    generalize hwhole : value ++ path = whole at h'
    cases h' with
    | @param _ _ value' values' path' hne' hslash' rest' =>
      have hvalue : value = value' := by
        rw [← takeWhile_append hslash (rest.head?_eq hsep.1), hwhole,
          takeWhile_append hslash' (rest'.head?_eq hsep.1)]
      subst hvalue
      obtain rfl := List.append_cancel_left hwhole
      rw [ih hsep.2 rest']

end AsWritten

/-! ## The expression for a pattern -/

/-- `[^/]+` in a group. -/
def paramRegex (i : ℕ) : Regex := .group i (.seq .empty (.plus (.one fun x => x != 0x2F)))

/-- What is behind an expression with so many groups. -/
def itemsRegex (r : Regex) (groups : ℕ) : List PatternItem → Regex
  | [] => r
  | .literal c :: items => itemsRegex (.seq r (.one fun x => x == c)) groups items
  | .param _ :: items => itemsRegex (.seq r (paramRegex (groups + 1))) (groups + 1) items

/-- The groups after the values have been captured, one after the other. -/
def capture (groups : ℕ → Option Bytes) (n : ℕ) : List Bytes → ℕ → Option Bytes
  | [] => groups
  | value :: values => capture (Function.update groups (n + 1) (some value)) (n + 1) values

/-- Later captures leave the earlier groups alone. -/
theorem capture_of_le (groups : ℕ → Option Bytes) (n : ℕ) (values : List Bytes) {i : ℕ}
    (hi : i ≤ n) : capture groups n values i = groups i := by
  induction values generalizing groups n with
  | nil => rfl
  | cons value values ih =>
    rw [capture, ih _ _ (by omega), Function.update_of_ne (by omega)]

/-- The groups have captured the values. -/
theorem map_capture (groups : ℕ → Option Bytes) (n : ℕ) (values : List Bytes) :
    (List.range values.length).map (fun i => (capture groups n values (n + i + 1)).getD [])
      = values := by
  induction values generalizing groups n with
  | nil => rfl
  | cons value values ih =>
    rw [List.length_cons, List.range_succ_eq_map, List.map_cons, List.map_map, capture,
      capture_of_le _ _ _ (by omega)]
    refine congrArg₂ List.cons (by simp) (Eq.trans (List.map_congr_left fun i _ => ?_)
      (ih (Function.update groups (n + 1) (some value)) (n + 1)))
    rw [Function.comp_apply, show n + i.succ + 1 = n + 1 + i + 1 by omega]

/-- From a position the expression gets to one with this rest and these groups. -/
def Reaches (r : Regex) (c : Cursor) (rest : Bytes) (groups : ℕ → Option Bytes) : Prop :=
  ∃ d ∈ r.results c, d.rest = rest ∧ d.groups = groups

theorem reaches_literal (x : UInt8) (c : Cursor) (rest : Bytes) (groups : ℕ → Option Bytes) :
    Reaches (.one fun y => y == x) c rest groups ↔ c.rest = x :: rest ∧ groups = c.groups := by
  constructor
  · rintro ⟨d, hd, rfl, rfl⟩
    obtain ⟨y, rest, hrest, hy, rfl⟩ := (Regex.mem_results_one _ c d).mp hd
    obtain rfl := beq_iff_eq.mp hy
    simp [Cursor.advance, hrest]
  · rintro ⟨hrest, rfl⟩
    exact ⟨c.advance 1, (Regex.mem_results_one _ c _).mpr ⟨x, rest, hrest, beq_self_eq_true x, rfl⟩,
      by simp [Cursor.advance, hrest], rfl⟩

/-- A parameter reaches what is behind a value for it. -/
theorem reaches_param (i : ℕ) (c : Cursor) (rest : Bytes) (groups : ℕ → Option Bytes) :
    Reaches (paramRegex i) c rest groups
      ↔ ∃ value, value ≠ [] ∧ 0x2F ∉ value ∧ c.rest = value ++ rest
        ∧ groups = Function.update c.groups i (some value) := by
  constructor
  · rintro ⟨d, hd, rfl, rfl⟩
    obtain ⟨e, he, rfl⟩ := List.mem_map.mp hd
    rw [Regex.results_empty_seq] at he
    obtain ⟨n, hn, hall, rfl⟩ := (Regex.mem_results_plus_one _ _ _).mp he
    refine ⟨c.rest.take (n + 1), ?_, ?_, (List.take_append_drop _ _).symm, ?_⟩
    · intro hnil
      have hlength := congrArg List.length hnil
      rw [List.length_take, List.length_nil] at hlength
      omega
    · intro hslash
      simpa using hall _ hslash
    · have hlength : (c.advance (n + 1)).rest.length = c.rest.length - (n + 1) :=
        List.length_drop
      show Function.update c.groups i _ = _
      rw [hlength, Nat.sub_sub_self hn]
  · rintro ⟨value, hne, hslash, hrest, rfl⟩
    have hlength : value.length - 1 + 1 = value.length :=
      Nat.sub_add_cancel (List.length_pos_iff.mpr hne)
    have hahead : c.Ahead (fun x => x != 0x2F) (value.length - 1 + 1) (c.advance value.length) := by
      rw [hlength]
      refine ⟨by simp [hrest], fun x hx => ?_, rfl⟩
      rw [hrest, List.take_left] at hx
      exact bne_iff_ne.mpr fun hx' => hslash (hx' ▸ hx)
    have hmem := (Regex.mem_results_plus_one _ _ _).mpr ⟨_, hahead⟩
    refine ⟨_, List.mem_map.mpr ⟨_, (Regex.results_empty_seq _ _).symm ▸ hmem, rfl⟩, ?_, ?_⟩
    · simp [Cursor.advance, hrest]
    · simp [Cursor.advance, hrest]

/-- One after the other. -/
theorem exists_mem_results_seq (r s : Regex) (c : Cursor)
    (P : Bytes → (ℕ → Option Bytes) → Prop) :
    (∃ d ∈ (Regex.seq r s).results c, P d.rest d.groups)
      ↔ ∃ e ∈ r.results c, ∃ rest groups, Reaches s e rest groups ∧ P rest groups := by
  constructor
  · rintro ⟨d, hd, hP⟩
    obtain ⟨e, he, hd⟩ := (Regex.mem_results_seq _ _ _ _).mp hd
    exact ⟨e, he, _, _, ⟨d, hd, rfl, rfl⟩, hP⟩
  · rintro ⟨e, he, rest, groups, ⟨d, hd, rfl, rfl⟩, hP⟩
    exact ⟨d, (Regex.mem_results_seq _ _ _ _).mpr ⟨e, he, hd⟩, hP⟩

/-- **The expression for a pattern matches what can be read as the pattern**, and its groups
capture the values of the parameters. -/
theorem reaches_itemsRegex (r : Regex) (n : ℕ) (items : List PatternItem) (c : Cursor)
    (rest : Bytes) (groups : ℕ → Option Bytes) :
    Reaches (itemsRegex r n items) c rest groups
      ↔ ∃ d ∈ r.results c, ∃ values text, AsWritten items values text
        ∧ d.rest = text ++ rest ∧ groups = capture d.groups n values := by
  induction items generalizing r n with
  | nil =>
    constructor
    · rintro ⟨d, hd, rfl, rfl⟩
      exact ⟨d, hd, [], [], .nil, rfl, rfl⟩
    · rintro ⟨d, hd, values, text, hwritten, hrest, rfl⟩
      cases hwritten
      exact ⟨d, hd, hrest, rfl⟩
  | cons item items ih =>
    cases item with
    | literal x =>
      rw [itemsRegex, ih, exists_mem_results_seq (P := fun rest' groups' =>
        ∃ values text, AsWritten items values text ∧ rest' = text ++ rest
          ∧ groups = capture groups' n values)]
      refine exists_congr fun d => and_congr_right fun _ => ?_
      constructor
      · rintro ⟨rest', groups', hreaches, values, text, hwritten, rfl, rfl⟩
        obtain ⟨hrest, rfl⟩ := (reaches_literal _ _ _ _).mp hreaches
        exact ⟨values, x :: text, .literal hwritten, hrest, rfl⟩
      · rintro ⟨values, text, hwritten, hrest, rfl⟩
        cases hwritten with
        | literal hwritten =>
          exact ⟨_, _, (reaches_literal _ _ _ _).mpr ⟨hrest, rfl⟩, values, _, hwritten, rfl, rfl⟩
    | param name =>
      rw [itemsRegex, ih, exists_mem_results_seq (P := fun rest' groups' =>
        ∃ values text, AsWritten items values text ∧ rest' = text ++ rest
          ∧ groups = capture groups' (n + 1) values)]
      refine exists_congr fun d => and_congr_right fun _ => ?_
      constructor
      · rintro ⟨rest', groups', hreaches, values, text, hwritten, rfl, rfl⟩
        obtain ⟨value, hne, hslash, hrest, rfl⟩ := (reaches_param _ _ _ _).mp hreaches
        refine ⟨value :: values, value ++ text, .param hne hslash hwritten, ?_, rfl⟩
        rw [hrest, List.append_assoc]
      · rintro ⟨values, text, hwritten, hrest, rfl⟩
        cases hwritten with
        | param hne hslash hwritten =>
          rw [List.append_assoc] at hrest
          exact ⟨_, _, (reaches_param _ _ _ _).mpr ⟨_, hne, hslash, hrest, rfl⟩, _, _, hwritten,
            rfl, rfl⟩

/-- The expression for the items from the beginning of a path on. -/
def itemsTree (items : List PatternItem) : Regex :=
  itemsRegex (.seq .empty (.assertion fun prev _ => prev.isNone)) 0 items

theorem reaches_itemsTree (items : List PatternItem) (path rest : Bytes)
    (groups : ℕ → Option Bytes) :
    Reaches (itemsTree items) ⟨none, path, fun _ => none⟩ rest groups
      ↔ ∃ values text, AsWritten items values text ∧ path = text ++ rest
        ∧ groups = capture (fun _ => none) 0 values := by
  have hstart : (Regex.seq .empty (.assertion fun prev _ => prev.isNone)).results
      ⟨none, path, fun _ => none⟩ = [⟨none, path, fun _ => none⟩] := rfl
  rw [itemsTree, reaches_itemsRegex, hstart]
  simp only [List.mem_singleton, exists_eq_left]

/-- The expression for a whole pattern. -/
def routeTree (items : List PatternItem) : Regex :=
  .seq (itemsTree items) (.assertion fun _ next => next.isNone)

/-- What it reaches from the beginning of a path is the end of the path. -/
theorem reaches_routeTree (items : List PatternItem) (path rest : Bytes)
    (groups : ℕ → Option Bytes) :
    Reaches (routeTree items) ⟨none, path, fun _ => none⟩ rest groups
      ↔ rest = [] ∧ ∃ values, AsWritten items values path
        ∧ groups = capture (fun _ => none) 0 values := by
  constructor
  · rintro ⟨d, hd, rfl, rfl⟩
    obtain ⟨e, he, hd⟩ := (Regex.mem_results_seq _ _ _ _).mp hd
    have hend : e.rest.head?.isNone = true ∧ d = e := by
      simpa [Regex.results] using hd
    obtain ⟨hend, rfl⟩ := hend
    have hrest : d.rest = [] := by simpa using hend
    obtain ⟨values, text, hwritten, htext, hgroups⟩ :=
      (reaches_itemsTree items path _ _).mp ⟨d, he, rfl, rfl⟩
    rw [hrest, List.append_nil] at htext
    subst htext
    exact ⟨hrest, values, hwritten, hgroups⟩
  · rintro ⟨rfl, values, hwritten, rfl⟩
    obtain ⟨d, hd, hrest, hgroups⟩ := (reaches_itemsTree items path _ _).mpr
      ⟨values, path, hwritten, (List.append_nil path).symm, rfl⟩
    refine ⟨d, (Regex.mem_results_seq _ _ _ _).mpr ⟨d, hd, ?_⟩, hrest, hgroups⟩
    simp [Regex.results, hrest]

/-- **The expression for a pattern matches a path with the values it can be read with.** -/
theorem regexMatch_routeTree {items : List PatternItem} (hsep : Separated items) (path : Bytes)
    (values : List Bytes) :
    (routeTree items).regexMatch (paramNames items).length path = some values
      ↔ AsWritten items values path := by
  have hcaptured : ∀ {values}, AsWritten items values path →
      ((List.range (paramNames items).length).map fun i =>
        (capture (fun _ => none) 0 values (i + 1)).getD []) = values := by
    intro values hwritten
    have hmap := map_capture (fun _ => none) 0 values
    rw [hwritten.length_eq] at hmap
    simpa using hmap
  rw [Regex.regexMatch, Option.map_eq_some_iff]
  constructor
  · rintro ⟨d, hd, rfl⟩
    obtain ⟨-, values, hwritten, hgroups⟩ := (reaches_routeTree items path _ _).mp
      ⟨d, List.mem_of_find?_eq_some hd, rfl, rfl⟩
    rw [hgroups, hcaptured hwritten]
    exact hwritten
  · intro hwritten
    obtain ⟨e, he, hrest, -⟩ := (reaches_routeTree items path _ _).mpr ⟨rfl, values, hwritten, rfl⟩
    cases hfind : ((routeTree items).results ⟨none, path, fun _ => none⟩).find?
        fun c => c.rest.isEmpty with
    | none => simpa [hrest] using List.find?_eq_none.mp hfind e he
    | some d =>
      obtain ⟨-, values', hwritten', hgroups⟩ := (reaches_routeTree items path _ _).mp
        ⟨d, List.mem_of_find?_eq_some hfind, rfl, rfl⟩
      refine ⟨d, rfl, ?_⟩
      rw [hgroups, hcaptured hwritten', hwritten'.unique hsep hwritten]

/-! ## Reading the expression -/

/-- **Nothing in a pattern has a meaning that it should not have**: there is no `[`, and no `]`
if the library refuses it, and each `\` has a character behind it that gets a backslash and does
without. -/
inductive WellEscaped (t : RegexTraits) : List PatternItem → Prop
  | nil : WellEscaped t []
  | param {name items} (rest : WellEscaped t items) : WellEscaped t (.param name :: items)
  | literal {c items} (hopener : c ≠ 0x5B) (hbackslash : c ≠ 0x5C)
    (hcloser : c = 0x5D → t.acceptsCloser = true) (rest : WellEscaped t items) :
    WellEscaped t (.literal c :: items)
  | backslash {c items} (hc : c = 0 ∨ c = 0x7D ∧ t.acceptsCloser = true)
    (rest : WellEscaped t items) :
    WellEscaped t (.literal 0x5C :: .literal c :: items)

/-- What the loop appends for an item. -/
def itemText : PatternItem → Bytes
  | .literal c => if HttpProtocolHandler.isEscaped c then [0x5C, c] else [c]
  | .param _ => lit "([^/]+)"

/-- The loop goes over the items. -/
theorem routeRegex_eq (pattern : Bytes) :
    HttpProtocolHandler.routeRegex pattern
      = ((patternItems pattern).flatMap itemText, paramNames (patternItems pattern)) := by
  induction pattern using patternItems.induct with
  | case1 =>
    rw [patternItems, HttpProtocolHandler.routeRegex]
    rfl
  | case2 rest ih =>
    rw [patternItems, HttpProtocolHandler.routeRegex, if_pos rfl, if_pos rfl, ih]
    rfl
  | case3 c rest hc ih =>
    rw [patternItems, HttpProtocolHandler.routeRegex, if_neg hc, if_neg hc, ih]
    rfl

/-- What gets a backslash has no other meaning behind it. -/
theorem isAlphanumeric_of_isEscaped {c : UInt8} (hc : HttpProtocolHandler.isEscaped c = true) :
    isAlphanumeric c = false := by
  have hall : ∀ x ∈ lit ".*+?^$|\x7b\x7d()" ++ [0], isAlphanumeric x = false := by
    decide +kernel
  exact hall c (of_decide_eq_true hc)

/-- Two characters and the closing bracket are missing among those that get a backslash. -/
theorem isPlain_of_not_isEscaped {t : RegexTraits} {c : UInt8}
    (hc : ¬HttpProtocolHandler.isEscaped c = true) (hopener : c ≠ 0x5B) (hbackslash : c ≠ 0x5C)
    (hcloser : c = 0x5D → t.acceptsCloser = true) : IsPlain t c := by
  have hall : ∀ x ∈ lit "\\[()|*+?\x7b^$.", x = 0x5B ∨ x = 0x5C
      ∨ HttpProtocolHandler.isEscaped x = true := by
    decide +kernel
  refine ⟨fun hmem => ?_, fun hcloser' => ?_⟩
  · obtain h | h | h := hall c hmem
    · exact hopener h
    · exact hbackslash h
    · exact hc h
  · obtain h | rfl := hcloser'
    · exact hcloser h
    · exact absurd (by decide) hc

namespace RegexReader

/-- The reader is outside of all groups, and has read one alternative. -/
structure Ready (p : RegexReader) (r : Regex) (groups : ℕ) : Prop where
  mode : p.mode = .normal
  below : p.below = []
  alternatives : p.top.alternatives = []
  sequence : p.top.sequence = r
  groups : p.groups = groups

variable {t : RegexTraits} {p : RegexReader} {r : Regex} {n : ℕ}

theorem Ready.char (h : p.Ready r n) (c : UInt8) :
    (p.char c).Ready (.seq r (.one fun x => x == c)) n where
  mode := rfl
  below := h.below
  alternatives := h.alternatives
  sequence := by rw [← h.sequence]; rfl
  groups := h.groups

/-- A parameter is read as a group of its own. -/
theorem Ready.read_param (h : p.Ready r n) :
    ∃ q : RegexReader, (∀ text, p.read t (lit "([^/]+)" ++ text) = q.read t text)
      ∧ q.Ready (.seq r (paramRegex (n + 1))) (n + 1) := by
  obtain ⟨top, below, groups, closed, mode⟩ := p
  obtain ⟨hmode, hbelow, halternatives, hsequence, hgroups⟩ := h
  have hset : (fun x : UInt8 => ((x == 0x2F) || false) != true) = fun x => x != 0x2F := by
    funext x
    cases hx : x == 0x2F <;> simp_all
  refine ⟨⟨top.push (paramRegex (groups + 1)), below, groups + 1, (groups + 1) :: closed, .normal⟩,
    fun text => ?_, ⟨rfl, hbelow, halternatives, ?_, ?_⟩⟩
  · obtain rfl : mode = .normal := hmode
    rw [paramRegex, ← hset]
    rfl
  · rw [← hsequence, ← hgroups]
    rfl
  · exact congrArg (· + 1) hgroups

/-- **The items of a pattern are read as the expression for it.** -/
theorem Ready.read_items {items : List PatternItem} (hescaped : WellEscaped t items)
    (h : p.Ready r n) :
    ∃ q : RegexReader, (∀ text, p.read t (items.flatMap itemText ++ text) = q.read t text)
      ∧ q.Ready (itemsRegex r n items) (n + (paramNames items).length) := by
  induction hescaped generalizing p r n with
  | nil => exact ⟨p, fun _ => rfl, h⟩
  | param rest ih =>
    obtain ⟨q, hq, hready⟩ := h.read_param (t := t)
    obtain ⟨q', hq', hready'⟩ := ih hready
    refine ⟨q', fun text => ?_, ?_⟩
    · rw [List.flatMap_cons, List.append_assoc, itemText, hq, hq']
    · have hlength := Nat.add_right_comm n 1
      simpa only [itemsRegex, paramNames, List.filterMap_cons, List.length_cons, ← Nat.add_assoc,
        hlength] using hready'
  | literal hopener hbackslash hcloser rest ih =>
    obtain ⟨q, hq, hready⟩ := ih (h.char _)
    refine ⟨q, fun text => ?_, hready⟩
    rw [List.flatMap_cons, List.append_assoc, itemText, ← hq]
    split
    · rename_i hc
      exact read_escaped _ _ _ _ h.mode (isAlphanumeric_of_isEscaped hc)
    · rename_i hc
      exact read_plain _ _ _ _ h.mode (isPlain_of_not_isEscaped hc hopener hbackslash hcloser)
  | @backslash c items hc rest ih =>
    obtain ⟨q, hq, hready⟩ := ih ((h.char _).char _)
    refine ⟨q, fun text => ?_, hready⟩
    rw [List.flatMap_cons, List.flatMap_cons, ← hq]
    -- The two backslashes belong together, and the character is left as it is.
    have hplain : IsPlain t c := by
      obtain rfl | ⟨rfl, hcloser⟩ := hc
      · exact ⟨by decide, fun h => absurd h (by decide)⟩
      · exact ⟨by decide, fun _ => hcloser⟩
    have htext : itemText (.literal c) = [0x5C, c] := by
      obtain rfl | ⟨rfl, -⟩ := hc <;> rfl
    rw [htext]
    refine (read_escaped t p 0x5C _ h.mode (by decide)).trans ?_
    exact read_plain _ _ _ _ (h.char _).mode hplain

end RegexReader

/-! ## Routes -/

namespace HttpProtocolHandler

variable {σ : Type*} (t : RegexTraits)

/-- The route that a pattern should become. -/
def routeEntry (pattern : Bytes) (handler : HttpHandler σ) : RouteEntry σ where
  pattern := pattern
  handler := handler
  regex := (routeTree (patternItems pattern)).regexMatch (paramNames (patternItems pattern)).length
  paramNames := paramNames (patternItems pattern)

variable {t}

/-- What is generated for the items brings the reader behind the expression for them. -/
theorem compile_eq {items : List PatternItem} (hescaped : WellEscaped t items) :
    ∃ q : RegexReader, q.Ready (itemsTree items) (paramNames items).length
      ∧ ∀ text, Regex.compile t (0x5E :: (items.flatMap itemText ++ text))
          = (q.read t text).bind fun q => q.finish := by
  have hstart : RegexReader.Ready (RegexReader.assert {} fun prev _ => prev.isNone)
      (.seq .empty (.assertion fun prev _ => prev.isNone)) 0 :=
    ⟨rfl, rfl, rfl, rfl, rfl⟩
  obtain ⟨q, hq, hready⟩ := hstart.read_items hescaped
  rw [Nat.zero_add] at hready
  refine ⟨q, hready, fun text => ?_⟩
  rw [Regex.compile, RegexReader.read_cons_of_step t _ _ _ rfl, hq]

/-- **The expression that is generated is the one for the pattern.** -/
theorem createRouteEntry_eq {pattern : Bytes} (hescaped : WellEscaped t (patternItems pattern))
    (handler : HttpHandler σ) :
    createRouteEntry t pattern handler = .ok (routeEntry pattern handler) := by
  obtain ⟨⟨⟨group, alternatives, terms, atom⟩, below, groups, closed, mode⟩, hready, hcompile⟩ :=
    compile_eq hescaped
  obtain ⟨rfl, rfl, rfl, hsequence, hgroups⟩ := hready
  have htree : Regex.compile t (0x5E :: ((patternItems pattern).flatMap itemText ++ [0x24]))
      = .ok (routeTree (patternItems pattern), (paramNames (patternItems pattern)).length) := by
    rw [hcompile, routeTree, ← hsequence, ← hgroups]
    rfl
  simp only [createRouteEntry, routeRegex_eq, List.cons_append, htree]
  rfl

/-- The registration of patterns that need no more escaping. -/
theorem addRoutes_eq {patterns : List (Bytes × HttpHandler σ)}
    (hescaped : ∀ p ∈ patterns, WellEscaped t (patternItems p.1)) (routes : List (RouteEntry σ)) :
    addRoutes t routes patterns = .ok (routes ++ patterns.map fun p => routeEntry p.1 p.2) := by
  induction patterns generalizing routes with
  | nil => rw [addRoutes, List.map_nil, List.append_nil]
  | cons p patterns ih =>
    rw [List.forall_mem_cons] at hescaped
    rw [addRoutes, createRouteEntry_eq hescaped.1]
    show addRoutes t (routes ++ [routeEntry p.1 p.2]) patterns = _
    rw [ih hescaped.2, List.append_assoc, List.singleton_append, List.map_cons]

/-- **The routes for patterns route as the patterns are written.** -/
theorem matchRoute_routeEntry (patterns : List (Bytes × HttpHandler σ)) (path : Bytes) :
    RoutedAsWritten patterns path
      (matchRoute (patterns.map fun p => routeEntry p.1 p.2) path) := by
  induction patterns with
  | nil => exact fun p hp => absurd hp List.not_mem_nil
  | cons p patterns ih =>
    have hmatch := regexMatch_routeTree (separated_patternItems p.1) path
    rw [matchRoute, List.map_cons, List.findSome?_cons]
    cases hvalues : (routeEntry p.1 p.2).regex path with
    | some values =>
      refine ⟨[], p.1, patterns, values, rfl, by simp, (hmatch values).mp hvalues, fun name => ?_⟩
      exact HttpRequest.lookup_foldl_insert _ name
    | none =>
      have hnone : ∀ values, ¬AsWritten (patternItems p.1) values path := fun values hwritten => by
        rw [show (routeEntry p.1 p.2).regex path = some values from (hmatch values).mpr hwritten]
          at hvalues
        cases hvalues
      rw [matchRoute] at ih
      show RoutedAsWritten (p :: patterns) path (List.findSome? _ _)
      cases hroute : (patterns.map fun p => routeEntry p.1 p.2).findSome? _ with
      | none =>
        rw [hroute] at ih
        exact List.forall_mem_cons.mpr ⟨hnone, ih⟩
      | some result =>
        rw [hroute] at ih
        obtain ⟨before, pattern, after, values, rfl, hbefore, hwritten, hparams⟩ := ih
        exact ⟨p :: before, pattern, after, values, rfl,
          List.forall_mem_cons.mpr ⟨hnone, hbefore⟩, hwritten, hparams⟩

/-- **Patterns without brackets and backslashes are routed as they are written.** -/
theorem routed_as_written (patterns : List (Bytes × HttpHandler σ))
    (hescaped : ∀ p ∈ patterns, WellEscaped t (patternItems p.1)) :
    RoutesAsWritten t patterns :=
  ⟨_, addRoutes_eq hescaped [], matchRoute_routeEntry patterns⟩

/-- The traits of ASCII, the classes with a name apart. -/
def asciiTraits : RegexTraits where
  digit c := 0x30 ≤ c && c ≤ 0x39
  space c := c == 0x20 || (0x09 ≤ c && c ≤ 0x0D)
  word c := isAlphanumeric c || c == 0x5F
  named delimiter name :=
    match name with
    | [c] => if delimiter = 0x3A then none else some fun x => x == c
    | _ => none
  le c d := c ≤ d
  acceptsCloser := true

/-- A handler that leaves the response as it is. -/
def idleHandler : HttpHandler Unit := fun _ resp user => (.ok resp, user)

/-- The patterns `/a.b` and `/:x`. -/
theorem routed_as_written_two :
    RoutesAsWritten asciiTraits [(lit "/a.b", idleHandler), (lit "/:x", idleHandler)] := by
  refine routed_as_written _ fun p hp => ?_
  have hdot : patternItems (lit "/a.b")
      = [.literal 0x2F, .literal 0x61, .literal 0x2E, .literal 0x62] := by
    simp [patternItems, lit]
  have hparam : patternItems (lit "/:x") = [.literal 0x2F, .param (lit "x")] := by
    simp [patternItems, lit]
  have hplain : ∀ c ∈ lit "/a.b", c ≠ 0x5B ∧ c ≠ 0x5C := by decide +kernel
  have hliteral : ∀ {c items}, c ∈ lit "/a.b" → WellEscaped asciiTraits items →
      WellEscaped asciiTraits (.literal c :: items) :=
    fun hc => .literal (hplain _ hc).1 (hplain _ hc).2 fun _ => rfl
  obtain rfl | hp := List.mem_cons.mp hp
  · rw [hdot]
    exact hliteral (by decide) (hliteral (by decide) (hliteral (by decide) (hliteral (by decide)
      .nil)))
  · obtain rfl := List.mem_singleton.mp hp
    rw [hparam]
    exact hliteral (by decide) (.param .nil)

/-- The pattern `/[` is refused, and `/[a]` is the route of the path `/a`. -/
theorem not_routed_as_written :
    ¬RoutesAsWritten asciiTraits [(lit "/[", idleHandler)]
      ∧ ¬RoutesAsWritten asciiTraits [(lit "/[a]", idleHandler)] := by
  constructor
  · rintro ⟨routes, hroutes, -⟩
    have hregex : routeRegex (lit "/[") = (lit "/[", []) := by
      simp [routeRegex, lit, isEscaped]
    simp only [addRoutes, createRouteEntry, hregex] at hroutes
    cases hroutes
  · rintro ⟨routes, hroutes, hrouted⟩
    have hregex : routeRegex (lit "/[a]") = (lit "/[a]", []) := by
      simp [routeRegex, lit, isEscaped]
    have hitems : patternItems (lit "/[a]")
        = [.literal 0x2F, .literal 0x5B, .literal 0x61, .literal 0x5D] := by
      simp [patternItems, lit]
    simp only [addRoutes, createRouteEntry, hregex] at hroutes
    obtain rfl := Except.ok.inj hroutes
    have hpath : RoutedAsWritten [(lit "/[a]", idleHandler)] (lit "/a")
        (some (idleHandler, ∅)) := hrouted (lit "/a")
    obtain ⟨before, pattern, after, values, hpatterns, -, hwritten, -⟩ := hpath
    have hpattern : pattern = lit "/[a]" := by
      cases before with
      | nil => exact (congrArg Prod.fst (List.cons.inj hpatterns).1).symm
      | cons p before => simp at hpatterns
    rw [hpattern, hitems] at hwritten
    obtain _ | ⟨_ | _⟩ := hwritten

end HttpProtocolHandler

/-! ## Cut off behind the wrong character -/

/-- A character that the list has not. -/
def Overlooked (t : RegexTraits) (c : UInt8) : Prop :=
  c = 0x5B ∨ c = 0x5C ∨ c = 0x5D ∧ t.acceptsCloser = false

/-- Every pattern is the reading of some path. -/
theorem exists_asWritten (items : List PatternItem) :
    ∃ values path, AsWritten items values path := by
  induction items with
  | nil => exact ⟨[], [], .nil⟩
  | cons item items ih =>
    obtain ⟨values, path, hwritten⟩ := ih
    cases item with
    | literal c => exact ⟨values, c :: path, .literal hwritten⟩
    | param name =>
      exact ⟨[0x78] :: values, [0x78] ++ path, .param (by decide) (by decide) hwritten⟩

/-- One more character at the end. -/
theorem asWritten_append_literal {items : List PatternItem} {values : List Bytes} {path : Bytes}
    (h : AsWritten items values path) (c : UInt8) :
    AsWritten (items ++ [.literal c]) values (path ++ [c]) := by
  induction h with
  | nil => exact .literal .nil
  | literal _ ih => exact .literal ih
  | param hne hslash _ ih =>
    rw [List.append_assoc]
    exact .param hne hslash ih

/-- What begins a pattern has no characters of its own. -/
theorem literal_mem_of_begins {start pattern : Bytes} (h : start <+: pattern) {c : UInt8}
    (hc : .literal c ∈ patternItems start) : .literal c ∈ patternItems pattern := by
  induction start using patternItems.induct generalizing pattern with
  | case1 => simp [patternItems] at hc
  | case2 rest ih =>
    obtain ⟨suffix, rfl⟩ := h
    rw [patternItems, if_pos rfl] at hc
    rw [List.cons_append, patternItems, if_pos rfl, List.dropWhile_append]
    have hc' : PatternItem.literal c ∈ patternItems (rest.dropWhile (· != 0x2F)) := by
      simpa using hc
    refine List.mem_cons_of_mem _ ?_
    split
    · rename_i hnil
      rw [List.isEmpty_iff.mp hnil, patternItems] at hc'
      cases hc'
    · exact ih (List.prefix_append _ _) hc'
  | case3 x rest hx ih =>
    obtain ⟨suffix, rfl⟩ := h
    rw [patternItems, if_neg hx, List.mem_cons] at hc
    rw [List.cons_append, patternItems, if_neg hx, List.mem_cons]
    exact hc.imp id (ih (List.prefix_append _ _))

/-- A pattern can be cut off behind each of its characters. -/
theorem exists_prefix_items {pattern : Bytes} {items items' : List PatternItem} {c : UInt8}
    (h : patternItems pattern = items ++ .literal c :: items') :
    ∃ start, start <+: pattern ∧ patternItems start = items ++ [.literal c] := by
  induction pattern using patternItems.induct generalizing items with
  | case1 => simp [patternItems] at h
  | case2 rest ih =>
    rw [patternItems, if_pos rfl] at h
    cases items with
    | nil => cases h
    | cons item items =>
      obtain ⟨rfl, htail⟩ := List.cons.inj h
      obtain ⟨start, hstart, hitems⟩ := ih htail
      -- What is behind the name begins with a slash.
      obtain ⟨start, rfl⟩ : ∃ start', start = 0x2F :: start' := by
        cases start with
        | nil => simp [patternItems] at hitems
        | cons x start =>
          have hhead := List.head?_dropWhile_not (· != 0x2F) rest
          obtain ⟨suffix, hsuffix⟩ := hstart
          rw [← hsuffix] at hhead
          obtain rfl : x = 0x2F := by simpa using hhead
          exact ⟨start, rfl⟩
      have hname : ∀ x ∈ rest.takeWhile (· != 0x2F), (x != 0x2F) = true :=
        fun x hx => List.mem_takeWhile_imp (p := fun x => x != 0x2F) hx
      refine ⟨0x3A :: (rest.takeWhile (· != 0x2F) ++ 0x2F :: start), ?_, ?_⟩
      · refine List.cons_prefix_cons.mpr ⟨rfl, ?_⟩
        conv_rhs => rw [← List.takeWhile_append_dropWhile (p := (· != 0x2F)) (l := rest)]
        exact (List.prefix_append_right_inj _).mpr hstart
      · rw [patternItems, if_pos rfl, List.takeWhile_append_of_pos hname,
          List.dropWhile_append_of_pos hname, List.cons_append, ← hitems]
        simp
  | case3 x rest hx ih =>
    rw [patternItems, if_neg hx] at h
    cases items with
    | nil =>
      obtain rfl := PatternItem.literal.inj (List.cons.inj h).1
      refine ⟨[x], ⟨rest, rfl⟩, ?_⟩
      rw [patternItems, if_neg hx, patternItems, List.nil_append]
    | cons item items =>
      obtain ⟨rfl, htail⟩ := List.cons.inj h
      obtain ⟨start, hstart, hitems⟩ := ih htail
      refine ⟨x :: start, List.cons_prefix_cons.mpr ⟨rfl, hstart⟩, ?_⟩
      rw [patternItems, if_neg hx, hitems, List.cons_append]

namespace HttpProtocolHandler

variable {σ : Type*} {t : RegexTraits}

/-- A bracket at the end is refused. -/
theorem createRouteEntry_bracket {pattern : Bytes} {items : List PatternItem} {c : UInt8}
    (hpattern : patternItems pattern = items ++ [.literal c]) (hescaped : WellEscaped t items)
    (hc : c = 0x5B ∨ c = 0x5D ∧ t.acceptsCloser = false) (handler : HttpHandler σ) :
    createRouteEntry t pattern handler = .error .brack := by
  obtain ⟨⟨top, below, groups, closed, mode⟩, hready, hcompile⟩ := compile_eq hescaped
  obtain rfl : mode = .normal := hready.mode
  have htext : (patternItems pattern).flatMap itemText ++ [0x24]
      = items.flatMap itemText ++ [c, 0x24] := by
    rw [hpattern, List.flatMap_append, List.append_assoc]
    obtain rfl | ⟨rfl, -⟩ := hc <;> rfl
  have herror : Regex.compile t (0x5E :: ((patternItems pattern).flatMap itemText ++ [0x24]))
      = .error .brack := by
    rw [htext, hcompile]
    obtain rfl | ⟨rfl, hcloser⟩ := hc
    · rfl
    · simp [RegexReader.read, RegexReader.step, RegexReader.normal, hcloser, Except.bind]
  simp only [createRouteEntry, routeRegex_eq, List.cons_append, herror]
  rfl

/-- A backslash at the end takes the end of the expression along: it wants a dollar sign there. -/
theorem createRouteEntry_backslash {pattern : Bytes} {items : List PatternItem}
    (hpattern : patternItems pattern = items ++ [.literal 0x5C]) (hescaped : WellEscaped t items)
    (handler : HttpHandler σ) :
    ∃ entry, createRouteEntry t pattern handler = .ok entry
      ∧ ∀ path, entry.regex (path ++ [0x5C]) = none := by
  obtain ⟨⟨⟨group, alternatives, terms, atom⟩, below, groups, closed, mode⟩, hready, hcompile⟩ :=
    compile_eq hescaped
  obtain ⟨rfl, rfl, rfl, hsequence, hgroups⟩ := hready
  have htext : (patternItems pattern).flatMap itemText ++ [0x24]
      = items.flatMap itemText ++ [0x5C, 0x24] := by
    rw [hpattern, List.flatMap_append, List.append_assoc]
    rfl
  have htree : Regex.compile t (0x5E :: ((patternItems pattern).flatMap itemText ++ [0x24]))
      = .ok (.seq (itemsTree items) (.one fun x => x == 0x24), (paramNames items).length) := by
    rw [htext, hcompile, ← hsequence, ← hgroups]
    rfl
  simp only [createRouteEntry, routeRegex_eq, List.cons_append, htree]
  refine ⟨_, rfl, fun path => ?_⟩
  show Regex.regexMatch _ _ _ = none
  rw [Regex.regexMatch, Option.map_eq_none_iff, List.find?_eq_none]
  intro d hd hend
  obtain ⟨e, he, hd⟩ := (Regex.mem_results_seq _ _ _ _).mp hd
  obtain ⟨hrest, -⟩ := (reaches_literal _ _ _ _).mp ⟨d, hd, rfl, rfl⟩
  obtain ⟨values, text, -, hpath, -⟩ := (reaches_itemsTree items _ _ _).mp ⟨e, he, rfl, rfl⟩
  rw [hrest, List.isEmpty_iff.mp hend] at hpath
  have hlast := List.append_inj_right' hpath rfl
  exact absurd hlast (by decide)

/-- **A pattern that ends in a character the list has not is not routed as it is written**: a
bracket is refused, and a backslash never matches itself. -/
theorem not_routed_of_overlooked {pattern : Bytes} {items : List PatternItem} {c : UInt8}
    (hpattern : patternItems pattern = items ++ [.literal c]) (hescaped : WellEscaped t items)
    (hc : Overlooked t c) (handler : HttpHandler σ) :
    ¬RoutesAsWritten t [(pattern, handler)] := by
  rintro ⟨routes, hroutes, hrouted⟩
  rw [addRoutes] at hroutes
  obtain hbracket | rfl | hbracket := hc
  · rw [createRouteEntry_bracket hpattern hescaped (.inl hbracket)] at hroutes
    cases hroutes
  · obtain ⟨entry, hentry, hnone⟩ := createRouteEntry_backslash hpattern hescaped handler
    obtain ⟨values, path, hwritten⟩ := exists_asWritten items
    rw [hentry] at hroutes
    obtain rfl : [entry] = routes := Except.ok.inj hroutes
    have hpath := hrouted (path ++ [0x5C])
    rw [matchRoute, List.findSome?_cons, hnone path] at hpath
    refine hpath _ (List.mem_singleton_self _) values ?_
    rw [hpattern]
    exact asWritten_append_literal hwritten _
  · rw [createRouteEntry_bracket hpattern hescaped (.inr hbracket)] at hroutes
    cases hroutes

end HttpProtocolHandler

/-- Without a character that the list has not, nothing has a meaning that it should not have. -/
theorem wellEscaped_of_forall {t : RegexTraits} {items : List PatternItem}
    (h : ∀ c, .literal c ∈ items → ¬Overlooked t c) : WellEscaped t items := by
  induction items with
  | nil => exact .nil
  | cons item items ih =>
    have hrest := ih fun c hc => h c (List.mem_cons_of_mem _ hc)
    cases item with
    | param name => exact .param hrest
    | literal c =>
      have hc := h c List.mem_cons_self
      refine .literal (fun h => hc (.inl h)) (fun h => hc (.inr (.inl h))) (fun hcloser => ?_) hrest
      by_contra haccepts
      exact hc (.inr (.inr ⟨hcloser, Bool.eq_false_iff.mpr haccepts⟩))

/-- The first of the characters that the list has not. -/
theorem exists_first_overlooked {t : RegexTraits} {items : List PatternItem}
    (h : ¬∀ c, .literal c ∈ items → ¬Overlooked t c) :
    ∃ before c after, items = before ++ .literal c :: after
      ∧ (∀ d, .literal d ∈ before → ¬Overlooked t d) ∧ Overlooked t c := by
  induction items with
  | nil => exact absurd (fun c hc => absurd hc List.not_mem_nil) h
  | cons item items ih =>
    by_cases hitem : ∃ c, item = .literal c ∧ Overlooked t c
    · obtain ⟨c, rfl, hc⟩ := hitem
      exact ⟨[], c, items, rfl, fun d hd => absurd hd List.not_mem_nil, hc⟩
    · have hfirst : ∀ c, .literal c = item → ¬Overlooked t c :=
        fun c hc hoverlooked => hitem ⟨c, hc.symm, hoverlooked⟩
      obtain ⟨before, c, after, rfl, hbefore, hc⟩ := ih fun hall => h fun c hc =>
        (List.mem_cons.mp hc).elim (hfirst c) (hall c)
      exact ⟨item :: before, c, after, rfl,
        fun d hd => (List.mem_cons.mp hd).elim (hfirst d) (hbefore d), hc⟩

namespace HttpProtocolHandler

variable {σ : Type*} (t : RegexTraits)

/-- **The characters that the list has not are those that are in the way.** A pattern and all
that it begins with are routed as they are written exactly if it has none of them. -/
theorem prefixes_routed_iff (pattern : Bytes) (handler : HttpHandler σ) :
    (∀ start, start <+: pattern → RoutesAsWritten t [(start, handler)])
      ↔ ∀ c, .literal c ∈ patternItems pattern → ¬Overlooked t c := by
  constructor
  · intro hrouted
    by_contra h
    obtain ⟨before, c, after, hitems, hbefore, hc⟩ := exists_first_overlooked h
    obtain ⟨start, hstart, hcut⟩ := exists_prefix_items hitems
    exact not_routed_of_overlooked hcut (wellEscaped_of_forall hbefore) hc handler
      (hrouted start hstart)
  · intro h start hstart
    have hescaped : ∀ p ∈ [(start, handler)], WellEscaped t (patternItems p.1) := by
      intro p hp
      obtain rfl := List.mem_singleton.mp hp
      exact wellEscaped_of_forall fun c hc => h c (literal_mem_of_begins hstart hc)
    exact ⟨_, addRoutes_eq hescaped [], matchRoute_routeEntry _⟩

end HttpProtocolHandler
