import HttpServer.Cpp
import Mathlib.Data.List.TakeWhile
import Mathlib.Logic.Function.Basic

/-!
# Regular expressions

`std::regex` with the grammar of ECMAScript, on bytes. An expression is a syntax tree, and what
it matches from a position of the text on is a list of positions, the preferred one first, each
with what the groups have captured on the way: a choice prefers its left side, a repetition as
many rounds as it can get. `regexMatch` takes the first of them that is at the end.

`compile` reads an expression byte after byte: a stack of open groups, and a mode that says
what the next byte belongs to. What the locale has a say in – the classes `\d`, `\s`
and `\w`, the named sets of a bracket expression, the order in a range – are the traits, which
can be any. Lazy and counted repetitions and groups that begin with `(?` are left out; an
expression that has one is refused.
-/

/-- `std::regex_traits`: the classes of characters, the set that a name stands for between
`[.` and `.]`, `[:` and `:]` or `[=` and `=]`, and the order of characters. The grammar has no
`]` or `}` that nothing has opened; the library may accept it as a character. -/
structure RegexTraits where
  digit : UInt8 → Bool
  space : UInt8 → Bool
  word : UInt8 → Bool
  named : UInt8 → Bytes → Option (UInt8 → Bool)
  le : UInt8 → UInt8 → Bool
  acceptsCloser : Bool

/-- `std::regex_error`. -/
inductive RegexError
  | backref
  | badrepeat
  | brace
  | brack
  | collate
  | escape
  | paren
  | range
  deriving DecidableEq, Repr

/-! ## Expressions and what they match -/

/-- The syntax of expressions. A character class is the set of the bytes in it, and an
assertion looks at the bytes before and behind the position, if there are any. -/
inductive Regex
  | empty
  | one (set : UInt8 → Bool)
  | assertion (holds : Option UInt8 → Option UInt8 → Bool)
  | backref (i : ℕ)
  | seq (r s : Regex)
  | alt (r s : Regex)
  | group (i : ℕ) (r : Regex)
  | star (r : Regex)

/-- A position of the text: the byte before it, what is behind it, and the groups so far. -/
structure Cursor where
  prev : Option UInt8
  rest : Bytes
  groups : ℕ → Option Bytes

/-- So many bytes further. -/
def Cursor.advance (c : Cursor) (n : ℕ) : Cursor :=
  { c with
    prev := if n = 0 then c.prev else c.rest[n - 1]?
    rest := c.rest.drop n }

/-- Round after round, each of which has to get on, and as many as possible are preferred. -/
def iterate (round : Cursor → List Cursor) : ℕ → Cursor → List Cursor
  | 0, c => [c]
  | n + 1, c =>
    ((round c).filter fun d => d.rest.length < c.rest.length).flatMap (iterate round n) ++ [c]

namespace Regex

/-- One round or more. -/
def plus (r : Regex) : Regex := seq r (star r)

/-- One round or none. -/
def opt (r : Regex) : Regex := alt r empty

/-- **What an expression matches** from a position on. A group that has captured nothing is
matched by nothing. -/
def results : Regex → Cursor → List Cursor
  | empty, c => [c]
  | one set, c =>
    match c.rest with
    | [] => []
    | x :: _ => if set x then [c.advance 1] else []
  | assertion holds, c => if holds c.prev c.rest.head? then [c] else []
  | backref i, c =>
    match c.groups i with
    | none => [c]
    | some text => if text.isPrefixOf c.rest then [c.advance text.length] else []
  | seq r s, c => (r.results c).flatMap s.results
  | alt r s, c => r.results c ++ s.results c
  | group i r, c =>
    (r.results c).map fun d =>
      { d with
        groups := Function.update d.groups i
          (some (c.rest.take (c.rest.length - d.rest.length))) }
  | star r, c => iterate r.results c.rest.length c

/-- **`std::regex_match`**: what the groups from the first to the last one have captured if the
whole text matches. -/
def regexMatch (r : Regex) (groups : ℕ) (text : Bytes) : Option (List Bytes) :=
  ((r.results ⟨none, text, fun _ => none⟩).find? fun c => c.rest.isEmpty).map fun c =>
    (List.range groups).map fun i => (c.groups (i + 1)).getD []

end Regex

/-! ## Bracket expressions -/

/-- An element of a bracket expression. -/
inductive ClassElement
  | char (c : UInt8)
  | dash
  | set (p : UInt8 → Bool)

namespace ClassElement

/-- The character that an element can begin or end a range with. -/
def char? : ClassElement → Option UInt8
  | char c => some c
  | dash => some 0x2D
  | set _ => none

/-- The element on its own. -/
def accepts : ClassElement → UInt8 → Bool
  | char c, x => x == c
  | dash, x => x == 0x2D
  | set p, x => p x

end ClassElement

/-- The set that the elements make up. Where a dash has an element on both sides they are the
ends of a range. -/
def classRanges (t : RegexTraits) : List ClassElement → Except RegexError (UInt8 → Bool)
  | first :: .dash :: last :: rest =>
    match first.char?, last.char? with
    | some a, some b =>
      if t.le a b then
        (classRanges t rest).map fun p x => (t.le a x && t.le x b) || p x
      else .error .range
    | _, _ => .error .range
  | first :: rest => (classRanges t rest).map fun p x => first.accepts x || p x
  | [] => .ok fun _ => false

/-! ## Reading an expression -/

/-- An open group: its number, the alternatives that are complete, the last one first, and the
current one, its last atom apart, which a quantifier may follow. -/
structure GroupFrame where
  group : ℕ := 0
  alternatives : List Regex := []
  terms : Regex := .empty
  atom : Option Regex := none

/-- What the next byte of a bracket expression belongs to. -/
inductive BracketMode
  | start
  | items
  | escape
  | control
  | hex (left value : ℕ)
  /-- Behind a `[` -/
  | opened
  | name (delimiter : UInt8) (name : Bytes)
  | closing (delimiter : UInt8) (name : Bytes)

/-- What the next byte belongs to. -/
inductive Mode
  | normal
  | escape
  | control
  | hex (left value : ℕ)
  | decimal (value : ℕ)
  | bracket (negated : Bool) (elements : List ClassElement) (mode : BracketMode)

/-- The state of the reader: the innermost group, those around it, how many there have been, and
those of them that are closed. -/
structure RegexReader where
  top : GroupFrame := {}
  below : List GroupFrame := []
  groups : ℕ := 0
  closed : List ℕ := []
  mode : Mode := .normal

namespace GroupFrame

variable (f : GroupFrame)

/-- The current alternative. -/
def sequence : Regex :=
  match f.atom with
  | none => f.terms
  | some a => .seq f.terms a

/-- The whole group. -/
def regex : Regex := f.alternatives.foldl (fun r s => .alt s r) f.sequence

/-- One more atom. -/
def push (a : Regex) : GroupFrame := { f with terms := f.sequence, atom := some a }

/-- One more assertion, which no quantifier may follow. -/
def assert (holds : Option UInt8 → Option UInt8 → Bool) : GroupFrame :=
  { f with terms := .seq f.sequence (.assertion holds), atom := none }

/-- A quantifier behind the last atom. -/
def quantify (q : Regex → Regex) : Except RegexError GroupFrame :=
  match f.atom with
  | none => .error .badrepeat
  | some a => .ok { f with terms := .seq f.terms (q a), atom := none }

/-- The alternative is complete. -/
def next : GroupFrame :=
  { f with alternatives := f.sequence :: f.alternatives, terms := .empty, atom := none }

end GroupFrame

/-- The value of a hexadecimal digit. -/
def hexValue (c : UInt8) : Option ℕ :=
  if 0x30 ≤ c ∧ c ≤ 0x39 then some (c.toNat - 0x30)
  else if 0x41 ≤ c ∧ c ≤ 0x46 then some (c.toNat - 0x41 + 10)
  else if 0x61 ≤ c ∧ c ≤ 0x66 then some (c.toNat - 0x61 + 10)
  else none

/-- The control character that a letter behind a backslash stands for. -/
def controlEscape (c : UInt8) : Option UInt8 :=
  if c = 0x30 then some 0x00       -- 0
  else if c = 0x66 then some 0x0C  -- f
  else if c = 0x6E then some 0x0A  -- n
  else if c = 0x72 then some 0x0D  -- r
  else if c = 0x74 then some 0x09  -- t
  else if c = 0x76 then some 0x0B  -- v
  else none

/-- The class that a letter behind a backslash stands for. -/
def classEscape (t : RegexTraits) (c : UInt8) : Option (UInt8 → Bool) :=
  if c = 0x64 then some t.digit                       -- d
  else if c = 0x44 then some fun x => !t.digit x      -- D
  else if c = 0x73 then some t.space                  -- s
  else if c = 0x53 then some fun x => !t.space x      -- S
  else if c = 0x77 then some t.word                   -- w
  else if c = 0x57 then some fun x => !t.word x       -- W
  else none

/-- The position is at the beginning or end of a word. -/
def atWordBoundary (t : RegexTraits) (prev next : Option UInt8) : Bool :=
  prev.any t.word != next.any t.word

namespace RegexReader

variable (t : RegexTraits) (p : RegexReader)

/-- An atom has been read. -/
def push (a : Regex) : RegexReader := { p with top := p.top.push a, mode := .normal }

/-- An assertion has been read. -/
def assert (holds : Option UInt8 → Option UInt8 → Bool) : RegexReader :=
  { p with top := p.top.assert holds, mode := .normal }

/-- One character. -/
def char (c : UInt8) : RegexReader := p.push (.one fun x => x == c)

/-- A quantifier. -/
def quantify (q : Regex → Regex) : Except RegexError RegexReader :=
  (p.top.quantify q).map fun top => { p with top }

/-- The number behind a backslash is complete. -/
def backref (i : ℕ) : Except RegexError RegexReader :=
  if i ∈ p.closed then .ok (p.push (.backref i)) else .error .backref

/-- A group is opened. -/
def openGroup : RegexReader :=
  { p with
    top := { group := p.groups + 1 }
    below := p.top :: p.below
    groups := p.groups + 1 }

/-- A group is closed. -/
def closeGroup : Except RegexError RegexReader :=
  match p.below with
  | [] => .error .paren
  | outer :: below =>
    .ok
      { p with
        top := outer.push (.group p.top.group p.top.regex)
        below
        closed := p.top.group :: p.closed }

/-- A byte outside of a bracket expression, and not behind a backslash. -/
def normal (c : UInt8) : Except RegexError RegexReader :=
  if c = 0x5C then .ok { p with mode := .escape }                          -- \
  else if c = 0x5B then .ok { p with mode := .bracket false [] .start }    -- [
  else if c = 0x28 then .ok p.openGroup                                    -- (
  else if c = 0x29 then p.closeGroup                                       -- )
  else if c = 0x7C then .ok { p with top := p.top.next }                   -- |
  else if c = 0x2A then p.quantify .star                                   -- *
  else if c = 0x2B then p.quantify .plus                                   -- +
  else if c = 0x3F then p.quantify .opt                                    -- ?
  else if c = 0x7B then .error .brace                                      -- {
  else if c = 0x5E then .ok (p.assert fun prev _ => prev.isNone)           -- ^
  else if c = 0x24 then .ok (p.assert fun _ next => next.isNone)           -- $
  else if c = 0x2E then .ok (p.push (.one fun x => x != 0x0A && x != 0x0D))  -- .
  else if c = 0x5D ∧ !t.acceptsCloser then .error .brack                   -- ]
  else if c = 0x7D ∧ !t.acceptsCloser then .error .brace                   -- }
  else .ok (p.char c)

/-- A byte behind a backslash. What is not a letter or a digit stands for itself. -/
def escape (c : UInt8) : Except RegexError RegexReader :=
  match classEscape t c, controlEscape c with
  | some set, _ => .ok (p.push (.one set))
  | none, some control => .ok (p.char control)
  | none, none =>
    if c = 0x62 then .ok (p.assert (atWordBoundary t))                                   -- b
    else if c = 0x42 then .ok (p.assert fun prev next => !atWordBoundary t prev next)    -- B
    else if c = 0x63 then .ok { p with mode := .control }                                -- c
    else if c = 0x78 then .ok { p with mode := .hex 2 0 }                                -- x
    else if c = 0x75 then .ok { p with mode := .hex 4 0 }                                -- u
    else if 0x31 ≤ c ∧ c ≤ 0x39 then .ok { p with mode := .decimal (c.toNat - 0x30) }
    else .ok (p.char c)

/-- The state in the middle of a bracket expression. -/
def inBracket (negated : Bool) (elements : List ClassElement) (mode : BracketMode) : RegexReader :=
  { p with mode := .bracket negated elements mode }

/-- A bracket expression is complete. -/
def closeBracket (negated : Bool) (elements : List ClassElement) :
    Except RegexError RegexReader :=
  (classRanges t elements.reverse).map fun set => p.push (.one fun x => set x != negated)

/-- A byte between the elements of a bracket expression. -/
def bracketItem (negated : Bool) (elements : List ClassElement) (c : UInt8) :
    Except RegexError RegexReader :=
  if c = 0x5D then p.closeBracket t negated elements                           -- ]
  else if c = 0x5C then .ok (p.inBracket negated elements .escape)             -- \
  else if c = 0x5B then .ok (p.inBracket negated elements .opened)             -- [
  else if c = 0x2D then .ok (p.inBracket negated (.dash :: elements) .items)   -- -
  else .ok (p.inBracket negated (.char c :: elements) .items)

/-- A byte behind a backslash in a bracket expression. -/
def bracketEscape (negated : Bool) (elements : List ClassElement) (c : UInt8) :
    Except RegexError RegexReader :=
  match classEscape t c, controlEscape c with
  | some set, _ => .ok (p.inBracket negated (.set set :: elements) .items)
  | none, some control => .ok (p.inBracket negated (.char control :: elements) .items)
  | none, none =>
    if c = 0x62 then .ok (p.inBracket negated (.char 0x08 :: elements) .items)   -- b
    else if c = 0x63 then .ok (p.inBracket negated elements .control)            -- c
    else if c = 0x78 then .ok (p.inBracket negated elements (.hex 2 0))          -- x
    else if c = 0x75 then .ok (p.inBracket negated elements (.hex 4 0))          -- u
    else if c = 0x42 ∨ (0x31 ≤ c ∧ c ≤ 0x39) then .error .brack                  -- B and digits
    else .ok (p.inBracket negated (.char c :: elements) .items)

/-- A byte of a bracket expression. -/
def bracket (negated : Bool) (elements : List ClassElement) (c : UInt8) :
    BracketMode → Except RegexError RegexReader
  | .start =>
    if c = 0x5E then .ok (p.inBracket true elements .items)
    else p.bracketItem t negated elements c
  | .items => p.bracketItem t negated elements c
  | .escape => p.bracketEscape t negated elements c
  | .control => .ok (p.inBracket negated (.char (c % 32) :: elements) .items)
  | .hex left value =>
    match hexValue c with
    | none => .error .escape
    | some digit =>
      if left ≤ 1 then
        .ok (p.inBracket negated (.char (.ofNat (value * 16 + digit)) :: elements) .items)
      else .ok (p.inBracket negated elements (.hex (left - 1) (value * 16 + digit)))
  | .opened =>
    if c = 0x2E ∨ c = 0x3A ∨ c = 0x3D then .ok (p.inBracket negated elements (.name c []))
    else p.bracketItem t negated (.char 0x5B :: elements) c
  | .name delimiter name =>
    if c = delimiter then .ok (p.inBracket negated elements (.closing delimiter name))
    else .ok (p.inBracket negated elements (.name delimiter (name ++ [c])))
  | .closing delimiter name =>
    if c = 0x5D then
      match t.named delimiter name with
      | none => .error .collate
      | some set => .ok (p.inBracket negated (.set set :: elements) .items)
    else .error .collate

/-- **One byte of the expression.** -/
def step (c : UInt8) : Except RegexError RegexReader :=
  match p.mode with
  | .normal => p.normal t c
  | .escape => p.escape t c
  | .control => .ok (p.char (c % 32))
  | .hex left value =>
    match hexValue c with
    | none => .error .escape
    | some digit =>
      if left ≤ 1 then .ok (p.char (.ofNat (value * 16 + digit)))
      else .ok { p with mode := .hex (left - 1) (value * 16 + digit) }
  | .decimal value =>
    if 0x30 ≤ c ∧ c ≤ 0x39 then
      .ok { p with mode := .decimal (value * 10 + (c.toNat - 0x30)) }
    else (p.backref value).bind fun p => p.normal t c
  | .bracket negated elements mode => p.bracket t negated elements c mode

/-- The end of the expression: the tree and the number of groups. -/
def finish : Except RegexError (Regex × ℕ) :=
  match p.mode with
  | .normal => if p.below = [] then .ok (p.top.regex, p.groups) else .error .paren
  | .decimal value =>
    (p.backref value).bind fun p =>
      if p.below.isEmpty then .ok (p.top.regex, p.groups) else .error .paren
  | .bracket _ _ _ => .error .brack
  | _ => .error .escape

/-- All bytes. -/
def read : RegexReader → Bytes → Except RegexError RegexReader
  | p, [] => .ok p
  | p, c :: text => (p.step t c).bind fun p => p.read text

end RegexReader

namespace Regex

/-- **The constructor of `std::regex`**: the tree and the number of groups. -/
def compile (t : RegexTraits) (text : Bytes) : Except RegexError (Regex × ℕ) :=
  (RegexReader.read t {} text).bind fun p => p.finish

end Regex

/-! ## Bytes of a set -/

namespace Cursor

/-- The next bytes, so many, are of a set, and `d` is the position behind them. -/
def Ahead (set : UInt8 → Bool) (n : ℕ) (c d : Cursor) : Prop :=
  n ≤ c.rest.length ∧ (∀ x ∈ c.rest.take n, set x = true) ∧ d = c.advance n

theorem advance_advance (c : Cursor) (m n : ℕ) :
    (c.advance m).advance n = c.advance (m + n) := by
  unfold advance
  rcases Nat.eq_zero_or_pos n with rfl | hn
  · simp
  · have hmn : m + n ≠ 0 := by omega
    simp only [hn.ne', if_false, hmn, List.getElem?_drop, List.drop_drop]
    rw [show m + (n - 1) = m + n - 1 by omega]

end Cursor

namespace Regex

variable (set : UInt8 → Bool) (c d : Cursor)

theorem mem_results_seq (r s : Regex) :
    d ∈ (seq r s).results c ↔ ∃ e ∈ r.results c, d ∈ s.results e :=
  List.mem_flatMap

theorem results_empty_seq (r : Regex) : (seq empty r).results c = r.results c :=
  List.flatMap_singleton r.results c

theorem mem_results_one :
    d ∈ (one set).results c ↔ ∃ x rest, c.rest = x :: rest ∧ set x = true ∧ d = c.advance 1 := by
  rw [results]
  cases hrest : c.rest with
  | nil => simp
  | cons x rest => by_cases hx : set x = true <;> simp [hx]

/-- A byte of a set gets on. -/
theorem length_rest_of_mem_one (h : d ∈ (one set).results c) :
    d.rest.length + 1 = c.rest.length := by
  obtain ⟨x, rest, hrest, -, rfl⟩ := (mem_results_one set c d).mp h
  simp [Cursor.advance, hrest]

/-- A byte of a set and then so many. -/
theorem exists_one_ahead (n : ℕ) :
    (∃ e ∈ (one set).results c, e.Ahead set n d) ↔ c.Ahead set (n + 1) d := by
  constructor
  · rintro ⟨e, he, hn, hall, rfl⟩
    obtain ⟨x, rest, hrest, hx, rfl⟩ := (mem_results_one set c e).mp he
    have hadvance : (c.advance 1).rest = rest := by simp [Cursor.advance, hrest]
    rw [hadvance] at hn hall
    refine ⟨by rw [hrest, List.length_cons]; omega, ?_, ?_⟩
    · rw [hrest, List.take_succ_cons, List.forall_mem_cons]
      exact ⟨hx, hall⟩
    · rw [Cursor.advance_advance, Nat.add_comm]
  · rintro ⟨hn, hall, rfl⟩
    cases hrest : c.rest with
    | nil => simp [hrest] at hn
    | cons x rest =>
      have hadvance : (c.advance 1).rest = rest := by simp [Cursor.advance, hrest]
      rw [hrest, List.take_succ_cons, List.forall_mem_cons] at hall
      rw [hrest, List.length_cons] at hn
      refine ⟨c.advance 1, (mem_results_one set c _).mpr ⟨x, rest, hrest, hall.1, rfl⟩, ?_⟩
      rw [Cursor.Ahead, hadvance, Cursor.advance_advance, Nat.add_comm 1 n]
      exact ⟨Nat.le_of_succ_le_succ hn, hall.2, rfl⟩

/-- **Rounds of a set are as many bytes of it as one likes.** -/
theorem mem_iterate_one (fuel : ℕ) (hfuel : c.rest.length ≤ fuel) :
    d ∈ iterate (one set).results fuel c ↔ ∃ n, c.Ahead set n d := by
  induction fuel generalizing c with
  | zero =>
    rw [iterate, List.mem_singleton]
    constructor
    · intro hd
      exact ⟨0, Nat.zero_le _, by simp, hd⟩
    · rintro ⟨n, hn, -, rfl⟩
      obtain rfl : n = 0 := by omega
      rfl
  | succ fuel ih =>
    rw [iterate, List.mem_append, List.mem_flatMap, List.mem_singleton]
    constructor
    · rintro (⟨e, he, hd⟩ | rfl)
      · have hone := (List.mem_filter.mp he).1
        have hlength := length_rest_of_mem_one set c e hone
        obtain ⟨n, hn⟩ := (ih e (by omega)).mp hd
        exact ⟨n + 1, (exists_one_ahead set c d n).mp ⟨e, hone, hn⟩⟩
      · exact ⟨0, Nat.zero_le _, by simp, rfl⟩
    · rintro ⟨n, hn⟩
      cases n with
      | zero => exact .inr hn.2.2
      | succ n =>
        obtain ⟨e, hone, he⟩ := (exists_one_ahead set c d n).mpr hn
        have hlength := length_rest_of_mem_one set c e hone
        refine .inl ⟨e, List.mem_filter.mpr ⟨hone, decide_eq_true (by omega)⟩, ?_⟩
        exact (ih e (by omega)).mpr ⟨n, he⟩

/-- One byte of a set or more. -/
theorem mem_results_plus_one :
    d ∈ (plus (one set)).results c ↔ ∃ n, c.Ahead set (n + 1) d := by
  rw [plus, mem_results_seq]
  constructor
  · rintro ⟨e, hone, hd⟩
    obtain ⟨n, hn⟩ := (mem_iterate_one set e d _ le_rfl).mp hd
    exact ⟨n, (exists_one_ahead set c d n).mp ⟨e, hone, hn⟩⟩
  · rintro ⟨n, hn⟩
    obtain ⟨e, hone, he⟩ := (exists_one_ahead set c d n).mpr hn
    exact ⟨e, hone, (mem_iterate_one set e d _ le_rfl).mpr ⟨n, he⟩⟩

end Regex

/-! ## Reading what stands for itself -/

/-- A character that stands for itself. -/
def IsPlain (t : RegexTraits) (c : UInt8) : Prop :=
  c ∉ lit "\\[()|*+?\x7b^$." ∧ (c = 0x5D ∨ c = 0x7D → t.acceptsCloser = true)

/-- The letters and digits. What is not one of them has no meaning behind a backslash. -/
def isAlphanumeric (c : UInt8) : Bool :=
  (0x30 ≤ c && c ≤ 0x39) || (0x41 ≤ c && c ≤ 0x5A) || (0x61 ≤ c && c ≤ 0x7A)

theorem notMem_of_not_alphanumeric (c : UInt8) (hc : isAlphanumeric c = false) :
    c ∉ lit "dDsSwW0fnrtvbBcxu" ∧ ¬(0x31 ≤ c ∧ c ≤ 0x39) := by
  refine ⟨fun hmem => ?_, fun h => ?_⟩
  · have hall : ∀ x ∈ lit "dDsSwW0fnrtvbBcxu", isAlphanumeric x = true := by
      decide +kernel
    rw [hall c hmem] at hc
    cases hc
  · have h30 : (0x30 : UInt8) ≤ c := UInt8.le_trans (by decide : (0x30 : UInt8) ≤ 0x31) h.1
    simp [isAlphanumeric, h30, h.2] at hc

namespace RegexReader

variable (t : RegexTraits) (p : RegexReader) (c : UInt8) (text : Bytes)

theorem read_cons_of_step {q : RegexReader} (h : p.step t c = .ok q) :
    p.read t (c :: text) = q.read t text := by
  rw [read, h]
  rfl

theorem read_plain (hmode : p.mode = .normal) (hplain : IsPlain t c) :
    p.read t (c :: text) = (p.char c).read t text := by
  apply read_cons_of_step
  obtain ⟨hspecial, hcloser⟩ := hplain
  have hne : c ≠ 0x5C ∧ c ≠ 0x5B ∧ c ≠ 0x28 ∧ c ≠ 0x29 ∧ c ≠ 0x7C ∧ c ≠ 0x2A ∧ c ≠ 0x2B
      ∧ c ≠ 0x3F ∧ c ≠ 0x7B ∧ c ≠ 0x5E ∧ c ≠ 0x24 ∧ c ≠ 0x2E := by
    simpa [lit] using hspecial
  rw [step, hmode]
  simp only [normal, hne, if_false]
  rw [if_neg (fun h => ?_), if_neg (fun h => ?_)]
  · simp [hcloser (.inr h.1)] at h
  · simp [hcloser (.inl h.1)] at h

/-- Behind a backslash, what is neither a letter nor a digit stands for itself. -/
theorem read_escaped (hmode : p.mode = .normal) (hc : isAlphanumeric c = false) :
    p.read t (0x5C :: c :: text) = (p.char c).read t text := by
  have hbackslash : p.step t 0x5C = .ok { p with mode := .escape } := by
    rw [step, hmode]
    rfl
  rw [read_cons_of_step t p _ _ hbackslash]
  apply read_cons_of_step
  obtain ⟨hletter, hdigit⟩ := notMem_of_not_alphanumeric c hc
  have hne : c ≠ 0x64 ∧ c ≠ 0x44 ∧ c ≠ 0x73 ∧ c ≠ 0x53 ∧ c ≠ 0x77 ∧ c ≠ 0x57 ∧ c ≠ 0x30
      ∧ c ≠ 0x66 ∧ c ≠ 0x6E ∧ c ≠ 0x72 ∧ c ≠ 0x74 ∧ c ≠ 0x76 ∧ c ≠ 0x62 ∧ c ≠ 0x42 ∧ c ≠ 0x63
      ∧ c ≠ 0x78 ∧ c ≠ 0x75 := by
    simpa [lit] using hletter
  simp only [step, escape, classEscape, controlEscape, hne, if_false, hdigit]
  rfl

end RegexReader
