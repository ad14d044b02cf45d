import Mathlib.Data.List.Basic

/-!
# Names and places in a tree of directories

A name is a list of components, and each component is a motion: staying where one
is, going up, or going down to an entry. `LexicalPath.resolve` follows a name on
paper, from a place given as the list of entries that lead to it;
`LexicalPath.walk` follows it in a tree, where every step needs a directory to
start from. In a tree without links the two agree (`walk_eq_resolve`), so where a
name leads is known before the tree is looked at. A name without upward motions
leads below its starting place (`resolve_of_no_up`), and properly so unless it does
not move at all (`walk_of_stay`).
-/

namespace LexicalPath

variable {κ : Type*}

/-- What a component of a name does. -/
inductive Motion
  | stay
  | up
  | down
  deriving DecidableEq

variable (motion : κ → Motion)

/-- One component, on paper. Above the root there is only the root. -/
def move (place : List κ) (c : κ) : List κ :=
  match motion c with
  | .stay => place
  | .up => place.dropLast
  | .down => place ++ [c]

/-- The place a name leads to, on paper. -/
def resolve (place : List κ) (name : List κ) : List κ := name.foldl (move motion) place

/-- Following a name in a tree, whose directories `isDir` tells. -/
def walk (isDir : List κ → Bool) : List κ → List κ → Option (List κ)
  | place, [] => some place
  | place, c :: name => if isDir place then walk isDir (move motion place c) name else none

/-- `place` is below `root`, and not `root` itself. -/
def Below (root place : List κ) : Prop := ∃ tail, tail ≠ [] ∧ place = root ++ tail

variable {motion} {isDir : List κ → Bool} {place place' : List κ} {name : List κ}

theorem resolve_append (place name name' : List κ) :
    resolve motion place (name ++ name') = resolve motion (resolve motion place name) name' :=
  List.foldl_append

/-- **Where a walk arrives is known on paper.** -/
theorem walk_eq_resolve (h : walk motion isDir place name = some place') :
    place' = resolve motion place name := by
  induction name generalizing place with
  | nil => exact (Option.some.inj h).symm
  | cons c name ih =>
    rw [walk] at h
    split at h
    · exact ih h
    · cases h

/-- Without upward motions a name only adds to the place it starts from. -/
theorem resolve_of_no_up (place : List κ) (h : ∀ c ∈ name, motion c ≠ .up) :
    ∃ tail, resolve motion place name = place ++ tail ∧
      (tail = [] → ∀ c ∈ name, motion c = .stay) := by
  induction name generalizing place with
  | nil => exact ⟨[], (List.append_nil place).symm, fun _ c hc => absurd hc List.not_mem_nil⟩
  | cons c name ih =>
    have hc := h c List.mem_cons_self
    have hrest := fun d hd => h d (List.mem_cons_of_mem c hd)
    cases hm : motion c with
    | up => exact absurd hm hc
    | stay =>
      obtain ⟨tail, he, hstay⟩ := ih place hrest
      refine ⟨tail, ?_, fun hnil d hd => ?_⟩
      · rw [resolve, List.foldl_cons, move, hm]
        exact he
      · rcases List.mem_cons.mp hd with rfl | hd
        · exact hm
        · exact hstay hnil d hd
    | down =>
      obtain ⟨tail, he, -⟩ := ih (place ++ [c]) hrest
      refine ⟨c :: tail, ?_, fun hnil => absurd hnil (List.cons_ne_nil c tail)⟩
      rw [resolve, List.foldl_cons, move, hm]
      exact he.trans (by simp)

/-- A name that does not move ends at a directory, if it has a component. -/
theorem walk_of_stay (h : ∀ c ∈ name, motion c = .stay) (hne : name ≠ [])
    (hw : walk motion isDir place name = some place') : isDir place' = true := by
  induction name generalizing place with
  | nil => exact absurd rfl hne
  | cons c name ih =>
    rw [walk] at hw
    split at hw
    · rename_i hdir
      rw [move, h c List.mem_cons_self] at hw
      cases name with
      | nil =>
        cases hw
        exact hdir
      | cons d name => exact ih (fun e he => h e (List.mem_cons_of_mem c he)) (by simp) hw
    · cases hw

theorem walk_append {name' : List κ}
    (h : walk motion isDir place (name ++ name') = some place') :
    walk motion isDir (resolve motion place name) name' = some place' := by
  induction name generalizing place with
  | nil => exact h
  | cons c name ih =>
    rw [List.cons_append, walk] at h
    split at h
    · exact ih h
    · cases h

/-- **A name without upward motions that leads to something other than a directory
leads below its starting place.** -/
theorem below_of_walk (h : ∀ c ∈ name, motion c ≠ .up) (hne : name ≠ [])
    (hw : walk motion isDir place name = some place') (hfile : isDir place' = false) :
    Below place place' := by
  obtain ⟨tail, he, hstay⟩ := resolve_of_no_up place h
  refine ⟨tail, fun hnil => ?_, (walk_eq_resolve hw).trans he⟩
  have hdir := walk_of_stay (hstay hnil) hne hw
  rw [hfile] at hdir
  cases hdir

end LexicalPath
