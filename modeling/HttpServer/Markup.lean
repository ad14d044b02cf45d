import Mathlib.Data.List.Basic

/-!
# Texts with tags

A text is read from its beginning to its end: a tag is what stands between an opening bracket and
the next closing one. A document that is put together of pieces of markup and of texts has the
tags that its markup has, unless an opening bracket comes in with one of the texts
(`tags_render_iff`): it begins a tag of its own, and the others do not make up for it.

The tags of a document may be nested or not. `nest` keeps the elements that are open, and
`nest_frame` says that a part in which every element is closed that it opens can stand anywhere.
-/

namespace Markup

/-! ## Tags -/

section Tags

variable {α : Type*} [DecidableEq α] (opening closing : α)

/-- Where a text leaves the reader: outside all tags, or behind the beginning of one. -/
def after : Option (List α) → List α → Option (List α)
  | tag, [] => tag
  | none, c :: s => after (if c = opening then some [] else none) s
  | some tag, c :: s => after (if c = closing then none else some (tag ++ [c])) s

/-- The tags that end in a text. -/
def tagsFrom : Option (List α) → List α → List (List α)
  | _, [] => []
  | none, c :: s => tagsFrom (if c = opening then some [] else none) s
  | some tag, c :: s =>
    if c = closing then tag :: tagsFrom none s else tagsFrom (some (tag ++ [c])) s

/-- The tags of a text. -/
def tags (s : List α) : List (List α) := tagsFrom opening closing none s

variable {opening closing}

theorem after_append (tag : Option (List α)) (s t : List α) :
    after opening closing tag (s ++ t)
      = after opening closing (after opening closing tag s) t := by
  induction s generalizing tag with
  | nil => cases tag <;> rfl
  | cons c s ih => cases tag <;> exact ih _

theorem tagsFrom_append (tag : Option (List α)) (s t : List α) :
    tagsFrom opening closing tag (s ++ t) = tagsFrom opening closing tag s
      ++ tagsFrom opening closing (after opening closing tag s) t := by
  induction s generalizing tag with
  | nil => cases tag <;> rfl
  | cons c s ih =>
    cases tag with
    | none => exact ih _
    | some tag =>
      rw [List.cons_append, tagsFrom, tagsFrom, after]
      split
      · rw [ih, List.cons_append]
      · exact ih _

/-- A text without an opening bracket has no tags. -/
theorem text_of_notMem (closing : α) {s : List α} (h : opening ∉ s) :
    after opening closing none s = none ∧ tags opening closing s = [] := by
  induction s with
  | nil => exact ⟨rfl, rfl⟩
  | cons c s ih =>
    obtain ⟨hc, hs⟩ := List.ne_and_not_mem_of_not_mem_cons h
    rw [tags, after, tagsFrom, if_neg hc.symm]
    exact ih hs

/-- Behind a closing bracket and a text without an opening one no tag is open. -/
theorem after_closing {s : List α} (h : opening ∉ s) (hne : opening ≠ closing)
    (tag : Option (List α)) : after opening closing tag (closing :: s) = none := by
  cases tag with
  | none =>
    rw [after, if_neg hne.symm]
    exact (text_of_notMem closing h).1
  | some tag =>
    rw [after, if_pos rfl]
    exact (text_of_notMem closing h).1

/-- The opening brackets of a tag that is open. -/
def pending (opening : α) (tag : Option (List α)) : ℕ :=
  tag.elim 0 fun tag => 1 + tag.count opening

/-- The opening brackets of tags. -/
def brackets (opening : α) (tags : List (List α)) : ℕ :=
  tags.length + tags.flatten.count opening

theorem brackets_cons (opening : α) (tag : List α) (tags : List (List α)) :
    brackets opening (tag :: tags) = 1 + tag.count opening + brackets opening tags := by
  simp only [brackets, List.length_cons, List.flatten_cons, List.count_append]
  omega

theorem brackets_append (opening : α) (tags more : List (List α)) :
    brackets opening (tags ++ more) = brackets opening tags + brackets opening more := by
  simp only [brackets, List.length_append, List.flatten_append, List.count_append]
  omega

/-- **No opening bracket is lost**: each one begins a tag or is part of one. -/
theorem count_opening (hne : opening ≠ closing) (tag : Option (List α)) (s : List α) :
    pending opening tag + s.count opening
      = brackets opening (tagsFrom opening closing tag s)
        + pending opening (after opening closing tag s) := by
  induction s generalizing tag with
  | nil => cases tag <;> simp [tagsFrom, after, brackets]
  | cons c s ih =>
    cases tag with
    | none =>
      rw [tagsFrom, after, ← ih, List.count_cons]
      by_cases hc : c = opening
      · rw [if_pos hc, if_pos (beq_iff_eq.mpr hc)]
        simp only [pending, Option.elim_none, Option.elim_some, List.count_nil]
        omega
      · rw [if_neg hc, if_neg (fun h => hc (beq_iff_eq.mp h))]
        rfl
    | some tag =>
      rw [tagsFrom, after, List.count_cons]
      by_cases hc : c = closing
      · have hno : ¬ (c == opening) = true := fun h => hne ((beq_iff_eq.mp h).symm.trans hc)
        rw [if_pos hc, if_pos hc, if_neg hno]
        have hrest := ih none
        rw [brackets_cons]
        simp only [pending, Option.elim_none, Option.elim_some] at hrest ⊢
        omega
      · rw [if_neg hc, if_neg hc, ← ih]
        simp only [pending, Option.elim_some, List.count_append, List.count_singleton]
        omega

end Tags

/-! ## Documents -/

/-- A piece of a document. -/
inductive Piece (α : Type*)
  | markup (s : List α)
  | text (s : List α)

section Documents

variable {α : Type*} [DecidableEq α] {opening closing : α}

def Piece.contents : Piece α → List α
  | markup s => s
  | text s => s

/-- The document that is put together of pieces. -/
def render (pieces : List (Piece α)) : List α := pieces.flatMap Piece.contents

/-- The tags of the markup alone. -/
def markupTags (opening closing : α) (pieces : List (Piece α)) : List (List α) :=
  pieces.flatMap fun
    | .markup s => tags opening closing s
    | .text _ => []

/-- Every tag is closed in the piece of markup where it begins. -/
def ClosedMarkup (opening closing : α) (pieces : List (Piece α)) : Prop :=
  ∀ s, .markup s ∈ pieces → after opening closing none s = none

/-- No text has an opening bracket. -/
def PlainTexts (opening : α) (pieces : List (Piece α)) : Prop :=
  ∀ s, .text s ∈ pieces → opening ∉ s

theorem tags_render {pieces : List (Piece α)} (hclosed : ClosedMarkup opening closing pieces)
    (hplain : PlainTexts opening pieces) :
    tags opening closing (render pieces) = markupTags opening closing pieces := by
  induction pieces with
  | nil => rfl
  | cons piece pieces ih =>
    have hrest := ih (fun s hs => hclosed s (List.mem_cons_of_mem _ hs))
      fun s hs => hplain s (List.mem_cons_of_mem _ hs)
    unfold tags render at hrest
    unfold tags render
    rw [List.flatMap_cons, tagsFrom_append]
    cases piece with
    | markup s =>
      show tagsFrom opening closing none s ++ tagsFrom opening closing (after _ _ none s) _ = _
      rw [hclosed s List.mem_cons_self, hrest]
      rfl
    | text s =>
      obtain ⟨hafter, htags⟩ := text_of_notMem closing (hplain s List.mem_cons_self)
      show tagsFrom opening closing none s ++ tagsFrom opening closing (after _ _ none s) _ = _
      rw [hafter, hrest]
      exact congrArg (· ++ _) htags

/-- The texts of a document. -/
def texts (pieces : List (Piece α)) : List α :=
  pieces.flatMap fun
    | .markup _ => []
    | .text s => s

/-- The opening brackets of a document are those of its tags and those of its texts. -/
theorem count_render {pieces : List (Piece α)} (hne : opening ≠ closing)
    (hclosed : ClosedMarkup opening closing pieces) :
    (render pieces).count opening = brackets opening (markupTags opening closing pieces)
      + (texts pieces).count opening := by
  induction pieces with
  | nil => rfl
  | cons piece pieces ih =>
    have hrest := ih fun s hs => hclosed s (List.mem_cons_of_mem _ hs)
    unfold render markupTags texts at hrest ⊢
    rw [List.flatMap_cons, List.count_append, hrest, List.flatMap_cons, brackets_append,
      List.flatMap_cons, List.count_append]
    cases piece with
    | markup s =>
      have hcount := count_opening hne none s
      rw [hclosed s List.mem_cons_self] at hcount
      simp only [pending, Option.elim_none, Nat.zero_add, Nat.add_zero] at hcount
      show s.count opening + _ = _
      rw [hcount]
      simp only [tags, List.count_nil]
      omega
    | text s =>
      show s.count opening + _ = _
      simp only [brackets, List.length_nil, List.flatten_nil, List.count_nil]
      omega

/-- **When a document has the tags of its markup.** Where every tag of the markup is closed in its
piece, and the document ends outside of all tags: exactly if no text has an opening bracket. -/
theorem tags_render_iff {pieces : List (Piece α)} (hne : opening ≠ closing)
    (hclosed : ClosedMarkup opening closing pieces)
    (hend : after opening closing none (render pieces) = none) :
    tags opening closing (render pieces) = markupTags opening closing pieces
      ↔ PlainTexts opening pieces := by
  refine ⟨fun heq s hs => ?_, tags_render hclosed⟩
  have hcount := count_opening hne none (render pieces)
  rw [hend, count_render hne hclosed] at hcount
  change _ = brackets opening (tags opening closing (render pieces)) + _ at hcount
  rw [heq] at hcount
  simp only [pending, Option.elim_none] at hcount
  -- there is no bracket left for the texts
  have hnone : opening ∉ texts pieces := List.count_eq_zero.mp (by omega)
  exact fun hmem => hnone (List.mem_flatMap.mpr ⟨.text s, hs, hmem⟩)

end Documents

/-! ## Nesting -/

/-- What a tag does to the elements that are open: it begins one, ends one, or neither. -/
inductive Tag (ν : Type*)
  | start (name : ν)
  | finish (name : ν)
  | other

section Nesting

variable {ν : Type*} [DecidableEq ν]

/-- The elements that are open behind a tag, the innermost first. -/
def Tag.apply : List ν → Tag ν → Option (List ν)
  | names, start name => some (name :: names)
  | top :: names, finish name => if top = name then some names else none
  | [], finish _ => none
  | names, other => some names

/-- The elements that are open behind tags. -/
def nest (names : List ν) (ts : List (Tag ν)) : Option (List ν) := ts.foldlM Tag.apply names

/-- **Tags are well nested**: each one that ends an element ends the innermost one, and all are
ended. -/
def WellNested (ts : List (Tag ν)) : Prop := nest [] ts = some []

theorem nest_append (names : List ν) (ts us : List (Tag ν)) :
    nest names (ts ++ us) = (nest names ts).bind fun names => nest names us :=
  List.foldlM_append

theorem nest_cons (names : List ν) (t : Tag ν) (ts : List (Tag ν)) :
    nest names (t :: ts) = (t.apply names).bind fun names => nest names ts :=
  List.foldlM_cons

/-- **What a part does does not depend on what is open around it.** -/
theorem nest_frame {names names' : List ν} {ts : List (Tag ν)} (h : nest names ts = some names')
    (around : List ν) : nest (names ++ around) ts = some (names' ++ around) := by
  induction ts generalizing names with
  | nil =>
    cases h
    rfl
  | cons t ts ih =>
    rw [nest_cons] at h ⊢
    obtain ⟨names₁, ht, hts⟩ := Option.bind_eq_some_iff.mp h
    have hframe : t.apply (names ++ around) = some (names₁ ++ around) := by
      cases t with
      | start name =>
        cases ht
        rfl
      | other =>
        cases ht
        cases names <;> cases around <;> rfl
      | finish name =>
        cases names with
        | nil => cases ht
        | cons top names =>
          obtain ⟨htop, hs⟩ := Option.ite_none_right_eq_some.mp ht
          cases hs
          exact if_pos htop
    rw [hframe]
    exact ih hts

/-- Parts that are well nested can stand one behind the other, in any place. -/
theorem nest_flatMap {β : Type*} {part : β → List (Tag ν)} (h : ∀ b, WellNested (part b))
    (names : List ν) (bs : List β) : nest names (bs.flatMap part) = some names := by
  induction bs with
  | nil => rfl
  | cons b bs ih =>
    rw [List.flatMap_cons, nest_append, ← List.nil_append names, nest_frame (h b) names]
    exact ih

end Nesting

end Markup
