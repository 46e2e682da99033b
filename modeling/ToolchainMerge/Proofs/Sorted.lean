import Mathlib.Data.List.Sort
import Mathlib.Data.Prod.Lex
import Mathlib.Data.String.Basic
import ToolchainMerge.Text.Sorted
import ToolchainMerge.Toolchain.Key

/-!
# What sorting keeps

`sortedBy` puts elements in order and loses none of them; `sortedDistinct` keeps one of
each string.

Both come out in order, and a list in order is determined by what is in it.  So neither
depends on the order of the list that is sorted: `sortedBy_eq_of_perm` says so where the test
puts any two different elements in order, and `sortedDistinct_eq_of_mem_iff` for strings.
-/

namespace ToolchainMerge.Text

variable {α β : Type}

/-! ## Sorting by a test -/

theorem perm_insertBy (before : α → α → Bool) (element : α) (elements : List α) :
    (insertBy before element elements).Perm (element :: elements) := by
  induction elements with
  | nil => exact List.Perm.refl _
  | cons next rest ih =>
      rw [insertBy]
      split
      · exact (ih.cons next).trans (List.Perm.swap element next rest)
      · exact List.Perm.refl _

theorem perm_sortedBy (before : α → α → Bool) (elements : List α) :
    (sortedBy before elements).Perm elements := by
  induction elements with
  | nil => exact List.Perm.refl _
  | cons element rest ih =>
      exact (perm_insertBy before element _).trans (ih.cons element)

@[simp] theorem mem_sortedBy {before : α → α → Bool} {element : α} {elements : List α} :
    element ∈ sortedBy before elements ↔ element ∈ elements :=
  (perm_sortedBy before elements).mem_iff

section Rank

variable [LinearOrder β] {before : α → α → Bool} {rank : α → β}

theorem pairwise_insertBy (hbefore : ∀ first second, before first second ↔ rank first < rank second)
    (element : α) {elements : List α}
    (hsorted : elements.Pairwise fun first second => rank first ≤ rank second) :
    (insertBy before element elements).Pairwise fun first second => rank first ≤ rank second := by
  induction elements with
  | nil => exact List.pairwise_singleton _ _
  | cons next rest ih =>
      rw [List.pairwise_cons] at hsorted
      rw [insertBy]
      split
      · rename_i hnext
        refine List.pairwise_cons.mpr ⟨fun other hother => ?_, ih hsorted.2⟩
        rcases List.mem_cons.mp ((perm_insertBy before element rest).mem_iff.mp hother) with
          rfl | hother
        · exact ((hbefore next other).mp hnext).le
        · exact hsorted.1 other hother
      · rename_i hnext
        have hle : rank element ≤ rank next := not_lt.mp fun hlt => hnext ((hbefore _ _).mpr hlt)
        refine List.pairwise_cons.mpr ⟨fun other hother => ?_, List.pairwise_cons.mpr hsorted⟩
        rcases List.mem_cons.mp hother with rfl | hother
        · exact hle
        · exact hle.trans (hsorted.1 other hother)

theorem pairwise_sortedBy (hbefore : ∀ first second, before first second ↔ rank first < rank second)
    (elements : List α) :
    (sortedBy before elements).Pairwise fun first second => rank first ≤ rank second := by
  induction elements with
  | nil => exact List.Pairwise.nil
  | cons element rest ih => exact pairwise_insertBy hbefore element ih

/-- Where different elements have different ranks, the sorted list depends only on what is
sorted. -/
theorem sortedBy_eq_of_perm
    (hbefore : ∀ first second, before first second ↔ rank first < rank second)
    (hrank : Function.Injective rank) {elements others : List α} (hperm : others.Perm elements) :
    sortedBy before others = sortedBy before elements := by
  have hsorted : (sortedBy before others).Perm (sortedBy before elements) :=
    (perm_sortedBy before others).trans (hperm.trans (perm_sortedBy before elements).symm)
  refine hsorted.eq_of_pairwise (fun first second _ _ hle hge => hrank (le_antisymm hle hge))
    (pairwise_sortedBy hbefore others) (pairwise_sortedBy hbefore elements)

end Rank

/-! ## Sorting strings -/

theorem mem_insertDistinct {text wanted : String} {texts : List String} :
    wanted ∈ insertDistinct text texts ↔ wanted = text ∨ wanted ∈ texts := by
  induction texts with
  | nil => simp [insertDistinct]
  | cons next rest ih =>
      rw [insertDistinct]
      split
      · rename_i heq
        rw [heq, List.mem_cons, ← or_assoc, or_self]
      · split
        · exact List.mem_cons
        · rw [List.mem_cons, ih, List.mem_cons, or_left_comm]

@[simp] theorem mem_sortedDistinct {text : String} {texts : List String} :
    text ∈ sortedDistinct texts ↔ text ∈ texts := by
  induction texts with
  | nil => rfl
  | cons first rest ih => rw [sortedDistinct, mem_insertDistinct, ih, List.mem_cons]

theorem pairwise_insertDistinct (text : String) {texts : List String}
    (hsorted : texts.Pairwise (· < ·)) : (insertDistinct text texts).Pairwise (· < ·) := by
  induction texts with
  | nil => exact List.pairwise_singleton _ _
  | cons next rest ih =>
      rw [insertDistinct]
      split
      · exact hsorted
      · rename_i hne
        split
        · rename_i hlt
          refine List.pairwise_cons.mpr ⟨fun other hother => ?_, hsorted⟩
          rcases List.mem_cons.mp hother with rfl | hother
          · exact hlt
          · exact hlt.trans ((List.pairwise_cons.mp hsorted).1 other hother)
        · rename_i hnot
          have hlt : next < text := lt_of_le_of_ne (not_lt.mp hnot) (Ne.symm hne)
          rw [List.pairwise_cons] at hsorted
          refine List.pairwise_cons.mpr ⟨fun other hother => ?_, ih hsorted.2⟩
          rcases mem_insertDistinct.mp hother with rfl | hother
          · exact hlt
          · exact hsorted.1 other hother

theorem pairwise_sortedDistinct (texts : List String) :
    (sortedDistinct texts).Pairwise (· < ·) := by
  induction texts with
  | nil => exact List.Pairwise.nil
  | cons text rest ih => exact pairwise_insertDistinct text ih

/-- The distinct strings of a list depend only on what is in it. -/
theorem sortedDistinct_eq_of_mem_iff {texts others : List String}
    (hmem : ∀ text, text ∈ others ↔ text ∈ texts) :
    sortedDistinct others = sortedDistinct texts :=
  (pairwise_sortedDistinct others).eq_of_mem_iff (pairwise_sortedDistinct texts)
    fun text => by rw [mem_sortedDistinct, mem_sortedDistinct, hmem]

end ToolchainMerge.Text

/-! ## The order of keys -/

namespace ToolchainMerge.Key

/-- What keys are ordered by. -/
def rank (key : Key) : String ×ₗ String :=
  toLex (key.cpu, key.compiler)

theorem rank_injective : Function.Injective rank := by
  rintro ⟨cpu, compiler⟩ ⟨cpu', compiler'⟩ heq
  have hpair : (cpu, compiler) = (cpu', compiler') := toLex.injective heq
  rw [Prod.mk.inj hpair |>.1, Prod.mk.inj hpair |>.2]

theorem before_iff (left right : Key) : before left right ↔ left.rank < right.rank := by
  rw [before, rank, rank, Prod.Lex.toLex_lt_toLex]
  simp

end ToolchainMerge.Key
