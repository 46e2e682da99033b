import Mathlib.Data.List.Forall2
import Mathlib.Data.List.Induction
import Mathlib.Data.List.Nodup

/-!
# First occurrences

Values, names and keys are listed in the order in which they first occur.  `List.eraseDups`
is that order; two facts here let it be followed one element at a time, from the end of a
list, which is how the folds of the library grow.

A chain of branches is searched for the first one whose condition holds.  Where at most one
element of a list can pass a test, the search finds that one in whatever order the list is
(`find?_eq_of_perm`).
-/

namespace ToolchainMerge

variable {α : Type}

/-! ## Lists that correspond to each other -/

/-- What corresponds to two lists in a row falls into two parts. -/
theorem exists_append_of_forall₂ {β : Type} {related : α → β → Prop} {front back : List α}
    {others : List β} (hrelated : List.Forall₂ related (front ++ back) others) :
    ∃ front' back', others = front' ++ back' ∧ List.Forall₂ related front front' ∧
      List.Forall₂ related back back' := by
  have hfront := List.forall₂_take front.length hrelated
  have hback := List.forall₂_drop front.length hrelated
  rw [List.take_left] at hfront
  rw [List.drop_left] at hback
  exact ⟨_, _, (List.take_append_drop front.length others).symm, hfront, hback⟩

/-! ## The first element that passes a test -/

theorem find?_eq_some_iff_of_pairwise {test : α → Bool} {elements : List α}
    (hpair : elements.Pairwise fun first second => ¬ (test first ∧ test second)) {element : α} :
    elements.find? test = some element ↔ element ∈ elements ∧ test element := by
  constructor
  · intro hfind
    exact ⟨List.mem_of_find?_eq_some hfind, List.find?_some hfind⟩
  · rintro ⟨hmem, htest⟩
    induction elements with
    | nil => exact absurd hmem List.not_mem_nil
    | cons first rest ih =>
        rw [List.pairwise_cons] at hpair
        rcases List.mem_cons.mp hmem with rfl | hrest
        · exact List.find?_cons_of_pos htest
        · have hfirst : ¬ test first := fun hfirst => hpair.1 element hrest ⟨hfirst, htest⟩
          rw [List.find?_cons_of_neg hfirst]
          exact ih hpair.2 hrest

/-- Where no name repeats, a search by the name of an element finds that element. -/
theorem find?_eq_of_nodup_map {β : Type} [DecidableEq β] {name : α → β} {elements : List α}
    (hnodup : (elements.map name).Nodup) {element : α} (hmem : element ∈ elements) :
    (elements.find? fun other => name other = name element) = some element := by
  rw [find?_eq_some_iff_of_pairwise]
  · exact ⟨hmem, decide_eq_true rfl⟩
  · refine (List.pairwise_map.mp hnodup).imp fun {first second} hne hboth => hne ?_
    rw [of_decide_eq_true hboth.1, of_decide_eq_true hboth.2]

/-- At most one element passes, so its place does not matter. -/
theorem find?_eq_of_perm {test : α → Bool} {elements others : List α}
    (hpair : elements.Pairwise fun first second => ¬ (test first ∧ test second))
    (hperm : others.Perm elements) : others.find? test = elements.find? test := by
  have hothers : others.Pairwise fun first second => ¬ (test first ∧ test second) :=
    hperm.symm.pairwise hpair fun hnot hboth => hnot hboth.symm
  refine Option.ext fun element => ?_
  rw [find?_eq_some_iff_of_pairwise hpair, find?_eq_some_iff_of_pairwise hothers,
    hperm.mem_iff]

/-- Where at most one element can pass and some element passes, one does. -/
theorem countP_eq_one_of_pairwise {test : α → Bool} {elements : List α}
    (hpair : elements.Pairwise fun first second => ¬ (test first ∧ test second)) {element : α}
    (hmem : element ∈ elements) (htest : test element) : elements.countP test = 1 := by
  induction elements with
  | nil => exact absurd hmem List.not_mem_nil
  | cons first rest ih =>
      rw [List.pairwise_cons] at hpair
      by_cases hfirst : test first
      · have hrest : rest.countP test = 0 := by
          rw [List.countP_eq_zero]
          intro other hother hpass
          exact hpair.1 other hother ⟨hfirst, hpass⟩
        rw [List.countP_cons_of_pos hfirst, hrest]
      · have hrest : element ∈ rest := by
          rcases List.mem_cons.mp hmem with rfl | hrest
          · exact absurd htest hfirst
          · exact hrest
        rw [List.countP_cons_of_neg hfirst]
        exact ih hpair.2 hrest

/-! ## First occurrences -/

variable [DecidableEq α]

/-- An element behind a list is a new one or changes nothing. -/
theorem eraseDups_concat (elements : List α) (last : α) :
    (elements ++ [last]).eraseDups =
      if last ∈ elements then elements.eraseDups else elements.eraseDups ++ [last] := by
  rw [List.eraseDups_append]
  by_cases hlast : last ∈ elements <;> simp [List.removeAll, hlast, List.eraseDups_cons]

theorem nodup_eraseDups (elements : List α) : elements.eraseDups.Nodup := by
  induction elements using List.reverseRecOn with
  | nil => simp
  | append_singleton elements last ih =>
      rw [eraseDups_concat]
      split
      · exact ih
      · rename_i hlast
        refine List.nodup_append.mpr ⟨ih, List.nodup_singleton last, ?_⟩
        intro element helement other hother heq
        rw [List.mem_singleton] at hother
        rw [List.mem_eraseDups] at helement
        exact hlast (hother ▸ heq ▸ helement)

/-- Permuted lists have the same distinct elements, in some order. -/
theorem eraseDups_perm {elements others : List α} (hperm : others.Perm elements) :
    others.eraseDups.Perm elements.eraseDups := by
  rw [List.perm_ext_iff_of_nodup (nodup_eraseDups _) (nodup_eraseDups _)]
  intro element
  rw [List.mem_eraseDups, List.mem_eraseDups, hperm.mem_iff]

/-- A search from the front meets only first occurrences. -/
theorem find?_eraseDups (test : α → Bool) (elements : List α) :
    elements.eraseDups.find? test = elements.find? test := by
  induction elements using List.reverseRecOn with
  | nil => rfl
  | append_singleton elements last ih =>
      rw [eraseDups_concat, List.find?_append]
      by_cases hlast : last ∈ elements
      · rw [if_pos hlast, ih]
        by_cases htest : test last
        · have hsome : (elements.find? test).isSome :=
            List.find?_isSome.mpr ⟨last, hlast, htest⟩
          rw [Option.or_of_isSome hsome]
        · rw [List.find?_cons_of_neg htest, List.find?_nil, Option.or_none]
      · rw [if_neg hlast, List.find?_append, ih]

/-- A change that tells the elements of a list apart keeps their first occurrences. -/
theorem eraseDups_map_of_injOn {β : Type} [DecidableEq β] {change : α → β} {elements : List α}
    (hinj : ∀ first ∈ elements, ∀ second ∈ elements, change first = change second →
      first = second) :
    (elements.map change).eraseDups = elements.eraseDups.map change := by
  induction elements using List.reverseRecOn with
  | nil => rfl
  | append_singleton elements last ih =>
      have hrest := ih fun first hfirst second hsecond =>
        hinj first (List.mem_append_left _ hfirst) second (List.mem_append_left _ hsecond)
      have hlast : change last ∈ elements.map change ↔ last ∈ elements := by
        constructor
        · intro hmem
          obtain ⟨other, hother, heq⟩ := List.mem_map.mp hmem
          have hsame := hinj other (List.mem_append_left _ hother) last (by simp) heq
          exact hsame ▸ hother
        · exact List.mem_map_of_mem
      rw [List.map_append, List.map_singleton, eraseDups_concat, eraseDups_concat, hrest]
      by_cases hmem : last ∈ elements
      · rw [if_pos hmem, if_pos (hlast.mpr hmem)]
      · rw [if_neg hmem, if_neg (mt hlast.mp hmem), List.map_append, List.map_singleton]

/-- There is one element at most exactly when all are equal. -/
theorem length_eraseDups_le_one_iff {elements : List α} :
    elements.eraseDups.length ≤ 1 ↔
      ∀ first ∈ elements, ∀ second ∈ elements, first = second := by
  constructor
  · intro hlength first hfirst second hsecond
    rw [← List.mem_eraseDups] at hfirst hsecond
    match hdistinct : elements.eraseDups, hlength with
    | [], _ => exact absurd (hdistinct ▸ hfirst) List.not_mem_nil
    | [only], _ =>
        rw [hdistinct, List.mem_singleton] at hfirst hsecond
        rw [hfirst, hsecond]
  · intro hall
    have hnodup := nodup_eraseDups elements
    match hdistinct : elements.eraseDups with
    | [] => simp
    | [_] => simp
    | first :: second :: rest =>
        rw [hdistinct] at hnodup
        have hmem : ∀ element ∈ first :: second :: rest, element ∈ elements := fun element h =>
          List.mem_eraseDups.mp (hdistinct ▸ h)
        have heq := hall first (hmem first (by simp)) second (hmem second (by simp))
        exact absurd (heq ▸ hnodup) (by simp)

/-! ## First-seen order -/

/-- The distinct elements of a list in the order in which they are first seen. -/
structure FirstSeen (elements distinct : List α) : Prop where
  mem_iff : ∀ element, element ∈ distinct ↔ element ∈ elements
  in_order : distinct.Pairwise fun first second => elements.idxOf first < elements.idxOf second

theorem FirstSeen.nodup {elements distinct : List α} (hseen : FirstSeen elements distinct) :
    distinct.Nodup := by
  refine hseen.in_order.imp fun {first second} hlt heq => ?_
  rw [heq] at hlt
  exact Nat.lt_irrefl _ hlt

/-- Elements in first-seen order are determined by the list they are seen in. -/
theorem FirstSeen.unique {elements distinct others : List α} (hseen : FirstSeen elements distinct)
    (hothers : FirstSeen elements others) : distinct = others := by
  have hperm : distinct.Perm others := by
    rw [List.perm_ext_iff_of_nodup hseen.nodup hothers.nodup]
    intro element
    rw [hseen.mem_iff, hothers.mem_iff]
  apply hperm.eq_of_pairwise _ hseen.in_order hothers.in_order
  intro first second _ _ hlt hgt
  omega

theorem pairwise_idxOf_eraseDups (elements : List α) :
    elements.eraseDups.Pairwise fun first second =>
      elements.idxOf first < elements.idxOf second := by
  induction elements using List.reverseRecOn with
  | nil => simp
  | append_singleton elements last ih =>
      -- elements that were there already keep their place
      have hkeep : ∀ element ∈ elements.eraseDups,
          (elements ++ [last]).idxOf element = elements.idxOf element := by
        intro element helement
        exact List.idxOf_append_of_mem (List.mem_eraseDups.mp helement)
      have hearlier : elements.eraseDups.Pairwise fun first second =>
          (elements ++ [last]).idxOf first < (elements ++ [last]).idxOf second := by
        refine ih.imp_of_mem fun {first second} hfirst hsecond hlt => ?_
        rw [hkeep first hfirst, hkeep second hsecond]
        exact hlt
      rw [eraseDups_concat]
      split
      · exact hearlier
      · rename_i hlast
        refine List.pairwise_append.mpr ⟨hearlier, List.pairwise_singleton _ _, ?_⟩
        intro first hfirst second hsecond
        rw [List.mem_singleton.mp hsecond]
        calc
          (elements ++ [last]).idxOf first = elements.idxOf first := hkeep first hfirst
          _ < elements.length := List.idxOf_lt_length_of_mem (List.mem_eraseDups.mp hfirst)
          _ = (elements ++ [last]).idxOf last := by
            rw [List.idxOf_append_of_notMem hlast]
            simp

/-- Erasing later occurrences is what leaves the elements in first-seen order. -/
theorem firstSeen_iff {elements distinct : List α} :
    FirstSeen elements distinct ↔ distinct = elements.eraseDups := by
  have hseen : FirstSeen elements elements.eraseDups :=
    ⟨fun _ => List.mem_eraseDups, pairwise_idxOf_eraseDups elements⟩
  constructor
  · intro hdistinct
    exact hdistinct.unique hseen
  · rintro rfl
    exact hseen

end ToolchainMerge
