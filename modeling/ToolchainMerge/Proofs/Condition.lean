import Mathlib.Data.List.Nodup
import Mathlib.Data.List.Perm.Subperm
import ToolchainMerge.Condition
import ToolchainMerge.Proofs.Sorted

/-!
# Where a condition holds

`Condition.selecting keys scope` compares, for each cpu, how many keys of that cpu are
selected with how many the scope has, and never looks at any other pair of attribute values.
This file says for *every* pair, inside the scope or outside it, whether the condition holds.

`holds_selecting` reads that off the definition and needs no hypothesis: a key is selected
when some selected key has its cpu and either the two counts agree or the key itself was
asked for.  Counts of keys without repetition agree exactly when the keys do
(`countOfCpu_eq_iff`), which gives `holds_selecting_iff`: the condition holds at the keys
asked for, and beyond them only where a whole cpu was asked for.

The tests themselves are sorted, so a condition is the same in whatever order the keys were
listed (`selecting_eq_of_perm`).
-/

namespace ToolchainMerge.Condition

open Text

variable {keys scope : List Key}

/-! ## One cpu -/

theorem length_filter_cpu (cpu : String) (keys : List Key) :
    (keys.filter fun key => key.cpu = cpu).length = countOfCpu cpu keys :=
  List.countP_eq_length_filter.symm

/-- The tests of one cpu hold at keys of that cpu: at all of them if the counts agree, and
otherwise at the selected ones. -/
theorem holds_testsOfCpu {cpu : String} {key : Key} :
    (∃ test ∈ testsOfCpu keys scope cpu, test.Holds key) ↔
      key.cpu = cpu ∧ (countOfCpu cpu keys = countOfCpu cpu scope ∨ key ∈ keys) := by
  -- the counts decide between one test of the cpu and one test for each key
  simp only [testsOfCpu, length_filter_cpu]
  by_cases hcount : countOfCpu cpu keys = countOfCpu cpu scope
  · simp [hcount, Test.Holds]
  · simp only [hcount, ↓reduceIte, List.mem_map, mem_sortedBy, List.mem_filter, decide_eq_true_eq,
      false_or]
    constructor
    · rintro ⟨test, ⟨member, ⟨hmember, hcpu⟩, rfl⟩, hholds⟩
      have heq : key = member := hholds
      exact ⟨heq ▸ hcpu, heq ▸ hmember⟩
    · rintro ⟨hcpu, hmember⟩
      exact ⟨.ofKey key, ⟨key, ⟨hmember, hcpu⟩, rfl⟩, rfl⟩

/-! ## All cpus -/

/-- **Where a selecting condition holds**, for any keys and any scope. -/
theorem holds_selecting {key : Key} :
    (selecting keys scope).Holds key ↔
      (∃ member ∈ keys, member.cpu = key.cpu) ∧
        (countOfCpu key.cpu keys = countOfCpu key.cpu scope ∨ key ∈ keys) := by
  have htests : (selecting keys scope).Holds key ↔
      ∃ cpu, cpu ∈ keys.map (·.cpu) ∧ ∃ test ∈ testsOfCpu keys scope cpu, test.Holds key := by
    simp only [Condition.Holds, selecting, List.mem_flatMap, mem_sortedDistinct]
    constructor
    · rintro ⟨test, ⟨cpu, hcpu, htest⟩, hholds⟩
      exact ⟨cpu, hcpu, test, htest, hholds⟩
    · rintro ⟨cpu, hcpu, test, htest, hholds⟩
      exact ⟨test, ⟨cpu, hcpu, htest⟩, hholds⟩
  rw [htests]
  constructor
  · rintro ⟨cpu, hcpu, hholds⟩
    obtain ⟨rfl, hcase⟩ := holds_testsOfCpu.mp hholds
    exact ⟨List.mem_map.mp hcpu, hcase⟩
  · rintro ⟨hmember, hcase⟩
    exact ⟨key.cpu, List.mem_map.mpr hmember, holds_testsOfCpu.mpr ⟨rfl, hcase⟩⟩

/-- Of keys without repetition, as many of a cpu are selected as the scope has exactly when
all of them are. -/
theorem countOfCpu_eq_iff (hscope : scope.Nodup) (hkeys : keys.Nodup) (hsub : keys ⊆ scope)
    (cpu : String) :
    countOfCpu cpu keys = countOfCpu cpu scope ↔
      ∀ other ∈ scope, other.cpu = cpu → other ∈ keys := by
  have hfilter : (keys.filter fun key => key.cpu = cpu) ⊆
      scope.filter fun key => key.cpu = cpu := List.filter_subset _ hsub
  have hsubperm := List.subperm_of_subset (hkeys.filter _) hfilter
  rw [← length_filter_cpu cpu keys, ← length_filter_cpu cpu scope]
  constructor
  · -- a selection as large as the scope has room for nothing else
    intro hcount other hother hcpu
    have hperm := hsubperm.perm_of_length_le (Nat.le_of_eq hcount.symm)
    have hmem : other ∈ scope.filter fun key => key.cpu = cpu :=
      List.mem_filter.mpr ⟨hother, by simpa using hcpu⟩
    exact (List.mem_filter.mp (hperm.mem_iff.mpr hmem)).1
  · intro hall
    refine Nat.le_antisymm hsubperm.length_le (List.Subperm.length_le ?_)
    refine List.subperm_of_subset (hscope.filter _) fun other hother => ?_
    obtain ⟨hmem, hcpu⟩ := List.mem_filter.mp hother
    exact List.mem_filter.mpr ⟨hall other hmem (of_decide_eq_true hcpu), hcpu⟩

/-- The condition holds at the selected keys, and at every other pair of attribute values
whose cpu the scope knows and has selected altogether. -/
theorem holds_selecting_iff (hscope : scope.Nodup) (hkeys : keys.Nodup) (hsub : keys ⊆ scope)
    {key : Key} :
    (selecting keys scope).Holds key ↔
      key ∈ keys ∨
        ((∃ other ∈ scope, other.cpu = key.cpu) ∧
          ∀ other ∈ scope, other.cpu = key.cpu → other ∈ keys) := by
  rw [holds_selecting, countOfCpu_eq_iff hscope hkeys hsub]
  constructor
  · rintro ⟨⟨member, hmember, hcpu⟩, hall | hkey⟩
    · exact Or.inr ⟨⟨member, hsub hmember, hcpu⟩, hall⟩
    · exact Or.inl hkey
  · rintro (hkey | ⟨⟨other, hother, hcpu⟩, hall⟩)
    · exact ⟨⟨key, hkey, rfl⟩, Or.inr hkey⟩
    · exact ⟨⟨other, hall other hother hcpu, hcpu⟩, Or.inl hall⟩

/-- Within the scope the condition holds at exactly the selected keys. -/
theorem holds_selecting_iff_mem (hscope : scope.Nodup) (hkeys : keys.Nodup)
    (hsub : keys ⊆ scope) {key : Key} (hkey : key ∈ scope) :
    (selecting keys scope).Holds key ↔ key ∈ keys := by
  rw [holds_selecting_iff hscope hkeys hsub]
  exact ⟨fun h => h.elim id fun hall => hall.2 key hkey rfl, Or.inl⟩

/-! ## Keys in another order -/

theorem countOfCpu_eq_of_perm (cpu : String) {others : List Key} (hperm : others.Perm keys) :
    countOfCpu cpu others = countOfCpu cpu keys :=
  hperm.countP_eq _

theorem testsOfCpu_eq_of_perm {others scope' : List Key} (hkeys : others.Perm keys)
    (hscope : scope'.Perm scope) (cpu : String) :
    testsOfCpu others scope' cpu = testsOfCpu keys scope cpu := by
  have hmembers : (others.filter fun key => key.cpu = cpu).Perm
      (keys.filter fun key => key.cpu = cpu) := hkeys.filter _
  simp only [testsOfCpu, hmembers.length_eq, countOfCpu_eq_of_perm cpu hscope,
    sortedBy_eq_of_perm Key.before_iff Key.rank_injective hmembers]

/-- **The order of keys does not show** in a condition, neither that of the keys asked for nor
that of the scope. -/
theorem selecting_eq_of_perm {others scope' : List Key} (hkeys : others.Perm keys)
    (hscope : scope'.Perm scope) : selecting others scope' = selecting keys scope := by
  have hcpus : sortedDistinct (others.map (·.cpu)) = sortedDistinct (keys.map (·.cpu)) :=
    sortedDistinct_eq_of_mem_iff fun _ => (hkeys.map _).mem_iff
  have htests : testsOfCpu others scope' = testsOfCpu keys scope :=
    funext (testsOfCpu_eq_of_perm hkeys hscope)
  rw [selecting, selecting, hcpus, htests]

/-! ## The tests -/

theorem tests_selecting_ne_nil (hkeys : keys ≠ []) : (selecting keys scope).tests ≠ [] := by
  obtain ⟨key, hkey⟩ := List.exists_mem_of_ne_nil keys hkeys
  have hholds : (selecting keys scope).Holds key :=
    holds_selecting.mpr ⟨⟨key, hkey, rfl⟩, Or.inr hkey⟩
  obtain ⟨test, htest, _⟩ := hholds
  exact List.ne_nil_of_mem htest

theorem mem_testsOfCpu {cpu : String} {test : Test} (htest : test ∈ testsOfCpu keys scope cpu) :
    (test = .ofCpu cpu ∧ countOfCpu cpu keys = countOfCpu cpu scope) ∨
      ∃ key ∈ keys, key.cpu = cpu ∧ test = .ofKey key ∧
        countOfCpu cpu keys ≠ countOfCpu cpu scope := by
  simp only [testsOfCpu, length_filter_cpu] at htest
  by_cases hcount : countOfCpu cpu keys = countOfCpu cpu scope
  · rw [if_pos hcount, List.mem_singleton] at htest
    exact Or.inl ⟨htest, hcount⟩
  · rw [if_neg hcount] at htest
    obtain ⟨key, hkey, rfl⟩ := List.mem_map.mp htest
    obtain ⟨hmem, hcpu⟩ := List.mem_filter.mp (mem_sortedBy.mp hkey)
    exact Or.inr ⟨key, hmem, of_decide_eq_true hcpu, rfl, hcount⟩

/-- A test of a selecting condition is one of the cpu of a selected key, if the scope has no
other keys of that cpu, and otherwise one of the key. -/
theorem exists_key_of_mem_tests {test : Test} (htest : test ∈ (selecting keys scope).tests) :
    ∃ key ∈ keys,
      (test = .ofCpu key.cpu ∧ countOfCpu key.cpu keys = countOfCpu key.cpu scope) ∨
      (test = .ofKey key ∧ countOfCpu key.cpu keys ≠ countOfCpu key.cpu scope) := by
  obtain ⟨cpu, hcpu, hmem⟩ := List.mem_flatMap.mp htest
  obtain ⟨member, hmember, rfl⟩ := List.mem_map.mp (mem_sortedDistinct.mp hcpu)
  rcases mem_testsOfCpu hmem with ⟨rfl, hcount⟩ | ⟨key, hkey, hcpu, rfl, hcount⟩
  · exact ⟨member, hmember, Or.inl ⟨rfl, hcount⟩⟩
  · rw [← hcpu] at hcount
    exact ⟨key, hkey, Or.inr ⟨rfl, hcount⟩⟩

end ToolchainMerge.Condition
