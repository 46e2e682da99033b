import Mathlib.Algebra.Order.BigOperators.Group.List
import ToolchainMerge.Proofs.Body
import ToolchainMerge.Proofs.Condition

/-!
# The fewest comparisons

`Condition.selecting keys scope` decides for each cpu by itself, from two counts, whether one
test of the cpu is enough.  Among the keys of the scope it holds at `keys` and nowhere else, and
no condition that does so gets by with less: neither with fewer tests nor with fewer comparisons
of attributes, whatever tests it is made of.

## Strategy

Another condition holds at each selected key by one of its tests, and that test asks for the cpu
of the key.

* Where the cpu is tested alone, no test can compare less.
* Where the keys of a cpu are tested as wholes, a key of that cpu is not selected
  (`exists_unselected`).  A test of the cpu alone would hold there too, so the other condition
  has the very same test of the key.

So every test has a counterpart in the other condition that compares as much or more
(`exists_counterpart`).  Different tests have different counterparts
(`eq_of_counterpart_eq`), since a cpu is never tested both alone and with a compiler
(`eq_ofCpu_of_mem`); that is how the bound for each test becomes one for the sums.
-/

namespace ToolchainMerge

open Text

namespace Test

/-- The cpu that a test asks for. -/
def cpu : Test → String
  | .ofCpu cpu => cpu
  | .ofKey key => key.cpu

/-- What tests are ordered by.  A test of the cpu alone counts as one with an empty compiler. -/
def rank : Test → String ×ₗ String
  | .ofCpu cpu => toLex (cpu, "")
  | .ofKey key => key.rank

theorem cpu_eq_of_holds {test : Test} {key : Key} (hholds : test.Holds key) :
    test.cpu = key.cpu := by
  cases test with
  | ofCpu cpu => exact Eq.symm hholds
  | ofKey wanted => exact congrArg Key.cpu (Eq.symm hholds)

theorem rank_lt_of_cpu_lt {first second : Test} (hlt : first.cpu < second.cpu) :
    first.rank < second.rank := by
  have hfirst : (ofLex first.rank).1 = first.cpu := by cases first <;> rfl
  have hsecond : (ofLex second.rank).1 = second.cpu := by cases second <;> rfl
  apply Prod.Lex.lt_iff.mpr
  rw [hfirst, hsecond]
  exact Or.inl hlt

theorem comparisons_length_pos (test : Test) : 1 ≤ test.comparisons.length := by
  cases test <;> simp [comparisons]

end Test

namespace Condition

variable {keys scope : List Key} {other : Condition}

/-- The number of comparisons that the tests of a condition are made of. -/
def comparisonCount (condition : Condition) : Nat :=
  (condition.tests.flatMap Test.comparisons).length

/-- A condition selects `keys` if it tells them from the other keys of the scope. -/
def Selects (keys scope : List Key) (condition : Condition) : Prop :=
  ∀ key ∈ scope, condition.Holds key ↔ key ∈ keys

/-! ## The tests of a selecting condition -/

theorem cpu_of_mem_testsOfCpu {cpu : String} {test : Test}
    (htest : test ∈ testsOfCpu keys scope cpu) : test.cpu = cpu := by
  rcases mem_testsOfCpu htest with ⟨rfl, _⟩ | ⟨key, _, hcpu, rfl, _⟩
  · rfl
  · exact hcpu

/-- A cpu that is tested alone is not tested otherwise. -/
theorem eq_ofCpu_of_mem {cpu : String} (hcpu : .ofCpu cpu ∈ (selecting keys scope).tests)
    {test : Test} (htest : test ∈ (selecting keys scope).tests) (heq : test.cpu = cpu) :
    test = .ofCpu cpu := by
  have hall : countOfCpu cpu keys = countOfCpu cpu scope := by
    obtain ⟨key, _, ⟨htest, hcount⟩ | ⟨htest, _⟩⟩ := exists_key_of_mem_tests hcpu
    · rw [Test.ofCpu.inj htest]
      exact hcount
    · exact nomatch htest
  obtain ⟨key, _, ⟨rfl, _⟩ | ⟨rfl, hcount⟩⟩ := exists_key_of_mem_tests htest
  · exact congrArg Test.ofCpu heq
  · rw [show key.cpu = cpu from heq] at hcount
    exact absurd hall hcount

/-! ## Order -/

theorem pairwise_testsOfCpu (hkeys : keys.Nodup) (cpu : String) :
    (testsOfCpu keys scope cpu).Pairwise fun first second => first.rank < second.rank := by
  simp only [testsOfCpu]
  split_ifs with hcount
  · exact List.pairwise_singleton _ _
  · have hle := pairwise_sortedBy Key.before_iff (keys.filter fun key => key.cpu = cpu)
    have hne := (perm_sortedBy Key.before (keys.filter fun key => key.cpu = cpu)).nodup_iff.mpr
      (hkeys.filter _)
    rw [List.pairwise_map]
    apply (hle.and hne).imp
    rintro first second ⟨hle, hne⟩
    exact lt_of_le_of_ne hle fun heq => hne (Key.rank_injective heq)

/-- The tests stand in strict order. -/
theorem pairwise_tests_selecting (hkeys : keys.Nodup) :
    (selecting keys scope).tests.Pairwise fun first second => first.rank < second.rank := by
  rw [selecting, List.pairwise_flatMap]
  constructor
  · intro cpu _
    exact pairwise_testsOfCpu hkeys cpu
  · apply (pairwise_sortedDistinct _).imp
    intro cpu cpu' hlt first hfirst second hsecond
    apply Test.rank_lt_of_cpu_lt
    rwa [cpu_of_mem_testsOfCpu hfirst, cpu_of_mem_testsOfCpu hsecond]

theorem nodup_tests_selecting (hkeys : keys.Nodup) : (selecting keys scope).tests.Nodup := by
  apply (pairwise_tests_selecting hkeys).imp
  rintro first _ hlt rfl
  exact lt_irrefl _ hlt

/-! ## Counterparts -/

/-- Where the counts of a cpu differ, the scope has a key of it that is not selected. -/
theorem exists_unselected (hscope : scope.Nodup) (hkeys : keys.Nodup) (hsub : keys ⊆ scope)
    {cpu : String} (hcount : countOfCpu cpu keys ≠ countOfCpu cpu scope) :
    ∃ key ∈ scope, key.cpu = cpu ∧ key ∉ keys := by
  by_contra hnone
  push Not at hnone
  exact hcount ((countOfCpu_eq_iff hscope hkeys hsub cpu).mpr hnone)

/-- What a test of the selecting condition finds in another condition: a test of the same cpu
that compares as much or more, and the same test where a key is tested as a whole. -/
structure Counterpart (other : Condition) (test answer : Test) : Prop where
  mem : answer ∈ other.tests
  cpu_eq : answer.cpu = test.cpu
  comparisons_le : test.comparisons.length ≤ answer.comparisons.length
  eq_of_ofKey : ∀ key, test = .ofKey key → answer = .ofKey key

theorem exists_counterpart (hscope : scope.Nodup) (hkeys : keys.Nodup) (hsub : keys ⊆ scope)
    (hother : other.Selects keys scope) {test : Test}
    (htest : test ∈ (selecting keys scope).tests) : ∃ answer, Counterpart other test answer := by
  obtain ⟨key, hkey, hcase⟩ := exists_key_of_mem_tests htest
  obtain ⟨answer, hanswer, hholds⟩ := (hother key (hsub hkey)).mpr hkey
  have hcpu := Test.cpu_eq_of_holds hholds
  rcases hcase with ⟨rfl, _⟩ | ⟨rfl, hcount⟩
  · exact ⟨answer, hanswer, hcpu, answer.comparisons_length_pos, nofun⟩
  · have hsame : answer = .ofKey key := by
      cases answer with
      | ofKey wanted => exact congrArg Test.ofKey (Eq.symm hholds)
      | ofCpu cpu =>
          -- a test of the cpu alone would hold at a key that is not selected
          obtain ⟨unselected, hmem, hcpu', hnot⟩ := exists_unselected hscope hkeys hsub hcount
          have hholds' : other.Holds unselected := ⟨_, hanswer, hcpu'.trans hcpu.symm⟩
          exact absurd ((hother unselected hmem).mp hholds') hnot
    subst hsame
    exact ⟨.ofKey key, hanswer, rfl, le_rfl, fun _ heq => heq⟩

/-- Different tests have different counterparts. -/
theorem eq_of_counterpart_eq {first second answer : Test}
    (hfirst : first ∈ (selecting keys scope).tests)
    (hsecond : second ∈ (selecting keys scope).tests)
    (hanswer : Counterpart other first answer) (hanswer' : Counterpart other second answer) :
    first = second := by
  have hcpu : first.cpu = second.cpu := hanswer.cpu_eq.symm.trans hanswer'.cpu_eq
  cases first with
  | ofCpu cpu => exact (eq_ofCpu_of_mem hfirst hsecond hcpu.symm).symm
  | ofKey key =>
      cases second with
      | ofCpu cpu => exact eq_ofCpu_of_mem hsecond hfirst hcpu
      | ofKey key' => exact (hanswer.eq_of_ofKey key rfl).symm.trans (hanswer'.eq_of_ofKey key' rfl)

/-- The counterparts of all tests are among the tests of the other condition, each as often as
it is needed. -/
theorem exists_counterparts (hscope : scope.Nodup) (hkeys : keys.Nodup) (hsub : keys ⊆ scope)
    (hother : other.Selects keys scope) :
    ∃ answers, answers.Subperm other.tests ∧
      List.Forall₂ (fun test answer => test.comparisons.length ≤ answer.comparisons.length)
        (selecting keys scope).tests answers := by
  have hexists : ∀ test, ∃ answer, test ∈ (selecting keys scope).tests →
      Counterpart other test answer := by
    intro test
    by_cases htest : test ∈ (selecting keys scope).tests
    · obtain ⟨answer, hanswer⟩ := exists_counterpart hscope hkeys hsub hother htest
      exact ⟨answer, fun _ => hanswer⟩
    · exact ⟨test, fun hmem => absurd hmem htest⟩
  choose answer hanswer using hexists
  refine ⟨(selecting keys scope).tests.map answer, List.subperm_of_subset ?_ ?_, ?_⟩
  · apply (nodup_tests_selecting hkeys).map_on
    intro first hfirst second hsecond heq
    exact eq_of_counterpart_eq hfirst hsecond (hanswer first hfirst) (heq ▸ hanswer second hsecond)
  · intro test htest
    obtain ⟨first, hfirst, rfl⟩ := List.mem_map.mp htest
    exact (hanswer first hfirst).mem
  · rw [List.forall₂_map_right_iff, List.forall₂_same]
    exact fun test htest => (hanswer test htest).comparisons_le

/-! ## The main statement -/

/-- **Conditions are exact, in order and minimal.**  A selecting condition holds, within the
scope, at the keys it selects; its tests are in strict order; and every condition that holds at
the same keys of the scope has as many tests and as many comparisons, or more. -/
theorem minimal_selecting (hscope : scope.Nodup) (hkeys : keys.Nodup) (hsub : keys ⊆ scope) :
    (selecting keys scope).Selects keys scope ∧
      (selecting keys scope).tests.Pairwise (fun first second => first.rank < second.rank) ∧
      ∀ other : Condition, other.Selects keys scope →
        (selecting keys scope).tests.length ≤ other.tests.length ∧
          (selecting keys scope).comparisonCount ≤ other.comparisonCount := by
  refine ⟨fun key hkey => holds_selecting_iff_mem hscope hkeys hsub hkey,
    pairwise_tests_selecting hkeys, ?_⟩
  intro other hother
  obtain ⟨answers, hanswers, hle⟩ := exists_counterparts hscope hkeys hsub hother
  obtain ⟨chosen, hperm, hsublist⟩ := hanswers
  constructor
  · calc (selecting keys scope).tests.length
        = answers.length := hle.length_eq
      _ = chosen.length := hperm.length_eq.symm
      _ ≤ other.tests.length := hsublist.length_le
  · rw [comparisonCount, comparisonCount, List.length_flatMap, List.length_flatMap]
    calc ((selecting keys scope).tests.map fun test => test.comparisons.length).sum
        ≤ (answers.map fun test => test.comparisons.length).sum := by
          apply List.Forall₂.sum_le_sum
          rw [List.forall₂_map_left_iff, List.forall₂_map_right_iff]
          exact hle
      _ = (chosen.map fun test => test.comparisons.length).sum := (hperm.map _).sum_eq.symm
      _ ≤ (other.tests.map fun test => test.comparisons.length).sum :=
          (hsublist.map _).sum_le_sum fun _ _ => Nat.zero_le _

/-- One cpu is selected altogether and one in part, by keys that are not in order. -/
theorem minimal_selecting_partOfCpu :
    let scope : List Key := [⟨"k8", "gcc"⟩, ⟨"k8", "clang"⟩, ⟨"arm", "gcc"⟩, ⟨"k8", "msvc"⟩]
    let keys : List Key := [⟨"k8", "msvc"⟩, ⟨"arm", "gcc"⟩, ⟨"k8", "clang"⟩]
    scope.Nodup ∧ keys.Nodup ∧ keys ⊆ scope ∧
      (selecting keys scope).tests =
        [.ofCpu "arm", .ofKey ⟨"k8", "clang"⟩, .ofKey ⟨"k8", "msvc"⟩] ∧
      (selecting keys scope).Selects keys scope ∧
      (selecting keys scope).tests.Pairwise (fun first second => first.rank < second.rank) ∧
      ∀ other : Condition, other.Selects keys scope →
        (selecting keys scope).tests.length ≤ other.tests.length ∧
          (selecting keys scope).comparisonCount ≤ other.comparisonCount :=
  ⟨by decide, by decide, by decide, by decide,
    minimal_selecting (by decide) (by decide) (by decide)⟩

end Condition

end ToolchainMerge
