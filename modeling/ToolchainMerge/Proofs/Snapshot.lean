import ToolchainMerge.Proofs.Lines
import ToolchainMerge.Snapshot

/-!
# What a snapshot accepts

A snapshot is read with its line ends unified, and the comparison unifies the ends of both texts
once more.  So the ends of the snapshot are unified twice and those of the actual output once.

`check_exact` says which outputs a snapshot accepts, and that this is equality up to line ends for
exactly those snapshots that have no doubled carriage return in front of a line feed.  The others do
not even accept their own content.

## Strategy

Unifying line ends is a projection on texts without doubled carriage returns only
(`withLineFeeds_withLineFeeds_eq_iff`).  The content of a snapshot is an output to try: it is
accepted as it is exactly if unifying its line ends twice comes to the same as doing it once.
-/

namespace ToolchainMerge.Snapshot

open Text

variable {files : FileSystem} {directory name content actual expected : String}

theorem read_of_readPath (hread : files.readPath (Path.join directory name) = .ok content) :
    read files directory name = .ok (withLineFeeds content) := by
  unfold read
  dsimp only
  rw [hread]

/-- A text that was read is compared with the output. -/
theorem check_of_read (hread : read files directory name = .ok expected) :
    check files directory name actual =
      match firstDifference? actual expected with
      | some difference => .error (.differs name difference)
      | none => .ok () := by
  unfold check
  rw [hread]
  rfl

/-- The text accepts what it equals up to line ends. -/
theorem check_eq_ok_iff (hread : read files directory name = .ok expected) :
    check files directory name actual = .ok () ↔
      withLineFeeds actual = withLineFeeds expected := by
  rw [check_of_read hread, ← firstDifference?_eq_none_iff]
  cases hfind : firstDifference? actual expected <;> simp

/-- Anything else is refused with the first difference. -/
theorem check_eq_error_iff {problem : Problem} (hread : read files directory name = .ok expected) :
    check files directory name actual = .error problem ↔
      ∃ difference : Difference, difference.Pinpoints actual expected ∧
        problem = .differs name difference := by
  simp only [← firstDifference?_eq_some_iff]
  rw [check_of_read hread]
  cases hfind : firstDifference? actual expected <;> simp [eq_comm]

/-- **What a snapshot accepts** is an output that equals its content once the line ends of the
output are unified once and those of the content twice.  That is equality up to line ends exactly
if the content has no doubled carriage return, and only then is the content itself accepted. -/
theorem check_exact (hread : files.readPath (Path.join directory name) = .ok content) :
    read files directory name = .ok (withLineFeeds content) ∧
      (∀ actual, check files directory name actual = .ok () ↔
        withLineFeeds actual = withLineFeeds (withLineFeeds content)) ∧
      (∀ actual problem, check files directory name actual = .error problem ↔
        ∃ difference : Difference, difference.Pinpoints actual (withLineFeeds content) ∧
          problem = .differs name difference) ∧
      ((∀ actual, check files directory name actual = .ok () ↔
        withLineFeeds actual = withLineFeeds content) ↔ ¬ HasDoubledReturn content) ∧
      (check files directory name content = .ok () ↔ ¬ HasDoubledReturn content) := by
  have hexpected := read_of_readPath hread
  have hself : check files directory name content = .ok () ↔ ¬ HasDoubledReturn content := by
    rw [check_eq_ok_iff hexpected, eq_comm, withLineFeeds_withLineFeeds_eq_iff]
  refine ⟨hexpected, fun _ => check_eq_ok_iff hexpected, fun _ _ => check_eq_error_iff hexpected,
    ?_, hself⟩
  constructor
  · intro hequality
    exact hself.mp ((hequality content).mpr rfl)
  · intro hdoubled actual
    rw [check_eq_ok_iff hexpected, withLineFeeds_withLineFeeds_eq_iff.mpr hdoubled]

/-- A directory with one snapshot, which has a doubled carriage return. -/
def doubled : FileSystem :=
  ⟨[(["g"], .file "a\r\r\nb".toUTF8)], []⟩

/-- The snapshot accepts another text and refuses its own content, with nothing to say of the line
where the two differ. -/
theorem check_exact_doubled :
    doubled.readPath (Path.join "." "g") = .ok "a\r\r\nb" ∧
      read doubled "." "g" = .ok "a\r\nb" ∧
      check doubled "." "g" "a\nb" = .ok () ∧
      check doubled "." "g" "a\r\r\nb" ≠ .ok () ∧
      check doubled "." "g" "a\r\r\nb" = .error (.differs "g" ⟨3, none, none⟩) := by
  have hread : doubled.readPath (Path.join "." "g") = .ok "a\r\r\nb" := by decide +kernel
  obtain ⟨hexpected, haccepts, _, _, hself⟩ := check_exact hread
  have hdoubled : HasDoubledReturn "a\r\r\nb" := by decide
  refine ⟨hread, hexpected, (haccepts "a\nb").mpr (by decide), ?_, by decide +kernel⟩
  rw [ne_eq, hself, not_not]
  exact hdoubled

/-- Not every snapshot accepts exactly what equals its content up to line ends. -/
theorem not_forall_accepts_content :
    ¬ ∀ (files : FileSystem) (directory name content : String),
      files.readPath (Path.join directory name) = .ok content →
        ∀ actual, check files directory name actual = .ok () ↔
          withLineFeeds actual = withLineFeeds content := by
  intro hall
  have hread : doubled.readPath (Path.join "." "g") = .ok "a\r\r\nb" := by decide +kernel
  have haccepts := (hall doubled "." "g" "a\r\r\nb" hread "a\r\r\nb").mpr rfl
  revert haccepts
  decide +kernel

end ToolchainMerge.Snapshot
