import Mathlib.Logic.Relation
import Mathlib.Tactic.SplitIfs
import ToolchainMerge.FileSystem

/-!
# What operations on files leave alone

Creating a directory and writing a file change what there is at one location
(`entry?_put_self`, `entry?_put_of_ne`), and neither takes a directory away.  So a path that
leads somewhere still leads there afterwards (`locate_of_keeps`): paths are followed from
directory to directory and look at nothing else.

`ExtendedTowards directory files later` says what the creation of a directory with its parents
may change: there are new directories, all of them on the way.  It is derived from single
directories, whatever number of them was created and in whatever order
(`extendedTowards_of_creates`), so it also covers a creation that stops on the way.
-/

namespace ToolchainMerge.FileSystem

variable {files later : FileSystem} {location other : Location}

/-! ## One location -/

@[simp] theorem entry?_root (files : FileSystem) : files.entry? [] = some .directory :=
  if_pos rfl

theorem entry?_of_ne_nil (hlocation : location ≠ []) :
    files.entry? location = (files.entries.find? fun entry => entry.1 = location).map (·.2) :=
  if_neg hlocation

theorem ne_nil_of_entry?_ne (hentry : files.entry? location ≠ some .directory) :
    location ≠ [] := by
  rintro rfl
  exact hentry (entry?_root files)

/-- The entries of a file system with one of them replaced, looked up by location. -/
theorem find?_replaced (entries : List (Location × Entry)) (location other : Location)
    (entry : Entry) :
    (entries.map fun old => if old.1 = location then (location, entry) else old).find?
        (fun found => found.1 = other) =
      (entries.find? fun found => found.1 = other).map fun old =>
        if old.1 = location then (location, entry) else old := by
  rw [List.find?_map]
  congr 2
  funext old
  by_cases hold : old.1 = location <;> simp [hold]

/-- What is put at a location is there. -/
theorem entry?_put_self (hlocation : location ≠ []) (entry : Entry) :
    entry? (files.put location entry) location = some entry := by
  rw [entry?_of_ne_nil hlocation, put]
  by_cases hsome : (files.entry? location).isSome
  · rw [if_pos hsome]
    rw [entry?_of_ne_nil hlocation, Option.isSome_map] at hsome
    obtain ⟨old, hfind⟩ := Option.isSome_iff_exists.mp hsome
    have hold : old.1 = location := by simpa using List.find?_some hfind
    rw [find?_replaced, hfind, Option.map_some, if_pos hold]
    rfl
  · rw [if_neg hsome]
    rw [entry?_of_ne_nil hlocation, Option.isSome_map, Bool.not_eq_true,
      Option.isSome_eq_false_iff, Option.isNone_iff_eq_none] at hsome
    simp [List.find?_append, hsome]

/-- Nothing else changes. -/
theorem entry?_put_of_ne (hother : other ≠ location) (entry : Entry) :
    entry? (files.put location entry) other = files.entry? other := by
  by_cases hnil : other = []
  · rw [hnil, entry?_root, entry?_root]
  · rw [entry?_of_ne_nil hnil, entry?_of_ne_nil hnil, put]
    split_ifs
    · rw [find?_replaced, Option.map_map]
      apply Option.map_congr
      intro old hold
      have hplace : old.1 = other := by simpa using List.find?_some hold
      simp [hplace, hother]
    · simp [List.find?_append, hother.symm]

@[simp] theorem workingDirectory_put (files : FileSystem) (location : Location) (entry : Entry) :
    (files.put location entry).workingDirectory = files.workingDirectory := by
  rw [put]
  split_ifs <;> rfl

/-! ## Following paths -/

/-- Every directory of a file system is one of another. -/
structure Keeps (files later : FileSystem) : Prop where
  workingDirectory_eq : later.workingDirectory = files.workingDirectory
  directory : ∀ location, files.entry? location = some .directory →
    later.entry? location = some .directory

/-- An entry in a place that was not a directory takes no directory away. -/
theorem keeps_put (hlocation : files.entry? location ≠ some .directory) (entry : Entry) :
    files.Keeps (files.put location entry) where
  workingDirectory_eq := workingDirectory_put files location entry
  directory other hother := by
    have hne : other ≠ location := by
      rintro rfl
      exact hlocation hother
    rw [entry?_put_of_ne hne, hother]

theorem follow_of_keeps (hkeeps : files.Keeps later) {start : Location} {segments : List String}
    (hfollow : files.follow start segments = .ok location) :
    later.follow start segments = .ok location := by
  induction segments generalizing start with
  | nil => exact hfollow
  | cons segment segments ih =>
      rw [follow] at hfollow ⊢
      -- only a directory lets the walk go on, and that is still there
      cases hentry : files.entry? start with
      | none => rw [hentry] at hfollow; exact nomatch hfollow
      | some entry =>
          cases entry with
          | file content => rw [hentry] at hfollow; exact nomatch hfollow
          | directory =>
              rw [hentry] at hfollow
              rw [hkeeps.directory start hentry]
              dsimp only at hfollow ⊢
              split_ifs at hfollow ⊢
              · exact ih hfollow
              · exact ih hfollow
              · exact ih hfollow

/-- A path that leads somewhere still does so when there are more directories. -/
theorem locate_of_keeps (hkeeps : files.Keeps later) {path : String}
    (hlocate : files.locate path = .ok location) : later.locate path = .ok location := by
  unfold locate at hlocate ⊢
  split_ifs at hlocate ⊢ with hempty habsolute
  · exact follow_of_keeps hkeeps hlocate
  · rw [hkeeps.workingDirectory_eq]
    exact follow_of_keeps hkeeps hlocate

theorem openDirectory_eq_ok_iff {path : String} :
    files.openDirectory path = .ok location ↔
      files.locate path = .ok location ∧ files.entry? location = some .directory := by
  unfold openDirectory
  cases hlocate : files.locate path with
  | error fault => simp [bind, Except.bind]
  | ok found =>
      simp only [bind, Except.bind, Except.ok.injEq]
      constructor
      · intro hopen
        split at hopen
        · exact nomatch hopen
        · exact nomatch hopen
        · rename_i hentry
          obtain rfl := Except.ok.inj hopen
          exact ⟨rfl, hentry⟩
      · rintro ⟨rfl, hentry⟩
        rw [hentry]

theorem openDirectory_of_keeps (hkeeps : files.Keeps later) {path : String}
    (hopen : files.openDirectory path = .ok location) :
    later.openDirectory path = .ok location := by
  obtain ⟨hlocate, hentry⟩ := openDirectory_eq_ok_iff.mp hopen
  exact openDirectory_eq_ok_iff.mpr
    ⟨locate_of_keeps hkeeps hlocate, hkeeps.directory location hentry⟩

/-! ## Creating directories -/

theorem makeDirectory_eq_ok_iff {path : String} :
    files.makeDirectory path = .ok later ↔
      ∃ location, files.locate path = .ok location ∧ files.entry? location = none ∧
        later = files.put location .directory := by
  unfold makeDirectory
  cases hlocate : files.locate path with
  | error fault => simp [bind, Except.bind]
  | ok location =>
      simp only [bind, Except.bind]
      cases hentry : files.entry? location with
      | some entry => simp [hentry]
      | none => simp [hentry, eq_comm]

/-- A location on the way to a directory: the leading segments of its path, as many as one
likes, lead there. -/
def OnTheWay (files : FileSystem) (directory : String) (location : Location) : Prop :=
  ∃ leading, leading <+: Path.trimmed (Path.segments directory) ∧
    files.locate (Path.directoryText leading) = .ok location

theorem OnTheWay.of_keeps (hkeeps : files.Keeps later) {directory : String}
    (hway : files.OnTheWay directory location) : later.OnTheWay directory location := by
  obtain ⟨leading, hleading, hlocate⟩ := hway
  exact ⟨leading, hleading, locate_of_keeps hkeeps hlocate⟩

/-- One file system becomes another by the creation of one directory on the way. -/
def Creates (directory : String) (files later : FileSystem) : Prop :=
  ∃ leading, leading <+: Path.trimmed (Path.segments directory) ∧
    files.makeDirectory (Path.directoryText leading) = .ok later

/-- Nothing differs but that there are new directories, all of them on the way to a given
one. -/
structure ExtendedTowards (directory : String) (files later : FileSystem) : Prop where
  workingDirectory_eq : later.workingDirectory = files.workingDirectory
  kept_or_new : ∀ location, later.entry? location = files.entry? location ∨
    (files.entry? location = none ∧ later.entry? location = some .directory ∧
      later.OnTheWay directory location)

theorem ExtendedTowards.refl (directory : String) (files : FileSystem) :
    ExtendedTowards directory files files :=
  ⟨rfl, fun _ => Or.inl rfl⟩

/-- No file is created, changed or removed. -/
def SameFiles (files later : FileSystem) : Prop :=
  ∀ location content, later.entry? location = some (.file content) ↔
    files.entry? location = some (.file content)

theorem ExtendedTowards.sameFiles {directory : String}
    (hextended : ExtendedTowards directory files later) : SameFiles files later := by
  intro location content
  rcases hextended.kept_or_new location with hkept | ⟨hnone, hnew, _⟩
  · rw [hkept]
  · simp [hnone, hnew]

theorem ExtendedTowards.creates {middle : FileSystem} {directory : String}
    (hextended : ExtendedTowards directory files middle)
    (hcreates : Creates directory middle later) : ExtendedTowards directory files later := by
  obtain ⟨leading, hleading, hmake⟩ := hcreates
  obtain ⟨created, hlocate, hnone, rfl⟩ := makeDirectory_eq_ok_iff.mp hmake
  have hplace : middle.entry? created ≠ some .directory := by simp [hnone]
  have hkeeps := keeps_put hplace .directory
  refine ⟨hkeeps.workingDirectory_eq.trans hextended.workingDirectory_eq, fun location => ?_⟩
  by_cases hlocation : location = created
  · subst hlocation
    have hbefore : files.entry? location = none := by
      rcases hextended.kept_or_new location with hkept | ⟨hbefore, _⟩
      · rw [← hkept, hnone]
      · exact hbefore
    exact Or.inr ⟨hbefore, entry?_put_self (ne_nil_of_entry?_ne hplace) _,
      leading, hleading, locate_of_keeps hkeeps hlocate⟩
  · rw [entry?_put_of_ne hlocation]
    rcases hextended.kept_or_new location with hkept | ⟨hbefore, hnew, hway⟩
    · exact Or.inl hkept
    · exact Or.inr ⟨hbefore, hnew, hway.of_keeps hkeeps⟩

/-- **Created directories are all that is new.** -/
theorem extendedTowards_of_creates {directory : String}
    (hcreates : Relation.ReflTransGen (Creates directory) files later) :
    ExtendedTowards directory files later := by
  induction hcreates with
  | refl => exact .refl directory files
  | tail _ hcreates ih => exact ih.creates hcreates

/-- Creating a directory with its parents goes by single directories on the way, wherever it
ends. -/
theorem creates_makeDirectories {directory : String} (files : FileSystem)
    {segments : List String}
    (hsegments : segments.reverse <+: Path.trimmed (Path.segments directory)) :
    Relation.ReflTransGen (Creates directory) files (files.makeDirectories segments).2 := by
  induction segments generalizing files with
  | nil => exact .refl
  | cons segment before ih =>
      have hbefore : before.reverse <+: Path.trimmed (Path.segments directory) := by
        rw [List.reverse_cons] at hsegments
        exact (List.prefix_append _ _).trans hsegments
      have hstep : ∀ {files later : FileSystem},
          files.makeDirectory (Path.directoryText (segment :: before).reverse) = .ok later →
          Relation.ReflTransGen (Creates directory) files later := fun hmake =>
        .single ⟨_, hsegments, hmake⟩
      rw [makeDirectories]
      split
      · rename_i hmake
        exact hstep hmake
      · -- a parent is missing: it is created first, and then the directory is tried again
        have hparents := ih files hbefore
        split
        · rename_i hmade
          rw [hmade] at hparents
          exact hparents
        · rename_i hmade
          rw [hmade] at hparents
          split
          · rename_i hmake
            exact hparents.trans (hstep hmake)
          · exact hparents
      · exact .refl

/-! ## Writing files -/

theorem write_eq_ok_iff {content : ByteArray} :
    files.write location content = .ok later ↔
      files.entry? location ≠ some .directory ∧ later = files.put location (.file content) := by
  rw [write]
  split
  · rename_i hentry
    simp [hentry]
  · rename_i hentry
    constructor
    · intro hwrite
      exact ⟨hentry, (Except.ok.inj hwrite).symm⟩
    · rintro ⟨_, rfl⟩
      rfl

/-- A file has been written into a directory, which may have been created for it. -/
structure Written (directory name : String) (content : ByteArray) (files later : FileSystem) :
    Prop where
  workingDirectory_eq : later.workingDirectory = files.workingDirectory
  /-- The file is in its directory, and no directory had to give way to it.  Everywhere else there
  is what was there before, or a new directory on the way. -/
  exists_home : ∃ home, later.openDirectory directory = .ok home ∧
    later.entry? (home ++ [name]) = some (.file content) ∧
    files.entry? (home ++ [name]) ≠ some .directory ∧
    ∀ location, location ≠ home ++ [name] →
      later.entry? location = files.entry? location ∨
        (files.entry? location = none ∧ later.entry? location = some .directory ∧
          later.OnTheWay directory location)

theorem ExtendedTowards.written {middle : FileSystem} {directory name : String}
    (hextended : ExtendedTowards directory files middle) {home : Location}
    (hopen : middle.openDirectory directory = .ok home)
    (hplace : middle.entry? (home ++ [name]) ≠ some .directory) (content : ByteArray) :
    Written directory name content files (middle.put (home ++ [name]) (.file content)) := by
  have hkeeps := keeps_put hplace (.file content)
  refine ⟨hkeeps.workingDirectory_eq.trans hextended.workingDirectory_eq, home,
    openDirectory_of_keeps hkeeps hopen, entry?_put_self (ne_nil_of_entry?_ne hplace) _, ?_, ?_⟩
  · intro hdirectory
    rcases hextended.kept_or_new (home ++ [name]) with hkept | ⟨hnone, _⟩
    · exact hplace (hkept.trans hdirectory)
    · rw [hnone] at hdirectory
      exact nomatch hdirectory
  · intro location hlocation
    rw [entry?_put_of_ne hlocation]
    rcases hextended.kept_or_new location with hkept | ⟨hnone, hnew, hway⟩
    · exact Or.inl hkept
    · exact Or.inr ⟨hnone, hnew, hway.of_keeps hkeeps⟩

end ToolchainMerge.FileSystem
