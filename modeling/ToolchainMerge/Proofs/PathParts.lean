import ToolchainMerge.Conversion
import ToolchainMerge.Proofs.FileSystem
import ToolchainMerge.Proofs.Path

/-!
# Files are named by a directory and a name

`splitFile` takes a path apart into a directory and the name of a file in it, or finds that the path
names no file.  `Parts` says that the directory and the name are as good as the path: together they
have the same components and lead to the same place in every file system (`splitFile_exact`).

## Strategy

Following a path is following its steps.  An idle segment only wants a directory to be there, as the
next step does anyway (`follow_stepsAmong`), so there is a difference at the end alone.  To open a
directory is to follow its steps and an empty segment more (`openDirectory_eq_follow`), and a name
is a step from the directory that was opened (`follow_name`).
-/

namespace ToolchainMerge.FileSystem

variable {files : FileSystem} {location : Location} {directory name segment path : String}
  {segs rest : List String}

/-! ## Following steps -/

theorem follow_append (files : FileSystem) (location : Location) (left right : List String) :
    files.follow location (left ++ right) =
      files.follow location left >>= fun found => files.follow found right := by
  induction left generalizing location with
  | nil => rfl
  | cons segment left ih =>
      rw [List.cons_append, follow, follow]
      split
      · rfl
      · rfl
      · simp only [ih]
        split_ifs <;> rfl

/-- An idle segment wants a directory, as any segment behind it does. -/
theorem follow_cons_of_idle (hidle : Path.isIdle segment = true) (hrest : rest ≠ []) :
    files.follow location (segment :: rest) = files.follow location rest := by
  obtain ⟨next, others, rfl⟩ := List.exists_cons_of_ne_nil hrest
  cases hentry : files.entry? location with
  | none => rw [follow, follow, hentry]
  | some entry =>
      cases entry with
      | file content => rw [follow, follow, hentry]
      | directory =>
          rw [follow, hentry]
          exact if_pos hidle

/-- **Following a path is following its steps**, but for what is at the end. -/
theorem follow_stepsAmong (hrest : rest ≠ []) :
    files.follow location (segs ++ rest) =
      files.follow location (Path.stepsAmong segs ++ rest) := by
  induction segs generalizing location with
  | nil => rfl
  | cons segment segs ih =>
      by_cases hidle : Path.isIdle segment = true
      · rw [List.cons_append, follow_cons_of_idle hidle (by simp [hrest]), ih,
          Path.stepsAmong_cons_of_idle hidle]
      · have hstep : ∀ others, files.follow location (segment :: others) =
            files.follow location [segment] >>= fun found => files.follow found others :=
          follow_append files location [segment]
        rw [Path.stepsAmong_cons (eq_false_of_ne_true hidle), List.cons_append, List.cons_append,
          hstep (segs ++ rest), hstep (Path.stepsAmong segs ++ rest)]
        simp only [ih]

theorem follow_of_idle (hidle : ∀ segment ∈ segs, Path.isIdle segment = true) {found : Location}
    (hfollow : files.follow location segs = .ok found) : found = location := by
  induction segs with
  | nil => exact (Except.ok.inj hfollow).symm
  | cons segment segs ih =>
      obtain ⟨hsegment, hsegs⟩ := List.forall_mem_cons.mp hidle
      cases hentry : files.entry? location with
      | none => simp [follow, hentry] at hfollow
      | some entry =>
          cases entry with
          | file content => simp [follow, hentry] at hfollow
          | directory =>
              simp only [follow, hentry, if_pos hsegment] at hfollow
              exact ih hsegs hfollow

/-- A name is a step from a directory. -/
theorem follow_name (hname : Path.Ordinary name) :
    files.follow location [name] = (files.follow location [""]).map (· ++ [name]) := by
  cases hentry : files.entry? location with
  | none => simp only [follow, hentry, Except.map]
  | some entry =>
      cases entry with
      | file content => simp only [follow, hentry, Except.map]
      | directory =>
          have hempty : Path.isIdle "" = true := rfl
          simp [follow, hentry, hname.isIdle_eq, hname.ne_parent, Except.map, hempty]

/-- The location where a path starts. -/
def start (files : FileSystem) (path : String) : Location :=
  if Path.isAbsolute path then [] else files.workingDirectory

theorem locate_eq_follow (hpath : path ≠ "") :
    files.locate path = files.follow (files.start path) (Path.segments path) :=
  if_neg hpath

/-- To open a directory is to follow its path and an empty segment more. -/
theorem openDirectory_eq_follow (hpath : path ≠ "") :
    files.openDirectory path = files.follow (files.start path) (Path.steps path ++ [""]) := by
  rw [Path.steps, ← follow_stepsAmong (List.cons_ne_nil _ _), follow_append,
    ← locate_eq_follow hpath, openDirectory]
  rfl

end ToolchainMerge.FileSystem

namespace ToolchainMerge.Path

variable {path directory name last : String} {before back : List String}

theorem ne_empty_of_mem_segments (hmem : name ∈ segments path) (hname : name ≠ "") :
    path ≠ "" := by
  rintro rfl
  exact hname (by simpa [segments, segmentsFrom] using hmem)

theorem locate_join_eq_follow (hdirectory : directory ≠ "") (hname : Ordinary name)
    (files : FileSystem) :
    files.locate (join directory name) =
      files.follow (files.start directory) (steps directory ++ [name]) := by
  obtain ⟨leading, _, hsegments, _⟩ := exists_segments_join hdirectory hname
  have hjoin : join directory name ≠ "" :=
    ne_empty_of_mem_segments (by simp [hsegments]) hname.ne_empty
  have hsteps : stepsAmong leading = steps directory := by
    have hjoined := steps_join hdirectory hname
    rw [steps, hsegments, stepsAmong_append, hname.stepsAmong_eq] at hjoined
    exact List.append_cancel_right hjoined
  have hstart : files.start (join directory name) = files.start directory := by
    rw [FileSystem.start, FileSystem.start, isAbsolute_join hdirectory hname]
  rw [FileSystem.locate_eq_follow hjoin, hsegments, hstart,
    FileSystem.follow_stepsAmong (List.cons_ne_nil _ _), hsteps]

/-- **A name joined to a directory** leads to the file of that name in the directory. -/
theorem locate_join (hdirectory : directory ≠ "") (hname : Ordinary name) (files : FileSystem) :
    files.locate (join directory name) =
      (files.openDirectory directory).map (· ++ [name]) := by
  rw [locate_join_eq_follow hdirectory hname, FileSystem.openDirectory_eq_follow hdirectory,
    FileSystem.follow_append, FileSystem.follow_append]
  cases files.follow (files.start directory) (steps directory) with
  | error fault => rfl
  | ok found => exact FileSystem.follow_name hname

/-- A path leads to its name in its directory, if what is behind the name lets it. -/
theorem locate_of_around (haround : Around (segments path) before name back)
    (hname : Ordinary name) (files : FileSystem) :
    files.locate path = files.locate (join (directoryText (trimmed before)) name) >>=
      fun found => files.follow found back := by
  have hleads := leads_of_around haround hname.isIdle_eq
  have hpath : path ≠ "" := ne_empty_of_mem_segments (by simp [haround.eq]) hname.ne_empty
  have hstart : files.start (directoryText (trimmed before)) = files.start path := by
    rw [FileSystem.start, FileSystem.start, hleads.isAbsolute_eq]
  rw [locate_join_eq_follow hleads.ne_empty hname, ← FileSystem.follow_append, hleads.steps_eq,
    hstart, ← List.append_cons, ← FileSystem.follow_stepsAmong (List.cons_ne_nil _ _), ← haround.eq,
    FileSystem.locate_eq_follow hpath]

theorem locate_join_of_locate (haround : Around (segments path) before name back)
    (hname : Ordinary name) {files : FileSystem} {location : Location}
    (hfound : files.locate path = .ok location) :
    files.locate (join (directoryText (trimmed before)) name) = .ok location := by
  rw [locate_of_around haround hname] at hfound
  cases hplace : files.locate (join (directoryText (trimmed before)) name) with
  | error fault =>
      rw [hplace] at hfound
      exact nomatch hfound
  | ok found =>
      rw [hplace] at hfound
      rw [FileSystem.follow_of_idle haround.idle hfound]

/-- Where the path ends with the name, nothing is behind it. -/
theorem locate_join_eq_locate (haround : Around (segments path) before name back)
    (hname : Ordinary name) (hlast : (segments path).getLast? = some name) (files : FileSystem) :
    files.locate (join (directoryText (trimmed before)) name) = files.locate path := by
  have hback : back = [] := by
    cases back with
    | nil => rfl
    | cons next others =>
        have hmem : name ∈ next :: others :=
          List.mem_of_getLast? (by simpa [haround.eq] using hlast)
        exact absurd (haround.idle name hmem) (by simp [hname.isIdle_eq])
  rw [locate_of_around haround hname files, hback]
  cases files.locate (join (directoryText (trimmed before)) name) <;> rfl

/-! ## Parts of a path -/

/-- The path has no name at its end: it is empty or means the root or the current directory, or it
ends in two dots. -/
def EndsUnnamed (path : String) : Prop :=
  path = "" ∨ components path = [.root] ∨ components path = [.here] ∨
    (components path).getLast? = some .parent

/-- A directory and a name that are as good as a path. -/
structure Parts (path directory name : String) : Prop where
  last_eq : (components path).getLast? = some (.name name)
  ordinary : Ordinary name
  directory_ne_empty : directory ≠ ""
  /-- A single name is looked for in the current directory. -/
  single : components path = [.name name] →
    directory = "." ∧ components (join directory name) = [.here, .name name]
  components_eq : components path ≠ [.name name] →
    components (join directory name) = components path
  /-- The file is the one of that name in the directory. -/
  locate_join : ∀ files : FileSystem,
    files.locate (join directory name) = (files.openDirectory directory).map (· ++ [name])
  /-- It is also where the path leads to, unless the path does not end with the name and so wants
  a directory to be there. -/
  locate_of_locate : ∀ (files : FileSystem) (location : Location),
    files.locate path = .ok location → files.locate (join directory name) = .ok location
  locate_eq : (segments path).getLast? = some name →
    ∀ files : FileSystem, files.locate (join directory name) = files.locate path

theorem components_of_around (haround : Around (segments path) before name back)
    (hname : Ordinary name) :
    components path = opening path ++ (stepsAmong before).map component ++ [.name name] := by
  have hsteps : steps path = stepsAmong before ++ [name] := by
    rw [steps, stepsAmong_of_around haround, stepsAmong_append, hname.stepsAmong_eq]
  rw [components_eq, hsteps, List.map_append, List.map_singleton, hname.component_eq,
    List.append_assoc]

/-- A path means a single name exactly if nothing stands before it. -/
theorem components_eq_singleton_iff (haround : Around (segments path) before name back)
    (hname : Ordinary name) : components path = [.name name] ↔ before = [] := by
  rw [components_of_around haround hname]
  cases before with
  | nil =>
      have hopening : opening path = [] := by
        rw [opening_of_segments haround.eq (absurd · hname.ne_empty), if_neg hname.ne_empty,
          if_neg hname.ne_here]
      have hsteps : stepsAmong [] = [] := rfl
      simp [hopening, hsteps]
  | cons first front =>
      have hopening := opening_of_segments haround.eq (fun _ => by simp)
      rw [hopening]
      by_cases hroot : first = ""
      · simp [hroot]
      · by_cases hhere : first = "."
        · simp [hhere]
        · rw [stepsAmong_cons (by simp [isIdle, hroot, hhere])]
          simp [hroot, hhere]

theorem parts_of_around (haround : Around (segments path) before name back)
    (hname : Ordinary name) : Parts path (directoryText (trimmed before)) name := by
  have hleads := leads_of_around haround hname.isIdle_eq
  have hpath := components_of_around haround hname
  have hjoin : components (join (directoryText (trimmed before)) name) =
      opening (directoryText (trimmed before)) ++ (stepsAmong before).map component ++
        [.name name] := by
    rw [components_eq, opening_join hleads.ne_empty hname, steps_join hleads.ne_empty hname,
      hleads.steps_eq, List.map_append, List.map_singleton, hname.component_eq, List.append_assoc]
  refine ⟨?_, hname, hleads.ne_empty, ?_, ?_, locate_join hleads.ne_empty hname,
    fun _ _ => locate_join_of_locate haround hname, locate_join_eq_locate haround hname⟩
  · rw [hpath, List.getLast?_append]
    rfl
  · intro hsingle
    obtain rfl := (components_eq_singleton_iff haround hname).mp hsingle
    exact ⟨rfl, hjoin⟩
  · intro hnot
    have hbefore : before ≠ [] := by
      intro hnil
      exact hnot ((components_eq_singleton_iff haround hname).mpr hnil)
    rw [hjoin, hpath, hleads.opening_eq hbefore]

theorem components_empty : components "" = [] :=
  rfl

theorem not_endsUnnamed (hlast : (components path).getLast? = some (.name name)) :
    ¬ EndsUnnamed path := by
  rintro (rfl | hroot | hhere | hparent)
  · rw [components_empty] at hlast
    exact nomatch hlast
  · rw [hroot] at hlast
    exact nomatch hlast
  · rw [hhere] at hlast
    exact nomatch hlast
  · rw [hparent] at hlast
    exact nomatch hlast

/-- Where no segment says anything, the beginning is all that a path tells. -/
theorem endsUnnamed_of_idle (haround : Around (segments path) [] last back)
    (hlast : isIdle last = true) : EndsUnnamed path := by
  have hpath : components path = opening path := by
    have hsteps : steps path = [] := by
      rw [steps, stepsAmong_of_around haround, List.nil_append, stepsAmong_cons_of_idle hlast]
      rfl
    rw [components_eq, hsteps, List.map_nil, List.append_nil]
  by_cases hempty : path = ""
  · exact Or.inl hempty
  · have hback : last = "" → back ≠ [] := by
      rintro rfl rfl
      apply hempty
      rw [← joined_segments path, haround.eq]
      rfl
    rw [opening_of_segments haround.eq hback] at hpath
    by_cases hroot : last = ""
    · exact Or.inr (Or.inl (by rw [hpath, if_pos hroot]))
    · have hhere : last = "." := by simpa [isIdle, hroot] using hlast
      exact Or.inr (Or.inr (Or.inl (by rw [hpath, if_neg hroot, if_pos hhere])))

/-- Two dots at the end are no name. -/
theorem endsUnnamed_of_parent (haround : Around (segments path) before ".." back) :
    EndsUnnamed path := by
  have hsteps : steps path = stepsAmong before ++ [".."] := by
    rw [steps, stepsAmong_of_around haround, stepsAmong_append]
    rfl
  refine Or.inr (Or.inr (Or.inr ?_))
  rw [components_eq, hsteps, List.map_append, ← List.append_assoc, List.getLast?_append]
  rfl

/-- A path is taken apart, or it has no name at its end. -/
theorem parts_or_endsUnnamed (path : String) :
    (∃ directory name, splitFile? path = some (directory, name) ∧ Parts path directory name) ∨
      (splitFile? path = none ∧ EndsUnnamed path) := by
  obtain ⟨before, last, back, haround⟩ := exists_around (segments_ne_nil path)
  have hsplit := splitFile?_of_around haround
  by_cases hidle : isIdle last = true
  · -- then nothing stands before it
    have hbefore : before = [] := by
      by_contra hne
      exact absurd hidle (by simp [haround.step hne])
    subst hbefore
    rw [hidle, Bool.or_true, if_pos rfl] at hsplit
    exact Or.inr ⟨hsplit, endsUnnamed_of_idle haround hidle⟩
  · by_cases hparent : last = ".."
    · subst hparent
      exact Or.inr ⟨hsplit, endsUnnamed_of_parent haround⟩
    · have hmem : last ∈ segments path := by simp [haround.eq]
      have hslash : '/' ∉ last.toList := not_mem_of_mem_segments hmem
      have hname : Ordinary last := by
        refine ⟨?_, hslash, ?_, hparent⟩
        · rintro rfl
          exact hidle rfl
        · rintro rfl
          exact hidle rfl
      rw [hname.isIdle_eq, decide_eq_false hparent, Bool.or_self, if_neg Bool.false_ne_true]
        at hsplit
      exact Or.inl ⟨_, _, hsplit, parts_of_around haround hname⟩

end ToolchainMerge.Path

namespace ToolchainMerge.Conversion

open ToolchainMerge.Path

/-- **Taking a path apart loses nothing.**  It is done exactly for the paths with a name at their
end; the others are refused as they are. -/
theorem splitFile_exact (path : String) :
    (∀ directory name, splitFile path = .ok (directory, name) → Parts path directory name) ∧
      ((∃ parts, splitFile path = .ok parts) ↔
        ∃ name, (components path).getLast? = some (.name name)) ∧
      (∀ error, splitFile path = .error error ↔ error = .notAFile path ∧ EndsUnnamed path) := by
  rcases parts_or_endsUnnamed path with ⟨directory, name, hsplit, hparts⟩ | ⟨hsplit, hunnamed⟩
  · have heq : splitFile path = .ok (directory, name) := by
      rw [splitFile, hsplit]
    rw [heq]
    refine ⟨?_, ?_, ?_⟩
    · rintro _ _ ⟨rfl⟩
      exact hparts
    · exact iff_of_true ⟨_, rfl⟩ ⟨name, hparts.last_eq⟩
    · intro error
      simp [not_endsUnnamed hparts.last_eq]
  · have heq : splitFile path = .error (.notAFile path) := by
      rw [splitFile, hsplit]
    rw [heq]
    refine ⟨by simp, ?_, ?_⟩
    · refine iff_of_false (by simp) ?_
      rintro ⟨name, hlast⟩
      exact not_endsUnnamed hlast hunnamed
    · intro error
      simp [hunnamed, eq_comm]

example : splitFile "/a/../b/./c.json/." = .ok ("/a/../b", "c.json") := by decide

end ToolchainMerge.Conversion
