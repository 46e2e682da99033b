import Mathlib.Data.List.TakeWhile
import Mathlib.Tactic.SplitIfs
import ToolchainMerge.Path

/-!
# What a path means

The components of a path are how it begins (`opening`) and its `steps`, the segments that are not
idle (`components_eq`).  A path is taken apart at the last of its steps: the directory has all the
others and begins alike (`leads_of_around`), and the name is one step more when it is joined to the
directory (`steps_join`, `opening_join`).

## Strategy

Segments are what stands between slashes, and slashes between them give the path again
(`segments_joined`, `joined_segments`).  So a directory that is written from segments can be looked
at by its segments, and its text plays no part any more.  The root is the exception, since its only
segment is empty: a slash has two segments.
-/

namespace ToolchainMerge.Path

open Text

variable {path left right directory name segment first last : String}
  {segs rest before back : List String}

/-! ## Segments -/

theorem segmentsFrom_append_slash (segment left right : List Char) :
    segmentsFrom segment (left ++ '/' :: right) =
      segmentsFrom segment left ++ segmentsFrom [] right := by
  induction left generalizing segment with
  | nil => simp [segmentsFrom]
  | cons char left ih =>
      rw [List.cons_append, segmentsFrom, segmentsFrom, ih, ih]
      split_ifs <;> rfl

theorem segments_append_slash (left right : String) :
    segments (left ++ "/" ++ right) = segments left ++ segments right := by
  unfold segments
  rw [← segmentsFrom_append_slash]
  simp

theorem segmentsFrom_of_not_mem {segment chars : List Char} (hslash : '/' ∉ chars) :
    segmentsFrom segment chars = [String.ofList (segment.reverse ++ chars)] := by
  induction chars generalizing segment with
  | nil => simp [segmentsFrom]
  | cons char chars ih =>
      obtain ⟨hchar, hchars⟩ := not_or.mp (mt List.mem_cons.mpr hslash)
      rw [segmentsFrom, if_neg (Ne.symm hchar), ih hchars]
      simp

theorem segments_of_not_mem (hslash : '/' ∉ segment.toList) : segments segment = [segment] := by
  rw [segments, segmentsFrom_of_not_mem hslash]
  simp

theorem not_mem_of_mem_segmentsFrom {front chars : List Char} (hfront : '/' ∉ front)
    (hmem : segment ∈ segmentsFrom front chars) : '/' ∉ segment.toList := by
  induction chars generalizing front with
  | nil =>
      obtain rfl : segment = String.ofList front.reverse := by simpa [segmentsFrom] using hmem
      simpa using hfront
  | cons char chars ih =>
      rw [segmentsFrom] at hmem
      split_ifs at hmem with hchar
      · rcases List.mem_cons.mp hmem with rfl | hmem
        · simpa using hfront
        · exact ih List.not_mem_nil hmem
      · exact ih (List.not_mem_cons_of_ne_of_not_mem (Ne.symm hchar) hfront) hmem

theorem not_mem_of_mem_segments (hmem : segment ∈ segments path) : '/' ∉ segment.toList :=
  not_mem_of_mem_segmentsFrom List.not_mem_nil hmem

theorem segmentsFrom_ne_nil (segment chars : List Char) : segmentsFrom segment chars ≠ [] := by
  induction chars generalizing segment with
  | nil => simp [segmentsFrom]
  | cons char chars ih =>
      rw [segmentsFrom]
      split_ifs
      · simp
      · exact ih _

theorem segments_ne_nil (path : String) : segments path ≠ [] :=
  segmentsFrom_ne_nil [] path.toList

theorem joined_segmentsFrom (segment chars : List Char) :
    joined "/" (segmentsFrom segment chars) = String.ofList (segment.reverse ++ chars) := by
  induction chars generalizing segment with
  | nil => simp [segmentsFrom, joined]
  | cons char chars ih =>
      rw [segmentsFrom]
      split_ifs with hchar
      · obtain ⟨first, rest, hrest⟩ := List.exists_cons_of_ne_nil (segmentsFrom_ne_nil [] chars)
        rw [hrest, joined, ← hrest, ih, hchar, ← String.toList_inj]
        simp
      · rw [ih, List.reverse_cons, List.append_assoc, List.singleton_append]

/-- With slashes between them the segments are the path again. -/
theorem joined_segments (path : String) : joined "/" (segments path) = path := by
  simp [segments, joined_segmentsFrom]

/-- Segments that were put together are found again. -/
theorem segments_joined (hne : segs ≠ []) (hslash : ∀ segment ∈ segs, '/' ∉ segment.toList) :
    segments (joined "/" segs) = segs := by
  induction segs with
  | nil => exact absurd rfl hne
  | cons segment segs ih =>
      obtain ⟨hsegment, hsegs⟩ := List.forall_mem_cons.mp hslash
      cases segs with
      | nil => exact segments_of_not_mem hsegment
      | cons next segs =>
          rw [joined, segments_append_slash, ih (List.cons_ne_nil _ _) hsegs,
            segments_of_not_mem hsegment]
          rfl

/-- An absolute path begins with an empty segment that has others behind it. -/
theorem isAbsolute_iff :
    isAbsolute path = true ↔ ∃ rest, rest ≠ [] ∧ segments path = "" :: rest := by
  have hhead : ∀ {segment chars : List Char}, segment ≠ [] →
      (segmentsFrom segment chars).head? ≠ some "" := by
    intro segment chars hsegment
    induction chars generalizing segment with
    | nil => simpa [segmentsFrom] using hsegment
    | cons char chars ih =>
        rw [segmentsFrom]
        split_ifs
        · simpa using hsegment
        · exact ih (List.cons_ne_nil _ _)
  unfold isAbsolute segments
  cases hchars : path.toList with
  | nil => simp [segmentsFrom]
  | cons char chars =>
      by_cases hchar : char = '/'
      · simpa [segmentsFrom, hchar] using segmentsFrom_ne_nil [] chars
      · have hsegment : (segmentsFrom [char] chars).head? ≠ some "" :=
          hhead (List.cons_ne_nil _ _)
        rw [segmentsFrom, if_neg hchar]
        constructor
        · intro habsolute
          exact absurd (by simpa using habsolute) hchar
        · rintro ⟨rest, _, heq⟩
          rw [heq] at hsegment
          exact absurd rfl hsegment

/-! ## Steps -/

/-- Those of the segments that are not idle. -/
def stepsAmong (segs : List String) : List String :=
  segs.filter fun segment => !isIdle segment

/-- The segments of a path that are not idle. -/
def steps (path : String) : List String :=
  stepsAmong (segments path)

/-- What the beginning of a path tells besides its steps. -/
def opening (path : String) : List Component :=
  if isAbsolute path then [.root]
  else if (segments path).head? = some "." then [.here]
  else []

theorem stepsAmong_of_idle (hidle : ∀ segment ∈ segs, isIdle segment = true) :
    stepsAmong segs = [] := by
  simpa [stepsAmong] using hidle

@[simp] theorem stepsAmong_append (left right : List String) :
    stepsAmong (left ++ right) = stepsAmong left ++ stepsAmong right :=
  List.filter_append left right

theorem stepsAmong_cons_of_idle (hfirst : isIdle first = true) :
    stepsAmong (first :: rest) = stepsAmong rest :=
  List.filter_cons_of_neg (by simp [hfirst])

theorem stepsAmong_cons (hfirst : isIdle first = false) :
    stepsAmong (first :: rest) = first :: stepsAmong rest :=
  List.filter_cons_of_pos (by simp [hfirst])

theorem isAbsolute_of_segments (hsegments : segments path = first :: rest)
    (hrest : first = "" → rest ≠ []) : isAbsolute path = true ↔ first = "" := by
  rw [isAbsolute_iff, hsegments]
  constructor
  · rintro ⟨_, _, heq⟩
    exact (List.cons.inj heq).1
  · rintro rfl
    exact ⟨rest, hrest rfl, rfl⟩

theorem opening_of_segments (hsegments : segments path = first :: rest)
    (hrest : first = "" → rest ≠ []) :
    opening path = if first = "" then [.root] else if first = "." then [.here] else [] := by
  unfold opening
  simp [isAbsolute_of_segments hsegments hrest, hsegments]

theorem components_of_segments (hsegments : segments path = first :: rest)
    (hrest : first = "" → rest ≠ []) :
    components path =
      (if first = "" then .root else if first = "." then .here else component first) ::
        (stepsAmong rest).map component := by
  unfold components
  rw [hsegments]
  split
  · rename_i heq
    exact absurd heq (List.cons_ne_nil _ _)
  · rename_i heq
    obtain ⟨rfl, rfl⟩ := List.cons.inj heq
    exact absurd rfl (hrest rfl)
  · rename_i heq
    obtain ⟨rfl, rfl⟩ := List.cons.inj heq
    rfl

/-- **The meaning of a path** is how it begins and its steps. -/
theorem components_eq (path : String) :
    components path = opening path ++ (steps path).map component := by
  by_cases hempty : segments path = [""]
  · have habsolute : isAbsolute path = false := by
      rw [← Bool.not_eq_true, isAbsolute_iff, hempty]
      simp
    simp [components, opening, steps, stepsAmong, hempty, habsolute, isIdle]
  · obtain ⟨first, rest, hsegments⟩ := List.exists_cons_of_ne_nil (segments_ne_nil path)
    have hrest : first = "" → rest ≠ [] := by
      rintro rfl rfl
      exact hempty hsegments
    rw [components_of_segments hsegments hrest, opening_of_segments hsegments hrest, steps,
      hsegments]
    by_cases hroot : first = ""
    · subst hroot
      rw [stepsAmong_cons_of_idle rfl]
      rfl
    · by_cases hhere : first = "."
      · subst hhere
        rw [stepsAmong_cons_of_idle rfl]
        rfl
      · rw [stepsAmong_cons (by simp [isIdle, hroot, hhere])]
        simp [hroot, hhere]

/-! ## The last step -/

/-- Segments around the last of them that says something.  If none does, it is the first one. -/
structure Around (segs before : List String) (last : String) (back : List String) : Prop where
  eq : segs = before ++ last :: back
  step : before ≠ [] → isIdle last = false
  idle : ∀ segment ∈ back, isIdle segment = true

theorem exists_around (hne : segs ≠ []) : ∃ before last back, Around segs before last back := by
  induction segs with
  | nil => exact absurd rfl hne
  | cons first rest ih =>
      by_cases hidle : ∀ segment ∈ rest, isIdle segment = true
      · exact ⟨[], first, rest, rfl, absurd rfl, hidle⟩
      · have hrest : rest ≠ [] := by
          rintro rfl
          exact hidle (List.forall_mem_nil _)
        obtain ⟨before, last, back, hrest, hstep, hback⟩ := ih hrest
        refine ⟨first :: before, last, back, by rw [hrest, List.cons_append], fun _ => ?_, hback⟩
        by_cases hbefore : before = []
        · -- then it is the last segment itself that is not idle
          subst hbefore hrest
          rw [List.nil_append, List.forall_mem_cons, not_and_or, Bool.not_eq_true] at hidle
          exact hidle.resolve_right (absurd hback)
        · exact hstep hbefore

theorem trimmed_of_around (haround : Around segs before last back) :
    trimmed segs = before ++ [last] := by
  obtain ⟨rfl, hstep, hidle⟩ := haround
  have hback : ∀ segment ∈ back.reverse, isIdle segment = true := by
    simpa using hidle
  cases before with
  | nil => simp [trimmed, List.dropWhile_eq_nil_iff.mpr hback]
  | cons first front =>
      have hlast : ¬ isIdle last = true := by simp [hstep]
      simp [trimmed, List.dropWhile_append_of_pos hback, List.dropWhile_cons_of_neg hlast]

theorem stepsAmong_of_around (haround : Around segs before last back) :
    stepsAmong segs = stepsAmong (before ++ [last]) := by
  rw [haround.eq, List.append_cons, stepsAmong_append (before ++ [last]),
    stepsAmong_of_idle haround.idle, List.append_nil]

/-- Trimming takes no step away. -/
theorem stepsAmong_trimmed (segs : List String) : stepsAmong (trimmed segs) = stepsAmong segs := by
  by_cases hne : segs = []
  · rw [hne]
    rfl
  · obtain ⟨before, last, back, haround⟩ := exists_around hne
    rw [trimmed_of_around haround, stepsAmong_of_around haround]

theorem mem_of_mem_trimmed (hmem : segment ∈ trimmed segs) : segment ∈ segs := by
  by_cases hne : segs = []
  · subst hne
    exact hmem
  · obtain ⟨before, last, back, haround⟩ := exists_around hne
    rw [trimmed_of_around haround] at hmem
    rw [haround.eq, List.append_cons]
    exact List.mem_append_left _ hmem

theorem splitFile?_of_around (haround : Around (segments path) before last back) :
    splitFile? path =
      if last = ".." || isIdle last then none else some (directoryText (trimmed before), last) := by
  unfold splitFile?
  simp [trimmed_of_around haround]

/-! ## Directories -/

/-- The text of a directory begins like its segments and has the same steps. -/
theorem exists_segments_directoryText
    (hslash : ∀ segment ∈ first :: rest, '/' ∉ segment.toList) :
    ∃ tail, segments (directoryText (first :: rest)) = first :: tail ∧
      (first = "" → tail ≠ []) ∧
      stepsAmong (first :: tail) = stepsAmong (first :: rest) := by
  unfold directoryText
  split
  · rename_i heq
    exact nomatch heq
  · rename_i heq
    obtain ⟨rfl, rfl⟩ := List.cons.inj heq
    exact ⟨[""], by decide, fun _ => List.cons_ne_nil _ _, by decide⟩
  · rename_i hroot
    refine ⟨rest, segments_joined (List.cons_ne_nil _ _) hslash, ?_, rfl⟩
    rintro rfl rfl
    exact hroot rfl

/-- What the directory of the segments before the last step has in common with the path. -/
structure Leads (before : List String) (path directory : String) : Prop where
  ne_empty : directory ≠ ""
  isAbsolute_eq : isAbsolute directory = isAbsolute path
  opening_eq : before ≠ [] → opening directory = opening path
  steps_eq : steps directory = stepsAmong before

theorem leads_of_around (haround : Around (segments path) before last back)
    (hlast : isIdle last = false) : Leads before path (directoryText (trimmed before)) := by
  have hslash : ∀ segment ∈ trimmed before, '/' ∉ segment.toList := by
    intro segment hmem
    have hpath : segment ∈ segments path := by
      rw [haround.eq]
      exact List.mem_append_left _ (mem_of_mem_trimmed hmem)
    exact not_mem_of_mem_segments hpath
  cases before with
  | nil =>
      have habsolute : isAbsolute path = false := by
        rw [← Bool.not_eq_true, isAbsolute_iff, haround.eq]
        rintro ⟨_, _, heq⟩
        obtain rfl : last = "" := (List.cons.inj heq).1
        exact nomatch hlast
      exact ⟨by decide, habsolute.symm ▸ by decide, absurd rfl, by decide⟩
  | cons first front =>
      obtain ⟨tail, htail, hroot, hsteps⟩ := exists_segments_directoryText hslash
      have hpath : segments path = first :: (front ++ last :: back) := haround.eq
      have hrest : first = "" → front ++ last :: back ≠ [] := by simp
      refine ⟨?_, ?_, fun _ => ?_, ?_⟩
      · intro hempty
        rw [trimmed] at hempty
        rw [hempty] at htail
        obtain ⟨rfl, rfl⟩ := List.cons.inj htail
        exact hroot rfl rfl
      · rw [Bool.eq_iff_iff, trimmed, isAbsolute_of_segments htail hroot,
          isAbsolute_of_segments hpath hrest]
      · rw [trimmed, opening_of_segments htail hroot, opening_of_segments hpath hrest]
      · rw [steps, trimmed, htail, hsteps]
        exact stepsAmong_trimmed (first :: front)

/-! ## Names in directories -/

/-- A name that can be that of a file. -/
structure Ordinary (name : String) : Prop where
  ne_empty : name ≠ ""
  slash_not_mem : '/' ∉ name.toList
  ne_here : name ≠ "."
  ne_parent : name ≠ ".."

theorem Ordinary.isIdle_eq (hname : Ordinary name) : isIdle name = false := by
  simp [isIdle, hname.ne_empty, hname.ne_here]

theorem Ordinary.stepsAmong_eq (hname : Ordinary name) : stepsAmong [name] = [name] :=
  stepsAmong_cons hname.isIdle_eq

theorem Ordinary.component_eq (hname : Ordinary name) : component name = .name name :=
  if_neg hname.ne_parent

theorem Ordinary.isAbsolute_eq (hname : Ordinary name) : isAbsolute name = false := by
  rw [← Bool.not_eq_true, isAbsolute_iff, segments_of_not_mem hname.slash_not_mem]
  rintro ⟨_, _, heq⟩
  exact hname.ne_empty (List.cons.inj heq).1

theorem isAbsolute_join (hdirectory : directory ≠ "") (hname : Ordinary name) :
    isAbsolute (join directory name) = isAbsolute directory := by
  obtain ⟨char, chars, hchars⟩ : ∃ char chars, directory.toList = char :: chars :=
    List.exists_cons_of_ne_nil (by simpa using hdirectory)
  unfold join
  rw [hname.isAbsolute_eq]
  simp only [Bool.false_or, decide_eq_true_eq, if_neg hdirectory]
  split_ifs <;> simp [isAbsolute, hchars]

/-- A name is joined to the segments of its directory, less an empty one at the end. -/
theorem exists_segments_join (hdirectory : directory ≠ "") (hname : Ordinary name) :
    ∃ leading, leading ≠ [] ∧ segments (join directory name) = leading ++ [name] ∧
      (segments directory = leading ∨ segments directory = leading ++ [""]) := by
  have hsegment := segments_of_not_mem hname.slash_not_mem
  unfold join
  rw [hname.isAbsolute_eq]
  simp only [Bool.false_or, decide_eq_true_eq, if_neg hdirectory]
  by_cases hlast : directory.toList.getLast? = some '/'
  · obtain ⟨front, hfront⟩ := List.getLast?_eq_some_iff.mp hlast
    obtain rfl : directory = String.ofList front ++ "/" := by
      rw [← String.toList_inj]
      simpa using hfront
    have hsegments := segments_append_slash (String.ofList front) ""
    rw [String.append_empty] at hsegments
    refine ⟨segments (String.ofList front), segments_ne_nil _, ?_, Or.inr hsegments⟩
    rw [if_pos hlast, segments_append_slash, hsegment]
  · refine ⟨segments directory, segments_ne_nil _, ?_, Or.inl rfl⟩
    rw [if_neg hlast, segments_append_slash, hsegment]

theorem steps_join (hdirectory : directory ≠ "") (hname : Ordinary name) :
    steps (join directory name) = steps directory ++ [name] := by
  obtain ⟨leading, _, hjoin, hsegments | hsegments⟩ := exists_segments_join hdirectory hname
  · rw [steps, hjoin, steps, hsegments, stepsAmong_append, hname.stepsAmong_eq]
  · have hempty : stepsAmong [""] = [] := rfl
    rw [steps, hjoin, steps, hsegments, stepsAmong_append, stepsAmong_append, hname.stepsAmong_eq,
      hempty, List.append_nil]

theorem opening_join (hdirectory : directory ≠ "") (hname : Ordinary name) :
    opening (join directory name) = opening directory := by
  obtain ⟨leading, hleading, hjoin, hsegments⟩ := exists_segments_join hdirectory hname
  have hhead : (segments (join directory name)).head? = (segments directory).head? := by
    obtain ⟨first, rest, rfl⟩ := List.exists_cons_of_ne_nil hleading
    rcases hsegments with hsegments | hsegments
    · simp [hjoin, hsegments]
    · simp [hjoin, hsegments]
  rw [opening, opening, isAbsolute_join hdirectory hname, hhead]

end ToolchainMerge.Path
