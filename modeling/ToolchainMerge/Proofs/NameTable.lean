import Mathlib.Data.Finset.Card
import ToolchainMerge.NameTable
import ToolchainMerge.Proofs.Lists

/-!
# What a table of names holds

A table grows name by name and keeps its names and its identifiers in step.  At every
moment it is `NameTable.naming` of the names read so far: each of them once, in the order of
first occurrence, with the identifier that its stem and the suffix make up.  `add_naming`
says what one more name does to such a table, and `addAll_naming_cases` what a whole list
comes to.  It has a table exactly when different names have different stems, and the table
is then the naming of the list (`ofNames_eq_ok_iff`).  Otherwise the list has a first clash,
which is the one that is reported (`ofNames_eq_error_iff`), however often other names are
repeated before it.

`ofNames_exact` says the same of what can be seen of a table, its entries, its size and its
answers, without speaking of the naming.
-/

namespace ToolchainMerge

/-- Different names of a list have different stems. -/
def DistinctStems (names : List String) : Prop :=
  ∀ first ∈ names, ∀ second ∈ names, identifierStem first = identifierStem second →
    first = second

theorem DistinctStems.of_subset {names others : List String} (hnames : DistinctStems names)
    (hsub : others ⊆ names) : DistinctStems others := fun first hfirst second hsecond =>
  hnames first (hsub hfirst) second (hsub hsecond)

/-- The first clash in a list of names: `second` is the first of them that has the stem of a
different name before it, and `first` is that name. -/
def FirstClash (names : List String) (first second : String) : Prop :=
  ∃ before after, names = before ++ second :: after ∧ DistinctStems before ∧
    first ∈ before ∧ first ≠ second ∧ identifierStem first = identifierStem second

namespace FirstClash

variable {names : List String} {first second first' second' : String}

theorem not_distinctStems (hclash : FirstClash names first second) : ¬ DistinctStems names := by
  obtain ⟨before, after, rfl, _, hfirst, hne, hstem⟩ := hclash
  intro hdistinct
  exact hne (hdistinct first (List.mem_append_left _ hfirst) second (by simp) hstem)

/-- No part in front that has distinct stems reaches over a clash. -/
theorem length_le {before after before' after' : List String}
    (hnames : before ++ second :: after = before' ++ after') (hfirst : first ∈ before)
    (hne : first ≠ second) (hstem : identifierStem first = identifierStem second)
    (hbefore' : DistinctStems before') : before'.length ≤ before.length := by
  by_contra hlength
  have hprefix : before ++ [second] <+: before' := by
    have hclash : before ++ [second] <+: before ++ second :: after := ⟨after, by simp⟩
    have hpart : before' <+: before ++ second :: after := hnames ▸ List.prefix_append _ _
    refine List.prefix_of_prefix_length_le hclash hpart ?_
    rw [List.length_append, List.length_singleton]
    omega
  refine hne (hbefore' first ?_ second ?_ hstem)
  · exact hprefix.subset (List.mem_append_left _ hfirst)
  · exact hprefix.subset (by simp)

/-- **A list of names has one first clash at most.** -/
theorem unique (hclash : FirstClash names first second)
    (hclash' : FirstClash names first' second') : first = first' ∧ second = second' := by
  obtain ⟨before, after, rfl, hbefore, hfirst, hne, hstem⟩ := hclash
  obtain ⟨before', after', hnames, hbefore', hfirst', hne', hstem'⟩ := hclash'
  have hlength : before.length = before'.length :=
    Nat.le_antisymm (length_le hnames.symm hfirst' hne' hstem' hbefore)
      (length_le hnames hfirst hne hstem hbefore')
  obtain ⟨rfl, hrest⟩ := List.append_inj hnames hlength
  obtain ⟨rfl, rfl⟩ := List.cons.inj hrest
  exact ⟨hbefore first hfirst first' hfirst' (hstem.trans hstem'.symm), rfl⟩

end FirstClash

namespace NameTable

/-- The table that gives each name of a list its own identifier. -/
def naming (suffix : String) (names : List String) : NameTable :=
  ⟨names.eraseDups.map fun name => (name, identifierStem name ++ suffix)⟩

variable {kind : ItemKind} {suffix : String}

/-! ## Looking up -/

theorem get?_naming (names : List String) (name : String) :
    (naming suffix names).get? name =
      if name ∈ names then some (identifierStem name ++ suffix) else none := by
  by_cases hname : name ∈ names
  · have hentry : (name, identifierStem name ++ suffix) ∈ (naming suffix names).entries :=
      List.mem_map_of_mem (List.mem_eraseDups.mpr hname)
    have hnodup : ((naming suffix names).entries.map (·.1)).Nodup := by
      rw [naming, List.map_map]
      exact (nodup_eraseDups names).map fun _ _ => id
    rw [get?, find?_eq_of_nodup_map hnodup hentry, if_pos hname]
    rfl
  · have hnone : (naming suffix names).entries.find? (fun entry => entry.1 = name) = none := by
      refine List.find?_eq_none.mpr (List.forall_mem_map.mpr fun other hother heq => hname ?_)
      exact of_decide_eq_true heq ▸ List.mem_eraseDups.mp hother
    rw [get?, hnone, if_neg hname]
    rfl

/-- An identifier belongs to the first name with its stem. -/
theorem owner?_naming (names : List String) (name : String) :
    (naming suffix names).owner? (identifierStem name ++ suffix) =
      names.find? fun other => identifierStem other = identifierStem name := by
  rw [owner?, naming, List.find?_map, Option.map_map]
  simp only [Function.comp_def, String.append_left_inj, Option.map_id']
  exact find?_eraseDups _ _

/-! ## Adding names -/

theorem naming_concat (names : List String) (name : String) :
    naming suffix (names ++ [name]) =
      if name ∈ names then naming suffix names
      else ⟨(naming suffix names).entries ++ [(name, identifierStem name ++ suffix)]⟩ := by
  rw [naming, eraseDups_concat]
  by_cases hname : name ∈ names
  · rw [if_pos hname, if_pos hname, naming]
  · rw [if_neg hname, if_neg hname, List.map_append]
    rfl

/-- **One name more.**  A name that was read before changes nothing; a new one is added
unless an earlier name has its stem, and then the first such name is reported. -/
theorem add_naming (names : List String) (name : String) :
    (naming suffix names).add kind suffix name =
      if name ∈ names then .ok (naming suffix names)
      else match names.find? fun other => identifierStem other = identifierStem name with
        | some first => .error (.sharedIdentifier kind (identifierStem name ++ suffix) first name)
        | none => .ok (naming suffix (names ++ [name])) := by
  simp only [add, get?_naming, owner?_naming]
  by_cases hname : name ∈ names
  · simp only [if_pos hname, Option.isSome_some, if_true]
  · simp only [if_neg hname]
    cases names.find? fun other => identifierStem other = identifierStem name with
    | none =>
        rw [naming_concat, if_neg hname]
        rfl
    | some first => rfl

/-- A new name can be added exactly when no earlier name has its stem. -/
theorem distinctStems_concat_iff {names : List String} {name : String}
    (hnames : DistinctStems names) (hname : name ∉ names) :
    DistinctStems (names ++ [name]) ↔
      names.find? (fun other => identifierStem other = identifierStem name) = none := by
  rw [List.find?_eq_none]
  constructor
  · intro hdistinct other hother hstem
    have heq := hdistinct other (List.mem_append_left _ hother) name (by simp)
      (of_decide_eq_true hstem)
    exact hname (heq ▸ hother)
  · intro hfresh first hfirst second hsecond hstem
    -- each of the two names is an earlier one or the new one
    rcases List.mem_append.mp hfirst with hfirst | hfirst <;>
      rcases List.mem_append.mp hsecond with hsecond | hsecond
    · exact hnames first hfirst second hsecond hstem
    · rw [List.mem_singleton] at hsecond
      exact absurd (decide_eq_true (hsecond ▸ hstem)) (hfresh first hfirst)
    · rw [List.mem_singleton] at hfirst
      exact absurd (decide_eq_true (hfirst ▸ hstem.symm)) (hfresh second hsecond)
    · rw [List.mem_singleton] at hfirst hsecond
      rw [hfirst, hsecond]

/-- A name that has been read before makes no difference. -/
theorem naming_concat_of_mem {names : List String} {name : String} (hname : name ∈ names) :
    naming suffix (names ++ [name]) = naming suffix names := by
  rw [naming_concat, if_pos hname]

theorem distinctStems_concat_of_mem {names : List String} {name : String}
    (hnames : DistinctStems names) (hname : name ∈ names) : DistinctStems (names ++ [name]) := by
  refine hnames.of_subset fun other hother => ?_
  rcases List.mem_append.mp hother with hother | hother
  · exact hother
  · exact List.mem_singleton.mp hother ▸ hname

/-! ## Whole lists -/

/-- **A whole list.**  Either all names are told apart by their stems, and the table comes to
hold them too, or there is a first clash, and it is reported. -/
theorem addAll_naming_cases {seen : List String} (hseen : DistinctStems seen)
    (names : List String) :
    DistinctStems (seen ++ names) ∧
        (naming suffix seen).addAll kind suffix names = .ok (naming suffix (seen ++ names)) ∨
      ∃ first second, FirstClash (seen ++ names) first second ∧
        (naming suffix seen).addAll kind suffix names =
          .error (.sharedIdentifier kind (identifierStem second ++ suffix) first second) := by
  -- the names that have been seen become part of the table
  induction names generalizing seen with
  | nil =>
      rw [List.append_nil]
      exact Or.inl ⟨hseen, rfl⟩
  | cons name names ih =>
      have hsplit : seen ++ name :: names = seen ++ [name] ++ names := by simp
      rw [addAll, add_naming]
      by_cases hname : name ∈ seen
      · rw [if_pos hname, ← naming_concat_of_mem hname, hsplit]
        exact ih (distinctStems_concat_of_mem hseen hname)
      · rw [if_neg hname]
        cases hfind : seen.find? fun other => identifierStem other = identifierStem name with
        | none =>
            rw [hsplit]
            exact ih ((distinctStems_concat_iff hseen hname).mpr hfind)
        | some first =>
            -- everything before the refused name has distinct stems, so this is the first clash
            have hfirst := List.mem_of_find?_eq_some hfind
            have hstem := List.find?_some hfind
            refine Or.inr ⟨first, name, ⟨seen, names, rfl, hseen, hfirst, ?_, ?_⟩, rfl⟩
            · rintro rfl
              exact hname hfirst
            · exact of_decide_eq_true hstem

theorem ofNames_cases (names : List String) :
    DistinctStems names ∧ ofNames kind suffix names = .ok (naming suffix names) ∨
      ∃ first second, FirstClash names first second ∧ ofNames kind suffix names =
        .error (.sharedIdentifier kind (identifierStem second ++ suffix) first second) :=
  have hnone : DistinctStems [] := fun _ hfirst => absurd hfirst List.not_mem_nil
  addAll_naming_cases hnone names

/-- **The table of a list of names.**  It exists exactly when different names have different
stems, and gives each name its own identifier, in the order of first occurrence. -/
theorem ofNames_eq_ok_iff {names : List String} {table : NameTable} :
    ofNames kind suffix names = .ok table ↔
      DistinctStems names ∧ table = naming suffix names := by
  rcases ofNames_cases names with ⟨hdistinct, htable⟩ | ⟨first, second, hclash, herror⟩
  · rw [htable]
    exact ⟨fun h => ⟨hdistinct, (Except.ok.inj h).symm⟩, fun h => by rw [h.2]⟩
  · rw [herror]
    exact ⟨fun h => (nomatch h), fun h => absurd h.1 hclash.not_distinctStems⟩

/-- **Why a list of names has no table.**  The error blames the first name that has the stem of
a different one before it, together with that one. -/
theorem ofNames_eq_error_iff {names : List String} {error : MergeError} :
    ofNames kind suffix names = .error error ↔
      ∃ first second, FirstClash names first second ∧
        error = .sharedIdentifier kind (identifierStem second ++ suffix) first second := by
  rcases ofNames_cases names with ⟨hdistinct, htable⟩ | ⟨first, second, hclash, herror⟩
  · rw [htable]
    exact ⟨fun h => (nomatch h), fun ⟨_, _, hclash, _⟩ =>
      absurd hdistinct hclash.not_distinctStems⟩
  · rw [herror]
    refine ⟨fun h => ⟨first, second, hclash, (Except.error.inj h).symm⟩, ?_⟩
    -- the error blames a first clash, and there is only one
    rintro ⟨first', second', hclash', rfl⟩
    obtain ⟨rfl, rfl⟩ := hclash.unique hclash'
    rfl

/-- Repeated names are passed over, and later clashes are not looked for. -/
example : ofNames .feature "_feature" ["a-b", "c", "a-b", "c", "a.b", "A-B"] =
    .error (.sharedIdentifier .feature "a_b_feature" "a-b" "a.b") := by
  rfl

/-! ## Exactness -/

/-- What a table holds that gives each of some names its own identifier, and nothing to any other
string. -/
structure Tabulates (suffix : String) (names : List String) (table : NameTable) : Prop where
  names_firstSeen : FirstSeen names (table.entries.map (·.1))
  identifier_eq : ∀ entry ∈ table.entries, entry.2 = identifierStem entry.1 ++ suffix
  nodup_identifiers : (table.entries.map (·.2)).Nodup
  size_eq : table.size = names.toFinset.card
  get?_of_mem : ∀ name ∈ names, table.get? name = some (identifierStem name ++ suffix)
  get?_of_not_mem : ∀ name, name ∉ names → table.get? name = none

/-- What is reported for names without a table: `second` is the first of them that has the stem of
a different name before it, and `first` is the only such name. -/
structure Blamed (suffix : String) (names : List String) (identifier first second : String) :
    Prop where
  first_clash : ∃ before after, names = before ++ second :: after ∧ DistinctStems before ∧
    ∀ other, (other ∈ before ∧ other ≠ second ∧ identifierStem other = identifierStem second) ↔
      other = first
  eq_first : identifier = identifierStem first ++ suffix
  eq_second : identifier = identifierStem second ++ suffix

theorem size_naming (names : List String) :
    (naming suffix names).size = names.toFinset.card := by
  have hsame : names.eraseDups.toFinset = names.toFinset := by
    ext name
    simp
  calc
    (naming suffix names).size = names.eraseDups.length := by simp [size, naming]
    _ = names.eraseDups.toFinset.card :=
      (List.toFinset_card_of_nodup (nodup_eraseDups names)).symm
    _ = names.toFinset.card := by rw [hsame]

theorem map_name_naming (names : List String) :
    (naming suffix names).entries.map (·.1) = names.eraseDups := by
  rw [naming, List.map_map]
  exact List.map_id _

theorem tabulates_naming {names : List String} (hnames : DistinctStems names) :
    Tabulates suffix names (naming suffix names) where
  names_firstSeen := firstSeen_iff.mpr (map_name_naming names)
  identifier_eq := by
    intro entry hentry
    obtain ⟨name, _, rfl⟩ := List.mem_map.mp hentry
    rfl
  nodup_identifiers := by
    rw [naming, List.map_map]
    refine List.Nodup.map_on (fun name hname other hother heq => ?_) (nodup_eraseDups names)
    rw [List.mem_eraseDups] at hname hother
    exact hnames name hname other hother ((String.append_left_inj _).mp heq)
  size_eq := size_naming names
  get?_of_mem := by
    intro name hname
    rw [get?_naming, if_pos hname]
  get?_of_not_mem := by
    intro name hname
    rw [get?_naming, if_neg hname]

/-- A table is known from its names, as their stems make up the identifiers. -/
theorem Tabulates.eq_naming {names : List String} {table : NameTable}
    (htable : Tabulates suffix names table) : table = naming suffix names := by
  have hentry : ∀ entry ∈ table.entries, (entry.1, identifierStem entry.1 ++ suffix) = entry := by
    intro entry hentry
    rw [← htable.identifier_eq entry hentry]
  have hentries : table.entries = (naming suffix names).entries := by
    calc
      table.entries = table.entries.map fun entry =>
          (entry.1, identifierStem entry.1 ++ suffix) := by
        rw [List.map_congr_left hentry, List.map_id']
      _ = (table.entries.map (·.1)).map fun name => (name, identifierStem name ++ suffix) := by
        rw [List.map_map]
        rfl
      _ = (naming suffix names).entries := by
        rw [firstSeen_iff.mp htable.names_firstSeen, naming]
  cases table
  exact congrArg NameTable.mk hentries

theorem blamed_iff {names : List String} {identifier first second : String} :
    Blamed suffix names identifier first second ↔
      FirstClash names first second ∧ identifier = identifierStem second ++ suffix := by
  constructor
  · rintro ⟨⟨before, after, rfl, hbefore, honly⟩, _, hidentifier⟩
    obtain ⟨hfirst, hne, hstem⟩ := (honly first).mpr rfl
    exact ⟨⟨before, after, rfl, hbefore, hfirst, hne, hstem⟩, hidentifier⟩
  · rintro ⟨⟨before, after, rfl, hbefore, hfirst, hne, hstem⟩, rfl⟩
    refine ⟨⟨before, after, rfl, hbefore, fun other => ?_⟩, by rw [hstem], rfl⟩
    constructor
    · -- the names before have distinct stems, so only one of them has the stem of `second`
      rintro ⟨hother, _, hsame⟩
      exact hbefore other hother first hfirst (hsame.trans hstem.symm)
    · rintro rfl
      exact ⟨hfirst, hne, hstem⟩

/-- **Tables of names are exact.**  Names have a table exactly when different ones have different
stems.  The table then holds their identifiers, and otherwise the first clash is reported. -/
theorem ofNames_exact (kind : ItemKind) (suffix : String) (names : List String) :
    ((∃ table, ofNames kind suffix names = .ok table) ↔ DistinctStems names) ∧
      (∀ table, ofNames kind suffix names = .ok table ↔
        DistinctStems names ∧ Tabulates suffix names table) ∧
      ∀ error, ofNames kind suffix names = .error error ↔
        ∃ identifier first second, Blamed suffix names identifier first second ∧
          error = .sharedIdentifier kind identifier first second := by
  refine ⟨⟨?_, ?_⟩, fun table => ⟨?_, ?_⟩, fun error => ?_⟩
  · rintro ⟨table, htable⟩
    exact (ofNames_eq_ok_iff.mp htable).1
  · intro hnames
    exact ⟨_, ofNames_eq_ok_iff.mpr ⟨hnames, rfl⟩⟩
  · intro htable
    obtain ⟨hnames, rfl⟩ := ofNames_eq_ok_iff.mp htable
    exact ⟨hnames, tabulates_naming hnames⟩
  · rintro ⟨hnames, htable⟩
    exact ofNames_eq_ok_iff.mpr ⟨hnames, htable.eq_naming⟩
  · rw [ofNames_eq_error_iff]
    constructor
    · rintro ⟨first, second, hclash, herror⟩
      exact ⟨_, first, second, blamed_iff.mpr ⟨hclash, rfl⟩, herror⟩
    · rintro ⟨identifier, first, second, hblamed, herror⟩
      obtain ⟨hclash, rfl⟩ := blamed_iff.mp hblamed
      exact ⟨first, second, hclash, herror⟩

end NameTable

end ToolchainMerge
