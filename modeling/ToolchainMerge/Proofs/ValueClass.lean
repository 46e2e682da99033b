import ToolchainMerge.Proofs.Lists
import ToolchainMerge.ValueClass

/-!
# The classes of a list of entries

`ValueClass.ofEntries` grows its classes entry by entry.  The main statement,
`ofEntries_eq`, says what has come about at the end: there is one class for each
value, the values stand in the order in which they first occur, and the keys of a
class are those of the entries with its value, in the order of the entries.

Everything else about classes follows: no two have one value, none is without a
key, and together they hold the keys of the entries, each as often as it was there.
`GroupsByValue` puts all of it together, and no other list of classes satisfies it
(`groupsByValue_iff`).
-/

namespace ToolchainMerge.ValueClass

variable {α β : Type}

@[simp] theorem map_value (change : α → β) (group : ValueClass α) :
    (group.map change).value = change group.value := rfl

@[simp] theorem map_keys (change : α → β) (group : ValueClass α) :
    (group.map change).keys = group.keys := rfl

variable [DecidableEq α]

/-- The keys of the entries with a value, in the order of the entries. -/
def keysOf (entries : List (Key × α)) (value : α) : List Key :=
  (entries.filter fun entry => entry.2 = value).map (·.1)

/-! ## Adding one entry -/

theorem keysOf_concat (entries : List (Key × α)) (key : Key) (value wanted : α) :
    keysOf (entries ++ [(key, value)]) wanted =
      if value = wanted then keysOf entries wanted ++ [key] else keysOf entries wanted := by
  by_cases hvalue : value = wanted <;> simp [keysOf, hvalue]

theorem keysOf_eq_nil {entries : List (Key × α)} {value : α}
    (hvalue : value ∉ entries.map (·.2)) : keysOf entries value = [] := by
  rw [keysOf, List.map_eq_nil_iff, List.filter_eq_nil_iff]
  intro entry hentry heq
  exact hvalue (List.mem_map.mpr ⟨entry, hentry, by simpa using heq⟩)

/-- A value that has no class yet opens one at the end. -/
theorem insert_of_not_mem {groups : List (ValueClass α)} {key : Key} {value : α}
    (hvalue : value ∉ groups.map (·.value)) :
    insert key value groups = groups ++ [⟨value, [key]⟩] := by
  induction groups with
  | nil => rfl
  | cons group groups ih =>
      simp only [List.map_cons, List.mem_cons, not_or] at hvalue
      rw [insert, if_neg (Ne.symm hvalue.1), ih hvalue.2]
      rfl

/-- A value that has a class adds its key there and nowhere else. -/
theorem insert_of_mem {values : List α} (hnodup : values.Nodup) (keys : α → List Key)
    {key : Key} {value : α} (hvalue : value ∈ values) :
    insert key value (values.map fun other => ⟨other, keys other⟩) =
      values.map fun other =>
        ⟨other, if value = other then keys other ++ [key] else keys other⟩ := by
  induction values with
  | nil => exact absurd hvalue (List.not_mem_nil)
  | cons first rest ih =>
      rw [List.nodup_cons] at hnodup
      by_cases hfirst : first = value
      · subst hfirst
        rw [List.map_cons, insert, if_pos rfl, List.map_cons, if_pos rfl]
        refine congrArg _ (List.map_congr_left fun other hother => ?_)
        rw [if_neg fun heq : first = other => hnodup.1 (heq ▸ hother)]
      · have hrest : value ∈ rest := by
          rcases List.mem_cons.mp hvalue with heq | hrest
          · exact absurd heq.symm hfirst
          · exact hrest
        rw [List.map_cons, insert, if_neg hfirst, ih hnodup.2 hrest, List.map_cons,
          if_neg (Ne.symm hfirst)]

/-! ## All entries -/

/-- **The classes of a list of entries.**  One class for each value, in the order of
first occurrence, with the keys of all entries of that value. -/
theorem ofEntries_eq (entries : List (Key × α)) :
    ofEntries entries =
      (entries.map (·.2)).eraseDups.map fun value => ⟨value, keysOf entries value⟩ := by
  -- entries are inserted from the front, so the last one meets the classes of all others
  induction entries using List.reverseRecOn with
  | nil => rfl
  | append_singleton entries last ih =>
      obtain ⟨key, value⟩ := last
      have hstep : ofEntries (entries ++ [(key, value)]) =
          insert key value (ofEntries entries) := by
        simp [ofEntries]
      rw [hstep, ih, List.map_append, List.map_singleton, eraseDups_concat]
      simp only [keysOf_concat]
      by_cases hvalue : value ∈ entries.map (·.2)
      · rw [if_pos hvalue]
        exact insert_of_mem (nodup_eraseDups _) _ (List.mem_eraseDups.mpr hvalue)
      · have hclasses : value ∉ (entries.map (·.2)).eraseDups := by
          rwa [List.mem_eraseDups]
        rw [if_neg hvalue, insert_of_not_mem (by simpa using hvalue), List.map_append,
          List.map_singleton, if_pos rfl, keysOf_eq_nil hvalue]
        refine congrArg (· ++ _) (List.map_congr_left fun other hother => ?_)
        rw [if_neg fun heq : value = other => hclasses (heq ▸ hother)]

theorem map_value_ofEntries (entries : List (Key × α)) :
    (ofEntries entries).map (·.value) = (entries.map (·.2)).eraseDups := by
  rw [ofEntries_eq, List.map_map]
  exact List.map_id _

theorem nodup_map_value_ofEntries (entries : List (Key × α)) :
    ((ofEntries entries).map (·.value)).Nodup := by
  rw [map_value_ofEntries]
  exact nodup_eraseDups _

theorem mem_ofEntries {entries : List (Key × α)} {group : ValueClass α} :
    group ∈ ofEntries entries ↔
      group.value ∈ entries.map (·.2) ∧ group.keys = keysOf entries group.value := by
  rw [ofEntries_eq, List.mem_map]
  constructor
  · rintro ⟨value, hvalue, rfl⟩
    exact ⟨List.mem_eraseDups.mp hvalue, rfl⟩
  · rintro ⟨hvalue, hkeys⟩
    exact ⟨group.value, List.mem_eraseDups.mpr hvalue, by rw [← hkeys]⟩

/-- The class of an entry holds its key. -/
theorem exists_mem_ofEntries {entries : List (Key × α)} {key : Key} {value : α}
    (hentry : (key, value) ∈ entries) :
    ∃ group ∈ ofEntries entries, group.value = value ∧ key ∈ group.keys :=
  ⟨⟨value, keysOf entries value⟩,
    mem_ofEntries.mpr ⟨List.mem_map.mpr ⟨_, hentry, rfl⟩, rfl⟩, rfl,
    List.mem_map.mpr ⟨(key, value), List.mem_filter.mpr ⟨hentry, by simp⟩, rfl⟩⟩

/-- No class is without a key. -/
theorem keys_ne_nil_of_mem_ofEntries {entries : List (Key × α)} {group : ValueClass α}
    (hgroup : group ∈ ofEntries entries) : group.keys ≠ [] := by
  obtain ⟨⟨key, value⟩, hentry, hvalue⟩ := List.mem_map.mp (mem_ofEntries.mp hgroup).1
  rw [(mem_ofEntries.mp hgroup).2]
  refine List.ne_nil_of_mem (a := key) (List.mem_map.mpr ⟨(key, value), ?_, rfl⟩)
  exact List.mem_filter.mpr ⟨hentry, by simpa using hvalue⟩

/-! ## The keys of all classes -/

theorem flatMap_keys_insert (groups : List (ValueClass α)) (key : Key) (value : α) :
    ((insert key value groups).flatMap (·.keys)).Perm (groups.flatMap (·.keys) ++ [key]) := by
  induction groups with
  | nil => exact List.Perm.refl _
  | cons group groups ih =>
      rw [insert]
      split
      · simp only [List.flatMap_cons, List.append_assoc]
        exact List.perm_append_comm.append_left _
      · simp only [List.flatMap_cons, List.append_assoc]
        exact ih.append_left _

/-- Together the classes hold the keys of the entries. -/
theorem flatMap_keys_ofEntries (entries : List (Key × α)) :
    ((ofEntries entries).flatMap (·.keys)).Perm (entries.map (·.1)) := by
  induction entries using List.reverseRecOn with
  | nil => exact List.Perm.refl _
  | append_singleton entries last ih =>
      have hstep : ofEntries (entries ++ [last]) = insert last.1 last.2 (ofEntries entries) := by
        simp [ofEntries]
      rw [hstep, List.map_append, List.map_singleton]
      exact (flatMap_keys_insert _ _ _).trans (ih.append_right _)

/-! ## Grouping -/

/-- Classes that group some entries by value in first-seen order: each value of an entry has one
class, which holds the keys of the entries with that value.  A key that several entries have counts
as often. -/
structure GroupsByValue (entries : List (Key × α)) (groups : List (ValueClass α)) : Prop where
  values_firstSeen : FirstSeen (entries.map (·.2)) (groups.map (·.value))
  keys_eq : ∀ group ∈ groups,
    group.keys = (entries.filter fun entry => entry.2 = group.value).map (·.1)
  nodup_values : (groups.map (·.value)).Nodup
  keys_ne_nil : ∀ group ∈ groups, group.keys ≠ []
  keys_perm : (groups.flatMap (·.keys)).Perm (entries.map (·.1))

theorem groupsByValue_ofEntries (entries : List (Key × α)) :
    GroupsByValue entries (ofEntries entries) where
  values_firstSeen := firstSeen_iff.mpr (map_value_ofEntries entries)
  keys_eq := fun _ hgroup => (mem_ofEntries.mp hgroup).2
  nodup_values := nodup_map_value_ofEntries entries
  keys_ne_nil := fun _ => keys_ne_nil_of_mem_ofEntries
  keys_perm := flatMap_keys_ofEntries entries

/-- **The classes of entries are their grouping by value.**  They are the only one. -/
theorem groupsByValue_iff {entries : List (Key × α)} {groups : List (ValueClass α)} :
    GroupsByValue entries groups ↔ groups = ofEntries entries := by
  constructor
  · intro hgroups
    -- a class is known from its value, and the values come in one order
    have hgroup : ∀ group ∈ groups,
        (⟨group.value, keysOf entries group.value⟩ : ValueClass α) = group := by
      intro group hgroup
      rw [keysOf, ← hgroups.keys_eq group hgroup]
    have hvalues : groups.map (·.value) = (entries.map (·.2)).eraseDups :=
      firstSeen_iff.mp hgroups.values_firstSeen
    calc
      groups = groups.map fun group => ⟨group.value, keysOf entries group.value⟩ := by
        rw [List.map_congr_left hgroup, List.map_id']
      _ = (groups.map (·.value)).map fun value => ⟨value, keysOf entries value⟩ := by
        rw [List.map_map]
        rfl
      _ = ofEntries entries := by rw [hvalues, ofEntries_eq]
  · rintro rfl
    exact groupsByValue_ofEntries entries

/-- A key that two entries have is held twice, by one class or by two. -/
example :
    ofEntries [(⟨"k8", "gcc"⟩, 1), (⟨"arm", "gcc"⟩, 2), (⟨"k8", "gcc"⟩, 2), (⟨"k8", "gcc"⟩, 1)] =
      [⟨1, [⟨"k8", "gcc"⟩, ⟨"k8", "gcc"⟩]⟩, ⟨2, [⟨"arm", "gcc"⟩, ⟨"k8", "gcc"⟩]⟩] := by
  decide

end ToolchainMerge.ValueClass
