import ToolchainMerge.Json.Record
import ToolchainMerge.Proofs.JsonCodec
import ToolchainMerge.Proofs.Lists

/-!
# Records are read from their spellings

A schema lists the fields of a record, and a reader meets their members in some order.  What it
has stored when it is done is the record that is spelled, provided that no field disturbs
another one.

## Strategy

A `Slot` is a field in view of the record that is wanted.  The invariant of reading an object is
that every slot has either stored its value or its member is still to come
(`Slot.MakeUp.stored_putAll`); the order of the members plays no part in it.  So an object is
read as the wanted record if its members give some fields their values and the other fields have
them by default (`Schema.readObject_of_gives`), and an array if its items do
(`Schema.readPositions_of_forall₂`).  A name that does not decode ends the reading whatever the
fields are (`Schema.exists_error_of_not_says`).

A slot that follows a rule (`Slot.Follows`) reads every tree that the rule allows, so both cases
apply to whatever spells the record (`Schema.read_of_spelling`).  What a schema writes is one of
these spellings (`Schema.spelling_write`), as deep in the document as there are levels left for
it.  The fields that write need not be those that read, since a type that contains itself has
different codecs for the two.

For all other types `Schema.Lawful.codec` concludes from the codecs of the fields to that of the
record.
-/

namespace ToolchainMerge.Json

/-! ## Slots -/

variable {ρ α : Type}

namespace Field

/-- The names under which a field is read. -/
def names (field : Field ρ) : List String :=
  field.name :: field.alias?.toList

theorem answersTo_iff {field : Field ρ} {name : String} :
    field.answersTo name = true ↔ name ∈ field.names := by
  rw [answersTo, names, Bool.or_eq_true, decide_eq_true_iff, decide_eq_true_iff, List.mem_cons,
    Option.mem_toList, eq_comm (a := some name)]

/-- Where no name belongs to two fields, a member belongs to the field that answers to it. -/
theorem find?_answersTo {fields : List (Field ρ)} (hnames : (fields.flatMap names).Nodup)
    {field : Field ρ} (hfield : field ∈ fields) {name : String}
    (hname : field.answersTo name = true) :
    fields.find? (·.answersTo name) = some field := by
  rw [find?_eq_some_iff_of_pairwise]
  · exact ⟨hfield, hname⟩
  · refine (List.nodup_flatMap.mp hnames).2.imp fun {first second} hdisjoint hboth => ?_
    exact hdisjoint (answersTo_iff.mp hboth.1) (answersTo_iff.mp hboth.2)

end Field

/-- A field in view of the record that is wanted: what it does to a record when it reads the
value that the wanted record has for it, and how one sees that it has done so. -/
structure Slot (ρ : Type) where
  field : Field ρ
  put : ρ → ρ
  Stored : ρ → Prop

namespace Slot

/-- The slot of a field for one component of a record. -/
def of (field : Field ρ) (get : ρ → α) (set : ρ → α → ρ) (wanted : ρ) : Slot ρ where
  field := field
  put record := set record (get wanted)
  Stored record := get record = get wanted

@[simp] theorem stored_of (field : Field ρ) (get : ρ → α) (set : ρ → α → ρ) (wanted record : ρ) :
    (of field get set wanted).Stored record = (get record = get wanted) :=
  rfl

@[simp] theorem put_of (field : Field ρ) (get : ρ → α) (set : ρ → α → ρ) (wanted record : ρ) :
    (of field get set wanted).put record = set record (get wanted) :=
  rfl

/-- Stores the wanted values of some fields. -/
def putAll (slots : List (Slot ρ)) (record : ρ) : ρ :=
  slots.foldl (fun record slot => slot.put record) record

/-- The wanted record consists of what is stored through the slots, and no slot destroys what
another one has stored. -/
structure MakeUp (slots : List (Slot ρ)) (wanted : ρ) : Prop where
  stored_put : ∀ slot ∈ slots, ∀ record, slot.Stored (slot.put record)
  stored_of_put : ∀ slot ∈ slots, ∀ other ∈ slots, ∀ record,
    other.Stored record → other.Stored (slot.put record)
  eq_of_stored : ∀ record, (∀ slot ∈ slots, slot.Stored record) → record = wanted

variable {slots given : List (Slot ρ)} {wanted : ρ}

/-- What has been stored before or is stored now is stored afterwards, in any order. -/
theorem MakeUp.stored_putAll (hslots : MakeUp slots wanted) (hgiven : given ⊆ slots)
    {slot : Slot ρ} (hslot : slot ∈ slots) {record : ρ}
    (hstored : slot ∈ given ∨ slot.Stored record) : slot.Stored (putAll given record) := by
  induction given generalizing record with
  | nil => exact hstored.resolve_left List.not_mem_nil
  | cons first given ih =>
      rw [List.cons_subset] at hgiven
      refine ih hgiven.2 ?_
      rcases hstored with hmem | hbefore
      · rcases List.mem_cons.mp hmem with rfl | hmem
        · exact Or.inr (hslots.stored_put slot hslot record)
        · exact Or.inl hmem
      · exact Or.inr (hslots.stored_of_put first hgiven.1 slot hslot record hbefore)

/-- The wanted record is all that there is in the end. -/
theorem MakeUp.putAll_eq (hslots : MakeUp slots wanted) (hgiven : given ⊆ slots) {record : ρ}
    (hothers : ∀ slot ∈ slots, slot ∈ given ∨ slot.Stored record) : putAll given record = wanted :=
  hslots.eq_of_stored _ fun slot hslot => hslots.stored_putAll hgiven hslot (hothers slot hslot)

/-- A tree from which a slot reads the wanted value. -/
def Reads (slot : Slot ρ) (depth : Nat) (json : Json) : Prop :=
  ∀ record, slot.field.read depth json record = .ok (slot.put record)

/-- The slot has the wanted value by default, and may be left out. -/
def HasDefault (slot : Slot ρ) (default : ρ) : Prop :=
  slot.field.required = false ∧ slot.Stored default

/-- The members of an object give some slots their wanted values, one after another.  Members of
other names may stand between them. -/
inductive Gives (fields : List (Field ρ)) (depth : Nat) :
    List (Literal × Json) → List (Slot ρ) → Prop
  | nil : Gives fields depth [] []
  | field {key : Literal} {name : String} {value : Json} {slot : Slot ρ}
      {members : List (Literal × Json)} {given : List (Slot ρ)} (hkey : key.read = .ok name)
      (hname : slot.field.answersTo name = true) (hvalue : slot.Reads depth value)
      (hrest : Gives fields depth members given) :
      Gives fields depth ((key, value) :: members) (slot :: given)
  | other {key : Literal} {name : String} {value : Json} {members : List (Literal × Json)}
      {given : List (Slot ρ)} (hkey : key.read = .ok name)
      (hname : ∀ field ∈ fields, ¬ field.answersTo name = true) (hvalue : value.skip = .ok ())
      (hrest : Gives fields depth members given) :
      Gives fields depth ((key, value) :: members) given

end Slot

/-! ## Reading an object -/

namespace Schema

variable {slots given : List (Slot ρ)} {depth : Nat} {members : List (Literal × Json)}

/-- Members that give different fields their wanted values are read one after another. -/
theorem readMembers_of_gives (hnames : ((slots.map (·.field)).flatMap Field.names).Nodup)
    (hmembers : Slot.Gives (slots.map (·.field)) depth members given) (hgiven : given ⊆ slots)
    (hnodup : (given.map (·.field.name)).Nodup) {seen : List String}
    (hseen : ∀ slot ∈ given, slot.field.name ∉ seen) (record : ρ) :
    readMembers (slots.map (·.field)) depth seen record members =
      .ok ((given.map (·.field.name)).reverse ++ seen, Slot.putAll given record) := by
  induction hmembers generalizing seen record with
  | nil => rfl
  | @field key name value slot members given hkey hname hvalue _ ih =>
      rw [List.cons_subset] at hgiven
      rw [List.map_cons, List.nodup_cons] at hnodup
      rw [List.forall_mem_cons] at hseen
      have hfield : (slots.map (·.field)).find? (·.answersTo name) = some slot.field :=
        Field.find?_answersTo hnames (List.mem_map_of_mem hgiven.1) hname
      -- a field that is read joins those that may not come again
      have hrest : ∀ other ∈ given, other.field.name ∉ slot.field.name :: seen := by
        intro other hother hmem
        rcases List.mem_cons.mp hmem with heq | hmem
        · exact hnodup.1 (heq ▸ List.mem_map_of_mem hother)
        · exact hseen.2 other hother hmem
      have hread := ih hgiven.2 hnodup.2 hrest (slot.put record)
      rw [readMembers, hkey]
      simp only [bind, Except.bind, hfield, if_neg hseen.1, hvalue record]
      rw [hread, List.map_cons, List.reverse_cons, List.append_assoc]
      rfl
  | @other key name value members given hkey hname hvalue _ ih =>
      have hfield : (slots.map (·.field)).find? (·.answersTo name) = none :=
        List.find?_eq_none.mpr hname
      rw [readMembers, hkey]
      simp only [bind, Except.bind, hfield, hvalue]
      exact ih hgiven hnodup hseen record

/-- Every name that is read says something, whether it is that of a field or not. -/
theorem exists_says_of_readMembers {fields : List (Field ρ)} {seen : List String} {record : ρ}
    {result : List String × ρ}
    (hread : readMembers fields depth seen record members = .ok result) :
    ∀ member ∈ members, ∃ name, member.1.Says name := by
  induction members generalizing seen record with
  | nil => exact List.forall_mem_nil _
  | cons member members ih =>
      obtain ⟨key, value⟩ := member
      rw [readMembers] at hread
      obtain ⟨name, hkey, hread⟩ := bind_eq_ok_iff.mp hread
      refine List.forall_mem_cons.mpr ⟨⟨name, Literal.read_eq_ok_iff.mp hkey⟩, ?_⟩
      split at hread
      · -- the value of a member that belongs to no field is passed over
        obtain ⟨_, _, hrest⟩ := bind_eq_ok_iff.mp hread
        exact ih hrest
      · -- the value of a field is stored, unless the field has come before
        split at hread
        · exact nomatch hread
        · obtain ⟨_, _, hrest⟩ := bind_eq_ok_iff.mp hread
          exact ih hrest

/-- An object with a name that says nothing is refused. -/
theorem exists_error_of_not_says {schema : Schema ρ} {stop : Option Fault} {key : Literal}
    {value : Json} (hmember : (key, value) ∈ members) (hkey : ∀ name, ¬ key.Says name) :
    ∃ error, schema.readObject depth members stop = .error error := by
  rw [readObject]
  cases hread : readMembers schema.fields depth [] schema.default members with
  | error error => exact ⟨error, rfl⟩
  | ok result =>
      obtain ⟨name, hname⟩ := exists_says_of_readMembers hread (key, value) hmember
      exact absurd hname (hkey name)

/-- **An object is read as the wanted record** if its members give some fields their wanted
values, and the others may be left out and have them by default. -/
theorem readObject_of_gives {schema : Schema ρ} {wanted : ρ}
    (hfields : slots.map (·.field) = schema.fields)
    (hnames : (schema.fields.flatMap Field.names).Nodup) (hslots : Slot.MakeUp slots wanted)
    (hmembers : Slot.Gives schema.fields depth members given) (hgiven : given ⊆ slots)
    (hnodup : (given.map (·.field.name)).Nodup)
    (hothers : ∀ slot ∈ slots, slot ∈ given ∨ slot.HasDefault schema.default) :
    schema.readObject depth members none = .ok wanted := by
  rw [← hfields] at hnames hmembers
  have hread := readMembers_of_gives hnames hmembers hgiven hnodup
    (fun _ _ => List.not_mem_nil) schema.default
  have hmissing : missing? (slots.map (·.field))
      ((given.map (·.field.name)).reverse ++ []) = none := by
    rw [missing?, List.find?_eq_none]
    refine List.forall_mem_map.mpr fun slot hslot => ?_
    rw [List.append_nil, Bool.and_eq_true, decide_eq_true_iff, List.mem_reverse]
    rintro ⟨hrequired, habsent⟩
    rcases hothers slot hslot with hmem | ⟨hoptional, _⟩
    · exact habsent (List.mem_map_of_mem hmem)
    · rw [hoptional] at hrequired
      exact nomatch hrequired
  have hwanted : Slot.putAll given schema.default = wanted :=
    hslots.putAll_eq hgiven fun slot hslot => (hothers slot hslot).imp_right And.right
  rw [readObject, ← hfields, hread]
  simp only [bind, Except.bind, checkEnd, hmissing, hwanted]

/-! ## Reading an array -/

/-- Items that give the first fields their wanted values are read one after another, and the
fields behind them may be left out. -/
theorem readPositions_of_forall₂ {front back : List (Slot ρ)} {items : List Json}
    (hitems : List.Forall₂ (fun slot item => slot.Reads depth item) front items)
    (hback : ∀ slot ∈ back, slot.field.required = false) (short : Nat → ReadError) (count : Nat)
    (record : ρ) :
    readPositions short depth none count record ((front ++ back).map (·.field)) items =
      .ok (Slot.putAll front record) := by
  induction hitems generalizing count record with
  | nil =>
      cases back with
      | nil => rfl
      | cons slot back =>
          have hany : ((slot :: back).map (·.field)).any (·.required) = false := by
            rw [List.any_eq_false]
            refine List.forall_mem_map.mpr fun slot hslot => ?_
            rw [hback slot hslot]
            exact Bool.false_ne_true
          rw [List.map_cons] at hany
          rw [List.nil_append, List.map_cons, readPositions, hany]
          rfl
  | @cons slot item front items hitem _ ih =>
      rw [List.cons_append, List.map_cons, readPositions, hitem record]
      exact ih (count + 1) (slot.put record)

end Schema

/-! ## Rules and slots -/

namespace Slot

/-- The slot of a field reads whatever the rule allows for the wanted record. -/
structure Follows (levels : Nat) (wanted default : ρ) (rule : FieldRule ρ) (field : Field ρ)
    (slot : Slot ρ) : Prop where
  field_eq : slot.field = field
  names_eq : field.names = rule.names
  read : ∀ json, rule.spelled levels wanted json → slot.Reads levels json
  omissible : rule.Omissible wanted → slot.HasDefault default

/-- The fields follow the rules one by one. -/
inductive FollowAll (levels : Nat) (wanted default : ρ) :
    List (FieldRule ρ) → List (Field ρ) → List (Slot ρ) → Prop
  | nil : FollowAll levels wanted default [] [] []
  | cons {rule : FieldRule ρ} {field : Field ρ} {slot : Slot ρ} {rules : List (FieldRule ρ)}
      {fields : List (Field ρ)} {slots : List (Slot ρ)}
      (hfirst : Follows levels wanted default rule field slot)
      (hrest : FollowAll levels wanted default rules fields slots) :
      FollowAll levels wanted default (rule :: rules) (field :: fields) (slot :: slots)

variable {levels : Nat} {wanted default : ρ} {rules : List (FieldRule ρ)} {fields : List (Field ρ)}
  {slots : List (Slot ρ)}

theorem FollowAll.map_field (hslots : FollowAll levels wanted default rules fields slots) :
    slots.map Slot.field = fields := by
  induction hslots with
  | nil => rfl
  | cons hfirst _ ih => rw [List.map_cons, hfirst.field_eq, ih]

theorem FollowAll.forall₂ (hslots : FollowAll levels wanted default rules fields slots) :
    List.Forall₂ (fun rule slot => Follows levels wanted default rule slot.field slot) rules
      slots := by
  induction hslots with
  | nil => exact .nil
  | cons hfirst _ ih =>
      have hnames := hfirst.names_eq
      rw [← hfirst.field_eq] at hnames
      exact .cons ⟨rfl, hnames, hfirst.read, hfirst.omissible⟩ ih

/-- The names of the fields are those that the rules give them. -/
theorem FollowAll.exists_rule (hslots : FollowAll levels wanted default rules fields slots) :
    ∀ field ∈ fields, ∃ rule ∈ rules, field.names = rule.names := by
  induction hslots with
  | nil => exact List.forall_mem_nil _
  | cons hfirst _ ih =>
      refine List.forall_mem_cons.mpr ⟨⟨_, List.mem_cons_self .., hfirst.names_eq⟩, ?_⟩
      intro field hfield
      obtain ⟨rule, hrule, hnames⟩ := ih field hfield
      exact ⟨rule, List.mem_cons_of_mem _ hrule, hnames⟩

/-- Rules whose fields may be left out belong to slots that may. -/
theorem hasDefault_of_omissible
    (hslots : List.Forall₂ (fun rule slot => Follows levels wanted default rule slot.field slot)
      rules slots)
    (hrules : ∀ rule ∈ rules, rule.Omissible wanted) : ∀ slot ∈ slots, slot.HasDefault default := by
  induction hslots with
  | nil => exact List.forall_mem_nil _
  | cons hfirst _ ih =>
      rw [List.forall_mem_cons] at hrules ⊢
      exact ⟨hfirst.omissible hrules.1, ih hrules.2⟩

/-- The items that spell fields are read by the slots of these fields. -/
theorem reads_of_spelled
    (hslots : List.Forall₂ (fun rule slot => Follows levels wanted default rule slot.field slot)
      rules slots) {items : List Json}
    (hitems : List.Forall₂ (fun rule item => rule.spelled levels wanted item) rules items) :
    List.Forall₂ (fun slot item => slot.Reads levels item) slots items := by
  induction hslots generalizing items with
  | nil =>
      cases hitems
      exact .nil
  | cons hfirst _ ih =>
      cases hitems with
      | cons hitem hitems => exact .cons (hfirst.read _ hitem) (ih hitems)

/-- The members that spell a record give some of the slots that are still to come their values,
and the rest have them by default. -/
theorem exists_gives (hnames : ∀ field ∈ fields, ∃ rule ∈ rules, field.names = rule.names)
    {pending : List (FieldRule ρ)} {members : List (Literal × Json)}
    (hmembers : SpelledMembers rules levels wanted pending members)
    (hslots : List.Forall₂ (fun rule slot => Follows levels wanted default rule slot.field slot)
      pending slots) :
    ∃ given rest, (given ++ rest).Perm slots ∧ Gives fields levels members given ∧
      ∀ slot ∈ rest, slot.HasDefault default := by
  induction hmembers generalizing slots with
  | done hpending => exact ⟨[], slots, .refl _, .nil, hasDefault_of_omissible hslots hpending⟩
  | field hkey hname hvalue _ ih =>
      obtain ⟨before, others, rfl, hbefore, hothers⟩ := exists_append_of_forall₂ hslots
      obtain ⟨slot, after, hslot, hafter, rfl⟩ := List.forall₂_cons_left_iff.mp hothers
      obtain ⟨given, rest, hperm, hgives, hrest⟩ := ih (List.rel_append hbefore hafter)
      refine ⟨slot :: given, rest, ?_, ?_, hrest⟩
      · exact (hperm.cons slot).trans List.perm_middle.symm
      · refine .field (Literal.read_of_says hkey) ?_ (hslot.read _ hvalue) hgives
        rwa [Field.answersTo_iff, hslot.names_eq]
  | other hkey hname hvalue _ ih =>
      obtain ⟨given, rest, hperm, hgives, hrest⟩ := ih hslots
      refine ⟨given, rest, hperm, .other (Literal.read_of_says hkey) ?_ hvalue.skip hgives, hrest⟩
      intro field hfield hanswers
      obtain ⟨rule, hrule, heq⟩ := hnames field hfield
      exact hname rule hrule (heq ▸ Field.answersTo_iff.mp hanswers)

end Slot

namespace Schema

variable {schema : Schema ρ} {rules : List (FieldRule ρ)} {levels : Nat} {wanted : ρ}
  {slots : List (Slot ρ)}

/-- **A record is read from each of its spellings.** -/
theorem read_of_spelling (hnames : (schema.fields.flatMap Field.names).Nodup)
    (hslots : Slot.FollowAll levels wanted schema.default rules schema.fields slots)
    (hmakeUp : Slot.MakeUp slots wanted) {json : Json}
    (hjson : Spelling.record rules (levels + 1) wanted json) :
    schema.read (levels + 1) json = .ok wanted := by
  have hfields := hslots.map_field
  rcases hjson with ⟨members, rfl, hmembers⟩ | ⟨items, rfl, front, back, rfl, hitems, hback⟩
  · -- an object
    obtain ⟨given, rest, hperm, hgives, hrest⟩ :=
      Slot.exists_gives hslots.exists_rule hmembers hslots.forall₂
    have hnodup : ((given ++ rest).map (·.field.name)).Nodup := by
      have hfirst : (schema.fields.map Field.name).Nodup := by
        refine List.pairwise_map.mpr ((List.nodup_flatMap.mp hnames).2.imp ?_)
        intro first second hdisjoint heq
        exact hdisjoint (List.mem_cons_self ..) (heq ▸ List.mem_cons_self ..)
      rw [← hfields, List.map_map] at hfirst
      exact (hperm.map _).nodup_iff.mpr hfirst
    rw [List.map_append] at hnodup
    refine readObject_of_gives hfields hnames hmakeUp hgives ?_ hnodup.of_append_left ?_
    · exact fun slot hslot => hperm.subset (List.mem_append_left _ hslot)
    · intro slot hslot
      exact (List.mem_append.mp (hperm.symm.subset hslot)).imp_right (hrest slot)
  · -- an array
    obtain ⟨front, back, rfl, hfront, hbackSlots⟩ := exists_append_of_forall₂ hslots.forall₂
    have hdefault := Slot.hasDefault_of_omissible hbackSlots hback
    have hread := readPositions_of_forall₂ (Slot.reads_of_spelled hfront hitems)
      (fun slot hslot => (hdefault slot hslot).1) (.wrongLength · schema.name schema.fields.length)
      0 schema.default
    rw [hfields] at hread
    rw [read, hread, hmakeUp.putAll_eq (List.subset_append_left front back)]
    intro slot hslot
    exact (List.mem_append.mp hslot).imp_right fun hmem => (hdefault slot hmem).2

end Schema

/-! ## Writing a record -/

/-- What the field writes for a record is what the rule allows for it. -/
structure Field.Obeys (levels : Nat) (record : ρ) (rule : FieldRule ρ) (field : Field ρ) :
    Prop where
  name_mem : field.name ∈ rule.names
  plain : ∀ json, field.write record = some json → json.Plain
  spelled : ∀ json, field.write record = some json → json.depth ≤ levels →
    rule.spelled levels record json
  absent : field.write record = none → rule.Omissible record

/-- A field that may be left out need not come. -/
theorem SpelledMembers.omit {rules pending : List (FieldRule ρ)} {levels : Nat} {record : ρ}
    {members : List (Literal × Json)} {rule : FieldRule ρ} (hrule : rule.Omissible record)
    (hmembers : SpelledMembers rules levels record pending members) :
    SpelledMembers rules levels record (rule :: pending) members := by
  induction hmembers with
  | done hpending => exact .done (List.forall_mem_cons.mpr ⟨hrule, hpending⟩)
  | @field before after _ _ _ _ _ hkey hname hvalue _ ih =>
      rw [← List.cons_append] at ih ⊢
      exact .field hkey hname hvalue ih
  | other hkey hname hvalue _ ih => exact .other hkey hname hvalue ih

namespace Schema

variable {schema : Schema ρ} {rules : List (FieldRule ρ)} {levels : Nat} {record : ρ}

/-- The members that are written spell the record. -/
theorem spelledMembers_write {pending : List (FieldRule ρ)} {fields : List (Field ρ)}
    (hfields : List.Forall₂ (Field.Obeys levels record) pending fields)
    (hdepth : membersDepth (fields.filterMap fun field =>
      (field.write record).map fun value => (Literal.ofString field.name, value)) ≤ levels) :
    SpelledMembers rules levels record pending (fields.filterMap fun field =>
      (field.write record).map fun value => (Literal.ofString field.name, value)) := by
  induction hfields with
  | nil => exact .done (List.forall_mem_nil _)
  | @cons rule field pending fields hfield _ ih =>
      rw [List.filterMap_cons] at hdepth ⊢
      cases hwrite : field.write record with
      | none =>
          rw [hwrite] at hdepth
          exact (ih hdepth).omit (hfield.absent hwrite)
      | some value =>
          rw [hwrite] at hdepth
          obtain ⟨hvalue, hrest⟩ := List.forall_mem_cons.mp (membersDepth_le_iff.mp hdepth)
          have hmembers := ih (membersDepth_le_iff.mpr hrest)
          rw [← List.nil_append pending] at hmembers
          exact .field (Literal.says_ofString field.name) hfield.name_mem
            (hfield.spelled value hwrite hvalue) hmembers

/-- **What is written for a record is one of its spellings.** -/
theorem spelling_write (hfields : List.Forall₂ (Field.Obeys levels record) rules schema.fields)
    (hdepth : (schema.write record).depth ≤ levels + 1) :
    Spelling.record rules (levels + 1) record (schema.write record) :=
  Or.inl ⟨_, rfl, spelledMembers_write hfields (Nat.le_of_succ_le_succ hdepth)⟩

theorem plain_of_obeys {fields : List (Field ρ)}
    (hfields : List.Forall₂ (Field.Obeys levels record) rules fields) :
    ∀ field ∈ fields, ∀ json, field.write record = some json → json.Plain := by
  induction hfields with
  | nil => exact List.forall_mem_nil _
  | cons hfield _ ih => exact List.forall_mem_cons.mpr ⟨hfield.plain, ih⟩

theorem plain_write (hfields : List.Forall₂ (Field.Obeys levels record) rules schema.fields) :
    (schema.write record).Plain := by
  refine .object (fun member hmember => ?_) fun member hmember => ?_
  · obtain ⟨field, _, hsome⟩ := List.mem_filterMap.mp hmember
    obtain ⟨value, _, rfl⟩ := Option.map_eq_some_iff.mp hsome
    exact ⟨field.name, rfl⟩
  · obtain ⟨field, hfield, hsome⟩ := List.mem_filterMap.mp hmember
    obtain ⟨value, hwrite, rfl⟩ := Option.map_eq_some_iff.mp hsome
    exact plain_of_obeys hfields field hfield value hwrite

end Schema

/-! ## The kinds of fields -/

section Kinds

variable {codec : Codec α} {spelling : Spelling α} {name : String} {alias? : Option String}
  {levels : Nat} {wanted default : ρ}

namespace Slot

theorem follows_of_read {rule : FieldRule ρ} {required : Bool} {get : ρ → α} {set : ρ → α → ρ}
    (hnames : name :: alias?.toList = rule.names)
    (hread : ∀ json, rule.spelled levels wanted json → codec.read levels json = .ok (get wanted))
    (homissible : rule.Omissible wanted → required = false ∧ get default = get wanted) :
    Follows levels wanted default rule
      { Field.mandatory name codec get set with alias? := alias?, required := required }
      (.of { Field.mandatory name codec get set with alias? := alias?, required := required }
        get set wanted) where
  field_eq := rfl
  names_eq := hnames
  read json hjson record := by
    show (codec.read levels json).map (set record) = _
    rw [hread json hjson]
    rfl
  omissible := homissible

theorem follows_mandatory {get : ρ → α} {set : ρ → α → ρ} (hcodec : codec.Lawful spelling) :
    Follows levels wanted default (.mandatory [name] spelling get) (.mandatory name codec get set)
      (.of (.mandatory name codec get set) get set wanted) :=
  follows_of_read rfl (hcodec.read levels _) False.elim

theorem follows_defaulted {others : List String} {value : α} {get : ρ → α} {set : ρ → α → ρ}
    (hcodec : codec.Lawful spelling) (hothers : alias?.toList = others)
    (hdefault : get default = value) :
    Follows levels wanted default (.defaulted (name :: others) spelling value get)
      (.defaulted name alias? codec get set)
      (.of (.defaulted name alias? codec get set) get set wanted) :=
  follows_of_read (congrArg (name :: ·) hothers) (hcodec.read levels _) fun hvalue =>
    ⟨rfl, hdefault.trans hvalue.symm⟩

theorem follows_optional {get : ρ → Option α} {set : ρ → Option α → ρ}
    (hcodec : codec.Lawful spelling) (hnull : spelling.NeverNull) (hdefault : get default = none) :
    Follows levels wanted default (.optional [name] spelling get) (.optional name codec get set)
      (.of (.optional name codec get set) get set wanted) where
  field_eq := rfl
  names_eq := rfl
  read json hjson record := by
    have hread : codec.optional.read levels json = .ok (get wanted) := by
      cases hvalue : get wanted with
      | none =>
          simp only [FieldRule.optional, hvalue] at hjson
          rw [hjson]
          rfl
      | some value =>
          simp only [FieldRule.optional, hvalue] at hjson
          have hsome : codec.optional.read levels json = (codec.read levels json).map some := by
            unfold Codec.optional
            cases json <;> first | rfl | exact absurd hjson (hnull levels value)
          rw [hsome, hcodec.read levels value json hjson]
          rfl
    show (codec.optional.read levels json).map (set record) = _
    rw [hread]
    rfl
  omissible hnone := ⟨rfl, hdefault.trans hnone.symm⟩

end Slot

namespace Field

theorem obeys_of_write {rule : FieldRule ρ} {field : Field ρ} (hname : field.name ∈ rule.names)
    {json : Json} (hwrite : field.write wanted = some json) (hplain : json.Plain)
    (hspelled : json.depth ≤ levels → rule.spelled levels wanted json) :
    Obeys levels wanted rule field where
  name_mem := hname
  plain _ hsome := Option.some.inj (hwrite.symm.trans hsome) ▸ hplain
  spelled _ hsome := Option.some.inj (hwrite.symm.trans hsome) ▸ hspelled
  absent hnone := nomatch hwrite.symm.trans hnone

theorem obeys_mandatory {get : ρ → α} {set : ρ → α → ρ} (hcodec : codec.Lawful spelling) :
    Obeys levels wanted (.mandatory [name] spelling get) (.mandatory name codec get set) :=
  obeys_of_write (List.mem_cons_self ..) rfl (hcodec.plain _) (hcodec.spelling_write _ levels)

theorem obeys_defaulted {others : List String} {value : α} {get : ρ → α} {set : ρ → α → ρ}
    (hcodec : codec.Lawful spelling) :
    Obeys levels wanted (.defaulted (name :: others) spelling value get)
      (.defaulted name alias? codec get set) :=
  obeys_of_write (List.mem_cons_self ..) rfl (hcodec.plain _) (hcodec.spelling_write _ levels)

theorem obeys_optional {get : ρ → Option α} {set : ρ → Option α → ρ}
    (hcodec : codec.Lawful spelling) :
    Obeys levels wanted (.optional [name] spelling get) (.optional name codec get set) where
  name_mem := List.mem_cons_self ..
  plain json hwrite := by
    obtain ⟨value, _, rfl⟩ := Option.map_eq_some_iff.mp hwrite
    exact hcodec.plain value
  spelled json hwrite hdepth := by
    obtain ⟨value, hvalue, rfl⟩ := Option.map_eq_some_iff.mp hwrite
    simp only [FieldRule.optional, hvalue]
    exact hcodec.spelling_write value levels hdepth
  absent hnone := Option.map_eq_none_iff.mp hnone

end Field

end Kinds

/-! ## Schemas -/

/-- The fields of a schema read and write what the rules allow. -/
structure Slot.Fit (levels : Nat) (wanted default : ρ) (rules : List (FieldRule ρ))
    (fields : List (Field ρ)) (slots : List (Slot ρ)) : Prop where
  follow : FollowAll levels wanted default rules fields slots
  obey : List.Forall₂ (Field.Obeys levels wanted) rules fields

namespace Slot.Fit

variable {codec : Codec α} {spelling : Spelling α} {name : String} {alias? : Option String}
  {levels : Nat} {wanted default : ρ} {rules : List (FieldRule ρ)} {fields : List (Field ρ)}
  {slots : List (Slot ρ)}

theorem nil : Fit levels wanted default [] [] [] :=
  ⟨.nil, .nil⟩

theorem mandatory {get : ρ → α} {set : ρ → α → ρ} (hcodec : codec.Lawful spelling)
    (hrest : Fit levels wanted default rules fields slots) :
    Fit levels wanted default (.mandatory [name] spelling get :: rules)
      (.mandatory name codec get set :: fields)
      (.of (.mandatory name codec get set) get set wanted :: slots) :=
  ⟨.cons (follows_mandatory hcodec) hrest.follow, .cons (Field.obeys_mandatory hcodec) hrest.obey⟩

theorem defaulted {others : List String} {value : α} {get : ρ → α} {set : ρ → α → ρ}
    (hcodec : codec.Lawful spelling) (hothers : alias?.toList = others)
    (hdefault : get default = value) (hrest : Fit levels wanted default rules fields slots) :
    Fit levels wanted default (.defaulted (name :: others) spelling value get :: rules)
      (.defaulted name alias? codec get set :: fields)
      (.of (.defaulted name alias? codec get set) get set wanted :: slots) :=
  ⟨.cons (follows_defaulted hcodec hothers hdefault) hrest.follow,
    .cons (Field.obeys_defaulted hcodec) hrest.obey⟩

theorem optional {get : ρ → Option α} {set : ρ → Option α → ρ} (hcodec : codec.Lawful spelling)
    (hnull : spelling.NeverNull) (hdefault : get default = none)
    (hrest : Fit levels wanted default rules fields slots) :
    Fit levels wanted default (.optional [name] spelling get :: rules)
      (.optional name codec get set :: fields)
      (.of (.optional name codec get set) get set wanted :: slots) :=
  ⟨.cons (follows_optional hcodec hnull hdefault) hrest.follow,
    .cons (Field.obeys_optional hcodec) hrest.obey⟩

end Slot.Fit

namespace Schema

/-- A schema whose fields have names of their own, follow the rules and make up its records. -/
structure Lawful (schema : Schema ρ) (rules : List (FieldRule ρ)) : Prop where
  nodup_names : (schema.fields.flatMap Field.names).Nodup
  exists_slots : ∀ wanted levels, ∃ slots,
    Slot.Fit levels wanted schema.default rules schema.fields slots ∧ Slot.MakeUp slots wanted

theorem Lawful.codec {schema : Schema ρ} {rules : List (FieldRule ρ)}
    (hschema : schema.Lawful rules) : schema.codec.Lawful (.record rules) where
  read levels value json hjson := by
    obtain _ | levels := levels
    · exact hjson.elim
    · obtain ⟨_, hfit, hmakeUp⟩ := hschema.exists_slots value levels
      exact read_of_spelling hschema.nodup_names hfit.follow hmakeUp hjson
  plain value := by
    obtain ⟨_, hfit, _⟩ := hschema.exists_slots value 0
    exact plain_write hfit.obey
  spelling_write value levels hdepth := by
    obtain _ | levels := levels
    · exact absurd hdepth (Nat.not_succ_le_zero _)
    · obtain ⟨_, hfit, _⟩ := hschema.exists_slots value levels
      exact spelling_write hfit.obey hdepth

end Schema

end ToolchainMerge.Json
