import ToolchainMerge.Proofs.JsonRecord

/-!
# Which objects are records

An object whose members are all readable can still be no record, for two reasons: a field is given
twice, or a field that has to be given is not.  `Verdict` says which of the two is reported and for
which field.  The first member that gives a field again counts before anything that is missing, and
of what is missing the first field in the order of declaration.

A member is readable if its name decodes to a string and its value is readable where it stands,
whatever the other members are (`Schema.Readable`).  If the member belongs to no field, its value
only has to be well-formed, but its name has to decode all the same.

## Strategy

While the members are read, the names of the fields that have come are kept.  The invariant is that
these are the fields given so far, and that none was given twice (`Schema.Kept`).  One member leads
from there to the same for one member more, or it ends the reading as the first that gives a field
again (`Schema.readMembers_cases`).  Behind the last member the invariant says what is missing.

What a field demands is compared with the rules of the format, which know nothing of the readers
(`Field.Realizes`).
-/

namespace ToolchainMerge.Json

variable {ρ α : Type}

/-! ## Members that give fields -/

/-- The member gives the field of these names. -/
def GivenBy (names : List String) (member : Literal × Json) : Prop :=
  ∃ name ∈ names, member.1.Says name

/-- Some member gives the field of these names. -/
def Given (names : List String) (members : List (Literal × Json)) : Prop :=
  ∃ member ∈ members, GivenBy names member

/-- A member gives the field although one before it has. -/
def GivenTwice (names : List String) (members : List (Literal × Json)) : Prop :=
  ∃ before member after, members = before ++ member :: after ∧ Given names before ∧
    GivenBy names member

/-- A literal says one name only. -/
theorem Literal.says_unique {literal : Literal} {name other : String} (hname : literal.Says name)
    (hother : literal.Says other) : other = name := by
  have hread := read_of_says hname
  have hsame := read_of_says hother
  exact Except.ok.inj (hsame.symm.trans hread)

variable {names : List String} {member : Literal × Json} {members : List (Literal × Json)}

theorem givenBy_iff {name : String} (hname : member.1.Says name) :
    GivenBy names member ↔ name ∈ names := by
  constructor
  · rintro ⟨other, hmem, hother⟩
    rwa [← Literal.says_unique hname hother]
  · intro hmem
    exact ⟨name, hmem, hname⟩

theorem given_concat : Given names (members ++ [member]) ↔
    Given names members ∨ GivenBy names member := by
  simp [Given, or_and_right, exists_or]

theorem givenTwice_concat : GivenTwice names (members ++ [member]) ↔
    GivenTwice names members ∨ Given names members ∧ GivenBy names member := by
  constructor
  · rintro ⟨before, again, after, heq, hbefore, hagain⟩
    rcases List.eq_nil_or_concat after with rfl | ⟨after, last, rfl⟩
    · obtain ⟨rfl, hlast⟩ := List.append_inj' heq rfl
      obtain rfl := (List.cons.inj hlast).1
      exact Or.inr ⟨hbefore, hagain⟩
    · have hinit : members ++ [member] = (before ++ again :: after) ++ [last] := by
        simpa using heq
      obtain ⟨rfl, _⟩ := List.append_inj' hinit rfl
      exact Or.inl ⟨before, again, after, rfl, hbefore, hagain⟩
  · rintro (⟨before, again, after, rfl, hbefore, hagain⟩ | ⟨hgiven, hmember⟩)
    · exact ⟨before, again, after ++ [member], by simp, hbefore, hagain⟩
    · exact ⟨members, member, [], rfl, hgiven, hmember⟩

theorem not_givenTwice_singleton : ¬ GivenTwice names [member] := by
  rw [← List.nil_append [member], givenTwice_concat]
  simp [Given, GivenTwice]

/-! ## Demands -/

/-- What is demanded of one field in the members of an object. -/
structure Demand where
  names : List String
  /-- Whether the field has to be given. -/
  mandatory : Prop

/-- What the format demands of a field. -/
def FieldRule.demand (rule : FieldRule ρ) : Demand :=
  ⟨rule.names, ∀ record, ¬ rule.Omissible record⟩

/-- What a reader demands of a field. -/
def Field.demand (field : Field ρ) : Demand :=
  ⟨field.names, field.required = true⟩

variable {demands : List Demand} {demand : Demand}

/-- The field is given again, and this is the first member that gives any field again. -/
def FirstRepeated (demands : List Demand) (members : List (Literal × Json)) (demand : Demand) :
    Prop :=
  demand ∈ demands ∧ ∃ before member after, members = before ++ member :: after ∧
    Given demand.names before ∧ GivenBy demand.names member ∧
      ∀ other ∈ demands, ¬ GivenTwice other.names before

/-- The field is the first in the order of declaration that has to be given and is not. -/
def FirstLacking (demands : List Demand) (members : List (Literal × Json)) (demand : Demand) :
    Prop :=
  ∃ front back, demands = front ++ demand :: back ∧ demand.mandatory ∧
    ¬ Given demand.names members ∧ ∀ other ∈ front, other.mandatory → Given other.names members

/-- What comes out of reading an object with readable members. -/
structure Verdict (demands : List Demand) (members : List (Literal × Json))
    (outcome : Except ReadError α) : Prop where
  fails_iff : (∃ error, outcome = .error error) ↔
    (∃ demand ∈ demands, GivenTwice demand.names members) ∨
      ∃ demand ∈ demands, demand.mandatory ∧ ¬ Given demand.names members
  repeated : (∃ demand ∈ demands, GivenTwice demand.names members) →
    ∃ demand name error, FirstRepeated demands members demand ∧ demand.names.head? = some name ∧
      outcome = .error error ∧ error = .repeatedField name ∧
        error.message? = some ("duplicate field `" ++ name ++ "`")
  lacking : (∀ demand ∈ demands, ¬ GivenTwice demand.names members) →
    (∃ demand ∈ demands, demand.mandatory ∧ ¬ Given demand.names members) →
      ∃ demand name error, FirstLacking demands members demand ∧ demand.names.head? = some name ∧
        outcome = .error error ∧ error = .missingField name ∧
          error.message? = some ("missing field `" ++ name ++ "`")

theorem FirstRepeated.givenTwice (hrepeated : FirstRepeated demands members demand) :
    ∃ demand ∈ demands, GivenTwice demand.names members := by
  obtain ⟨hdemand, before, member, after, hmembers, hbefore, hmember, _⟩ := hrepeated
  exact ⟨demand, hdemand, before, member, after, hmembers, hbefore, hmember⟩

theorem FirstLacking.exists_lacking (hlacking : FirstLacking demands members demand) :
    ∃ demand ∈ demands, demand.mandatory ∧ ¬ Given demand.names members := by
  obtain ⟨front, back, hdemands, hmandatory, hnot, _⟩ := hlacking
  exact ⟨demand, by simp [hdemands], hmandatory, hnot⟩

namespace Verdict

theorem of_ok (htwice : ∀ demand ∈ demands, ¬ GivenTwice demand.names members)
    (hgiven : ∀ demand ∈ demands, demand.mandatory → Given demand.names members) (record : α) :
    Verdict demands members (.ok record) := by
  have hrepeated : ¬ ∃ demand ∈ demands, GivenTwice demand.names members := by
    rintro ⟨demand, hdemand, hagain⟩
    exact htwice demand hdemand hagain
  have hlacking : ¬ ∃ demand ∈ demands, demand.mandatory ∧ ¬ Given demand.names members := by
    rintro ⟨demand, hdemand, hmandatory, hnot⟩
    exact hnot (hgiven demand hdemand hmandatory)
  refine ⟨iff_of_false (by simp) ?_, fun hsome => absurd hsome hrepeated,
    fun _ hsome => absurd hsome hlacking⟩
  rintro (hsome | hsome)
  · exact hrepeated hsome
  · exact hlacking hsome

/-- Without one of the two reasons nothing is refused. -/
theorem not_fails {outcome : Except ReadError α} (hverdict : Verdict demands members outcome)
    (htwice : ∀ demand ∈ demands, ¬ GivenTwice demand.names members)
    (hgiven : ∀ demand ∈ demands, demand.mandatory → Given demand.names members) :
    ¬ ∃ error, outcome = .error error := by
  rw [hverdict.fails_iff]
  rintro (⟨demand, hdemand, hagain⟩ | ⟨demand, hdemand, hmandatory, hnot⟩)
  · exact htwice demand hdemand hagain
  · exact hnot (hgiven demand hdemand hmandatory)

theorem of_repeated {name : String} (hrepeated : FirstRepeated demands members demand)
    (hname : demand.names.head? = some name) :
    Verdict demands members (.error (.repeatedField name) : Except ReadError α) where
  fails_iff := iff_of_true ⟨_, rfl⟩ (Or.inl hrepeated.givenTwice)
  repeated _ := ⟨demand, name, _, hrepeated, hname, rfl, rfl, rfl⟩
  lacking hnone := by
    obtain ⟨other, hother, htwice⟩ := hrepeated.givenTwice
    exact absurd htwice (hnone other hother)

theorem of_lacking {name : String}
    (htwice : ∀ demand ∈ demands, ¬ GivenTwice demand.names members)
    (hlacking : FirstLacking demands members demand) (hname : demand.names.head? = some name) :
    Verdict demands members (.error (.missingField name) : Except ReadError α) where
  fails_iff := iff_of_true ⟨_, rfl⟩ (Or.inr hlacking.exists_lacking)
  repeated := by
    rintro ⟨other, hother, hagain⟩
    exact absurd hagain (htwice other hother)
  lacking _ _ := ⟨demand, name, _, hlacking, hname, rfl, rfl, rfl⟩

end Verdict

/-! ## Fields and rules -/

namespace Field

/-- Whether the field reads a value does not depend on the record in which it is stored. -/
def ReadsAnywhere (field : Field ρ) : Prop :=
  ∀ levels json record stored, field.read levels json record = .ok stored →
    ∀ other, ∃ result, field.read levels json other = .ok result

/-- The field demands what the rule does. -/
structure Realizes (rule : FieldRule ρ) (field : Field ρ) : Prop where
  demand_eq : field.demand = rule.demand
  reads_anywhere : field.ReadsAnywhere

variable {codec : Codec α} {spelling : Spelling α} {name : String} {alias? : Option String}
  {rules : List (FieldRule ρ)} {fields : List (Field ρ)}

theorem map_demand_of_realizes (hrules : List.Forall₂ Realizes rules fields) :
    fields.map Field.demand = rules.map FieldRule.demand := by
  induction hrules with
  | nil => rfl
  | cons hfirst _ ih => rw [List.map_cons, List.map_cons, hfirst.demand_eq, ih]

theorem readsAnywhere_of_realizes (hrules : List.Forall₂ Realizes rules fields) :
    ∀ field ∈ fields, field.ReadsAnywhere := by
  induction hrules with
  | nil => exact List.forall_mem_nil _
  | cons hfirst _ ih => exact List.forall_mem_cons.mpr ⟨hfirst.reads_anywhere, ih⟩

/-- A field that stores what its codec reads. -/
theorem realizes_of_demand {rule : FieldRule ρ} {field : Field ρ} {β : Type}
    {read : Nat → Json → Except ReadError β} {set : ρ → β → ρ}
    (hread : ∀ levels json record, field.read levels json record =
      (read levels json).map (set record)) (hdemand : field.demand = rule.demand) :
    Realizes rule field where
  demand_eq := hdemand
  reads_anywhere levels json record stored hstored other := by
    rw [hread] at hstored ⊢
    obtain ⟨value, hvalue, _⟩ := map_eq_ok_iff.mp hstored
    rw [hvalue]
    exact ⟨set other value, rfl⟩

theorem realizes_mandatory {get : ρ → α} {set : ρ → α → ρ} :
    Realizes (.mandatory [name] spelling get) (.mandatory name codec get set) := by
  refine realizes_of_demand (fun _ _ _ => rfl) ?_
  simp [demand, FieldRule.demand, Field.mandatory, FieldRule.mandatory, Field.names]

theorem realizes_defaulted {others : List String} {value : α} {get : ρ → α} {set : ρ → α → ρ}
    (default : ρ) (hdefault : get default = value) (hothers : alias?.toList = others) :
    Realizes (.defaulted (name :: others) spelling value get)
      (.defaulted name alias? codec get set) := by
  refine realizes_of_demand (fun _ _ _ => rfl) ?_
  have hsome : ∃ record, get record = value := ⟨default, hdefault⟩
  simp [demand, FieldRule.demand, Field.mandatory, Field.defaulted, FieldRule.defaulted,
    Field.names, hothers, hsome]

theorem realizes_optional {get : ρ → Option α} {set : ρ → Option α → ρ} (default : ρ)
    (hdefault : get default = none) :
    Realizes (.optional [name] spelling get) (.optional name codec get set) := by
  refine realizes_of_demand (fun _ _ _ => rfl) ?_
  have hsome : ∃ record, get record = none := ⟨default, hdefault⟩
  simp [demand, FieldRule.demand, Field.optional, FieldRule.optional, Field.names, hsome]

end Field

/-! ## Reading members -/

/-- Names tell the fields apart. -/
theorem Field.eq_of_mem_names {fields : List (Field ρ)}
    (hnames : (fields.flatMap Field.names).Nodup) {field other : Field ρ} (hfield : field ∈ fields)
    (hother : other ∈ fields) {name : String} (hname : name ∈ field.names)
    (hsame : name ∈ other.names) : other = field := by
  have hfind := find?_answersTo hnames hfield (answersTo_iff.mpr hname)
  rw [find?_answersTo hnames hother (answersTo_iff.mpr hsame)] at hfind
  exact Option.some.inj hfind

/-- No member gives two fields. -/
theorem givenBy_iff_eq {fields : List (Field ρ)} (hnames : (fields.flatMap Field.names).Nodup)
    {field : Field ρ} (hfield : field ∈ fields) (hgives : GivenBy field.names member) :
    ∀ other ∈ fields, GivenBy other.names member ↔ other = field := by
  intro other hother
  obtain ⟨name, hmem, hname⟩ := hgives
  rw [givenBy_iff hname]
  constructor
  · exact Field.eq_of_mem_names hnames hfield hother hmem
  · rintro rfl
    exact hmem

namespace Schema

/-- The value of a member is readable where it stands: with the levels that are left it can be
stored in the field that the member gives, or the member gives no field and the value is
well-formed.  Whether the name decodes to a string is left open. -/
structure ReadableValue (schema : Schema ρ) (levels : Nat) (member : Literal × Json) : Prop where
  known : ∀ field ∈ schema.fields, GivenBy field.names member →
    ∃ record, field.read levels member.2 schema.default = .ok record
  unknown : (∀ field ∈ schema.fields, ¬ GivenBy field.names member) → member.2.WellFormed

/-- A member is readable if its value is and its name decodes to a string, that is, has no half of
a character alone.  This is asked of every name, also of one that belongs to no field. -/
structure Readable (schema : Schema ρ) (levels : Nat) (member : Literal × Json) : Prop
    extends ReadableValue schema levels member where
  named : ∃ name, member.1.Says name

theorem readable_of_isOk {schema : Schema ρ} {levels : Nat} {name : String} {value : Json}
    (hknown : ∃ field ∈ schema.fields, name ∈ field.names)
    (hreads : ∀ field ∈ schema.fields, name ∈ field.names →
      (field.read levels value schema.default).isOk = true) :
    schema.Readable levels (.ofString name, value) where
  named := ⟨name, Literal.says_ofString name⟩
  known field hfield hgives := by
    have hok := hreads field hfield ((givenBy_iff (Literal.says_ofString name)).mp hgives)
    cases hread : field.read levels value schema.default with
    | error error =>
        rw [hread] at hok
        exact nomatch hok
    | ok record => exact ⟨record, rfl⟩
  unknown hunknown := by
    obtain ⟨field, hfield, hname⟩ := hknown
    exact absurd ⟨name, hname, Literal.says_ofString name⟩ (hunknown field hfield)

/-- Under a name that belongs to no field, or that does not decode, any value will do. -/
theorem readableValue_of_unknown {schema : Schema ρ} {levels : Nat}
    (hunknown : ∀ field ∈ schema.fields, ¬ GivenBy field.names member)
    (hvalue : member.2.WellFormed) : schema.ReadableValue levels member where
  known field hfield hgives := absurd hgives (hunknown field hfield)
  unknown _ := hvalue

theorem readable_of_unknown {schema : Schema ρ} {levels : Nat} {name : String} {value : Json}
    (hunknown : ∀ field ∈ schema.fields, name ∉ field.names) (hvalue : value.WellFormed) :
    schema.Readable levels (.ofString name, value) where
  toReadableValue := by
    refine readableValue_of_unknown (fun field hfield => ?_) hvalue
    exact (givenBy_iff (Literal.says_ofString name)).not.mpr (hunknown field hfield)
  named := ⟨name, Literal.says_ofString name⟩

/-- The names that are kept are those of the fields given so far, none of them twice. -/
structure Kept (fields : List (Field ρ)) (done : List (Literal × Json)) (seen : List String) :
    Prop where
  mem_iff : ∀ field ∈ fields, field.name ∈ seen ↔ Given field.names done
  not_twice : ∀ field ∈ fields, ¬ GivenTwice field.names done

variable {schema : Schema ρ} {fields : List (Field ρ)} {field : Field ρ} {levels : Nat}
  {done : List (Literal × Json)} {seen : List String}

theorem kept_nil (fields : List (Field ρ)) : Kept fields [] [] where
  mem_iff := by simp [Given]
  not_twice := by simp [GivenTwice]

theorem Kept.pass (hkept : Kept fields done seen)
    (hmember : ∀ field ∈ fields, ¬ GivenBy field.names member) :
    Kept fields (done ++ [member]) seen where
  mem_iff field hfield := by
    rw [given_concat, or_iff_left (hmember field hfield), hkept.mem_iff field hfield]
  not_twice field hfield := by
    rw [givenTwice_concat]
    rintro (htwice | ⟨_, hgives⟩)
    · exact hkept.not_twice field hfield htwice
    · exact hmember field hfield hgives

theorem Kept.add (hkept : Kept fields done seen) (hnames : (fields.flatMap Field.names).Nodup)
    (hfield : field ∈ fields) (hnew : field.name ∉ seen) (hgives : GivenBy field.names member) :
    Kept fields (done ++ [member]) (field.name :: seen) where
  mem_iff other hother := by
    have hname : other.name = field.name ↔ other = field := by
      constructor
      · intro heq
        refine Field.eq_of_mem_names hnames hfield hother (List.mem_cons_self ..) ?_
        rw [← heq]
        exact List.mem_cons_self ..
      · rintro rfl
        rfl
    rw [given_concat, List.mem_cons, hname, givenBy_iff_eq hnames hfield hgives other hother,
      hkept.mem_iff other hother, or_comm]
  not_twice other hother := by
    rw [givenTwice_concat, givenBy_iff_eq hnames hfield hgives other hother]
    rintro (htwice | ⟨hgiven, rfl⟩)
    · exact hkept.not_twice other hother htwice
    · exact hnew ((hkept.mem_iff other hother).mpr hgiven)

/-- A member that gives no field is passed over. -/
theorem readMembers_of_none (hmember : schema.Readable levels member)
    (hnone : ∀ field ∈ schema.fields, ¬ GivenBy field.names member) (seen : List String)
    (record : ρ) (members : List (Literal × Json)) :
    readMembers schema.fields levels seen record (member :: members) =
      readMembers schema.fields levels seen record members := by
  obtain ⟨name, hname⟩ := hmember.named
  have hfind : schema.fields.find? (·.answersTo name) = none := by
    refine List.find?_eq_none.mpr fun field hfield hanswers => ?_
    exact hnone field hfield ((givenBy_iff hname).mpr (Field.answersTo_iff.mp hanswers))
  rw [readMembers, Literal.read_of_says hname]
  simp only [bind, Except.bind, hfind, (hmember.unknown hnone).skip]

/-- A member that gives a field again ends the reading. -/
theorem readMembers_of_seen (hnames : (schema.fields.flatMap Field.names).Nodup)
    (hfield : field ∈ schema.fields) (hgives : GivenBy field.names member)
    (hseen : field.name ∈ seen) (record : ρ) (members : List (Literal × Json)) :
    readMembers schema.fields levels seen record (member :: members) =
      .error (.repeatedField field.name) := by
  obtain ⟨name, hmem, hname⟩ := hgives
  have hfind := Field.find?_answersTo hnames hfield (Field.answersTo_iff.mpr hmem)
  rw [readMembers, Literal.read_of_says hname]
  simp only [bind, Except.bind, hfind, if_pos hseen]

/-- A member that gives a field for the first time is stored. -/
theorem exists_readMembers_of_new (hanywhere : ∀ field ∈ schema.fields, field.ReadsAnywhere)
    (hnames : (schema.fields.flatMap Field.names).Nodup) (hmember : schema.Readable levels member)
    (hfield : field ∈ schema.fields) (hgives : GivenBy field.names member)
    (hnew : field.name ∉ seen) (record : ρ) :
    ∃ stored, ∀ members, readMembers schema.fields levels seen record (member :: members) =
      readMembers schema.fields levels (field.name :: seen) stored members := by
  obtain ⟨name, hname⟩ := hmember.named
  have hmem := (givenBy_iff hname).mp hgives
  have hfind := Field.find?_answersTo hnames hfield (Field.answersTo_iff.mpr hmem)
  obtain ⟨first, hfirst⟩ := hmember.known field hfield hgives
  obtain ⟨stored, hstored⟩ := hanywhere field hfield _ _ _ _ hfirst record
  refine ⟨stored, fun members => ?_⟩
  rw [readMembers, Literal.read_of_says hname]
  simp only [bind, Except.bind, hfind, if_neg hnew, hstored]

/-- **Reading members** goes on to their end, or up to the first that gives a field again. -/
theorem readMembers_cases (hanywhere : ∀ field ∈ schema.fields, field.ReadsAnywhere)
    (hnames : (schema.fields.flatMap Field.names).Nodup) (hkept : Kept schema.fields done seen)
    (hmembers : ∀ member ∈ members, schema.Readable levels member) (record : ρ) :
    (∃ kept stored, readMembers schema.fields levels seen record members = .ok (kept, stored) ∧
      Kept schema.fields (done ++ members) kept) ∨
    ∃ field ∈ schema.fields,
      FirstRepeated (schema.fields.map Field.demand) (done ++ members) field.demand ∧
        readMembers schema.fields levels seen record members =
          .error (.repeatedField field.name) := by
  induction members generalizing done seen record with
  | nil => exact Or.inl ⟨seen, record, rfl, by rwa [List.append_nil]⟩
  | cons member members ih =>
      obtain ⟨hmember, hrest⟩ := List.forall_mem_cons.mp hmembers
      rw [List.append_cons]
      by_cases hgiven : ∃ field ∈ schema.fields, GivenBy field.names member
      · obtain ⟨field, hfield, hgives⟩ := hgiven
        by_cases hseen : field.name ∈ seen
        · refine Or.inr ⟨field, hfield, ⟨List.mem_map_of_mem hfield, done, member, members,
            (List.append_cons ..).symm, (hkept.mem_iff field hfield).mp hseen, hgives, ?_⟩,
            readMembers_of_seen hnames hfield hgives hseen record members⟩
          exact List.forall_mem_map.mpr hkept.not_twice
        · obtain ⟨stored, hread⟩ :=
            exists_readMembers_of_new hanywhere hnames hmember hfield hgives hseen record
          rw [hread]
          exact ih (hkept.add hnames hfield hseen hgives) hrest stored
      · have hnone : ∀ field ∈ schema.fields, ¬ GivenBy field.names member := by
          intro field hfield hgives
          exact hgiven ⟨field, hfield, hgives⟩
        rw [readMembers_of_none hmember hnone]
        exact ih (hkept.pass hnone) hrest record

/-- Where the names that are kept lack nothing, all that has to be given is. -/
theorem Kept.given (hkept : Kept fields members seen) (hmissing : missing? fields seen = none) :
    ∀ demand ∈ fields.map Field.demand, demand.mandatory → Given demand.names members := by
  refine List.forall_mem_map.mpr fun field hfield hrequired => ?_
  have hpresent : ¬ (field.required && field.name ∉ seen) = true :=
    List.find?_eq_none.mp hmissing field hfield
  rw [Bool.and_eq_true, decide_eq_true_iff, not_and, not_not] at hpresent
  exact (hkept.mem_iff field hfield).mp (hpresent hrequired)

/-- What the names that are kept lack is the first that is missing. -/
theorem Kept.firstLacking (hkept : Kept fields members seen)
    (hmissing : missing? fields seen = some field) :
    FirstLacking (fields.map Field.demand) members field.demand := by
  obtain ⟨hfield, front, back, rfl, hfront⟩ := List.find?_eq_some_iff_append.mp hmissing
  rw [Bool.and_eq_true, decide_eq_true_iff] at hfield
  refine ⟨front.map Field.demand, back.map Field.demand, by simp, hfield.1, ?_, ?_⟩
  · exact (hkept.mem_iff field (by simp)).not.mp hfield.2
  · refine List.forall_mem_map.mpr fun other hother hrequired => ?_
    have hpresent : other.required = false ∨ other.name ∈ seen := by
      simpa using hfront other hother
    have hseen := hpresent.resolve_left (ne_false_of_eq_true hrequired)
    exact (hkept.mem_iff other (by simp [hother])).mp hseen

/-- **An object with readable members** is read, or it is refused for the right field. -/
theorem verdict_readObject (hanywhere : ∀ field ∈ schema.fields, field.ReadsAnywhere)
    (hnames : (schema.fields.flatMap Field.names).Nodup)
    (hmembers : ∀ member ∈ members, schema.Readable levels member) :
    Verdict (schema.fields.map Field.demand) members (schema.readObject levels members none) := by
  unfold readObject
  rcases readMembers_cases hanywhere hnames (kept_nil _) hmembers schema.default with
    ⟨kept, stored, hread, hkept⟩ | ⟨field, _, hrepeated, hread⟩
  · have htwice : ∀ demand ∈ schema.fields.map Field.demand, ¬ GivenTwice demand.names members :=
      List.forall_mem_map.mpr hkept.not_twice
    rw [hread]
    simp only [bind, Except.bind, checkEnd]
    cases hmissing : missing? schema.fields kept with
    | none => exact .of_ok htwice (hkept.given hmissing) stored
    | some field => exact .of_lacking htwice (hkept.firstLacking hmissing) rfl
  · rw [hread]
    exact .of_repeated hrepeated rfl

end Schema

end ToolchainMerge.Json
