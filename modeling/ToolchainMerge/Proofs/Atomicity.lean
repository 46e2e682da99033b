import ToolchainMerge.Conversion
import ToolchainMerge.Proofs.FileSystem

/-!
# Conversions are all or nothing

A conversion reads, merges and writes, and may fail at every step.  Whatever happens, it either
prints the text of the rule, or puts that text into the file it was asked to write, or leaves
every file and the standard output as they were.  This is what `Conversion.Atomic` says.

Operations may be refused for reasons that no file system shows: permissions, say, or a full
disk.  So the statement is not about one host but about every host that is `Host.Faithful`: an
operation of it either is refused and changes nothing, or does what the file system says.  Only
the creation of a directory with its parents may be refused halfway.  `Host.faithful_ofWorld`
shows that the host which keeps its world as a value is one of them.

## Strategy

`Conversion.outcome` runs one step, and `outcome_bind` a step behind another.  Each step has a
lemma that says what is to be seen of the host afterwards: `view_outcome_readToolchains` (nothing
has changed), `view_outcome_ensureDirectory` (there are new directories) and
`outcome_writeText_cases` (there is a new file as well).  The text is complete before the output is
looked at, so an error in front of it has left no trace; behind it, only the last operation of all
touches a file.
-/

namespace ToolchainMerge

variable {σ α β : Type}

/-! ## Hosts that do what they say -/

/-- What there is to see of a host behaves like a file system and an output.  An operation is
refused, for whatever reason, or it does what the file system says.

Meant are hosts whose files are regular ones and whose directories form a tree, where each of them
is found under one name only.  A host with devices or with links is not faithful: what is written to
a device need not be there afterwards, and a file that has a second name changes under that as
well. -/
structure Host.Faithful (host : Host (StateM σ)) (view : σ → World) : Prop where
  openDirectory : ∀ directory state, view (host.openDirectory directory state).2 = view state
  readFile : ∀ directory name state, view (host.readFile directory name state).2 = view state ∧
    ∀ text, (host.readFile directory name state).1 = .ok text →
      (ofWorld.readFile directory name (view state)).1 = .ok text
  /-- Directories are created one by one.  The creation may end before all of them are there. -/
  makeDirectories : ∀ directory state,
    (view (host.makeDirectories directory state).2).stdout = (view state).stdout ∧
    Relation.ReflTransGen (FileSystem.Creates directory) (view state).files
      (view (host.makeDirectories directory state).2).files
  /-- A file that cannot be opened is not touched; one that is opened can be written. -/
  writeFile : ∀ directory name content state,
    (∃ fault, (host.writeFile directory name content state).1 = .error fault ∧
      view (host.writeFile directory name content state).2 = view state) ∨
    ((host.writeFile directory name content state).1 = .ok () ∧
      ofWorld.writeFile directory name content (view state) =
        (.ok (), view (host.writeFile directory name content state).2))
  print : ∀ text state, view (host.print text state).2 =
    { view state with stdout := (view state).stdout ++ text }

namespace Host

/-- Writing a file ends in one of two ways: the file is in its directory, or nothing is done. -/
theorem writeFile_ofWorld_cases (directory name content : String) (world : World) :
    (∃ fault, ofWorld.writeFile directory name content world = (.error fault, world)) ∨
      ∃ home, world.files.openDirectory directory = .ok home ∧
        world.files.entry? (home ++ [name]) ≠ some .directory ∧
        ofWorld.writeFile directory name content world =
          (.ok (), { world with
            files := world.files.put (home ++ [name]) (.file content.toUTF8) }) := by
  unfold ofWorld locate
  dsimp only
  cases hopen : world.files.openDirectory directory with
  | error fault => exact Or.inl ⟨fault, rfl⟩
  | ok home =>
      simp only [Except.map, bind, Except.bind]
      cases hwrite : world.files.write (home ++ [name]) content.toUTF8 with
      | error fault => exact Or.inl ⟨fault, rfl⟩
      | ok files =>
          obtain ⟨hplace, rfl⟩ := FileSystem.write_eq_ok_iff.mp hwrite
          exact Or.inr ⟨home, rfl, hplace, rfl⟩

/-- The host whose world is a value hides nothing. -/
theorem faithful_ofWorld : ofWorld.Faithful id where
  openDirectory _ _ := rfl
  readFile _ _ _ := ⟨rfl, fun _ hread => hread⟩
  makeDirectories directory world := by
    refine ⟨rfl, FileSystem.creates_makeDirectories world.files ?_⟩
    simp only [List.reverse_reverse, List.prefix_rfl]
  writeFile directory name content world := by
    rcases writeFile_ofWorld_cases directory name content world with
      ⟨fault, hresult⟩ | ⟨home, _, _, hresult⟩
    · exact Or.inl ⟨fault, by rw [hresult], by rw [hresult]⟩
    · exact Or.inr ⟨by rw [hresult], by rw [id, hresult]; rfl⟩
  print _ _ := rfl

end Host

/-! ## Worlds before and behind a step -/

/-- The file at a path is a document of the given toolchains. -/
def World.HasDocument (world : World) (path : String) (toolchains : List Toolchain) : Prop :=
  ∃ directory name text, Path.splitFile? path = some (directory, name) ∧
    (Host.ofWorld.readFile directory name world).1 = .ok text ∧
    Toolchain.readDocument text = .ok toolchains

/-- There are new directories on the way to a given one, and nothing else is new. -/
structure World.ExtendedTowards (directory : String) (before behind : World) : Prop where
  stdout_eq : behind.stdout = before.stdout
  files : FileSystem.ExtendedTowards directory before.files behind.files

namespace Conversion

/-! ## Steps -/

/-- What a step comes to in a state of the host: its result, and the state behind it. -/
def outcome (step : ExceptT ConversionError (StateM σ) α) (state : σ) :
    Except ConversionError α × σ :=
  StateT.run step.run state

theorem outcome_bind (step : ExceptT ConversionError (StateM σ) α)
    (next : α → ExceptT ConversionError (StateM σ) β) (state : σ) :
    outcome (step >>= next) state =
      match outcome step state with
      | (.ok value, behind) => outcome (next value) behind
      | (.error error, behind) => (.error error, behind) := by
  simp only [outcome, ExceptT.run_bind, StateT.run_bind]
  rcases StateT.run step.run state with ⟨_ | _, _⟩ <;> rfl

theorem outcome_ofExcept (result : Except ConversionError α) (state : σ) :
    outcome (MonadExcept.ofExcept result) state = (result, state) := by
  cases result <;> rfl

theorem outcome_attempt (path : String) (operation : StateM σ (Except FileFault α)) (state : σ) :
    outcome (attempt path operation) state =
      ((operation state).1.mapError (.file path), (operation state).2) :=
  rfl

theorem outcome_lift (operation : StateM σ α) (state : σ) :
    outcome (ExceptT.lift operation : ExceptT ConversionError (StateM σ) α) state =
      (.ok (operation state).1, (operation state).2) :=
  rfl

theorem outcome_attempt_bind_cases (path : String) (operation : StateM σ (Except FileFault α))
    (next : α → ExceptT ConversionError (StateM σ) β) (state : σ) :
    (∃ fault, (operation state).1 = .error fault ∧
      outcome (attempt path operation >>= next) state =
        (.error (.file path fault), (operation state).2)) ∨
    ∃ value, (operation state).1 = .ok value ∧
      outcome (attempt path operation >>= next) state =
        outcome (next value) (operation state).2 := by
  rw [outcome_bind, outcome_attempt]
  cases (operation state).1 with
  | error fault => exact Or.inl ⟨fault, rfl, rfl⟩
  | ok value => exact Or.inr ⟨value, rfl, rfl⟩

/-- A path is taken apart, or it names no file and the conversion ends. -/
theorem outcome_splitFile_bind_cases (path : String)
    (next : String × String → ExceptT ConversionError (StateM σ) β) (state : σ) :
    outcome (MonadExcept.ofExcept (splitFile path) >>= next) state =
        (.error (.notAFile path), state) ∨
      ∃ directory name, Path.splitFile? path = some (directory, name) ∧
        outcome (MonadExcept.ofExcept (splitFile path) >>= next) state =
          outcome (next (directory, name)) state := by
  rw [outcome_bind, outcome_ofExcept, splitFile]
  cases Path.splitFile? path with
  | none => exact Or.inl rfl
  | some parts => exact Or.inr ⟨parts.1, parts.2, rfl, rfl⟩

/-! ## Reading -/

variable {host : Host (StateM σ)} {view : σ → World}

/-- Reading changes nothing, and toolchains that are read are those of the document. -/
theorem view_outcome_readToolchains (hhost : host.Faithful view) (path : String) (state : σ) :
    view (outcome (readToolchains host path) state).2 = view state ∧
      ∀ toolchains, (outcome (readToolchains host path) state).1 = .ok toolchains →
        (view state).HasDocument path toolchains := by
  unfold readToolchains
  rcases outcome_splitFile_bind_cases path _ state with hend | ⟨directory, name, hsplit, hnext⟩
  · rw [hend]
    exact ⟨rfl, nofun⟩
  rw [hnext]
  have hopened := hhost.openDirectory directory state
  rcases outcome_attempt_bind_cases directory (host.openDirectory directory) _ state with
    ⟨fault, _, hend⟩ | ⟨_, _, hnext⟩
  · rw [hend]
    exact ⟨hopened, nofun⟩
  rw [hnext]
  obtain ⟨hread, htext⟩ := hhost.readFile directory name (host.openDirectory directory state).2
  rcases outcome_attempt_bind_cases path (host.readFile directory name) _ _ with
    ⟨fault, _, hend⟩ | ⟨text, hvalue, hnext⟩
  · rw [hend]
    exact ⟨hread.trans hopened, nofun⟩
  rw [hnext, outcome_ofExcept]
  refine ⟨hread.trans hopened, ?_⟩
  intro toolchains hresult
  have hdocument : Toolchain.readDocument text = .ok toolchains := by
    cases hdocument : Toolchain.readDocument text with
    | error error => rw [hdocument] at hresult; exact nomatch hresult
    | ok found => rw [hdocument] at hresult; exact congrArg Except.ok (Except.ok.inj hresult)
  rw [← hopened]
  exact ⟨directory, name, text, hsplit, htext text hvalue, hdocument⟩

/-! ## Writing -/

theorem view_outcome_ensureDirectory (hhost : host.Faithful view) (directory : String)
    (state : σ) :
    World.ExtendedTowards directory (view state)
      (view (outcome (ensureDirectory host directory) state).2) := by
  have hopened := hhost.openDirectory directory state
  have hrefl : World.ExtendedTowards directory (view state)
      (view (host.openDirectory directory state).2) := by
    rw [hopened]
    exact ⟨rfl, .refl directory _⟩
  unfold ensureDirectory
  rw [outcome_bind, outcome_lift]
  dsimp only
  split
  · exact hrefl
  · -- the directory is not there and is created
    have hmade := hhost.makeDirectories directory (host.openDirectory directory state).2
    rw [hopened] at hmade
    have hgrown : World.ExtendedTowards directory (view state)
        (view (host.makeDirectories directory (host.openDirectory directory state).2).2) :=
      ⟨hmade.1, FileSystem.extendedTowards_of_creates hmade.2⟩
    rcases outcome_attempt_bind_cases directory (host.makeDirectories directory)
        (fun _ => attempt directory (host.openDirectory directory)) _ with
      ⟨fault, _, hend⟩ | ⟨_, _, hnext⟩
    · rw [hend]
      exact hgrown
    · rw [hnext, outcome_attempt, hhost.openDirectory]
      exact hgrown
  · exact hrefl

/-- **Writing a text.**  Either it fails, and there is nothing new but directories on the way; or
the text is in the file. -/
theorem outcome_writeText_cases (hhost : host.Faithful view) (path text : String) (state : σ) :
    (∃ error, (outcome (writeText host path text) state).1 = .error error ∧
      (view (outcome (writeText host path text) state).2 = view state ∨
        ∃ directory name, Path.splitFile? path = some (directory, name) ∧
          World.ExtendedTowards directory (view state)
            (view (outcome (writeText host path text) state).2))) ∨
    ((outcome (writeText host path text) state).1 = .ok () ∧
      (view (outcome (writeText host path text) state).2).stdout = (view state).stdout ∧
      ∃ directory name, Path.splitFile? path = some (directory, name) ∧
        FileSystem.Written directory name text.toUTF8 (view state).files
          (view (outcome (writeText host path text) state).2).files) := by
  unfold writeText
  rcases outcome_splitFile_bind_cases path _ state with hend | ⟨directory, name, hsplit, hnext⟩
  · rw [hend]
    exact Or.inl ⟨_, rfl, Or.inl rfl⟩
  rw [hnext, outcome_bind]
  have hgrown := view_outcome_ensureDirectory hhost directory state
  rcases hensured : outcome (ensureDirectory host directory) state with ⟨error | _, behind⟩
  · rw [hensured] at hgrown
    exact Or.inl ⟨error, rfl, Or.inr ⟨directory, name, hsplit, hgrown⟩⟩
  · rw [hensured] at hgrown
    dsimp only
    rw [outcome_attempt]
    rcases hhost.writeFile directory name text behind with
      ⟨fault, hresult, hview⟩ | ⟨hresult, hview⟩
    · rw [hresult, hview]
      exact Or.inl ⟨_, rfl, Or.inr ⟨directory, name, hsplit, hgrown⟩⟩
    · rcases Host.writeFile_ofWorld_cases directory name text (view behind) with
        ⟨fault, hcase⟩ | ⟨home, hopen, hplace, hcase⟩
      · rw [hcase] at hview
        exact nomatch hview
      · rw [hcase] at hview
        rw [hresult, ← (Prod.mk.inj hview).2]
        exact Or.inr ⟨rfl, hgrown.stdout_eq, directory, name, hsplit,
          hgrown.files.written hopen hplace _⟩

/-! ## The whole conversion -/

/-- The text that a conversion is to deliver: the input is read from the host as it is before
anything else happens, and what is read is merged. -/
def prepared (host : Host (StateM σ)) (invocation : CommandLine.Invocation) (state : σ) :
    Except ConversionError String :=
  (outcome (readToolchains host invocation.input) state).1.bind fun toolchains =>
    (mergeToText invocation.options toolchains).mapError .merge

/-- The last step of a conversion. -/
def deliver (host : Host (StateM σ)) (output : Option String) (text : String) :
    ExceptT ConversionError (StateM σ) Unit :=
  match output with
  | some path => writeText host path text
  | none => ExceptT.lift (host.print text)

/-- **A conversion is reading, merging and then delivering**, or ends before that. -/
theorem outcome_run (hhost : host.Faithful view) (invocation : CommandLine.Invocation)
    (state : σ) : ∃ behind, view behind = view state ∧
      outcome (run host invocation) state =
        match prepared host invocation state with
        | .ok text => outcome (deliver host invocation.output text) behind
        | .error error => (.error error, behind) := by
  refine ⟨_, (view_outcome_readToolchains hhost invocation.input state).1, ?_⟩
  unfold run prepared
  rw [outcome_bind]
  rcases outcome (readToolchains host invocation.input) state with ⟨error | toolchains, behind⟩
  · rfl
  · dsimp only [Except.bind]
    rw [outcome_bind, outcome_ofExcept]
    cases mergeToText invocation.options toolchains with
    | error error => rfl
    | ok text => cases invocation.output <;> rfl

/-- What a conversion leaves behind, whatever happens. -/
structure Atomic (host : Host (StateM σ)) (view : σ → World) (invocation : CommandLine.Invocation)
    (state : σ) : Prop where
  /-- The toolchains that are merged are those of the document at the input path. -/
  source : ∀ toolchains, (outcome (readToolchains host invocation.input) state).1 = .ok toolchains →
    (view state).HasDocument invocation.input toolchains
  /-- Where there is no text to deliver, that is the error, and nothing has changed. -/
  unprepared : ∀ error, prepared host invocation state = .error error →
    (outcome (run host invocation) state).1 = .error error ∧
      view (outcome (run host invocation) state).2 = view state
  /-- Without an output path the text is printed. -/
  printed : ∀ text, prepared host invocation state = .ok text → invocation.output = none →
    (outcome (run host invocation) state).1 = .ok () ∧
      view (outcome (run host invocation) state).2 =
        { view state with stdout := (view state).stdout ++ text }
  /-- With an output path a conversion that succeeds has written the text there. -/
  written : ∀ text path, prepared host invocation state = .ok text →
    invocation.output = some path → (outcome (run host invocation) state).1 = .ok () →
    (view (outcome (run host invocation) state).2).stdout = (view state).stdout ∧
      ∃ directory name, Path.splitFile? path = some (directory, name) ∧
        FileSystem.Written directory name text.toUTF8 (view state).files
          (view (outcome (run host invocation) state).2).files
  /-- A conversion that fails has created and changed no file and printed nothing.  There may be
  new directories on the way to the output, if it came to that. -/
  failed : ∀ error, (outcome (run host invocation) state).1 = .error error →
    (view (outcome (run host invocation) state).2).stdout = (view state).stdout ∧
      FileSystem.SameFiles (view state).files
        (view (outcome (run host invocation) state).2).files ∧
      (view (outcome (run host invocation) state).2 = view state ∨
        ∃ path directory name, invocation.output = some path ∧
          Path.splitFile? path = some (directory, name) ∧
          World.ExtendedTowards directory (view state)
            (view (outcome (run host invocation) state).2))

/-- An error in front of the text is the error of the conversion, and an error behind it is one of
writing the output. -/
theorem view_outcome_run_of_error (hhost : host.Faithful view)
    (invocation : CommandLine.Invocation) (state : σ) {error : ConversionError}
    (herror : (outcome (run host invocation) state).1 = .error error) :
    view (outcome (run host invocation) state).2 = view state ∨
      ∃ path directory name, invocation.output = some path ∧
        Path.splitFile? path = some (directory, name) ∧
        World.ExtendedTowards directory (view state)
          (view (outcome (run host invocation) state).2) := by
  obtain ⟨behind, hbehind, hrun⟩ := outcome_run hhost invocation state
  cases hprepared : prepared host invocation state with
  | error error =>
      rw [hrun, hprepared]
      exact Or.inl hbehind
  | ok text =>
      rw [hrun, hprepared] at herror ⊢
      cases houtput : invocation.output with
      | none =>
          rw [houtput] at herror
          exact nomatch herror
      | some path =>
          rw [houtput] at herror
          rw [← hbehind]
          rcases outcome_writeText_cases hhost path text behind with
            ⟨_, _, hview | ⟨directory, name, hsplit, hextended⟩⟩ | ⟨hok, _⟩
          · exact Or.inl hview
          · exact Or.inr ⟨path, directory, name, rfl, hsplit, hextended⟩
          · exact nomatch hok.symm.trans herror

/-- **Conversions are all or nothing**, on every faithful host, in every state of it, and for every
invocation; the input and the output may be the same file. -/
theorem atomic_run (hhost : host.Faithful view) (invocation : CommandLine.Invocation) (state : σ) :
    Atomic host view invocation state := by
  obtain ⟨behind, hbehind, hrun⟩ := outcome_run hhost invocation state
  refine ⟨(view_outcome_readToolchains hhost invocation.input state).2, ?_, ?_, ?_, ?_⟩
  · -- no text
    intro error hprepared
    rw [hrun, hprepared]
    exact ⟨rfl, hbehind⟩
  · -- a text without a path
    intro text hprepared houtput
    rw [hrun, hprepared, houtput, ← hbehind]
    exact ⟨rfl, hhost.print text behind⟩
  · -- a text and a path
    intro text path hprepared houtput hok
    rw [hrun, hprepared, houtput] at hok ⊢
    rcases outcome_writeText_cases hhost path text behind with
      ⟨error, herror, _⟩ | ⟨_, hstdout, hwritten⟩
    · exact nomatch hok.symm.trans herror
    · rw [← hbehind]
      exact ⟨hstdout, hwritten⟩
  · -- any error
    intro error herror
    have hview := view_outcome_run_of_error hhost invocation state herror
    refine ⟨?_, ?_, hview⟩
    · rcases hview with hsame | ⟨_, _, _, _, _, hextended⟩
      · rw [hsame]
      · exact hextended.stdout_eq
    · rcases hview with hsame | ⟨_, _, _, _, _, hextended⟩
      · rw [hsame]
        exact fun _ _ => Iff.rfl
      · exact hextended.files.sameFiles

/-- A world with a document in the working directory. -/
def withDocument : World :=
  let document := "\x7b\"toolchain\": [\x7b\"toolchain_identifier\": \"id\", " ++
    "\"host_system_name\": \"\", \"target_system_name\": \"\", \"target_cpu\": \"k8\", " ++
    "\"target_libc\": \"\", \"compiler\": \"gcc\", \"abi_version\": \"\", " ++
    "\"abi_libc_version\": \"\"\x7d]\x7d"
  ⟨⟨[(["work"], .directory), (["work", "in.json"], .file document.toUTF8)], ["work"]⟩, ""⟩

/-- The output is to be found by way of a directory that does not exist either. -/
def intoNewDirectories : CommandLine.Invocation :=
  ⟨"in.json", some "new/../out/./rule.bzl", "rule", false⟩

theorem atomic_run_intoNewDirectories :
    Host.ofWorld.Faithful id ∧
      (outcome (run Host.ofWorld intoNewDirectories) withDocument).1.isOk = true ∧
      Atomic Host.ofWorld id intoNewDirectories withDocument :=
  ⟨Host.faithful_ofWorld, by decide +kernel,
    atomic_run Host.faithful_ofWorld intoNewDirectories withDocument⟩

end Conversion

end ToolchainMerge
