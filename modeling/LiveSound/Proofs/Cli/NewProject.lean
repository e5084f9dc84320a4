import LiveSound.Cli.Init
import LiveSound.Proofs.Settings.RoundTrip
import LiveSound.Proofs.World.Building

/-!
# New projects among other files

Making a project that is not forced first looks whether its place is free: whether there is a
settings file, and for a project with a name whether anything has that name. Then it writes the
settings and the first source.

A directory that has to be made has no files below it, so a project with a name writes over nothing.
In the current directory there may be a source although there are no settings, and it is written
over (`kept_iff_of_nameless`).
-/

namespace LiveSound.Cli

open World (Builds run_bind run_bind_ok attempt_makeDirectories_run)

variable {logger : Log.Logger} {o : InitOptions} {directory project : String} {w : World}
  {writes : String → Bytes → Prop}

theorem builds_say (logger : Log.Logger) (level : Log.Level) (message : String) :
    Builds writes (say (m := StateM World) logger level message) := World.builds_print _

theorem builds_sayAll (logger : Log.Logger) (level : Log.Level) (lines : List String) :
    Builds writes (sayAll (m := StateM World) logger level lines) := by
  induction lines with
  | nil => exact World.builds_pure ()
  | cons line rest ih => exact (builds_say logger level line).bind fun _ => ih

/-- What is written for a project in this directory: its settings, and its first source. -/
def projectFiles (directory p : String) (content : Bytes) : Prop :=
  p = Path.join directory settingsFile ∨
    (p = Settings.default.entryPath directory ∧ content = Utf8.encode template)

theorem builds_save (writes : String → Bytes → Prop) (settings : Settings) {path : String}
    (allowed : ∀ content, writes path content) :
    Builds writes (Settings.save (m := StateM World) settings path) := by
  unfold Settings.save
  refine Builds.bind (fun w => ?_) fun content => (World.builds_makeParent _ _).bind fun _ =>
    World.builds_writeFile (allowed content) _
  cases settings.toContent <;> exact ⟨rfl, .refl⟩

theorem builds_scaffold (directory : String) :
    Builds (projectFiles directory) (scaffold (m := StateM World) directory .default) := by
  unfold scaffold
  exact (builds_save _ _ fun _ => .inl rfl).bind fun _ =>
    (World.builds_makeParent _ _).bind fun _ =>
      (World.builds_writeFile (.inr ⟨rfl, rfl⟩) _).bind fun _ => World.builds_makeParent _ _

theorem isPresent_run (path : String) (w : World) :
    (inquire (FileSystem.isPresent (m := StateM World) path)).run w =
      (.ok (w.files.find? w.directory path).isSome, w) := rfl

theorem say_run (logger : Log.Logger) (level : Log.Level) (message : String) (w : World) :
    (say (m := StateM World) logger level message).run w =
      (.ok (), { w with printed := w.printed ++ logger.log level message }) := rfl

/-! ## Where a project may go -/

/-- The directory of a project that is made from this one. -/
def InitOptions.target (o : InitOptions) (current : String) : String :=
  match o.name with
  | some name => Path.join current name
  | none => current

/-- There is no settings file in the directory, and if it is a new one nothing has its name. -/
structure Free (o : InitOptions) (directory : String) (w : World) : Prop where
  name : o.name.isSome → w.files.find? w.directory directory = none
  settings : w.files.find? w.directory (Path.join directory settingsFile) = none

/-- Where nothing is in the way nothing is done; otherwise all that is done is to say so. -/
theorem checkFree_run (logger : Log.Logger) (unforced : o.force = false)
    (directory project : String) (w : World) :
    (Free o directory w ∧
      (checkFree (m := StateM World) logger o directory project).run w = (.ok (), w)) ∨
    (¬Free o directory w ∧
      ∃ reason printed, (checkFree (m := StateM World) logger o directory project).run w =
        (.error reason, { w with printed := printed })) := by
  unfold checkFree
  rw [unforced]
  simp only [Bool.false_eq_true, if_false]
  rw [run_bind_ok (isPresent_run directory w)]
  split
  case isTrue taken =>
    rw [Bool.and_eq_true, Option.isSome_iff_ne_none (o := w.files.find? _ _)] at taken
    exact .inr ⟨fun free => taken.2 (free.name taken.1), _, _,
      run_bind_ok (say_run logger .error _ w) _⟩
  case isFalse untaken =>
    rw [Bool.and_eq_true, Option.isSome_iff_ne_none (o := w.files.find? _ _)] at untaken
    rw [run_bind_ok (isPresent_run _ w)]
    split
    case isTrue there =>
      exact .inr ⟨fun free => Option.isSome_iff_ne_none.mp there free.settings, _, _,
        run_bind_ok (say_run logger .error _ w) _⟩
    case isFalse absent =>
      refine .inl ⟨⟨fun named => ?_, Option.not_isSome_iff_eq_none.mp absent⟩, rfl⟩
      by_contra there
      exact untaken ⟨named, there⟩

/-! ## What is made -/

/-- The steps that can change files; what is done after them changes none. -/
theorem init_eq (logger : Log.Logger) (o : InitOptions) (w : World) :
    ∃ project opening, ∃ rest : Unit → ExceptT String (StateM World) Unit,
      (∀ a writes, Builds writes (rest a)) ∧
      (init (m := StateM World) logger o).run w =
        (checkFree (m := StateM World) logger o (o.target w.here) project >>= fun _ =>
          say logger .action opening >>= fun _ =>
          attempt (FileSystem.makeDirectories (o.target w.here)) OsFault.message >>= fun _ =>
          scaffold (o.target w.here) .default >>= rest).run w := by
  have current : (inquire (FileSystem.currentDirectory (m := StateM World))).run w =
      (.ok w.here, w) := rfl
  exact ⟨_, _, fun _ => say logger .success _ >>= fun _ => sayAll logger .info (nextSteps o),
    fun _ _ => (builds_say logger _ _).bind fun _ => builds_sayAll logger _ _,
    run_bind_ok current _⟩

/-- Nothing is changed where something is in the way or the directory cannot be made. Otherwise the
project is written, and what is done after that changes no file. -/
theorem init_run (logger : Log.Logger) (unforced : o.force = false) (w : World) :
    (((init (m := StateM World) logger o).run w).2.files = w.files ∧
      (Free o (o.target w.here) w →
        ∃ fault, w.files.makeDirectories w.directory (o.target w.here) = .error fault)) ∨
    (Free o (o.target w.here) w ∧
      ∃ files printed, ∃ rest : Unit → ExceptT String (StateM World) Unit,
        w.files.makeDirectories w.directory (o.target w.here) = .ok files ∧
        (∀ a writes, Builds writes (rest a)) ∧
        ((init (m := StateM World) logger o).run w).2 =
          ((scaffold (m := StateM World) (o.target w.here) .default >>= rest).run
            { w with files := files, printed := printed }).2) := by
  obtain ⟨project, opening, rest, later, same⟩ := init_eq logger o w
  rw [same]
  rcases checkFree_run logger unforced (o.target w.here) project w with
    ⟨free, ran⟩ | ⟨taken, _, _, ran⟩
  · rw [run_bind_ok ran, run_bind_ok (say_run logger .action opening w), run_bind,
      attempt_makeDirectories_run]
    cases made : w.files.makeDirectories w.directory (o.target w.here) with
    | error fault => exact .inl ⟨rfl, fun _ => ⟨fault, rfl⟩⟩
    | ok files => exact .inr ⟨free, files, _, rest, rfl, later, rfl⟩
  · rw [run_bind, ran]
    exact .inl ⟨rfl, fun free => absurd free taken⟩

theorem init_built (logger : Log.Logger) (unforced : o.force = false) (w : World) :
    ((init (m := StateM World) logger o).run w).2.files = w.files ∨
    (Free o (o.target w.here) w ∧
      ∃ files, w.files.makeDirectories w.directory (o.target w.here) = .ok files ∧
        Files.Built w.directory (projectFiles (o.target w.here)) files
          ((init (m := StateM World) logger o).run w).2.files) := by
  rcases init_run logger unforced w with ⟨same, -⟩ | ⟨free, files, printed, rest, made, later, same⟩
  · exact .inl same
  · rw [same]
    have builds := (builds_scaffold (o.target w.here)).bind fun a => later a _
    exact .inr ⟨free, files, made, (builds { w with files := files, printed := printed }).2⟩

/-! ## What is written over -/

theorem relative_entry : Path.isAbsolute Settings.default.paths.entry = false :=
  (Path.isAbsolute_eq_false_iff _).mpr (by decide)

theorem parts_entry : Path.parts Settings.default.paths.entry = ["src", "user.h"] := by decide

theorem isName_src : Path.IsName "src" := ⟨by decide, by decide, by decide, by decide⟩

theorem isName_user : Path.IsName "user.h" := ⟨by decide, by decide, by decide, by decide⟩

theorem exists_of_projectFiles {p : String} {content : Bytes}
    (h : projectFiles directory p content) :
    ∃ name, p = Path.join directory name ∧ Path.isAbsolute name = false ∧
      ".." ∉ Path.parts name := by
  rcases h with rfl | ⟨rfl, -⟩
  · exact ⟨settingsFile, rfl, Path.isAbsolute_name Settings.isName_file, by decide⟩
  · exact ⟨Settings.default.paths.entry, rfl, relative_entry, by decide⟩

/-- An absolute path that does not lead up. -/
structure Target (directory : String) : Prop where
  absolute : Path.isAbsolute directory = true
  ne_empty : directory ≠ ""
  down : ".." ∉ Path.parts directory

theorem target_here (grounded : w.Grounded) : Target w.here where
  absolute := w.isAbsolute_here
  ne_empty := w.here_ne_empty
  down := by
    rw [grounded.parts_here]
    exact fun mem => (grounded.names _ mem).ne_dots rfl

theorem target_join (grounded : w.Grounded) {name : String} (down : ".." ∉ Path.parts name) :
    Target (Path.join w.here name) := by
  have here := target_here grounded
  cases relative : Path.isAbsolute name with
  | true =>
    have same : Path.join w.here name = name := by simp [Path.join, relative]
    rw [same]
    refine ⟨relative, ?_, down⟩
    rintro rfl
    exact absurd relative (by rw [(Path.isAbsolute_eq_false_iff "").mpr (by decide)]; decide)
  | false =>
    refine ⟨?_, Path.join_ne_empty relative here.ne_empty, ?_⟩
    · rw [Path.isAbsolute_join_relative relative here.ne_empty, here.absolute]
    · rw [Path.parts_join_relative relative here.ne_empty]
      simp [here.down, down]

theorem Target.start (target : Target directory) {name : String}
    (relative : Path.isAbsolute name = false) (base : Place) :
    Files.start base (Path.join directory name) = [] := by
  rw [Files.start, Path.isAbsolute_join_relative relative target.ne_empty, target.absolute]
  rfl

/-- Where a path below the directory leads, if neither leads up again. -/
theorem Target.place (target : Target directory) {name : String}
    (relative : Path.isAbsolute name = false) (down : ".." ∉ Path.parts name) {f : Files}
    {base place : Place} (located : f.locate base (Path.join directory name) = .ok place) :
    place = Files.plain (Path.parts directory) ++ Files.plain (Path.parts name) := by
  have parts := Path.parts_join_relative relative target.ne_empty
  have found := Files.locate_plain (by simp [parts, target.down, down]) located
  rwa [target.start relative, parts, Files.plain_append] at found

/-- A named project does not touch any file, unless its name leads up. -/
theorem kept_of_named (grounded : w.Grounded) (logger : Log.Logger) (unforced : o.force = false)
    {name : String} (named : o.name = some name) (down : ".." ∉ Path.parts name) :
    Files.Kept w.files ((init (m := StateM World) logger o).run w).2.files := by
  intro place content mode file
  rcases init_built logger unforced w with same | ⟨free, files, made, built⟩
  · rw [same, file]
  · have target : Target (o.target w.here) := by
      rw [InitOptions.target, named]
      exact target_join grounded down
    rcases built.file ((Files.makeDirectories_grows made).entry file) with
      same | ⟨p, new, written, -, located, -⟩
    · exact same
    · obtain ⟨rest, rfl, relative, below⟩ := exists_of_projectFiles written
      have found := target.place relative below located
      have root : Files.start w.directory (o.target w.here) = [] := by
        rw [Files.start, target.absolute]
        rfl
      have empty := grounded.files.empty_below target.ne_empty target.down (by rw [root]; rfl)
        (free.name (by rw [named]; rfl)) made (Files.plain (Path.parts rest))
      rw [root, List.nil_append, ← found, file] at empty
      cases empty

/-! ## Projects without a name -/

/-- Where the first source of a project in the current directory is. -/
def sourcePlace (w : World) : Place := w.directory ++ ["src", "user.h"]

/-- Where a path below the current directory leads that has only names. -/
theorem place_here (grounded : w.Grounded) {name : String} (relative : Path.isAbsolute name = false)
    (names : ∀ part ∈ Path.parts name, Path.IsName part) {f : Files} {base place : Place}
    (located : f.locate base (Path.join w.here name) = .ok place) :
    place = w.directory ++ Path.parts name := by
  have down : ".." ∉ Path.parts name := fun mem => (names _ mem).ne_dots rfl
  rw [(target_here grounded).place relative down located, grounded.parts_here,
    Files.plain_of_names grounded.names, Files.plain_of_names names]

theorem place_settings (grounded : w.Grounded) {f : Files} {base place : Place}
    (located : f.locate base (Path.join w.here settingsFile) = .ok place) :
    place = w.directory ++ [settingsFile] :=
  place_here grounded (Path.isAbsolute_name Settings.isName_file)
    (by simpa [Path.parts_name Settings.isName_file] using Settings.isName_file) located

theorem find?_settings (grounded : w.Grounded) :
    w.files.find? w.directory (Path.join w.here settingsFile) =
      w.files.entry? (w.directory ++ [settingsFile]) := by
  obtain ⟨above, -, located⟩ := Files.locate_join Settings.isName_file grounded.find?_here
  rw [← settingsFile] at located
  rw [Files.find?, located, ← place_settings grounded located]

theorem place_source (grounded : w.Grounded) {f : Files} {base place : Place}
    (located : f.locate base (Settings.default.entryPath w.here) = .ok place) :
    place = sourcePlace w := by
  refine place_here grounded relative_entry ?_ located
  rw [parts_entry]
  simp [isName_src, isName_user]

theorem entryPath_eq (w : World) :
    Settings.default.entryPath w.here = Path.join (Path.join w.here "src") "user.h" :=
  (Path.join_join isName_src isName_user w.here_ne_empty).symm

theorem find?_src (grounded : w.Grounded) {e : Entry}
    (entry : w.files.entry? (sourcePlace w) = some e) :
    w.files.find? w.directory (Path.join w.here "src") = some .directory := by
  obtain ⟨above, -, located⟩ := Files.locate_join isName_src grounded.find?_here
  have place := place_here grounded (Path.isAbsolute_name isName_src)
    (by simpa [Path.parts_name isName_src] using isName_src) located
  rw [Path.parts_name isName_src] at place
  have split : sourcePlace w = (w.directory ++ ["src"]) ++ ["user.h"] := by simp [sourcePlace]
  rw [split] at entry
  rw [Files.find?, located, place]
  exact grounded.files.above (by simp) entry

theorem locate_source (grounded : w.Grounded) {e : Entry}
    (entry : w.files.entry? (sourcePlace w) = some e) :
    w.files.locate w.directory (Settings.default.entryPath w.here) = .ok (sourcePlace w) := by
  obtain ⟨above, -, located⟩ := Files.locate_join isName_user (find?_src grounded entry)
  rw [← entryPath_eq] at located
  rw [located, place_source grounded located]

theorem find?_source (grounded : w.Grounded) {content : Bytes} {mode : Nat} :
    w.files.find? w.directory (Settings.default.entryPath w.here) = some (.file content mode) ↔
      w.files.entry? (sourcePlace w) = some (.file content mode) := by
  constructor
  · intro found
    unfold Files.find? at found
    split at found
    · rename_i located
      rwa [place_source grounded located] at found
    · cases found
  · intro entry
    rw [Files.find?, locate_source grounded entry]
    exact entry

theorem storable_default : Settings.default.Storable := by
  constructor <;> decide

/-- Where there are no settings those of a new project are saved, and nothing else is written. -/
theorem exists_settings (grounded : w.Grounded)
    (free : w.files.find? w.directory (Path.join w.here settingsFile) = none) :
    ∃ w', (Settings.save (m := StateM World) .default (Path.join w.here settingsFile)).run w =
        (.ok (), w') ∧
      w'.directory = w.directory ∧
      Files.Built w.directory (fun p _ => p = Path.join w.here settingsFile) w.files w'.files := by
  have untaken : w.files.find? w.directory (Path.join w.here settingsFile) ≠ some .directory := by
    rw [free]
    simp
  obtain ⟨w', saved⟩ := Settings.exists_save storable_default grounded.find?_here untaken
  have built := builds_save (fun p _ => p = Path.join w.here settingsFile) Settings.default
    (fun _ => rfl) w
  have same : ((Settings.save (m := StateM World) .default
      (Path.join w.here settingsFile)).run w).2 = w' := congrArg Prod.snd saved
  rw [same] at built
  exact ⟨w', saved, built⟩

/-- Where there are no settings a source that is there becomes the one that projects start with. -/
theorem source_of_scaffold (grounded : w.Grounded)
    (free : w.files.find? w.directory (Path.join w.here settingsFile) = none)
    {content : Bytes} {mode : Nat}
    (source : w.files.entry? (sourcePlace w) = some (.file content mode))
    {rest : Unit → ExceptT String (StateM World) Unit}
    (later : ∀ a writes, Builds writes (rest a)) :
    Files.entry? ((scaffold (m := StateM World) w.here .default >>= rest).run w).2.files
      (sourcePlace w) = some (.file (Utf8.encode template) mode) := by
  obtain ⟨w₁, saved, same, built⟩ := exists_settings grounded free
  -- The settings are written elsewhere, so the source and its directory stay.
  have source₁ : w₁.files.entry? (sourcePlace w) = some (.file content mode) := by
    rcases built.file source with kept | ⟨p, new, rfl, -, located, -⟩
    · exact kept
    · have place := place_settings grounded located
      simp [sourcePlace] at place
  have slash : (Settings.default.entryPath w.here).endsWith "/" = false := by
    rw [entryPath_eq]
    exact Path.endsWith_join isName_user
      (Path.join_ne_empty (Path.isAbsolute_name isName_src) w.here_ne_empty)
  have located₁ := Files.locate_of_directories (fun _ => built.directory) slash
    (locate_source grounded source)
  rw [← same] at located₁
  have src₁ : w₁.files.find? w₁.directory (Path.join w.here "src") = some .directory := by
    rw [same]
    exact built.find?_directory (find?_src grounded source)
  have parent := World.makeParent_run isName_user src₁ fun _ f => f.message
  rw [← entryPath_eq] at parent
  -- Then the source is written over, and what follows leaves it.
  let w₂ : World :=
    { w₁ with files := w₁.files.put (sourcePlace w) (.file (Utf8.encode template) mode) }
  have written : (attempt (FileSystem.writeFile (m := StateM World)
      (Settings.default.entryPath w.here) (Utf8.encode template)) OsFault.message).run w₁ =
        (.ok (), w₂) := by
    rw [World.attempt_writeFile_run, Files.write_file located₁ source₁]
  let output : ExceptT String (StateM World) Unit :=
    makeParent (Settings.default.outputPath w.here) fun _ f => f.message
  have scaffolded : (scaffold (m := StateM World) w.here .default).run w = output.run w₂ := by
    unfold scaffold
    rw [run_bind_ok saved, run_bind_ok parent, run_bind_ok written]
  have ran : (scaffold (m := StateM World) w.here .default >>= rest).run w =
      (output >>= rest).run w₂ := by
    rw [run_bind, run_bind, scaffolded]
  have builds : Builds (fun _ _ => False) (output >>= rest) :=
    (World.builds_makeParent _ _).bind fun a => later a _
  rw [ran]
  rcases (builds w₂).2.file (Files.entry?_put_self w₁.files (by simp [sourcePlace]) _) with
    kept | ⟨-, -, impossible, -⟩
  · exact kept
  · exact impossible.elim

/-- Without a name and settings in the current directory, a source that is there is written over. -/
theorem kept_iff_of_nameless (grounded : w.Grounded) (logger : Log.Logger)
    (unforced : o.force = false) (nameless : o.name = none) :
    Files.Kept w.files ((init (m := StateM World) logger o).run w).2.files ↔
      w.files.find? w.directory (Path.join w.here settingsFile) ≠ none ∨
      ∀ content mode, w.files.find? w.directory (Settings.default.entryPath w.here) =
        some (.file content mode) → content = Utf8.encode template := by
  have target : o.target w.here = w.here := by rw [InitOptions.target, nameless]
  have unnamed : o.name.isSome → w.files.find? w.directory w.here = none := by
    simp [nameless]
  have making := Files.makeDirectories_directory grounded.find?_here
  constructor
  · intro kept
    by_contra! lost
    obtain ⟨free, content, mode, found, ne⟩ := lost
    have source := (find?_source grounded).mp found
    rcases init_run logger unforced w with ⟨-, fault⟩ | ⟨-, files, printed, rest, made, later, same⟩
    · obtain ⟨fault, made⟩ := fault (by rw [target]; exact ⟨unnamed, free⟩)
      rw [target, making] at made
      cases made
    · rw [target, making] at made
      cases made
      have still := kept _ _ _ source
      rw [same, target] at still
      have new := source_of_scaffold (w := { w with printed := printed })
        ⟨grounded.files, grounded.names, grounded.home⟩ free source later
      have same := still.symm.trans new
      simp only [Option.some.injEq, Entry.file.injEq] at same
      exact ne same.1
  · intro spared place content mode file
    rcases init_built logger unforced w with same | ⟨free, files, made, built⟩
    · rw [same, file]
    · rw [target] at free made built
      rw [making] at made
      cases made
      rcases built.file file with kept | ⟨p, new, rfl | ⟨rfl, same⟩, -, located, entry⟩
      · exact kept
      · -- The place of the settings was empty.
        have absent := free.settings
        rw [find?_settings grounded, ← place_settings grounded located, file] at absent
        cases absent
      · rw [place_source grounded located] at file entry ⊢
        rcases spared with there | template
        · exact absurd free.settings there
        · rw [template content mode ((find?_source grounded).mpr file), entry, same]

/-- What making a project does to the files that were there, when it is not forced. A project with a
name of its own, which does not lead up, touches none of them. In the current directory they all
stay exactly if settings stand there, or if there is no source other than the one that projects are
made with. In any case a file that does not stay is the settings file or the first source. -/
theorem unforced_init_keeps_files (grounded : w.Grounded) (logger : Log.Logger)
    (unforced : o.force = false) :
    (∀ name, o.name = some name → ".." ∉ Path.parts name →
      Files.Kept w.files ((init (m := StateM World) logger o).run w).2.files) ∧
    (o.name = none →
      (Files.Kept w.files ((init (m := StateM World) logger o).run w).2.files ↔
        w.files.find? w.directory (Path.join w.here settingsFile) ≠ none ∨
        ∀ content mode, w.files.find? w.directory (Settings.default.entryPath w.here) =
          some (.file content mode) → content = Utf8.encode template)) ∧
    ∀ place content mode, w.files.entry? place = some (.file content mode) →
      Files.entry? ((init (m := StateM World) logger o).run w).2.files place =
        some (.file content mode) ∨
      ∃ p new, projectFiles (o.target w.here) p new ∧
        ((init (m := StateM World) logger o).run w).2.files.locate w.directory p = .ok place ∧
        Files.entry? ((init (m := StateM World) logger o).run w).2.files place =
          some (.file new mode) := by
  refine ⟨fun name named down => kept_of_named grounded logger unforced named down,
    kept_iff_of_nameless grounded logger unforced, fun place content mode file => ?_⟩
  rcases init_built logger unforced w with same | ⟨-, files, made, built⟩
  · rw [same]
    exact .inl file
  · refine (built.file ((Files.makeDirectories_grows made).entry file)).imp_right ?_
    rintro ⟨p, new, written, -, located, entry⟩
    exact ⟨p, new, written, located, entry⟩

/-- The first source with a line of the user's own. -/
def edited : Bytes := Utf8.encode template ++ Utf8.encode "int count;\n"

/-- A project of which only the source is there. -/
def started : World :=
  { Settings.blank with
    files := ⟨[(["proj"], .directory), (["proj", "src"], .directory),
      (["proj", "src", "user.h"], .file edited 0o644)]⟩
    directory := ["proj"] }

theorem grounded_started : started.Grounded where
  files := Files.grounded_of_entries (by decide)
  names := by
    intro name mem
    obtain rfl := List.mem_singleton.mp mem
    exact ⟨by decide, by decide, by decide, by decide⟩
  home := by decide

/-- Its source is written over. -/
theorem edited_source_is_lost :
    ¬ Files.Kept started.files
      ((init (m := StateM World) ⟨false⟩ ⟨none, false⟩).run started).2.files := by
  have source : started.files.entry? (sourcePlace started) = some (.file edited 0o644) := rfl
  have found := (find?_source grounded_started).mpr source
  have absent : started.files.entry? (started.directory ++ [settingsFile]) = none := rfl
  rw [← find?_settings grounded_started] at absent
  intro kept
  rcases ((unforced_init_keeps_files grounded_started ⟨false⟩ rfl).2.1 rfl).mp kept with
    there | template
  · exact there absent
  · have same := template edited 0o644 found
    have none : Utf8.encode "int count;\n" = [] := by simpa [edited] using same
    exact absurd none (by decide)

end LiveSound.Cli
