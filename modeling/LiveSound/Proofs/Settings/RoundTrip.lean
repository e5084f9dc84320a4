import LiveSound.Proofs.Settings.Sections
import LiveSound.Proofs.Text.Utf8
import LiveSound.Proofs.World.Files
import LiveSound.Proofs.World.Runs
import LiveSound.Settings.Store

/-!
# Settings survive being stored

Settings that are saved as the settings file of a directory and loaded from there are the same
settings, if they name an artifact path; if they name none they come back with that of the defaults.
-/

namespace LiveSound.Settings

open World (run_bind_ok run_bind_eq_ok attempt_run)

theorem isName_file : Path.IsName "hearc.toml" :=
  ⟨by decide, by decide, by decide, by decide⟩

theorem formatOf_file (directory text : String) :
    formatOf (Path.join directory "hearc.toml") text = .toml := by
  have hextension : Path.extension? (Path.join directory "hearc.toml") = some "toml" := by
    by_cases hdirectory : directory = ""
    · have hjoin : Path.join directory "hearc.toml" = "hearc.toml" := by
        simp [Path.join, hdirectory]
      rw [hjoin]
      decide
    · rw [Path.extension?_join isName_file hdirectory (by decide)]
      decide
  unfold formatOf
  rw [hextension]
  rfl

theorem toContent_of_write? {s : Settings} {text : String} (h : s.write? = some text) :
    s.toContent = .ok (Utf8.encode text) := by
  unfold toContent
  rw [h]
  rfl

/-- Saved settings are read back from what was saved. -/
theorem ofContent_encode {s : Settings} (hs : s.Storable) {text : String}
    (htext : s.write? = some text) (directory : String) :
    ofContent (Path.join directory "hearc.toml") (Utf8.encode text) = .ok s.refilled := by
  unfold ofContent
  rw [Utf8.decode?_encode]
  simp only
  rw [formatOf_file, read?_write? hs htext]

variable {w : World} {directory : String}

theorem toContent_run {s : Settings} {text : String} (htext : s.write? = some text) (w : World) :
    (ExceptT.mk (pure s.toContent) : ExceptT String (StateM World) Bytes).run w =
      (.ok (Utf8.encode text), w) := by
  rw [toContent_of_write? htext]
  rfl

/-- In a directory that is there, the file can be saved if its name is not taken by another one. -/
theorem exists_save {s : Settings} (hs : s.Storable)
    (hdirectory : w.files.find? w.directory directory = some .directory)
    (hfree : w.files.find? w.directory (Path.join directory "hearc.toml") ≠ some .directory) :
    ∃ w', (save (m := StateM World) s (Path.join directory "hearc.toml")).run w = (.ok (), w') := by
  obtain ⟨text, htext⟩ := exists_write? hs
  obtain ⟨files, hwrite⟩ := Files.write_join isName_file hdirectory hfree (Utf8.encode text)
  have hparent := World.makeParent_run isName_file hdirectory fun parent _ =>
    s!"failed to create config directory: {parent}"
  refine ⟨{ w with files := files }, ?_⟩
  unfold save
  rw [run_bind_ok (toContent_run htext w), run_bind_ok hparent, World.attempt_writeFile_run, hwrite]

/-- Where settings were saved their text is found, whatever had to be made for the file. -/
theorem read_of_save {s : Settings} {text path : String} {w' : World}
    (htext : s.write? = some text)
    (h : (save (m := StateM World) s path).run w = (.ok (), w')) :
    w'.files.read w'.directory path = .ok (Utf8.encode text) ∧
      ∃ mode, w'.files.find? w'.directory path = some (.file (Utf8.encode text) mode) := by
  unfold save at h
  rw [run_bind_ok (toContent_run htext w)] at h
  obtain ⟨-, w'', -, h⟩ := run_bind_eq_ok h
  obtain ⟨files, hwrite, rfl⟩ := World.attempt_writeFile_eq_ok h
  exact Files.read_of_write hwrite

theorem find_run {content : Bytes} {mode : Nat}
    (hfile : w.files.find? w.directory (Path.join directory "hearc.toml") =
      some (.file content mode)) :
    (find (m := StateM World) directory).run w =
      (some (Path.join directory "hearc.toml"), w) := by
  have hisFile : (FileSystem.isFile (m := StateM World) (Path.join directory "hearc.toml")).run w =
      (true, w) := by
    simp only [FileSystem.isFile, StateT.run, hfile]
  unfold find fileNames
  rw [List.map_cons]
  unfold firstFile
  rw [StateT.run_bind, hisFile]
  rfl

theorem load_run {s : Settings} (hs : s.Storable) {text : String} {mode : Nat}
    (htext : s.write? = some text)
    (hread : w.files.read w.directory (Path.join directory "hearc.toml") =
      .ok (Utf8.encode text))
    (hfile : w.files.find? w.directory (Path.join directory "hearc.toml") =
      some (.file (Utf8.encode text) mode)) :
    (load (m := StateM World) directory).run w = (.ok s.refilled, w) := by
  have hfind := find_run hfile
  have hinquire : (inquire (find (m := StateM World) directory)).run w =
      (.ok (some (Path.join directory "hearc.toml")), w) := by
    show (Except.ok <$> find (m := StateM World) directory).run w = _
    rw [StateT.run_map, hfind]
    rfl
  have hattempt (words : OsFault → String) : (attempt (FileSystem.readFile (m := StateM World)
      (Path.join directory "hearc.toml")) words).run w = (.ok (Utf8.encode text), w) := by
    rw [attempt_run]
    show ((w.files.read w.directory (Path.join directory "hearc.toml")).mapError _, w) = _
    rw [hread]
    rfl
  unfold load
  rw [run_bind_ok hinquire]
  simp only
  rw [run_bind_ok (hattempt _), ofContent_encode hs htext]
  rfl

theorem load_of_save {s : Settings} (hs : s.Storable) {w' : World}
    (h : (save (m := StateM World) s (Path.join directory "hearc.toml")).run w = (.ok (), w')) :
    (load (m := StateM World) directory).run w' = (.ok s.refilled, w') := by
  obtain ⟨text, htext⟩ := exists_write? hs
  obtain ⟨hread, mode, hfile⟩ := read_of_save htext h
  exact load_run hs htext hread hfile

/-- Settings that were saved are what is loaded afterwards, if they have an artifact path; one that
is not there becomes that of the defaults. Nothing but the files stops them from being saved. -/
theorem saved_settings_come_back {s : Settings} (hs : s.Storable) (w : World)
    (directory : String) :
    (∀ w', (save (m := StateM World) s (Path.join directory "hearc.toml")).run w = (.ok (), w') →
      (load (m := StateM World) directory).run w' = (.ok s.refilled, w') ∧
        ((load (m := StateM World) directory).run w' = (.ok s, w') ↔
          s.localServer.artifactPath ≠ none)) ∧
    (w.files.find? w.directory directory = some .directory →
      w.files.find? w.directory (Path.join directory "hearc.toml") ≠ some .directory →
      ∃ w', (save (m := StateM World) s (Path.join directory "hearc.toml")).run w =
        (.ok (), w')) := by
  refine ⟨fun w' h => ?_, exists_save hs⟩
  have hload := load_of_save hs h
  refine ⟨hload, ?_⟩
  rw [hload, ← refilled_eq_iff]
  constructor
  · intro heq
    exact Except.ok.inj (congrArg Prod.fst heq)
  · intro heq
    rw [heq]

/-- The default settings without an artifact path. -/
def pathless : Settings :=
  { Settings.default with localServer := { LocalSettings.default with artifactPath := none } }

def blank : World where
  files := .empty
  directory := []
  cache := "/cache"
  network _ _ := .unreachable
  requests := []
  unpacker _ _ _ _ files := (false, files)
  program _ _ _ := .notStarted .notFound
  runs := []
  printed := ""
  hasDevice := false

/-- They come back as the default settings. -/
theorem pathless_settings_change : pathless.Storable ∧
    ∃ w', (save (m := StateM World) pathless (Path.join "/" "hearc.toml")).run blank = (.ok (), w') ∧
      (load (m := StateM World) "/").run w' = (.ok Settings.default, w') := by
  have hs : pathless.Storable := by
    constructor <;> decide
  have hroot : blank.files.find? blank.directory "/" = some .directory := Files.find?_root _ _
  have hfree : blank.files.find? blank.directory (Path.join "/" "hearc.toml") ≠
      some .directory := by
    obtain ⟨above, -, hlocate⟩ := Files.locate_join isName_file hroot
    have hnone : blank.files.entry? (above ++ ["hearc.toml"]) = none := by
      simp [blank, Files.entry?, Files.empty]
    rw [Files.find?, hlocate]
    simp [hnone]
  obtain ⟨hload, hsave⟩ := saved_settings_come_back hs blank "/"
  obtain ⟨w', hrun⟩ := hsave hroot hfree
  exact ⟨hs, w', hrun, (hload w' hrun).1⟩

end LiveSound.Settings
