import LiveSound.Proofs.Compile.AssetCache

/-!
# Fetching assets

What the parts of an attempt to fetch the assets do to the cache, each told as a `Stage`: making the
cache directory, downloading a file, making sure of a program and of the directory that is unpacked.
-/

namespace LiveSound

/-! ## Requests -/

namespace Net

variable {w : World} {url : String} {u : Url}

theorem fetch_unparsed {e : UrlFault} (h : Url.parse url = .error e) (timeout : Nat) :
    ∃ trouble, fetch (m := StateM World) .get url none timeout w = (.error trouble, w) := by
  unfold fetch timedFetch
  rw [h]
  cases e with
  | malformed => exact ⟨_, rfl⟩
  | foreign text => exact ⟨_, rfl⟩

theorem fetch_parsed (h : Url.parse url = .ok u) (timeout : Nat) :
    fetch (m := StateM World) .get url none timeout w =
      (match w.network w.requests ⟨.get, u, none⟩ with
        | .unreachable => .error (.failed s!"error sending request for url ({u.text})")
        | .silent => .error .silent
        | .timedOut => .error (.timedOut s!"error sending request for url ({u.text})")
        | .answered r => .ok r,
        { w with requests := w.requests ++ [⟨.get, u, none⟩] }) := by
  unfold fetch timedFetch
  rw [h]
  simp only [bind, StateT.bind, Network.exchange]
  cases w.network w.requests ⟨.get, u, none⟩ <;> rfl

end Net

namespace Compile

open Files (destination route Open)
open Net (Brings)
open ToolchainSettings

namespace ToolchainSettings

variable {s : ToolchainSettings} {w w' : World} {name other : String} {ok : Bool}

/-! ## A cache directory that is there -/

/-- The cache directory is there, and can be used. -/
structure Usable (s : ToolchainSettings) (w : World) : Prop where
  apart : s.Apart w.directory
  grounded : w.files.Grounded
  opened : w.files.Open w.directory s.cacheDirectory

theorem Usable.advance (h : s.Usable w) (later : s.Advance w w') : s.Usable w' where
  apart := later.directory ▸ h.apart
  grounded := later.grounded h.grounded
  opened := by
    rw [later.directory]
    exact h.opened.of_directories later.route

theorem Usable.locate (h : s.Usable w) (hname : Path.IsName name) :
    w.files.locate w.directory (Path.join s.cacheDirectory name) =
      .ok (s.place w.directory name) := by
  rw [place_eq hname]
  exact h.opened.locate hname

theorem Usable.find? (h : s.Usable w) (hname : Path.IsName name) :
    w.files.find? w.directory (Path.join s.cacheDirectory name) =
      w.files.entry? (s.place w.directory name) := by
  rw [Files.find?, h.locate hname]

theorem Usable.isFile_run (h : s.Usable w) (hname : Path.IsName name) :
    (inquire (FileSystem.isFile (m := StateM World) (Path.join s.cacheDirectory name))).run w =
      (.ok (s.hasFile w name), w) := by
  rw [World.inquire_run, hasFile, ← h.find? hname]
  rfl

theorem Usable.isDirectory_run (h : s.Usable w) :
    (inquire (FileSystem.isDirectory (m := StateM World)
      (Path.join s.cacheDirectory "sysroot"))).run w = (.ok (s.hasSysroot w), w) := by
  rw [World.inquire_run, hasSysroot, Files.isDirectoryAt, ← h.find? isName_sysroot]
  rfl

/-! ## Downloads -/

/-- A download that was tried for a file that is missing. -/
structure Download (s : ToolchainSettings) (name : String) (w : World) (ok : Bool) (w' : World) :
    Prop where
  directory : w'.directory = w.directory
  network : w'.network = w.network
  unpacker : w'.unpacker = w.unpacker
  trail : s.Trail w.network w.requests [name] ok w'.requests
  kept : ∀ q, w.files.entry? q = some .directory → w'.files.entry? q = some .directory
  grounded : w'.files.Grounded
  others : ∀ other ∈ s.cacheNames, other ≠ name → s.Untouched other w w'
  came : ok = true → ∃ content mode,
    w'.files.entry? (s.place w.directory name) = some (.file content mode) ∧
      s.Downloaded name content w w'
  same : ok = false → s.Untouched name w w'

theorem Trail.requests_grow {network : List Net.Request → Net.Request → Net.Exchange}
    {past past' : List Net.Request} {names : List String}
    (h : s.Trail network past names ok past') : past <+: past' := by
  induction h with
  | done => exact List.prefix_refl _
  | stopped => exact List.prefix_refl _
  | refused => exact List.prefix_append _ _
  | brought _ _ _ ih => exact (List.prefix_append _ _).trans ih

theorem Download.stage (h : s.Download name w ok w') (named : s.WellNamed)
    (mem : name ∈ s.assetNames) (absent : s.hasFile w name = false) :
    s.Stage [name] [name] w ok w' where
  advance := {
    directory := h.directory
    network := h.network
    unpacker := h.unpacker
    requests := h.trail.requests_grow
    route := fun q _ => h.kept q
    grounded := fun _ => h.grounded
    assets := fun other asset => by
      by_cases here : other = name
      · subst here
        cases ok with
        | true => exact .inr ⟨absent, h.came rfl⟩
        | false => exact .inl (h.same rfl)
      · exact .inl (h.others other (mem_cacheNames asset) here)
    sysroot := .inl (h.others "sysroot" (sysroot_mem s) (named.sysroot_ne mem)) }
  trail := h.trail
  others other there untouched :=
    h.others other there fun here => untouched (List.mem_singleton.mpr here)

theorem Download.hasFile (h : s.Download name w true w') : s.hasFile w' name = true := by
  obtain ⟨content, mode, file, -⟩ := h.came rfl
  exact hasFile_of_entry h.directory file

/-- A download that changed nothing but a file that has no final name. -/
theorem Download.unfinished {sent : List Net.Request} {f' : Files} {part : Place}
    (trail : s.Trail w.network w.requests [name] false (w.requests ++ sent))
    (mem : name ∈ s.cacheNames) (below : Files.Below part w.files f') (grounded : f'.Grounded)
    (apart : ∀ other ∈ s.cacheNames, ∀ rest, ¬ part <+: s.place w.directory other ++ rest) :
    s.Download name w false { w with files := f', requests := w.requests ++ sent } where
  directory := rfl
  network := rfl
  unpacker := rfl
  trail := trail
  kept := below.directory
  grounded := grounded
  others other there _ rest := below.outside _ (apart other there rest)
  came := nofun
  same _ rest := below.outside _ (apart name mem rest)

/-- Setting the mode of a file that came. -/
theorem Download.setMode (h : s.Download name w true w') (named : s.WellNamed)
    (mem : name ∈ s.cacheNames) {mode : Nat} {f' : Files}
    (set : w'.files.setMode w.directory (Path.join s.cacheDirectory name) mode = .ok f') :
    s.Download name w true { w' with files := f' } := by
  obtain ⟨content, old, file, came⟩ := h.came rfl
  obtain ⟨entry, same⟩ := Files.setMode_entries file set
  have hname := named.isName mem
  have below := Files.below_setMode (List.prefix_refl _) set
  exact {
    directory := h.directory
    network := h.network
    unpacker := h.unpacker
    trail := h.trail
    kept := fun q there => below.directory q (h.kept q there)
    grounded := below.grounded h.grounded
    others := fun other there ne rest => by
      rw [← h.others other there ne rest]
      exact below.outside _ (not_prefix_place hname (named.isName there) (Ne.symm ne) rest)
    came := fun _ => ⟨content, mode, entry, came⟩
    same := nofun }

end ToolchainSettings

namespace Toolchain

variable {s : ToolchainSettings} {w : World} {name : String}

theorem readAsset_eq_ok {url : String} {reply : Net.Reply} {bytes : Bytes}
    (h : readAsset url reply = .ok bytes) :
    reply.isSuccess = true ∧ reply.ending = .whole ∧ reply.body = bytes := by
  unfold readAsset Net.Reply.bytes at h
  split at h
  · rename_i success
    split at h
    · rename_i whole
      cases h
      exact ⟨success, whole, rfl⟩
    · cases h
    · cases h
  · cases h

theorem readAsset_error {url message : String} {reply : Net.Reply}
    (h : readAsset url reply = .error message) :
    ¬ (reply.isSuccess = true ∧ reply.ending = .whole) := by
  rintro ⟨success, whole⟩
  rw [readAsset, if_pos success, Net.Reply.bytes, whole] at h
  cases h

/-- Nothing that the cache keeps is under the name that a file has before its final one. -/
theorem part_apart (named : s.WellNamed) (mem : name ∈ s.assetNames) {other : String}
    (there : other ∈ s.cacheNames) (rest : Place) :
    ¬ s.place w.directory (Path.withExtension name "part") <+: s.place w.directory other ++ rest :=
  not_prefix_place (Path.isName_withExtension (named.names name mem) isExtension_part)
    (named.isName there) (named.part_ne (named.names name mem) there) rest

theorem download_moved {f₁ f₂ : Files} {content : Bytes} {r : Net.Request} (named : s.WellNamed)
    (usable : s.Usable w) (mem : name ∈ s.assetNames) (asks : s.Asks name r)
    (brings : Brings w.network w.requests r content)
    (written : w.files.write w.directory
      (Path.join s.cacheDirectory (Path.withExtension name "part")) content = .ok f₁)
    (moved : f₁.rename w.directory (Path.join s.cacheDirectory (Path.withExtension name "part"))
      (Path.join s.cacheDirectory name) = .ok f₂) :
    s.Download name w true { w with files := f₂, requests := w.requests ++ [r] } := by
  have hname := named.names name mem
  have hpart := Path.isName_withExtension hname isExtension_part
  have ne {other : String} (there : other ∈ s.cacheNames) := named.part_ne hname there
  have grounded := usable.grounded.write written
  obtain ⟨-, ⟨mode, file⟩, -⟩ := Files.write_entries written
  have below := Files.below_write (List.prefix_refl _) written
  have differ : s.place w.directory (Path.withExtension name "part") ≠
      s.place w.directory name := by
    rw [place_eq hpart, place_eq hname]
    simpa using ne (mem_cacheNames mem)
  obtain ⟨rfl, keeps⟩ := Files.rename_of_ne differ moved
  have free := keeps (by simp [file])
  exact {
    directory := rfl
    network := rfl
    unpacker := rfl
    trail := .brought asks brings (.done _)
    kept := fun q there => by
      have directory := below.directory q there
      have other := grounded.not_within (by rw [file]; simp) directory
      exact (Files.entry?_move_other (grounded.not_within free directory) other).trans directory
    grounded := grounded_move grounded hpart hname (below.directory _ usable.opened.destination)
    others := fun other there ne' rest =>
      (entry?_move_elsewhere hpart hname (named.isName there) (ne there) (Ne.symm ne') rest).trans
        (below.outside _ (part_apart named mem there rest))
    came := fun _ => by
      have entry := entry?_move_here s w.directory f₁ hpart hname []
      rw [List.append_nil, List.append_nil] at entry
      exact ⟨content, mode, entry.trans file, .last asks brings rfl⟩
    same := nofun }

/-- Storing what was downloaded: beside the final name, which it then gets. -/
def store (part destination : String) (bytes : Bytes) : ExceptT String (StateM World) Unit := do
  attempt (FileSystem.writeFile part bytes) fun f => s!"failed to write {part}: {f.message}"
  attempt (FileSystem.rename part destination) fun f =>
    s!"failed to move {destination}: {f.message}"

/-- An attempt that changed no file and brought nothing. -/
theorem download_unfinished {sent : List Net.Request} (named : s.WellNamed)
    (usable : s.Usable w) (mem : name ∈ s.assetNames)
    (trail : s.Trail w.network w.requests [name] false (w.requests ++ sent)) :
    s.Download name w false { w with requests := w.requests ++ sent } :=
  .unfinished trail (mem_cacheNames mem) (.refl _ _) usable.grounded
    fun _ there => part_apart named mem there

theorem store_run {bytes : Bytes} {r : Net.Request} (named : s.WellNamed) (usable : s.Usable w)
    (mem : name ∈ s.assetNames) (asks : s.Asks name r)
    (brings : Brings w.network w.requests r bytes) :
    ∃ outcome w', (store (Path.join s.cacheDirectory (Path.withExtension name "part"))
        (Path.join s.cacheDirectory name) bytes).run { w with requests := w.requests ++ [r] } =
          (outcome, w') ∧ s.Download name w outcome.isOk w' := by
  have stopped : s.Trail w.network w.requests [name] false (w.requests ++ [r]) :=
    .brought asks brings (.stopped _ _)
  unfold store
  rw [World.run_bind, World.attempt_writeFile_run]
  simp only
  cases written : w.files.write w.directory
      (Path.join s.cacheDirectory (Path.withExtension name "part")) bytes with
  | error fault => exact ⟨_, _, rfl, download_unfinished named usable mem stopped⟩
  | ok f₁ =>
    simp only
    rw [World.attempt_rename_run]
    simp only
    cases moved : f₁.rename w.directory
        (Path.join s.cacheDirectory (Path.withExtension name "part"))
        (Path.join s.cacheDirectory name) with
    | error fault =>
      exact ⟨_, _, rfl, .unfinished stopped (mem_cacheNames mem)
        (Files.below_write (List.prefix_refl _) written) (usable.grounded.write written)
        fun _ there => part_apart named mem there⟩
    | ok f₂ => exact ⟨_, _, rfl, download_moved named usable mem asks brings written moved⟩

theorem download_run (named : s.WellNamed) (usable : s.Usable w) (mem : name ∈ s.assetNames) :
    ∃ outcome w', (download (m := StateM World) (s.assetUrl name)
        (Path.join s.cacheDirectory name)).run w = (outcome, w') ∧
      s.Download name w outcome.isOk w' := by
  unfold download
  rw [Path.withExtension_join (named.names name mem) isExtension_part]
  cases parsed : Net.Url.parse (s.assetUrl name) with
  | error e =>
    obtain ⟨trouble, unsent⟩ := Net.fetch_unparsed (w := w) parsed downloadTime
    rw [World.run_bind, World.attempt_run, unsent]
    have stopped : s.Trail w.network w.requests [name] false (w.requests ++ []) := by
      rw [List.append_nil]
      exact .stopped _ _
    have none := download_unfinished named usable mem stopped
    rw [List.append_nil] at none
    exact ⟨_, w, rfl, none⟩
  | ok u =>
    have asks : s.Asks name ⟨.get, u, none⟩ := ⟨u, parsed, rfl⟩
    have refused (nothing : ∀ reply, w.network w.requests ⟨.get, u, none⟩ = .answered reply →
        ¬ (reply.isSuccess = true ∧ reply.ending = .whole)) :
        s.Download name w false { w with requests := w.requests ++ [⟨.get, u, none⟩] } := by
      refine download_unfinished named usable mem (.refused asks ?_)
      rintro content ⟨reply, answered, success, complete, -⟩
      exact nothing reply answered ⟨success, complete⟩
    rw [World.run_bind, World.attempt_run, Net.fetch_parsed parsed]
    cases came : w.network w.requests ⟨.get, u, none⟩ with
    | unreachable => exact ⟨_, _, rfl, refused (by simp [came])⟩
    | silent => exact ⟨_, _, rfl, refused (by simp [came])⟩
    | timedOut => exact ⟨_, _, rfl, refused (by simp [came])⟩
    | answered reply =>
      simp only [Except.mapError]
      rw [World.run_bind, World.given_run]
      cases read : readAsset (s.assetUrl name) reply with
      | error message =>
        refine ⟨_, _, rfl, refused fun other answered => ?_⟩
        rw [came] at answered
        cases answered
        exact readAsset_error read
      | ok bytes =>
        obtain ⟨success, complete, rfl⟩ := readAsset_eq_ok read
        exact store_run named usable mem asks ⟨reply, came, success, complete, rfl⟩

/-! ## Programs -/

/-- Making sure of a program downloads it if it is missing. -/
theorem ensureProgram_run (named : s.WellNamed) (usable : s.Usable w) (mem : name ∈ s.assetNames) :
    ∃ outcome w', (ensureProgram (m := StateM World) s
        (Path.join s.cacheDirectory name)).run w = (outcome, w') ∧
      s.Stage (s.missingFile w name) [name] w outcome.isOk w' ∧
      (outcome.isOk = true → s.hasFile w' name = true) := by
  have hname := named.names name mem
  unfold ensureProgram
  rw [World.run_bind, usable.isFile_run hname]
  cases there : s.hasFile w name with
  | true =>
    refine ⟨.ok (), w, rfl, ?_, fun _ => there⟩
    rw [missingFile, there]
    exact .idle s [name] w
  | false =>
    have absent : s.missingFile w name = [name] := by
      rw [missingFile, there]
      rfl
    rw [absent]
    simp only [Bool.false_eq_true, if_false, Path.fileName?_join hname]
    obtain ⟨outcome, w₁, ran, download⟩ := download_run named usable mem
    rw [World.run_bind, ran]
    cases outcome with
    | error message =>
      exact ⟨_, w₁, rfl, download.stage named mem there, fun success => by cases success⟩
    | ok _ =>
      simp only
      rw [World.attempt_setMode_run]
      cases set : w₁.files.setMode w₁.directory (Path.join s.cacheDirectory name) 0o755 with
      | error fault =>
        exact ⟨_, w₁, rfl, (download.stage named mem there).failed, fun success => by cases success⟩
      | ok f' =>
        rw [download.directory] at set
        have finished := download.setMode named (mem_cacheNames mem) set
        exact ⟨.ok (), _, rfl, finished.stage named mem there, fun _ => finished.hasFile⟩

/-! ## The directory that is unpacked -/

/-- Only what is unpacked has changed, and it has no final name yet. -/
structure Staged (s : ToolchainSettings) (w : World) (f : Files) : Prop where
  outside : ∀ q, ¬ s.place w.directory "sysroot.unpacking" <+: q → f.entry? q = w.files.entry? q
  grounded : f.Grounded

theorem Staged.route {f : Files} (h : Staged s w f) (named : s.WellNamed) (usable : s.Usable w)
    {q : Place} (on : q ∈ route w.directory s.cacheDirectory) : f.entry? q = some .directory := by
  rw [h.outside q (usable.apart.not_within named (staging_mem s) on)]
  exact usable.opened q on

theorem Staged.untouched {f : Files} (h : Staged s w f) (hname : Path.IsName name)
    (ne : "sysroot.unpacking" ≠ name) : s.Untouched name w { w with files := f } :=
  fun below => h.outside _ (not_prefix_place isName_staging hname ne below)

theorem Staged.stage {f : Files} (h : Staged s w f) (named : s.WellNamed) (usable : s.Usable w) :
    s.Stage [] ["sysroot", "sysroot.unpacking"] w false { w with files := f } where
  advance := {
    directory := rfl
    network := rfl
    unpacker := rfl
    requests := List.prefix_refl _
    route := fun q on _ => h.route named usable on
    grounded := fun _ => h.grounded
    assets := fun name mem =>
      .inl (h.untouched (named.names name mem) (named.staging_ne mem))
    sysroot := .inl (h.untouched isName_sysroot (by decide)) }
  trail := .stopped _ _
  others other there untouched :=
    h.untouched (named.isName there) fun same => untouched (by simp [same])

/-- What was unpacked gets its final name. -/
theorem unpacked_moved {f₀ f f' : Files} {bytes : Bytes} {mode : Nat} (named : s.WellNamed)
    (usable : s.Usable w) (staged : Staged s w f) (absent : s.hasSysroot w = false)
    (archive : w.files.entry? (s.place w.directory s.sysroot) = some (.file bytes mode))
    (empty : f₀.EmptyDirectory w.directory s.staging)
    (success : w.unpacker s.compressed bytes w.directory s.staging f₀ = (true, f))
    (directory : f.entry? (s.place w.directory "sysroot.unpacking") = some .directory)
    (moved : f.rename w.directory (Path.join s.cacheDirectory "sysroot.unpacking")
      (Path.join s.cacheDirectory "sysroot") = .ok f') :
    s.Stage [] ["sysroot", "sysroot.unpacking"] w true { w with files := f' } ∧
      s.hasSysroot { w with files := f' } = true := by
  have differ : s.place w.directory "sysroot.unpacking" ≠ s.place w.directory "sysroot" := by
    rw [place_eq isName_staging, place_eq isName_sysroot]
    simp
  obtain ⟨rfl, -⟩ := Files.rename_of_ne differ moved
  have there := entry?_move_here s w.directory f isName_staging isName_sysroot
  have top := there []
  rw [List.append_nil, List.append_nil, directory] at top
  have others {name : String} (hname : Path.IsName name) (ne : "sysroot" ≠ name)
      (ne' : "sysroot.unpacking" ≠ name) (rest : Place) :=
    (entry?_move_elsewhere isName_staging isName_sysroot hname ne' ne rest).trans
      (staged.untouched hname ne' rest)
  have assets {name : String} (mem : name ∈ s.assetNames) :=
    others (named.names name mem) (named.sysroot_ne mem) (named.staging_ne mem)
  have kept {q : Place} (on : q ∈ route w.directory s.cacheDirectory) :=
    (Files.entry?_move_other (usable.apart.not_within named (sysroot_mem s) on)
      (usable.apart.not_within named (staging_mem s) on)).trans (staged.route named usable on)
  refine ⟨⟨⟨rfl, rfl, rfl, List.prefix_refl _, fun q on _ => kept on, ?_, ?_, ?_⟩, .done _, ?_⟩, ?_⟩
  · exact fun _ => grounded_move staged.grounded isName_staging isName_sysroot
      (staged.route named usable (Files.destination_mem_route _ _))
  · exact fun name mem => .inl (assets mem)
  · refine .inr ⟨absent, top, bytes, mode, f₀, f, ?_, empty, success, there⟩
    have same := @assets s.sysroot (by simp [assetNames]) []
    rw [List.append_nil] at same
    exact same.trans archive
  · intro name mem untouched
    simp only [List.mem_cons, List.not_mem_nil, or_false, not_or] at untouched
    exact others (named.isName mem) (Ne.symm untouched.1) (Ne.symm untouched.2)
  · exact hasSysroot_iff.mpr top

/-- Unpacking where nothing is in the way any more. -/
def fill (archive target staging : String) (bytes : Bytes) :
    ExceptT String (StateM World) Unit := do
  attempt (FileSystem.makeDirectories staging) OsFault.message
  if ← inquire (FileSystem.unpack (isCompressed archive) bytes staging) then
    attempt (FileSystem.rename staging target) fun f =>
      s!"failed to move sysroot into {target}: {f.message}"
  else throw s!"failed to extract {archive}: damaged archive"

theorem Staged.made {f f' : Files} (staged : Staged s w f) (named : s.WellNamed)
    (usable : s.Usable w)
    (cleared : ∀ path, f.entry? (s.place w.directory "sysroot.unpacking" ++ path) = none)
    (made : f.makeDirectories w.directory s.staging = .ok f') :
    Staged s w f' ∧ f'.EmptyDirectory w.directory s.staging := by
  have opened := Files.makeDirectories_open made
    (Path.join_name_ne_empty isName_staging s.cacheDirectory)
  refine ⟨⟨fun q off => ?_, staged.grounded.makeDirectories made⟩, opened, fun path ne => ?_⟩
  · by_cases on : q ∈ Files.route w.directory (Path.join s.cacheDirectory "sysroot.unpacking")
    · have above := ((Files.mem_route_join isName_staging).mp on).resolve_right
        fun here => off (here ▸ List.prefix_refl _)
      rw [opened q on, usable.opened q above]
    · rw [Files.makeDirectories_off_route made on, staged.outside q off]
  · rw [Files.makeDirectories_off_route made]
    · exact cleared path
    · intro on
      rcases (Files.mem_route_join isName_staging).mp on with above | here
      · exact usable.apart.not_within named (staging_mem s) above (List.prefix_append _ _)
      · exact ne (List.append_right_eq_self.mp here)

theorem Staged.unpack {f : Files} (staged : Staged s w f) (compressed : Bool) (bytes : Bytes)
    (contained : w.unpacker.Contained) (opened : f.Open w.directory s.staging) :
    Staged s w (w.unpacker compressed bytes w.directory s.staging f).2 := by
  have present := Path.join_name_ne_empty isName_staging s.cacheDirectory
  exact ⟨fun q off => (contained.outside opened present off).trans (staged.outside q off),
    contained.grounded opened present staged.grounded⟩

theorem fill_run {f : Files} {bytes : Bytes} {mode : Nat} (named : s.WellNamed)
    (contained : w.unpacker.Contained) (usable : s.Usable w) (staged : Staged s w f)
    (absent : s.hasSysroot w = false)
    (archive : w.files.entry? (s.place w.directory s.sysroot) = some (.file bytes mode))
    (cleared : ∀ path, f.entry? (s.place w.directory "sysroot.unpacking" ++ path) = none) :
    ∃ outcome f', (fill (Path.join s.cacheDirectory s.sysroot)
        (Path.join s.cacheDirectory "sysroot") s.staging bytes).run { w with files := f } =
          (outcome, { w with files := f' }) ∧
      s.Stage [] ["sysroot", "sysroot.unpacking"] w outcome.isOk { w with files := f' } ∧
      (outcome.isOk = true → s.hasSysroot { w with files := f' } = true) := by
  have present := Path.join_name_ne_empty isName_staging s.cacheDirectory
  unfold fill
  rw [World.run_bind, World.attempt_makeDirectories_run]
  simp only
  cases made : f.makeDirectories w.directory s.staging with
  | error fault => exact ⟨_, f, rfl, staged.stage named usable, nofun⟩
  | ok f₂ =>
    obtain ⟨staged₂, empty⟩ := staged.made named usable cleared made
    simp only
    rw [World.run_bind, World.inquire_unpack_run, ← compressed.eq_def]
    have staged₃ := staged₂.unpack s.compressed bytes contained empty.opened
    have directory : Files.entry? (w.unpacker s.compressed bytes w.directory s.staging f₂).2
        (s.place w.directory "sysroot.unpacking") = some .directory :=
      contained.top empty.opened present
    cases ran : w.unpacker s.compressed bytes w.directory s.staging f₂ with
    | mk whole f₃ =>
      rw [ran] at staged₃ directory
      cases whole with
      | false => exact ⟨_, f₃, rfl, staged₃.stage named usable, nofun⟩
      | true =>
        simp only [if_true]
        rw [World.attempt_rename_run]
        simp only
        cases moved : f₃.rename w.directory s.staging (Path.join s.cacheDirectory "sysroot") with
        | error fault => exact ⟨_, f₃, rfl, staged₃.stage named usable, nofun⟩
        | ok f₄ =>
          obtain ⟨stage, there⟩ :=
            unpacked_moved named usable staged₃ absent archive empty ran directory moved
          exact ⟨.ok (), f₄, rfl, stage, fun _ => there⟩

/-- The directory that is unpacked to, before it gets its final name. -/
theorem withExtension_sysroot (directory : String) :
    Path.withExtension (Path.join directory "sysroot") "unpacking" =
      Path.join directory "sysroot.unpacking" := by
  have text : Path.withExtension "sysroot" "unpacking" = "sysroot.unpacking" := by decide
  rw [Path.withExtension_join isName_sysroot isExtension_unpacking, text]

theorem unpackSysroot_run {bytes : Bytes} {mode : Nat} (named : s.WellNamed)
    (contained : w.unpacker.Contained) (usable : s.Usable w) (absent : s.hasSysroot w = false)
    (archive : w.files.entry? (s.place w.directory s.sysroot) = some (.file bytes mode)) :
    ∃ outcome w', (unpackSysroot (m := StateM World) (Path.join s.cacheDirectory s.sysroot)
        (Path.join s.cacheDirectory "sysroot")).run w = (outcome, w') ∧
      s.Stage [] ["sysroot", "sysroot.unpacking"] w outcome.isOk w' ∧
      (outcome.isOk = true → s.hasSysroot w' = true) := by
  have content : w.files.read w.directory (Path.join s.cacheDirectory s.sysroot) = .ok bytes := by
    rw [Files.read, usable.locate (named.names _ (by simp [assetNames]))]
    simp only [archive]
  have present : (inquire (FileSystem.isPresent (m := StateM World)
      (Path.join s.cacheDirectory "sysroot.unpacking"))).run w =
        (.ok (w.files.entry? (s.place w.directory "sysroot.unpacking")).isSome, w) := by
    rw [World.inquire_run, ← usable.find? isName_staging]
    rfl
  have start : Staged s w w.files := ⟨fun _ _ => rfl, usable.grounded⟩
  unfold unpackSysroot
  rw [World.run_bind, World.attempt_run]
  simp only [FileSystem.readFile, content, Except.mapError, withExtension_sysroot]
  rw [World.run_bind, present]
  cases there : w.files.entry? (s.place w.directory "sysroot.unpacking") with
  | none =>
    have cleared (path : Place) :
        w.files.entry? (s.place w.directory "sysroot.unpacking" ++ path) = none := by
      by_cases here : path = []
      · rw [here, List.append_nil, there]
      · exact usable.grounded.empty_within (by simp [there]) here
    obtain ⟨outcome, f', ran, stage, success⟩ :=
      fill_run named contained usable start absent archive cleared
    exact ⟨outcome, _, ran, stage, success⟩
  | some e =>
    simp only [Option.isSome_some, if_true]
    rw [World.run_bind, World.attempt_removeTree_run]
    cases removed : w.files.removeTree w.directory
        (Path.join s.cacheDirectory "sysroot.unpacking") with
    | error fault => exact ⟨_, w, rfl, start.stage named usable, fun success => by cases success⟩
    | ok f₁ =>
      obtain rfl := Files.removeTree_eq_ok removed
      have staged : Staged s w (w.files.drop (s.place w.directory "sysroot.unpacking")) :=
        ⟨fun q off => Files.entry?_drop_other off, usable.grounded.drop _⟩
      have cleared (path : Place) :
          Files.entry? (w.files.drop (s.place w.directory "sysroot.unpacking"))
            (s.place w.directory "sysroot.unpacking" ++ path) = none :=
        Files.entry?_drop_within
          (fun empty => place_ne_nil isName_staging (List.append_eq_nil_iff.mp empty).1)
          (List.prefix_append _ _)
      obtain ⟨outcome, f', ran, stage, success⟩ :=
        fill_run named contained usable staged absent archive cleared
      exact ⟨outcome, _, ran, stage, success⟩

/-- Making sure of the directory downloads the archive, if it is missing too, and unpacks it. -/
theorem ensureSysroot_run (named : s.WellNamed) (contained : w.unpacker.Contained)
    (usable : s.Usable w) :
    ∃ outcome w', (ensureSysroot (m := StateM World) s
        (Path.join s.cacheDirectory "sysroot")).run w = (outcome, w') ∧
      s.Stage (if s.hasSysroot w then [] else s.missingFile w s.sysroot)
        [s.sysroot, "sysroot", "sysroot.unpacking"] w outcome.isOk w' ∧
      (outcome.isOk = true → s.hasSysroot w' = true) := by
  have mem : s.sysroot ∈ s.assetNames := by simp [assetNames]
  have hname := named.names _ mem
  unfold ensureSysroot
  rw [World.run_bind, usable.isDirectory_run]
  cases there : s.hasSysroot w with
  | true => exact ⟨.ok (), w, rfl, .idle s _ w, fun _ => there⟩
  | false =>
    simp only [Bool.false_eq_true, if_false]
    rw [World.run_bind, usable.isFile_run hname]
    cases file : s.hasFile w s.sysroot with
    | true =>
      obtain ⟨bytes, mode, archive⟩ := hasFile_iff.mp file
      obtain ⟨outcome, w', ran, stage, success⟩ :=
        unpackSysroot_run named contained usable there archive
      have none : s.missingFile w s.sysroot = [] := by
        rw [missingFile, file]
        rfl
      rw [none]
      exact ⟨outcome, w', ran, (Stage.idle s [s.sysroot] w).trans stage, success⟩
    | false =>
      have absent : s.missingFile w s.sysroot = [s.sysroot] := by
        rw [missingFile, file]
        rfl
      rw [absent]
      simp only [Bool.not_false, if_true]
      obtain ⟨outcome, w₁, ran, download⟩ := download_run named usable mem
      have stage := download.stage named mem file
      rw [World.run_bind, ran]
      cases outcome with
      | error message =>
        exact ⟨_, w₁, rfl, stage.fail [] ["sysroot", "sysroot.unpacking"],
          fun success => by cases success⟩
      | ok _ =>
        obtain ⟨bytes, mode, archive, -⟩ := download.came rfl
        have still : s.hasSysroot w₁ = false := by
          have same := download.others "sysroot" (sysroot_mem s) (named.sysroot_ne mem)
          rw [same.hasSysroot download.directory, there]
        rw [← download.directory] at archive
        obtain ⟨outcome, w', ran', stage', success⟩ :=
          unpackSysroot_run named (download.unpacker ▸ contained) (usable.advance stage.advance)
            still archive
        exact ⟨outcome, w', ran', stage.trans stage', success⟩

/-! ## The cache directory -/

theorem makeCache_stage {f : Files} (named : s.WellNamed) (apart : s.Apart w.directory)
    (made : w.files.makeDirectories w.directory s.cacheDirectory = .ok f) :
    s.Stage [] [] w true { w with files := f } := by
  have untouched (name : String) (mem : name ∈ s.cacheNames) :
      s.Untouched name w { w with files := f } := by
    intro below
    refine Files.makeDirectories_off_route made fun on => ?_
    exact apart.not_within named mem on (List.prefix_append _ _)
  have grows := Files.makeDirectories_grows made
  exact ⟨⟨rfl, rfl, rfl, List.prefix_refl _, fun q _ => grows.entry,
    fun h => h.makeDirectories made, fun name mem => .inl (untouched name (mem_cacheNames mem)),
    .inl (untouched "sysroot" (sysroot_mem s))⟩, .done _, fun name mem _ => untouched name mem⟩

end Toolchain

end Compile

end LiveSound
