import LiveSound.Compile.Toolchain
import LiveSound.Proofs.Archive.Unpacking
import LiveSound.Proofs.World.Extensions

/-!
# The cache of a toolchain

What the names in the cache directory may come to hold while assets are fetched: a file that was
downloaded completely where no file was, and the directory that an archive in the cache was
unpacked to, by whatever unpacker there is. `Advance` says that between two worlds nothing else
happened to them, and `Trail` which requests an attempt sends. `Stage` is what a part of an attempt
does.
-/

namespace LiveSound

/-- After these requests, another one is answered with success and with the whole of this body. -/
def Net.Brings (network : List Net.Request → Net.Request → Net.Exchange) (past : List Net.Request)
    (r : Net.Request) (content : Bytes) : Prop :=
  ∃ reply, network past r = .answered reply ∧ reply.isSuccess = true ∧ reply.ending = .whole ∧
    reply.body = content

namespace Compile.ToolchainSettings

open Files (destination route)
open Net (Brings)

/-! ## Names and places -/

/-- The files that are downloaded. -/
def assetNames (s : ToolchainSettings) : List String := [s.clang, s.linker, s.sysroot]

/-- All that is kept or made in the cache directory under a final name, and what is unpacked. -/
def cacheNames (s : ToolchainSettings) : List String :=
  s.assetNames ++ ["sysroot", "sysroot.unpacking"]

/-- Where a name in the cache directory leads. -/
def place (s : ToolchainSettings) (base : Place) (name : String) : Place :=
  destination base (Path.join s.cacheDirectory name)

/-- What an archive is unpacked to, before that gets its final name. -/
def staging (s : ToolchainSettings) : String := Path.join s.cacheDirectory "sysroot.unpacking"

def compressed (s : ToolchainSettings) : Bool :=
  Toolchain.isCompressed (Path.join s.cacheDirectory s.sysroot)

/-- The assets have names of their own, and none has that of a download that is not finished. -/
structure WellNamed (s : ToolchainSettings) : Prop where
  names : ∀ name ∈ s.assetNames, Path.IsName name
  distinct : s.cacheNames.Nodup
  finished : ∀ name ∈ s.assetNames, Path.extension? name ≠ some "part"

instance (s : ToolchainSettings) : Decidable s.WellNamed :=
  decidable_of_iff ((∀ name ∈ s.assetNames, Path.IsName name) ∧ s.cacheNames.Nodup ∧
    ∀ name ∈ s.assetNames, Path.extension? name ≠ some "part")
    ⟨fun ⟨h₁, h₂, h₃⟩ => ⟨h₁, h₂, h₃⟩, fun ⟨h₁, h₂, h₃⟩ => ⟨h₁, h₂, h₃⟩⟩

/-- The path of the cache directory does not lead through what is in that very directory. -/
def Apart (s : ToolchainSettings) (base : Place) : Prop :=
  ∀ name ∈ s.cacheNames, s.place base name ∉ route base s.cacheDirectory

instance (s : ToolchainSettings) (base : Place) : Decidable (s.Apart base) :=
  inferInstanceAs
    (Decidable (∀ name ∈ s.cacheNames, s.place base name ∉ route base s.cacheDirectory))

theorem mem_cacheNames {s : ToolchainSettings} {name : String} (h : name ∈ s.assetNames) :
    name ∈ s.cacheNames := List.mem_append_left _ h

section Names

variable {s : ToolchainSettings} {base : Place} {name other : String}

theorem isName_sysroot : Path.IsName "sysroot" := by decide

theorem isName_staging : Path.IsName "sysroot.unpacking" := by decide

theorem isExtension_part : Path.IsExtension "part" := by decide

theorem isExtension_unpacking : Path.IsExtension "unpacking" := by decide

theorem sysroot_mem (s : ToolchainSettings) : "sysroot" ∈ s.cacheNames := by simp [cacheNames]

theorem staging_mem (s : ToolchainSettings) : "sysroot.unpacking" ∈ s.cacheNames := by
  simp [cacheNames]

theorem WellNamed.isName (h : s.WellNamed) (mem : name ∈ s.cacheNames) : Path.IsName name := by
  rcases List.mem_append.mp mem with asset | made
  · exact h.names name asset
  · simp only [List.mem_cons, List.not_mem_nil, or_false] at made
    rcases made with rfl | rfl
    · exact isName_sysroot
    · exact isName_staging

theorem WellNamed.made_ne (h : s.WellNamed) (made : other ∈ ["sysroot", "sysroot.unpacking"])
    (mem : name ∈ s.assetNames) : other ≠ name := by
  rintro rfl
  exact List.disjoint_of_nodup_append h.distinct mem made

theorem WellNamed.sysroot_ne (h : s.WellNamed) (mem : name ∈ s.assetNames) : "sysroot" ≠ name :=
  h.made_ne (by simp) mem

theorem WellNamed.staging_ne (h : s.WellNamed) (mem : name ∈ s.assetNames) :
    "sysroot.unpacking" ≠ name := h.made_ne (by simp) mem

/-- The name that a download has until it is finished is none that the cache keeps. -/
theorem WellNamed.part_ne (h : s.WellNamed) (hname : Path.IsName name)
    (mem : other ∈ s.cacheNames) : Path.withExtension name "part" ≠ other := by
  rintro rfl
  have extension := Path.extension?_withExtension hname isExtension_part
  rcases List.mem_append.mp mem with asset | made
  · exact h.finished _ asset extension
  · simp only [List.mem_cons, List.not_mem_nil, or_false] at made
    rcases made with same | same
    · rw [same] at extension
      exact absurd extension (by decide)
    · rw [same] at extension
      exact absurd extension (by decide)

theorem place_eq (hname : Path.IsName name) (s : ToolchainSettings) (base : Place) :
    s.place base name = destination base s.cacheDirectory ++ [name] :=
  Files.destination_join hname base s.cacheDirectory

/-- Under different names there are different trees. -/
theorem not_prefix_place (hname : Path.IsName name) (hother : Path.IsName other)
    (ne : name ≠ other) (below : Place) :
    ¬ s.place base name <+: s.place base other ++ below := by
  rw [place_eq hname, place_eq hother, List.append_assoc, List.prefix_append_right_inj]
  intro first
  obtain ⟨same, -⟩ := List.cons_prefix_cons.mp first
  exact ne same

theorem place_ne_nil (hname : Path.IsName name) : s.place base name ≠ [] := by
  rw [place_eq hname]
  simp

theorem dropLast_place (hname : Path.IsName name) :
    (s.place base name).dropLast = destination base s.cacheDirectory := by
  rw [place_eq hname, List.dropLast_concat]

theorem not_prefix_top (hname : Path.IsName name) :
    ¬ s.place base name <+: destination base s.cacheDirectory := by
  intro long
  have := long.length_le
  rw [place_eq hname, List.length_append] at this
  exact absurd this (Nat.not_succ_le_self _)

/-! ### Another name in the same directory -/

theorem entry?_move_here (s : ToolchainSettings) (base : Place) (f : Files)
    (hname : Path.IsName name) (hother : Path.IsName other) (rest : Place) :
    Files.entry? (f.move (s.place base name) (s.place base other)) (s.place base other ++ rest) =
      f.entry? (s.place base name ++ rest) :=
  Files.entry?_move_target (place_ne_nil hname) (place_ne_nil hother) rest

theorem entry?_move_elsewhere {f : Files} {third : String} (hname : Path.IsName name)
    (hother : Path.IsName other) (hthird : Path.IsName third) (ne : name ≠ third)
    (ne' : other ≠ third) (rest : Place) :
    Files.entry? (f.move (s.place base name) (s.place base other)) (s.place base third ++ rest) =
      f.entry? (s.place base third ++ rest) :=
  Files.entry?_move_other (not_prefix_place hother hthird ne' rest)
    (not_prefix_place hname hthird ne rest)

theorem grounded_move {f : Files} (grounded : f.Grounded) (hname : Path.IsName name)
    (hother : Path.IsName other)
    (top : f.entry? (destination base s.cacheDirectory) = some .directory) :
    (f.move (s.place base name) (s.place base other)).Grounded := by
  refine grounded.move (place_ne_nil hname) (place_ne_nil hother) ?_ ?_
  · rw [dropLast_place hother, top]
  · rw [dropLast_place hother]
    exact not_prefix_top hname

/-- Nothing that the cache keeps lies on the way to it. -/
theorem Apart.not_within (h : s.Apart base) (named : s.WellNamed) (mem : name ∈ s.cacheNames)
    {q : Place} (on : q ∈ route base s.cacheDirectory) : ¬ s.place base name <+: q := by
  have away := h name mem
  rw [place_eq (named.isName mem)] at away ⊢
  exact Files.not_within_of_notMem_route away on

end Names

/-! ## What is there -/

def hasFile (s : ToolchainSettings) (w : World) (name : String) : Bool :=
  match w.files.entry? (s.place w.directory name) with
  | some (.file _ _) => true
  | _ => false

def hasSysroot (s : ToolchainSettings) (w : World) : Bool :=
  w.files.isDirectoryAt (s.place w.directory "sysroot")

def missingFile (s : ToolchainSettings) (w : World) (name : String) : List String :=
  if s.hasFile w name then [] else [name]

/-- What has to be downloaded, in order; the archive only if it is needed. -/
def missing (s : ToolchainSettings) (w : World) : List String :=
  s.missingFile w s.clang ++ s.missingFile w s.linker ++
    if s.hasSysroot w then [] else s.missingFile w s.sysroot

def Asks (s : ToolchainSettings) (name : String) (r : Net.Request) : Prop :=
  ∃ u, Net.Url.parse (s.assetUrl name) = .ok u ∧ r = ⟨.get, u, none⟩

variable {s : ToolchainSettings} {w w' w'' : World} {name : String} {content : Bytes} {mode : Nat}

theorem hasFile_iff : s.hasFile w name = true ↔
    ∃ content mode, w.files.entry? (s.place w.directory name) = some (.file content mode) := by
  unfold hasFile
  split
  · rename_i content mode file
    exact ⟨fun _ => ⟨content, mode, file⟩, fun _ => rfl⟩
  · rename_i other
    exact ⟨nofun, fun ⟨content, mode, file⟩ => absurd file (other content mode)⟩

theorem hasFile_of_entry (same : w'.directory = w.directory)
    (file : w'.files.entry? (s.place w.directory name) = some (.file content mode)) :
    s.hasFile w' name = true := by
  rw [hasFile_iff, same]
  exact ⟨content, mode, file⟩

theorem hasSysroot_iff : s.hasSysroot w = true ↔
    w.files.entry? (s.place w.directory "sysroot") = some .directory := by
  rw [hasSysroot, Files.isDirectoryAt, beq_iff_eq]

/-! ## What may happen to it -/

/-- What is under a name, and below it, is as it was. -/
def Untouched (s : ToolchainSettings) (name : String) (w w' : World) : Prop :=
  ∀ below, w'.files.entry? (s.place w.directory name ++ below) =
    w.files.entry? (s.place w.directory name ++ below)

/-- In the meantime, this content came for an asset. -/
def Downloaded (s : ToolchainSettings) (name : String) (content : Bytes) (w w' : World) : Prop :=
  ∃ before r, w.requests ++ before ++ [r] <+: w'.requests ∧ s.Asks name r ∧
    Brings w.network (w.requests ++ before) r content

/-- An asset is as it was, or there was no such file and it holds what came for it. -/
def AssetKept (s : ToolchainSettings) (name : String) (w w' : World) : Prop :=
  s.Untouched name w w' ∨ (s.hasFile w name = false ∧ ∃ content mode,
    w'.files.entry? (s.place w.directory name) = some (.file content mode) ∧
      s.Downloaded name content w w')

/-- The directory holds all that came of unpacking the archive in the cache, which succeeded in an
empty directory. -/
def Extracted (s : ToolchainSettings) (w w' : World) : Prop :=
  w'.files.entry? (s.place w.directory "sysroot") = some .directory ∧ ∃ bytes mode f f',
    w'.files.entry? (s.place w.directory s.sysroot) = some (.file bytes mode) ∧
      f.EmptyDirectory w.directory s.staging ∧
      w.unpacker s.compressed bytes w.directory s.staging f = (true, f') ∧
      ∀ path, w'.files.entry? (s.place w.directory "sysroot" ++ path) =
        f'.entry? (s.place w.directory "sysroot.unpacking" ++ path)

/-- The directory is as it was, or there was no directory and it was unpacked. -/
def SysrootKept (s : ToolchainSettings) (w w' : World) : Prop :=
  s.Untouched "sysroot" w w' ∨ (s.hasSysroot w = false ∧ s.Extracted w w')

/-- What comes of a cache that nobody else changes. -/
structure Advance (s : ToolchainSettings) (w w' : World) : Prop where
  directory : w'.directory = w.directory
  network : w'.network = w.network
  unpacker : w'.unpacker = w.unpacker
  requests : w.requests <+: w'.requests
  route : ∀ q ∈ route w.directory s.cacheDirectory,
    w.files.entry? q = some .directory → w'.files.entry? q = some .directory
  grounded : w.files.Grounded → w'.files.Grounded
  assets : ∀ name ∈ s.assetNames, s.AssetKept name w w'
  sysroot : s.SysrootKept w w'

theorem Untouched.refl (s : ToolchainSettings) (name : String) (w : World) :
    s.Untouched name w w := fun _ => rfl

theorem Untouched.here (h : s.Untouched name w w') :
    w'.files.entry? (s.place w.directory name) = w.files.entry? (s.place w.directory name) := by
  simpa using h []

theorem Untouched.trans (same : w'.directory = w.directory) (h : s.Untouched name w w')
    (h' : s.Untouched name w' w'') : s.Untouched name w w'' := by
  unfold Untouched at h'
  rw [same] at h'
  exact fun below => (h' below).trans (h below)

theorem Untouched.hasFile (same : w'.directory = w.directory) (h : s.Untouched name w w') :
    s.hasFile w' name = s.hasFile w name := by
  rw [ToolchainSettings.hasFile, ToolchainSettings.hasFile, same, h.here]

theorem Untouched.hasSysroot (same : w'.directory = w.directory)
    (h : s.Untouched "sysroot" w w') : s.hasSysroot w' = s.hasSysroot w := by
  rw [ToolchainSettings.hasSysroot, ToolchainSettings.hasSysroot, Files.isDirectoryAt,
    Files.isDirectoryAt, same, h.here]

theorem Untouched.missingFile (same : w'.directory = w.directory) (h : s.Untouched name w w') :
    s.missingFile w' name = s.missingFile w name := by
  rw [ToolchainSettings.missingFile, ToolchainSettings.missingFile, h.hasFile same]

theorem Downloaded.last {r : Net.Request} (asks : s.Asks name r)
    (brings : Brings w.network w.requests r content)
    (sent : w'.requests = w.requests ++ [r]) : s.Downloaded name content w w' := by
  refine ⟨[], r, ?_, asks, ?_⟩
  · exact ⟨[], by rw [sent, List.append_nil, List.append_nil]⟩
  · rwa [List.append_nil]

theorem Downloaded.later (h : s.Downloaded name content w w')
    (more : w'.requests <+: w''.requests) : s.Downloaded name content w w'' := by
  obtain ⟨before, r, sent, asks, brings⟩ := h
  exact ⟨before, r, sent.trans more, asks, brings⟩

theorem Downloaded.earlier (network : w'.network = w.network)
    (more : w.requests <+: w'.requests) (h : s.Downloaded name content w' w'') :
    s.Downloaded name content w w'' := by
  obtain ⟨first, same⟩ := more
  obtain ⟨before, r, sent, asks, brings⟩ := h
  rw [network] at brings
  rw [← same, List.append_assoc w.requests] at sent brings
  exact ⟨first ++ before, r, sent, asks, brings⟩

/-! ### Step after step -/

theorem Advance.refl (s : ToolchainSettings) (w : World) : s.Advance w w :=
  ⟨rfl, rfl, rfl, List.prefix_refl _, fun _ _ => id, id, fun _ _ => .inl (.refl s _ w),
    .inl (.refl s _ w)⟩

theorem Advance.untouched (h : s.Advance w w') (mem : name ∈ s.assetNames)
    (file : s.hasFile w name = true) : s.Untouched name w w' := by
  rcases h.assets name mem with same | ⟨absent, -⟩
  · exact same
  · rw [file] at absent
    cases absent

theorem Advance.hasFile (h : s.Advance w w') (mem : name ∈ s.assetNames)
    (file : s.hasFile w name = true) : s.hasFile w' name = true := by
  rw [(h.untouched mem file).hasFile h.directory, file]

theorem Advance.untouched_sysroot (h : s.Advance w w') (there : s.hasSysroot w = true) :
    s.Untouched "sysroot" w w' := by
  rcases h.sysroot with same | ⟨absent, -⟩
  · exact same
  · rw [there] at absent
    cases absent

theorem AssetKept.trans (h : s.Advance w w') (h' : s.Advance w' w'') (mem : name ∈ s.assetNames) :
    s.AssetKept name w w'' := by
  rcases h.assets name mem with same | ⟨absent, content, mode, file, came⟩
  · rcases h'.assets name mem with same' | ⟨absent, content, mode, file, came⟩
    · exact .inl (same.trans h.directory same')
    · rw [same.hasFile h.directory] at absent
      rw [h.directory] at file
      exact .inr ⟨absent, content, mode, file, came.earlier h.network h.requests⟩
  · have there := hasFile_of_entry h.directory file
    have later := (h'.untouched mem there).here
    rw [h.directory] at later
    exact .inr ⟨absent, content, mode, later.trans file, came.later h'.requests⟩

theorem Extracted.hasSysroot (same : w'.directory = w.directory) (h : s.Extracted w w') :
    s.hasSysroot w' = true := by
  rw [hasSysroot_iff, same]
  exact h.1

/-- Where archives are unpacked member by member, everything in the archive is there. -/
theorem Extracted.members (h : s.Extracted w w') (unpacks : w.unpacker = Archive.unpacker) :
    ∃ bytes mode, w'.files.entry? (s.place w.directory s.sysroot) = some (.file bytes mode) ∧
      (Archive.listing s.compressed bytes).complete = true ∧ ∀ path,
        w'.files.entry? (s.place w.directory "sysroot" ++ path) =
          Archive.unpacked (Archive.listing s.compressed bytes).members path := by
  obtain ⟨-, bytes, mode, f, f', archive, empty, success, all⟩ := h
  rw [unpacks] at success
  have present := Path.join_name_ne_empty isName_staging s.cacheDirectory
  obtain ⟨complete, holds⟩ := Archive.unpacker_success present empty success
  exact ⟨bytes, mode, archive, complete, fun path => (all path).trans (holds path)⟩

theorem Extracted.later (h : s.Advance w w') (h' : s.Advance w' w'') (out : s.Extracted w w') :
    s.Extracted w w'' := by
  have same := h'.untouched_sysroot (out.hasSysroot h.directory)
  obtain ⟨directory, bytes, mode, f, f', archive, empty, success, all⟩ := out
  have kept := (h'.untouched (by simp [assetNames]) (hasFile_of_entry h.directory archive)).here
  have top := same.here
  unfold Untouched at same
  rw [h.directory] at same kept top
  exact ⟨top.trans directory, bytes, mode, f, f', kept.trans archive, empty, success,
    fun path => (same path).trans (all path)⟩

theorem Extracted.earlier (h : s.Advance w w') (out : s.Extracted w' w'') :
    s.Extracted w w'' := by
  unfold Extracted at out
  rwa [h.directory, h.unpacker] at out

theorem SysrootKept.trans (h : s.Advance w w') (h' : s.Advance w' w'') : s.SysrootKept w w'' := by
  rcases h.sysroot with same | ⟨absent, out⟩
  · rcases h'.sysroot with same' | ⟨absent, out⟩
    · exact .inl (same.trans h.directory same')
    · rw [same.hasSysroot h.directory] at absent
      exact .inr ⟨absent, out.earlier h⟩
  · exact .inr ⟨absent, out.later h h'⟩

theorem Advance.trans (h : s.Advance w w') (h' : s.Advance w' w'') : s.Advance w w'' where
  directory := h'.directory.trans h.directory
  network := h'.network.trans h.network
  unpacker := h'.unpacker.trans h.unpacker
  requests := h.requests.trans h'.requests
  route q mem there := h'.route q (by rwa [h.directory]) (h.route q mem there)
  grounded there := h'.grounded (h.grounded there)
  assets _ mem := .trans h h' mem
  sysroot := .trans h h'

/-- What has come under a name does not change any more. -/
theorem Advance.changes_once (h : s.Advance w w') (h' : s.Advance w' w'')
    (mem : name ∈ "sysroot" :: s.assetNames) (changed : ¬ s.Untouched name w w') :
    s.Untouched name w' w'' := by
  rcases List.mem_cons.mp mem with rfl | asset
  · obtain ⟨-, out⟩ := h.sysroot.resolve_left changed
    exact h'.untouched_sysroot (out.hasSysroot h.directory)
  · obtain ⟨-, content, mode, file, -⟩ := (h.assets name asset).resolve_left changed
    exact h'.untouched asset (hasFile_of_entry h.directory file)

/-! ## What is asked for -/

/-- The requests of an attempt that has to download these files: one for each in turn, up to the
first that brings nothing. It may stop at any time, and succeeds only if all of them came. -/
inductive Trail (s : ToolchainSettings)
    (network : List Net.Request → Net.Request → Net.Exchange) :
    List Net.Request → List String → Bool → List Net.Request → Prop where
  | done (past) : Trail s network past [] true past
  | stopped (past names) : Trail s network past names false past
  | refused {past name names r} : s.Asks name r → (∀ content, ¬ Brings network past r content) →
      Trail s network past (name :: names) false (past ++ [r])
  | brought {past name names r content ok past'} : s.Asks name r → Brings network past r content →
      Trail s network (past ++ [r]) names ok past' →
      Trail s network past (name :: names) ok past'

variable {network : List Net.Request → Net.Request → Net.Exchange}
  {past past' past'' : List Net.Request} {names more : List String} {ok : Bool}

theorem Trail.trans (h : s.Trail network past names true past')
    (h' : s.Trail network past' more ok past'') :
    s.Trail network past (names ++ more) ok past'' := by
  generalize success : true = ok₁ at h
  induction h with
  | done => exact h'
  | stopped => cases success
  | refused => cases success
  | brought asks brings _ ih => exact .brought asks brings (ih h' success)

/-- An attempt that failed has not asked for what was to come later. -/
theorem Trail.fail (h : s.Trail network past names false past') (more : List String) :
    s.Trail network past (names ++ more) false past' := by
  generalize failure : false = ok₁ at h ⊢
  induction h with
  | done => cases failure
  | stopped past names => exact .stopped past (names ++ more)
  | refused asks nothing => exact .refused asks nothing
  | brought asks brings _ ih => exact .brought asks brings (ih failure)

/-- What fails in the end may have downloaded everything. -/
theorem Trail.failed (h : s.Trail network past names ok past') :
    s.Trail network past names false past' := by
  induction h with
  | done past => exact .stopped past []
  | stopped past names => exact .stopped past names
  | refused asks nothing => exact .refused asks nothing
  | brought asks brings _ ih => exact .brought asks brings ih

/-! ## Parts of an attempt -/

/-- What a part of an attempt does that has to download these files and touches these names. -/
structure Stage (s : ToolchainSettings) (names touched : List String) (w : World) (ok : Bool)
    (w' : World) : Prop where
  advance : s.Advance w w'
  trail : s.Trail w.network w.requests names ok w'.requests
  others : ∀ name ∈ s.cacheNames, name ∉ touched → s.Untouched name w w'

variable {touched touched' : List String}

theorem Stage.trans (h : s.Stage names touched w true w') (h' : s.Stage more touched' w' ok w'') :
    s.Stage (names ++ more) (touched ++ touched') w ok w'' where
  advance := h.advance.trans h'.advance
  trail := by
    have later := h'.trail
    rw [h.advance.network] at later
    exact h.trail.trans later
  others name mem untouched := by
    rw [List.mem_append, not_or] at untouched
    exact (h.others name mem untouched.1).trans h.advance.directory
      (h'.others name mem untouched.2)

theorem Stage.fail (h : s.Stage names touched w false w') (more more' : List String) :
    s.Stage (names ++ more) (touched ++ more') w false w' where
  advance := h.advance
  trail := h.trail.fail more
  others name mem untouched :=
    h.others name mem fun there => untouched (List.mem_append_left _ there)

theorem Stage.failed (h : s.Stage names touched w ok w') : s.Stage names touched w false w' :=
  ⟨h.advance, h.trail.failed, h.others⟩

/-- Nothing is done where nothing is missing. -/
theorem Stage.idle (s : ToolchainSettings) (touched : List String) (w : World) :
    s.Stage [] touched w true w :=
  ⟨.refl s w, .done _, fun _ _ _ => .refl s _ w⟩

end Compile.ToolchainSettings

end LiveSound
