import LiveSound.Compile.Dispatcher
import LiveSound.Proofs.Compile.Fetching
import LiveSound.Proofs.World.Footprints

/-!
# Where compiles write

A compile writes files only if it is the toolchain's, which then keeps its assets in a cache
directory. Whatever comes of the downloads, all that is written is below what is fetched and
unpacked, inside of that directory if the assets have names of their own (`WellNamed.written`), but
directories that were missing on the way to the cache directory are made too.
-/

namespace LiveSound.Compile

open Files (destination route)
open World (Differs Confined Answers confined_pure confined_run_pure confined_run_bind
  confined_inquire confined_attempt confined_question confined_given confined_of_kept)

namespace ToolchainSettings

/-- What is downloaded. -/
def assetPaths (s : ToolchainSettings) : List String :=
  s.assetNames.map (Path.join s.cacheDirectory)

/-- Under these paths and below them something is written. -/
def writtenPaths (s : ToolchainSettings) : List String :=
  s.assetPaths ++ s.assetPaths.map (Path.withExtension · "part") ++
    ["sysroot", "sysroot.unpacking"].map (Path.join s.cacheDirectory)

/-- Where files change when the assets are fetched. -/
def footprint (s : ToolchainSettings) (w : World) : Footprint where
  written q := ∃ p ∈ s.writtenPaths, destination w.directory p <+: q
  made q := q ∈ route w.directory s.cacheDirectory

variable {s : ToolchainSettings} {name p : String}

theorem mem_writtenPaths_asset (mem : p ∈ s.assetPaths) : p ∈ s.writtenPaths := by
  simp [writtenPaths, mem]

theorem mem_writtenPaths_part (mem : p ∈ s.assetPaths) :
    Path.withExtension p "part" ∈ s.writtenPaths := by
  simp only [writtenPaths, List.mem_append, List.mem_map]
  exact .inl (.inr ⟨p, mem, rfl⟩)

theorem mem_writtenPaths_made (mem : name ∈ ["sysroot", "sysroot.unpacking"]) :
    Path.join s.cacheDirectory name ∈ s.writtenPaths := by
  simp only [writtenPaths, List.mem_append, List.mem_map]
  exact .inr ⟨name, mem, rfl⟩

theorem mem_assetPaths (mem : name ∈ s.assetNames) :
    Path.join s.cacheDirectory name ∈ s.assetPaths := List.mem_map.mpr ⟨name, mem, rfl⟩

/-- What is written under its own name is in the cache directory. -/
theorem WellNamed.written (named : s.WellNamed) (mem : p ∈ s.writtenPaths) (base : Place) :
    destination base s.cacheDirectory <+: destination base p := by
  have inside {name : String} (hname : Path.IsName name) : destination base s.cacheDirectory <+:
      destination base (Path.join s.cacheDirectory name) := by
    rw [Files.destination_join hname]
    exact List.prefix_append _ _
  simp only [writtenPaths, assetPaths, List.mem_append, List.mem_map] at mem
  rcases mem with (⟨name, asset, rfl⟩ | ⟨_, ⟨name, asset, rfl⟩, rfl⟩) | ⟨name, made, rfl⟩
  · exact inside (named.names name asset)
  · rw [Path.withExtension_join (named.names name asset) isExtension_part]
    exact inside (Path.isName_withExtension (named.names name asset) isExtension_part)
  · exact inside (named.isName (List.mem_append_right _ made))

end ToolchainSettings

namespace Toolchain

open ToolchainSettings

variable {s : ToolchainSettings} {w₀ : World} {places : Footprint} {path : String}

theorem confined_download
    (target : ∀ q, destination w₀.directory path <+: q → places.written q)
    (part : ∀ q, destination w₀.directory (Path.withExtension path "part") <+: q → places.written q)
    (url : String) : Confined places w₀ (download (m := StateM World) url path).run := by
  unfold download
  refine confined_run_bind (confined_attempt (World.confined_fetch _ _ _ _) _) fun reply => ?_
  refine confined_run_bind (confined_given _) fun bytes => ?_
  refine confined_run_bind
    (confined_attempt (World.confined_writeFile (part _ (List.prefix_refl _))) _) fun _ => ?_
  exact confined_attempt (World.confined_rename part target) _

section Fetching

variable (covered : (s.footprint w₀).Within places)

include covered

theorem confined_download_asset (mem : path ∈ s.assetPaths) (url : String) :
    Confined places w₀ (download (m := StateM World) url path).run :=
  confined_download (fun q below => covered.written q ⟨_, mem_writtenPaths_asset mem, below⟩)
    (fun q below => covered.written q ⟨_, mem_writtenPaths_part mem, below⟩) url

theorem confined_ensureProgram (mem : path ∈ s.assetPaths) :
    Confined places w₀ (ensureProgram (m := StateM World) s path).run := by
  unfold ensureProgram
  refine confined_run_bind (confined_question fun _ => rfl) fun there => ?_
  split
  · exact confined_run_pure _
  · split
    · exact confined_pure _
    · refine confined_run_bind (confined_download_asset covered mem _) fun _ => ?_
      refine confined_attempt (World.confined_setMode (covered.written _ ?_)) _
      exact ⟨_, mem_writtenPaths_asset mem, List.prefix_refl _⟩

/-! ## Unpacking -/

theorem confined_fill (contained : w₀.unpacker.Contained) (archive : String) (bytes : Bytes) :
    Confined places w₀ (fill archive (Path.join s.cacheDirectory "sysroot") s.staging
      bytes).run := by
  have named (name : String) (mem : name ∈ ["sysroot", "sysroot.unpacking"]) (q : Place)
      (below : destination w₀.directory (Path.join s.cacheDirectory name) <+: q) :
      places.written q := covered.written q ⟨_, mem_writtenPaths_made mem, below⟩
  have staging := named "sysroot.unpacking" (by simp)
  have target := named "sysroot" (by simp)
  have present := Path.join_name_ne_empty isName_staging s.cacheDirectory
  have there (q : Place) (on : q ∈ route w₀.directory s.staging) :
      places.written q ∨ places.made q := by
    rcases (Files.mem_route_join isName_staging).mp on with above | rfl
    · exact .inr (covered.made q above)
    · exact .inl (staging _ (List.prefix_refl _))
  intro w same
  unfold fill
  rw [World.run_bind, World.attempt_makeDirectories_run]
  cases made : w.files.makeDirectories w.directory s.staging with
  | error fault => exact same
  | ok f =>
    -- The directory is open by now, so that all that is unpacked stays in it.
    have opened := Files.makeDirectories_open made present
    have unpacked : Differs places w₀ { w with files := (w.unpacker (isCompressed archive) bytes
        w.directory s.staging f).2 } := by
      refine (same.makeDirectories there made).onFiles fun q off => ?_
      rw [← same.unpacker] at contained
      refine contained.outside opened present fun within => off (staging q ?_)
      rwa [← same.directory]
    simp only
    rw [World.run_bind, World.inquire_unpack_run]
    simp only
    split
    · exact confined_attempt (World.confined_rename staging target) _ _ unpacked
    · exact unpacked

theorem confined_unpackSysroot (contained : w₀.unpacker.Contained) (archive : String) :
    Confined places w₀ (unpackSysroot (m := StateM World) archive
      (Path.join s.cacheDirectory "sysroot")).run := by
  unfold unpackSysroot
  rw [withExtension_sysroot]
  refine confined_run_bind (confined_attempt (confined_of_kept fun _ => ⟨rfl, rfl, rfl, rfl⟩) _)
    fun bytes => ?_
  refine confined_run_bind (confined_question fun _ => rfl) fun there => ?_
  have rest := confined_fill covered contained archive bytes
  cases there with
  | false => exact rest
  | true =>
    refine confined_run_bind (confined_attempt (World.confined_removeTree fun q below => ?_) _)
      fun _ => rest
    exact covered.written q ⟨_, mem_writtenPaths_made (by simp), below⟩

theorem confined_ensureSysroot (contained : w₀.unpacker.Contained) :
    Confined places w₀ (ensureSysroot (m := StateM World) s
      (Path.join s.cacheDirectory "sysroot")).run := by
  have rest := confined_unpackSysroot covered contained (Path.join s.cacheDirectory s.sysroot)
  unfold ensureSysroot
  refine confined_run_bind (confined_question fun _ => rfl) fun there => ?_
  split
  · exact confined_run_pure _
  · refine confined_run_bind (confined_question fun _ => rfl) fun file => ?_
    split
    · refine confined_run_bind (confined_download_asset covered ?_ _) fun _ => rest
      exact mem_assetPaths (by simp [assetNames])
    · exact rest

/-- Whatever comes of fetching the assets, it writes at those places only. -/
theorem confined_fetchAssets (contained : w₀.unpacker.Contained) :
    Confined places w₀ (fetchAssets (m := StateM World) s).run := by
  have program {name : String} (mem : name ∈ s.assetNames) :=
    confined_ensureProgram covered (mem_assetPaths mem)
  unfold fetchAssets
  split
  · exact confined_pure _
  · refine confined_run_bind (confined_attempt
      (World.confined_makeDirectories fun q on => .inr (covered.made q on)) _) fun _ => ?_
    refine confined_run_bind (program (by simp [assetNames])) fun _ => ?_
    refine confined_run_bind (program (by simp [assetNames])) fun _ => ?_
    exact confined_run_bind (confined_ensureSysroot covered contained) fun _ => confined_run_pure _

end Fetching

/-! ## Compiles -/

theorem confined_prepare {t : Toolchain} (contained : w₀.unpacker.Contained)
    (covered : (t.settings.footprint w₀).Within places) :
    Confined places w₀ (t.prepare (m := StateM World)) := by
  unfold prepare
  split
  · exact confined_pure _
  · refine (confined_fetchAssets covered contained).bind fun ready _ => ?_
    cases ready <;> exact confined_pure _

theorem answers_prepare {t t' : Toolchain} {ready : Except Failure Assets}
    (h : Answers (t.prepare (m := StateM World)) (t', ready)) : t'.settings = t.settings := by
  unfold prepare at h
  split at h
  · cases World.answers_pure h
    rfl
  · obtain ⟨fetched, -, last⟩ := World.answers_bind h
    cases fetched <;> (cases World.answers_pure last; rfl)

theorem confined_compile {t : Toolchain} (contained : w₀.unpacker.Contained)
    (covered : (t.settings.footprint w₀).Within places) (r : Request) :
    Confined places w₀ (t.compile (m := StateM World) r) := by
  unfold compile
  refine (confined_prepare contained covered).bind fun ⟨t', ready⟩ _ => ?_
  cases ready with
  | error failure => exact confined_pure _
  | ok a =>
    refine Confined.bind ?_ fun _ _ => confined_pure _
    exact (World.confined_program _ _).bind fun _ _ => confined_pure _

end Toolchain

variable {places : Footprint} {w₀ : World}

theorem Service.confined_fetchArtifact (settings : ServiceSettings) (left : Nat) :
    Confined places w₀ (Service.fetchArtifact (m := StateM World) settings left) := by
  unfold Service.fetchArtifact
  split
  · exact confined_pure _
  · refine (World.confined_fetch _ _ _ _).bind fun answer _ => ?_
    split <;> exact confined_pure _

theorem Service.confined_compile (settings : ServiceSettings) (r : Request) :
    Confined places w₀ (Service.compile (m := StateM World) settings r) := by
  unfold Service.compile
  refine (World.confined_timedFetch _ _ _ _).bind fun ⟨posted, spent⟩ _ => ?_
  dsimp only
  split
  · exact confined_pure _
  · split
    · exact confined_pure _
    · split
      · exact confined_pure _
      · refine (confined_fetchArtifact settings _).bind fun fetched _ => ?_
        split <;> exact confined_pure _

/-- Where files change when a backend compiles. -/
def Serving.footprint (s : Serving) (w : World) : Footprint :=
  match s with
  | .toolchain t => t.settings.footprint w
  | _ => .nowhere

namespace DispatcherConfig

variable {c : DispatcherConfig} {w : World} {out : String}

/-- Where files change when a session compiles: where the toolchain does, if it is tried. -/
def footprint (c : DispatcherConfig) (w : World) : Footprint :=
  (c.toolchain.footprint w).given (c.selected = .toolchain)

/-- Nothing that is fetched or unpacked for a compile is the output or holds it. -/
def LeavesAlone (c : DispatcherConfig) (w : World) (out : String) : Prop :=
  ∀ q, (c.footprint w).written q → ¬ q <+: destination w.directory out

theorem leavesAlone_of_cache (named : c.toolchain.WellNamed)
    (outside : ¬ destination w.directory c.toolchain.cacheDirectory <+:
      destination w.directory out) : c.LeavesAlone w out := by
  rintro q ⟨-, p, mem, within⟩ above
  exact outside (((named.written mem w.directory).trans within).trans above)

end DispatcherConfig

namespace Serving

theorem footprint_ofBackend {c : DispatcherConfig} {b : Backend}
    (tried : b = .toolchain → c.selected = .toolchain) :
    ((ofBackend c b).footprint w₀).Within (c.footprint w₀) := by
  cases b with
  | toolchain => exact (Footprint.Within.refl _).given (tried rfl)
  | remote => exact ⟨nofun, nofun⟩
  | «local» => exact ⟨nofun, nofun⟩

theorem answers_prepare {s s' : Serving}
    (h : Answers (s.prepare (m := StateM World)) (.ok s')) : s'.footprint = s.footprint := by
  cases s with
  | toolchain t =>
    obtain ⟨⟨t', ready⟩, first, last⟩ := World.answers_bind h
    have given := World.answers_pure last
    cases ready with
    | error failure => cases given
    | ok a =>
      cases given
      funext w
      rw [footprint, footprint, Toolchain.answers_prepare first]
  | remote _ =>
    cases World.answers_pure h
    rfl
  | «local» _ =>
    cases World.answers_pure h
    rfl

variable (contained : w₀.unpacker.Contained)

include contained

theorem confined_prepare {s : Serving} (covered : (s.footprint w₀).Within places) :
    Confined places w₀ (s.prepare (m := StateM World)) := by
  cases s with
  | toolchain t =>
    exact (Toolchain.confined_prepare contained covered).bind fun _ _ => confined_pure _
  | remote _ => exact confined_pure _
  | «local» _ => exact confined_pure _

theorem confined_compile {s : Serving} (covered : (s.footprint w₀).Within places) (r : Request) :
    Confined places w₀ (s.compile (m := StateM World) r) := by
  cases s with
  | toolchain t =>
    exact (Toolchain.confined_compile contained covered r).bind fun _ _ => confined_pure _
  | remote settings =>
    exact (Service.confined_compile settings r).bind fun _ _ => confined_pure _
  | «local» settings =>
    exact (Service.confined_compile settings r).bind fun _ _ => confined_pure _

end Serving

namespace Dispatcher

variable {c : DispatcherConfig} {report : String → StateM World Unit}

/-- The backend that was chosen keeps to the footprint that the settings give, too. -/
theorem answers_choose {s : Serving} (h : Answers (choose report c) (.ok s)) :
    (s.footprint w₀).Within (c.footprint w₀) := by
  unfold choose at h
  obtain ⟨-, -, h⟩ := World.answers_bind h
  obtain ⟨ready, first, h⟩ := World.answers_bind h
  cases ready with
  | ok s' =>
    cases World.answers_pure h
    rw [Serving.answers_prepare first]
    exact Serving.footprint_ofBackend id
  | error failure =>
    simp only at h
    split at h
    · cases World.answers_pure h
    · rename_i tried
      split at h
      · cases World.answers_pure h
      · obtain ⟨-, -, second⟩ := World.answers_bind h
        rw [Serving.answers_prepare second]
        exact Serving.footprint_ofBackend fun _ => not_not.mp tried

section Reporting

variable (contained : w₀.unpacker.Contained) (covered : (c.footprint w₀).Within places)
  (telling : ∀ line, Confined places w₀ (report line))

include contained covered telling

theorem confined_choose : Confined places w₀ (choose report c) := by
  unfold choose
  refine (telling _).bind fun _ _ => ?_
  have prepared {b : Backend} (tried : b = .toolchain → c.selected = .toolchain) :
      Confined places w₀ ((Serving.ofBackend c b).prepare (m := StateM World)) :=
    Serving.confined_prepare contained ((Serving.footprint_ofBackend tried).trans covered)
  refine (prepared id).bind fun ready _ => ?_
  cases ready with
  | ok s => exact confined_pure _
  | error failure =>
    simp only
    split
    · exact confined_pure _
    · rename_i tried
      split
      · exact confined_pure _
      · exact (telling _).bind fun _ _ => prepared fun _ => not_not.mp tried

theorem confined_establish : Confined places w₀ ((ofConfig c).establish report) := by
  unfold establish
  refine (confined_choose contained covered telling).bind fun chosen _ => ?_
  cases chosen with
  | error failure => exact confined_pure _
  | ok s => exact (telling _).bind fun _ _ => confined_pure _

/-- A compile keeps to its footprint, whatever the network and the compiler do. -/
theorem confined_compile (r : Request) :
    Confined places w₀ ((ofConfig c).compile report r) := by
  unfold compile
  refine (confined_establish contained covered telling).bind fun ⟨d, session⟩ established => ?_
  cases session with
  | error failure => exact confined_pure _
  | ok s =>
    refine (telling _).bind fun _ _ => Confined.bind ?_ fun _ _ => confined_pure _
    refine Serving.confined_compile contained ?_ r
    obtain ⟨chosen, first, last⟩ := World.answers_bind established
    cases chosen with
    | error failure => cases World.answers_pure last
    | ok s' =>
      obtain ⟨-, -, last⟩ := World.answers_bind last
      cases World.answers_pure last
      exact (answers_choose first).trans covered

end Reporting

end Dispatcher

end LiveSound.Compile
