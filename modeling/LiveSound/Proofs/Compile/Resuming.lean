import LiveSound.Proofs.Compile.Fetching
import Mathlib.Logic.Function.Iterate

/-!
# Attempts that go on where others stopped

One attempt to fetch the assets after another, with whatever the server answers. What an attempt
does is told once (`fetchAssets_stage`); by induction it holds between any two attempts that what is
in the cache stays as it is and what comes there is complete. After an attempt that succeeded,
nothing happens any more (`fetchAssets_resumes`).
-/

namespace LiveSound.Compile

open Files (destination route)

namespace ToolchainSettings

def worldAfter (s : ToolchainSettings) (w : World) (n : Nat) : World :=
  (fun w => ((Toolchain.fetchAssets (m := StateM World) s).run w).2)^[n] w

/-- What comes of the next attempt after so many others. -/
def outcomeAfter (s : ToolchainSettings) (w : World) (n : Nat) : Except String Assets :=
  ((Toolchain.fetchAssets (m := StateM World) s).run (s.worldAfter w n)).1

variable {s : ToolchainSettings} {w w' : World} {n m : Nat}

theorem worldAfter_succ (s : ToolchainSettings) (w : World) (n : Nat) :
    s.worldAfter w (n + 1) =
      ((Toolchain.fetchAssets (m := StateM World) s).run (s.worldAfter w n)).2 :=
  Function.iterate_succ_apply' _ n w

/-- A world in which attempts can be made. -/
structure Sound (s : ToolchainSettings) (w : World) : Prop where
  apart : s.Apart w.directory
  grounded : w.files.Grounded
  home : s.cacheDirectory = "" → w.files.entry? w.directory = some .directory

theorem route_empty (base : Place) : route base "" = [base] := rfl

theorem Sound.advance (h : s.Sound w) (later : s.Advance w w') : s.Sound w' where
  apart := later.directory ▸ h.apart
  grounded := later.grounded h.grounded
  home empty := by
    have on : w.directory ∈ route w.directory s.cacheDirectory := by
      rw [empty, route_empty]
      exact List.mem_singleton_self _
    rw [later.directory]
    exact later.route _ on (h.home empty)

theorem Sound.usable {f : Files} (h : s.Sound w)
    (made : w.files.makeDirectories w.directory s.cacheDirectory = .ok f) :
    s.Usable { w with files := f } where
  apart := h.apart
  grounded := h.grounded.makeDirectories made
  opened := by
    by_cases empty : s.cacheDirectory = ""
    · rw [empty] at made
      obtain rfl := Files.makeUpTo_empty made
      intro q on
      rw [empty, route_empty, List.mem_singleton] at on
      rw [on]
      exact h.home empty
    · exact Files.makeDirectories_open made empty

/-- All that an attempt has to fetch is there. -/
structure Ready (s : ToolchainSettings) (w : World) : Prop where
  named : Text.allBlank s.cdnUrl = false
  usable : s.Usable w
  clang : s.hasFile w s.clang = true
  linker : s.hasFile w s.linker = true
  sysroot : s.hasSysroot w = true

end ToolchainSettings

namespace Toolchain

open ToolchainSettings

variable {s : ToolchainSettings} {w : World} {n m : Nat}

/-! ## One attempt -/

/-- What an attempt does after the cache directory was made. -/
def fetchInto (s : ToolchainSettings) : ExceptT String (StateM World) Assets := do
  let assets := assetsOf s
  ensureProgram s assets.clang
  ensureProgram s assets.linker
  ensureSysroot s assets.sysroot
  return assets

theorem fetchInto_stage (named : s.WellNamed) (contained : w.unpacker.Contained)
    (usable : s.Usable w) (url : Text.allBlank s.cdnUrl = false) :
    ∃ outcome w' touched, (fetchInto s).run w = (outcome, w') ∧
      s.Stage (s.missing w) touched w outcome.isOk w' ∧
      (outcome.isOk = true → outcome = .ok (assetsOf s) ∧ s.Ready w') := by
  have distinct := named.distinct
  simp only [cacheNames, assetNames, List.cons_append, List.nil_append, List.nodup_cons,
    List.mem_cons, List.not_mem_nil, or_false, not_or] at distinct
  have clang : s.clang ∈ s.assetNames := by simp [assetNames]
  have linker : s.linker ∈ s.assetNames := by simp [assetNames]
  have sysroot : s.sysroot ∈ s.assetNames := by simp [assetNames]
  unfold fetchInto
  simp only [assetsOf]
  obtain ⟨first, w₁, ran₁, stage₁, file₁⟩ := ensureProgram_run named usable clang
  have usable₁ := usable.advance stage₁.advance
  rw [World.run_bind, ran₁]
  unfold missing
  cases first with
  | error message =>
    have stopped := stage₁.fail (s.missingFile w s.linker ++
      if s.hasSysroot w then [] else s.missingFile w s.sysroot) []
    rw [← List.append_assoc] at stopped
    exact ⟨_, w₁, _, rfl, stopped, fun success => by cases success⟩
  | ok _ =>
    simp only
    obtain ⟨second, w₂, ran₂, stage₂, file₂⟩ := ensureProgram_run named usable₁ linker
    have usable₂ := usable₁.advance stage₂.advance
    have both := stage₁.trans stage₂
    have linker_same : s.missingFile w₁ s.linker = s.missingFile w s.linker :=
      (stage₁.others s.linker (mem_cacheNames linker)
        (by simp [Ne.symm distinct.1.1])).missingFile stage₁.advance.directory
    rw [linker_same] at both
    rw [World.run_bind, ran₂]
    cases second with
    | error message => exact ⟨_, w₂, _, rfl, both.fail _ [], fun success => by cases success⟩
    | ok _ =>
      simp only
      obtain ⟨third, w₃, ran₃, stage₃, there⟩ :=
        ensureSysroot_run named (both.advance.unpacker ▸ contained) usable₂
      have all := both.trans stage₃
      have archive_same : s.missingFile w₂ s.sysroot = s.missingFile w s.sysroot :=
        (both.others s.sysroot (mem_cacheNames sysroot)
          (by simp [Ne.symm distinct.1.2.1, Ne.symm distinct.2.1.1])).missingFile
            both.advance.directory
      have sysroot_same : s.hasSysroot w₂ = s.hasSysroot w :=
        (both.others "sysroot" (sysroot_mem s)
          (by simp [Ne.symm distinct.1.2.2.1, Ne.symm distinct.2.1.2.1])).hasSysroot
            both.advance.directory
      rw [archive_same, sysroot_same] at all
      rw [World.run_bind, ran₃]
      cases third with
      | error message => exact ⟨_, w₃, _, rfl, all, fun success => by cases success⟩
      | ok _ =>
        refine ⟨.ok (assetsOf s), w₃, _, rfl, all, fun _ => ⟨rfl, ?_⟩⟩
        exact ⟨url, usable₂.advance stage₃.advance,
          (stage₂.advance.trans stage₃.advance).hasFile clang (file₁ rfl),
          stage₃.advance.hasFile linker (file₂ rfl), there rfl⟩

/-- An attempt advances the cache, and asks for what is missing there. -/
theorem fetchAssets_stage (named : s.WellNamed) (contained : w.unpacker.Contained)
    (sound : s.Sound w) :
    ∃ outcome w' touched, (fetchAssets (m := StateM World) s).run w = (outcome, w') ∧
      s.Stage (s.missing w) touched w outcome.isOk w' ∧
      (outcome.isOk = true → outcome = .ok (assetsOf s) ∧ s.Ready w') := by
  have idle : s.Stage (s.missing w) [] w false w :=
    ⟨.refl s w, .stopped _ _, fun _ _ _ => .refl s _ w⟩
  unfold fetchAssets
  cases url : Text.allBlank s.cdnUrl with
  | true => exact ⟨_, w, [], rfl, idle, nofun⟩
  | false =>
    simp only [Bool.false_eq_true, if_false]
    rw [World.run_bind, World.attempt_makeDirectories_run]
    cases made : w.files.makeDirectories w.directory s.cacheDirectory with
    | error fault => exact ⟨_, w, [], rfl, idle, nofun⟩
    | ok f =>
      have start := makeCache_stage named sound.apart made
      obtain ⟨outcome, w', touched, ran, stage, success⟩ :=
        fetchInto_stage (w := { w with files := f }) named contained (sound.usable made) url
      have same : s.missing { w with files := f } = s.missing w := by
        have file {name : String} (mem : name ∈ s.assetNames) :
            s.missingFile { w with files := f } name = s.missingFile w name :=
          (start.others name (mem_cacheNames mem) List.not_mem_nil).missingFile rfl
        have directory : s.hasSysroot { w with files := f } = s.hasSysroot w :=
          (start.others "sysroot" (sysroot_mem s) List.not_mem_nil).hasSysroot rfl
        rw [missing, missing, file (by simp [assetNames]), file (by simp [assetNames]),
          file (by simp [assetNames]), directory]
      have whole := start.trans stage
      rw [same] at whole
      exact ⟨outcome, w', _, ran, whole, success⟩

/-- Where everything is there, an attempt does nothing. -/
theorem fetchAssets_ready (h : s.Ready w) (named : s.WellNamed) :
    (fetchAssets (m := StateM World) s).run w = (.ok (assetsOf s), w) := by
  have made : w.files.makeDirectories w.directory s.cacheDirectory = .ok w.files := by
    by_cases empty : s.cacheDirectory = ""
    · rw [empty]
      rfl
    · exact Files.makeDirectories_directory
        ((Files.find?_eq_directory_iff empty).mpr h.usable.opened)
  have program {name : String} (mem : name ∈ s.assetNames) (there : s.hasFile w name = true) :
      (ensureProgram (m := StateM World) s (Path.join s.cacheDirectory name)).run w =
        (.ok (), w) := by
    unfold ensureProgram
    rw [World.run_bind, h.usable.isFile_run (named.names name mem), there]
    rfl
  have directory : (ensureSysroot (m := StateM World) s
      (Path.join s.cacheDirectory "sysroot")).run w = (.ok (), w) := by
    unfold ensureSysroot
    rw [World.run_bind, h.usable.isDirectory_run, h.sysroot]
    rfl
  unfold fetchAssets
  simp only [h.named, Bool.false_eq_true, if_false]
  rw [World.run_bind, World.attempt_makeDirectories_run, made]
  simp only [assetsOf]
  rw [World.run_bind_ok (program (by simp [assetNames]) h.clang),
    World.run_bind_ok (program (by simp [assetNames]) h.linker), World.run_bind_ok directory]
  rfl

/-! ## Any number of attempts -/

theorem worldAfter_sound (named : s.WellNamed) (contained : w.unpacker.Contained)
    (sound : s.Sound w) (n : Nat) :
    s.Advance w (s.worldAfter w n) ∧ s.Sound (s.worldAfter w n) := by
  induction n with
  | zero => exact ⟨.refl s w, sound⟩
  | succ n ih =>
    obtain ⟨outcome, w', touched, ran, stage, -⟩ :=
      fetchAssets_stage named (ih.1.unpacker ▸ contained) ih.2
    rw [worldAfter_succ, ran]
    exact ⟨ih.1.trans stage.advance, ih.2.advance stage.advance⟩

/-- Between any two attempts the cache only advances. -/
theorem worldAfter_advance (named : s.WellNamed) (contained : w.unpacker.Contained)
    (sound : s.Sound w) (le : n ≤ m) :
    s.Advance (s.worldAfter w n) (s.worldAfter w m) := by
  obtain ⟨k, rfl⟩ := Nat.exists_eq_add_of_le le
  obtain ⟨first, sound'⟩ := worldAfter_sound named contained sound n
  have later := (worldAfter_sound named (first.unpacker ▸ contained) sound' k).1
  have same : s.worldAfter (s.worldAfter w n) k = s.worldAfter w (n + k) := by
    rw [worldAfter, worldAfter, worldAfter, ← Function.iterate_add_apply, Nat.add_comm]
  rwa [same] at later

theorem worldAfter_ready (named : s.WellNamed) (ready : s.Ready (s.worldAfter w n)) (k : Nat) :
    s.worldAfter w (n + k) = s.worldAfter w n := by
  induction k with
  | zero => rfl
  | succ k ih => rw [← Nat.add_assoc, worldAfter_succ, ih, fetchAssets_ready ready named]

/-- Attempt after attempt, whatever the server answers: an asset that is in the cache stays as it
is, and one that comes there is the whole of what was downloaded for it; the directory that is
unpacked comes there when unpacking succeeded, with all that came of it. What has come under a final
name is not written again. Each attempt asks for what is missing, in order, up to the first that
does not come. After one that succeeded, all others succeed and nothing is asked for or changed. -/
theorem fetchAssets_resumes (named : s.WellNamed) (apart : s.Apart w.directory)
    (grounded : w.Grounded) (contained : w.unpacker.Contained) (le : n ≤ m) :
    (∀ name ∈ s.assetNames, s.AssetKept name (s.worldAfter w n) (s.worldAfter w m)) ∧
      s.SysrootKept (s.worldAfter w n) (s.worldAfter w m) ∧
      (∀ name ∈ "sysroot" :: s.assetNames, n < m →
        ¬ s.Untouched name (s.worldAfter w n) (s.worldAfter w (n + 1)) →
        s.Untouched name (s.worldAfter w (n + 1)) (s.worldAfter w m)) ∧
      s.Trail w.network (s.worldAfter w m).requests (s.missing (s.worldAfter w m))
        (s.outcomeAfter w m).isOk (s.worldAfter w (m + 1)).requests ∧
      ((s.outcomeAfter w n).isOk = true → n < m →
        s.outcomeAfter w m = .ok (assetsOf s) ∧
          s.worldAfter w m = s.worldAfter w (n + 1)) := by
  have sound : s.Sound w := ⟨apart, grounded.files, fun _ => grounded.home⟩
  have advance := worldAfter_advance named contained sound le
  refine ⟨advance.assets, advance.sysroot, fun name mem later changed => ?_, ?_,
    fun success later => ?_⟩
  · have first := worldAfter_advance named contained sound n.le_succ
    exact first.changes_once (worldAfter_advance named contained sound later) mem changed
  · obtain ⟨start, sound'⟩ := worldAfter_sound named contained sound m
    obtain ⟨outcome, w', touched, ran, stage, -⟩ :=
      fetchAssets_stage named (start.unpacker ▸ contained) sound'
    have trail := stage.trail
    rw [start.network] at trail
    rw [worldAfter_succ, outcomeAfter, ran]
    exact trail
  · obtain ⟨start, sound'⟩ := worldAfter_sound named contained sound n
    obtain ⟨outcome, w', touched, ran, -, ready⟩ :=
      fetchAssets_stage named (start.unpacker ▸ contained) sound'
    rw [outcomeAfter, ran] at success
    have there : s.Ready (s.worldAfter w (n + 1)) := by
      rw [worldAfter_succ, ran]
      exact (ready success).2
    obtain ⟨k, rfl⟩ := Nat.exists_eq_add_of_le (Nat.succ_le_of_lt later)
    have same := worldAfter_ready named there k
    rw [Nat.succ_eq_add_one, same]
    refine ⟨?_, rfl⟩
    rw [outcomeAfter, same, fetchAssets_ready there named]

def hosting (files : Files) (network : List Net.Request → Net.Request → Net.Exchange) : World where
  files := files
  directory := []
  cache := "/cache"
  network := network
  requests := []
  unpacker := Archive.unpacker
  program _ _ _ := .notStarted .notFound
  runs := []
  printed := ""
  hasDevice := false

theorem grounded_hosting {files : Files} (h : files.Grounded)
    (network : List Net.Request → Net.Request → Net.Exchange) : (hosting files network).Grounded :=
  ⟨h, nofun, rfl⟩

/-- A server that has the linker only when it is asked a second time. -/
def faltering (past : List Net.Request) (r : Net.Request) : Net.Exchange :=
  if r.url.path = "/wasm-ld" ∧ r ∉ past then .answered ⟨404, none, [], .whole⟩
  else .answered ⟨200, none, [], .whole⟩

/-- The first attempt fails for want of the linker, and the second one gets what is missing. -/
theorem second_attempt_goes_on :
    let s := ToolchainSettings.ofUrl "http://a" "/c"
    let w := hosting .empty faltering
    (s.outcomeAfter w 0).isOk = false ∧ (s.outcomeAfter w 1).isOk = true ∧
      (∀ name ∈ s.assetNames, s.AssetKept name w (s.worldAfter w 2)) ∧
      s.SysrootKept w (s.worldAfter w 2) ∧
      s.outcomeAfter w 7 = .ok (assetsOf s) ∧ s.worldAfter w 7 = s.worldAfter w 2 := by
  intro s w
  have named : s.WellNamed := by decide
  have apart : s.Apart w.directory := by decide +kernel
  have grounded : w.Grounded := grounded_hosting (Files.grounded_of_entries (by decide)) faltering
  have contained : w.unpacker.Contained := Archive.contained_unpacker
  have first : (s.outcomeAfter w 0).isOk = false := by decide +kernel
  have second : (s.outcomeAfter w 1).isOk = true := by decide +kernel
  obtain ⟨assets, sysroot, -, -, -⟩ :=
    fetchAssets_resumes (n := 0) (m := 2) named apart grounded contained (by decide)
  obtain ⟨-, -, -, -, later⟩ :=
    fetchAssets_resumes (n := 1) (m := 7) named apart grounded contained (by decide)
  exact ⟨first, second, assets, sysroot, later second (by decide)⟩

/-- If the path of the cache directory leads through the directory that is to be unpacked, that
directory is made on the way there and no archive is asked for. -/
theorem directory_on_the_way_is_not_unpacked :
    let s := ToolchainSettings.ofUrl "http://a" "/c/sysroot/.."
    let w := hosting ⟨[(["c"], .directory), (["c", "clang"], .file [1] 0o755),
      (["c", "wasm-ld"], .file [2] 0o755)]⟩ fun _ _ => .unreachable
    s.WellNamed ∧ w.Grounded ∧ Text.allBlank s.cdnUrl = false ∧
      (s.outcomeAfter w 0).isOk = true ∧ ¬ s.SysrootKept w (s.worldAfter w 1) := by
  intro s w
  let after := (s.worldAfter w 1).files
  have made : after.entry? (s.place w.directory "sysroot") = some .directory := by decide +kernel
  have archive : after.entry? (s.place w.directory s.sysroot) = none := by decide +kernel
  refine ⟨by decide, grounded_hosting (Files.grounded_of_entries (by decide)) _, by decide,
    by decide +kernel, ?_⟩
  rintro (same | ⟨-, -, bytes, mode, -, -, file, -⟩)
  · have before : w.files.entry? (s.place w.directory "sysroot") ≠ some .directory := by
      decide +kernel
    exact before (same.here.symm.trans made)
  · rw [archive] at file
    cases file

end Toolchain

end LiveSound.Compile
