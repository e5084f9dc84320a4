import LiveSound.Proofs.Data.Records
import LiveSound.Proofs.Numeric.Widening
import LiveSound.Proofs.Toml.Documents
import LiveSound.Settings.Read
import LiveSound.Settings.Write

/-!
# Settings read back from their text

The sections of settings form a document that can be written, and each section is read as it was
written. A member without a value is left out of the text, so it comes back with its default: the
only default that is a value is the one of the artifact path.
-/

namespace LiveSound

namespace Settings

/-- Whole numbers have the sizes of their fields, at most 63 bits, and the volume is finite. -/
structure Storable (s : Settings) : Prop where
  optimizationLevel : s.compilation.options.optimizationLevel < 2 ^ 8
  toolchainTimeout : s.toolchain.timeout < 2 ^ 63
  remoteTimeout : s.remote.timeout < 2 ^ 63
  localTimeout : s.localServer.timeout < 2 ^ 63
  sampleRate : s.audio.sampleRate < 2 ^ 32
  channels : s.audio.channels < 2 ^ 16
  bufferSize : s.audio.bufferSize < 2 ^ 63
  volume : s.audio.volume.isFinite
  debounce : s.live.debounce < 2 ^ 63

/-- What settings come back as: without an artifact path, with that of the defaults. -/
def refilled (s : Settings) : Settings :=
  { s with localServer :=
    { s.localServer with
      artifactPath := s.localServer.artifactPath <|> LocalSettings.default.artifactPath } }

theorem refilled_eq_iff (s : Settings) : s.refilled = s ↔ s.localServer.artifactPath ≠ none := by
  obtain ⟨compilation, toolchain, remote, ⟨enabled, url, path, timeout⟩, audio, paths, live⟩ := s
  cases path <;> simp [refilled, LocalSettings.default]

/-! ## The document -/

open Toml (IsScalar IsWritable IsBareName)

/-- A member whose name is plain and whose value, if there is one, can be written. -/
def CanWrite (m : String × Data) : Prop :=
  IsBareName m.1 ∧ (m.2.isNull = false → IsWritable m.2)

section

variable {name : String} (hname : IsBareName name)

include hname

theorem canWrite_bool (b : Bool) : CanWrite (name, .bool b) :=
  ⟨hname, fun _ => Or.inl trivial⟩

theorem canWrite_text (t : String) : CanWrite (name, .text t) :=
  ⟨hname, fun _ => Or.inl trivial⟩

theorem canWrite_integer {n : Nat} (hn : n < 2 ^ 63) : CanWrite (name, .integer n) :=
  ⟨hname, fun _ => Or.inl ⟨Int.natCast_nonneg n, by omega⟩⟩

theorem canWrite_float {x : Binary64} (hx : x.isFinite) : CanWrite (name, .float x) :=
  ⟨hname, fun _ => Or.inl hx⟩

theorem canWrite_texts (items : List String) : CanWrite (name, textsData items) :=
  ⟨hname, fun _ => Or.inr ⟨_, rfl, by simp [IsScalar]⟩⟩

theorem canWrite_optional (t : Option String) : CanWrite (name, optionalData t) := by
  cases t with
  | none => exact ⟨hname, fun h => by cases h⟩
  | some t => exact canWrite_text hname t

end

theorem canWrite_compilation {s : CompilationSettings} (h : s.options.optimizationLevel < 2 ^ 8) :
    ∀ m ∈ compilationMembers s, CanWrite m := by
  have hlevel : s.options.optimizationLevel < 2 ^ 63 := by omega
  simp only [compilationMembers, List.forall_mem_cons]
  exact ⟨canWrite_text (by decide) _, canWrite_integer (by decide) hlevel,
    canWrite_bool (by decide) _, canWrite_texts (by decide) _, canWrite_texts (by decide) _,
    by simp⟩

theorem canWrite_toolchain {s : LocalToolchainSettings} (h : s.timeout < 2 ^ 63) :
    ∀ m ∈ toolchainMembers s, CanWrite m := by
  simp only [toolchainMembers, List.forall_mem_cons]
  exact ⟨canWrite_bool (by decide) _, canWrite_text (by decide) _, canWrite_text (by decide) _,
    canWrite_text (by decide) _, canWrite_text (by decide) _, canWrite_optional (by decide) _,
    canWrite_integer (by decide) h, by simp⟩

theorem canWrite_remote {s : RemoteSettings} (h : s.timeout < 2 ^ 63) :
    ∀ m ∈ remoteMembers s, CanWrite m := by
  simp only [remoteMembers, List.forall_mem_cons]
  exact ⟨canWrite_bool (by decide) _, canWrite_text (by decide) _,
    canWrite_optional (by decide) _, canWrite_integer (by decide) h, by simp⟩

theorem canWrite_local {s : LocalSettings} (h : s.timeout < 2 ^ 63) :
    ∀ m ∈ localMembers s, CanWrite m := by
  simp only [localMembers, List.forall_mem_cons]
  exact ⟨canWrite_bool (by decide) _, canWrite_text (by decide) _,
    canWrite_optional (by decide) _, canWrite_integer (by decide) h, by simp⟩

theorem canWrite_audio {s : AudioSettings} (hrate : s.sampleRate < 2 ^ 32)
    (hchannels : s.channels < 2 ^ 16) (hbuffer : s.bufferSize < 2 ^ 63) (hvolume : s.volume.isFinite) :
    ∀ m ∈ audioMembers s, CanWrite m := by
  simp only [audioMembers, List.forall_mem_cons]
  exact ⟨canWrite_integer (by decide) (by omega), canWrite_integer (by decide) (by omega),
    canWrite_integer (by decide) hbuffer,
    canWrite_float (by decide) (Binary32.toBinary64_isFinite hvolume), by simp⟩

theorem canWrite_paths (s : PathSettings) : ∀ m ∈ pathMembers s, CanWrite m := by
  simp only [pathMembers, List.forall_mem_cons]
  exact ⟨canWrite_text (by decide) _, canWrite_text (by decide) _, by simp⟩

theorem canWrite_live {s : LiveSettings} (h : s.debounce < 2 ^ 63) :
    ∀ m ∈ liveMembers s, CanWrite m := by
  simp only [liveMembers, List.forall_mem_cons]
  exact ⟨canWrite_integer (by decide) h, by simp⟩

theorem isPlain_of_canWrite {x : Toml.Section} (hname : IsBareName x.name)
    (h : ∀ m ∈ x.members, CanWrite m) : x.IsPlain where
  name := hname
  names m hm := (h m hm).1
  values m hm := (h m (List.mem_filter.mp hm).1).2 (by simpa using (List.mem_filter.mp hm).2)

theorem fits_of_canWrite {m : String × Data} (h : CanWrite m) : Toml.fits m.2 = true := by
  obtain ⟨name, d⟩ := m
  cases d with
  | integer n =>
    rcases h.2 rfl with hscalar | ⟨_, heq, -⟩
    · have hlow := hscalar.1
      have hhigh := hscalar.2
      simp only [Toml.fits, Bool.and_eq_true, decide_eq_true_eq]
      omega
    · cases heq
  | _ => rfl

/-- A member list without a name twice has none twice after members are left out. -/
theorem nodup_written {x : Toml.Section} (h : (x.members.map Prod.fst).Nodup) :
    (x.written.map Prod.fst).Nodup :=
  h.sublist (List.Sublist.map _ List.filter_sublist)

theorem canWrite_sections {s : Settings} (hs : s.Storable) :
    ∀ x ∈ s.toSections, IsBareName x.name ∧ ∀ m ∈ x.members, CanWrite m := by
  simp only [toSections, List.forall_mem_cons]
  exact ⟨⟨by decide, canWrite_compilation hs.optimizationLevel⟩,
    ⟨by decide, canWrite_toolchain hs.toolchainTimeout⟩,
    ⟨by decide, canWrite_remote hs.remoteTimeout⟩, ⟨by decide, canWrite_local hs.localTimeout⟩,
    ⟨by decide, canWrite_audio hs.sampleRate hs.channels hs.bufferSize hs.volume⟩,
    ⟨by decide, canWrite_paths s.paths⟩, ⟨by decide, canWrite_live hs.debounce⟩, by simp⟩

theorem isDocument {s : Settings} (hs : s.Storable) : Toml.IsDocument s.toSections where
  sections x hx := isPlain_of_canWrite (canWrite_sections hs x hx).1 (canWrite_sections hs x hx).2
  names := by simp [toSections]
  members := by
    have hnames : ∀ x ∈ s.toSections, (x.members.map Prod.fst).Nodup := by
      simp [toSections, compilationMembers, toolchainMembers, remoteMembers, localMembers,
        audioMembers, pathMembers, liveMembers]
    exact fun x hx => nodup_written (hnames x hx)

theorem exists_write? {s : Settings} (hs : s.Storable) : ∃ text, s.write? = some text := by
  have hfits : s.toSections.all (fun x => x.members.all fun m => Toml.fits m.2) = true := by
    simp only [List.all_eq_true]
    exact fun x hx m hm => fits_of_canWrite ((canWrite_sections hs x hx).2 m hm)
  exact ⟨_, by rw [write?, Toml.write?, if_pos hfits]⟩

/-! ## Reading sections -/

open SettingsFormat

theorem naturals_integer {bits n : Nat} (hn : n < 2 ^ bits) :
    naturals bits (.integer n) = some n := by
  simp [naturals, Data.asNat?, hn]

@[simp] theorem mode?_name (m : Compile.Mode) : mode? .toml (.text m.name) = some m := by
  cases m <;> rfl

theorem volume?_toBinary64 {v : Binary32} (hv : v.isFinite) :
    volume? (.float v.toBinary64) = some v :=
  congrArg some (Binary32.toBinary64_toBinary32 hv)

theorem section?_record {σ : Type} (f : SettingsFormat) (fields : List (Field Unit σ)) (start : σ)
    (members : List (String × Data)) :
    f.section? fields start (.record members) =
      (Field.readMembers fields () [] start members).toOption := by
  cases f <;> rfl

theorem read_compilation {s : CompilationSettings} (h : s.options.optimizationLevel < 2 ^ 8) :
    SettingsFormat.toml.section? (compilationFields .toml) .default
      (.record (Toml.Section.written ⟨"compilation", compilationMembers s⟩)) = some s := by
  have hlevel := naturals_integer h
  simp [section?_record, Field.readMembers, compilationFields, field,
    Toml.Section.written, compilationMembers, Data.isNull, textsData, hlevel, Data.asBool?,
    Except.toOption]

/-- A cache directory that is left out is one that nobody names. -/
theorem read_toolchain {s : LocalToolchainSettings} (h : s.timeout < 2 ^ 63) :
    SettingsFormat.toml.section? toolchainFields .default
      (.record (Toml.Section.written ⟨"toolchain", toolchainMembers s⟩)) = some s := by
  have htimeout : naturals 64 (.integer s.timeout) = some s.timeout := naturals_integer (by omega)
  obtain ⟨enabled, cdnUrl, clang, linker, sysroot, cacheDirectory, timeout⟩ := s
  cases cacheDirectory <;>
    simp_all [section?_record, Field.readMembers, toolchainFields, field,
      Toml.Section.written, toolchainMembers, optionalData, Data.isNull, Data.asBool?, Data.asText?,
      optionalText, Data.asOptional?, LocalToolchainSettings.default, Except.toOption]

/-- An artifact address that is left out is one that nobody names. -/
theorem read_remote {s : RemoteSettings} (h : s.timeout < 2 ^ 63) :
    SettingsFormat.toml.section? remoteFields .default
      (.record (Toml.Section.written ⟨"remote", remoteMembers s⟩)) = some s := by
  have htimeout : naturals 64 (.integer s.timeout) = some s.timeout := naturals_integer (by omega)
  obtain ⟨enabled, endpoint, artifactUrl, timeout⟩ := s
  cases artifactUrl <;>
    simp_all [section?_record, Field.readMembers, remoteFields, field,
      Toml.Section.written, remoteMembers, optionalData, Data.isNull, Data.asBool?, Data.asText?,
      optionalText, Data.asOptional?, RemoteSettings.default, Except.toOption]

theorem read_local {s : LocalSettings} (h : s.timeout < 2 ^ 63) :
    SettingsFormat.toml.section? localFields .default
      (.record (Toml.Section.written ⟨"local", localMembers s⟩)) =
    some { s with artifactPath := s.artifactPath <|> LocalSettings.default.artifactPath } := by
  have htimeout : naturals 64 (.integer s.timeout) = some s.timeout := naturals_integer (by omega)
  obtain ⟨enabled, url, artifactPath, timeout⟩ := s
  cases artifactPath <;>
    simp_all [section?_record, Field.readMembers, localFields, field,
      Toml.Section.written, localMembers, optionalData, Data.isNull, Data.asBool?, Data.asText?,
      optionalText, Data.asOptional?, Except.toOption]

theorem read_audio {s : AudioSettings} (hrate : s.sampleRate < 2 ^ 32)
    (hchannels : s.channels < 2 ^ 16) (hbuffer : s.bufferSize < 2 ^ 63)
    (hvolume : s.volume.isFinite) :
    SettingsFormat.toml.section? audioFields .default
      (.record (Toml.Section.written ⟨"audio", audioMembers s⟩)) = some s := by
  have hrate := naturals_integer hrate
  have hchannels := naturals_integer hchannels
  have hbuffer : naturals 64 (.integer s.bufferSize) = some s.bufferSize :=
    naturals_integer (by omega)
  have hvolume := volume?_toBinary64 hvolume
  simp [section?_record, Field.readMembers, audioFields, field, Toml.Section.written,
    audioMembers, Data.isNull, hrate, hchannels, hbuffer, hvolume, Except.toOption]

theorem read_paths (s : PathSettings) :
    SettingsFormat.toml.section? pathFields .default
      (.record (Toml.Section.written ⟨"paths", pathMembers s⟩)) = some s := by
  simp [section?_record, Field.readMembers, pathFields, field, Toml.Section.written,
    pathMembers, Data.isNull, Data.asText?, Except.toOption]

theorem read_live {s : LiveSettings} (h : s.debounce < 2 ^ 63) :
    SettingsFormat.toml.section? liveFields .default
      (.record (Toml.Section.written ⟨"live", liveMembers s⟩)) = some s := by
  have hdebounce : naturals 64 (.integer s.debounce) = some s.debounce :=
    naturals_integer (by omega)
  simp [section?_record, Field.readMembers, liveFields, field, Toml.Section.written,
    liveMembers, Data.isNull, hdebounce, Except.toOption]

/-- The text of settings is read as them, with a value for the artifact path. -/
theorem read?_write? {s : Settings} (hs : s.Storable) {text : String}
    (htext : s.write? = some text) : SettingsFormat.read? .toml text = some s.refilled := by
  have hdata := Toml.read?_write? (isDocument hs) htext
  have hcompilation := read_compilation hs.optimizationLevel
  have htoolchain := read_toolchain hs.toolchainTimeout
  have hremote := read_remote hs.remoteTimeout
  have hlocal := read_local hs.localTimeout
  have haudio := read_audio hs.sampleRate hs.channels hs.bufferSize hs.volume
  have hlive := read_live hs.debounce
  rw [SettingsFormat.read?, hdata, Option.bind_some, section?_record]
  simp [Field.readMembers, SettingsFormat.fields, field, toSections, hcompilation, htoolchain,
    hremote, hlocal, haudio, read_paths, hlive, Except.toOption, refilled]

end Settings

end LiveSound
