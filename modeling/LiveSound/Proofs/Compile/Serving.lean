import LiveSound.Proofs.Compile.Attempts

/-!
# Compiling with a backend

What a backend that is ready asks for a compile: a toolchain runs its compiler once, and a service
is sent the request and perhaps asked for the module. It stays as it is (`Serving.eq_of_compile`),
and the result speaks of assets only when the compiler could not be started
(`Serving.compile_kind`).
-/

namespace LiveSound.Compile

open Dialog (Asks asks_pure asks_question asks_fetch ends_pure ends_bind)

/-! ## Services -/

/-- What a service is asked: it is sent the request, and asked for the module. -/
def ServiceSettings.Contacts (s : ServiceSettings) : Question → Prop
  | .exchange r _ => (r.method = .post ∧ Net.Url.parse s.endpoint = .ok r.url) ∨
      (r.method = .get ∧ ∃ url, s.artifactUrl = some url ∧ Net.Url.parse url = .ok r.url)
  | _ => False

theorem Service.asks_fetchArtifact (s : ServiceSettings) (left : Nat) :
    Asks s.Contacts (Service.fetchArtifact (m := Dialog) s left) := by
  unfold Service.fetchArtifact
  split
  · exact asks_pure _
  · rename_i url there
    refine (asks_fetch fun u parsed => .inr ⟨rfl, url, there, parsed⟩).bind fun r => ?_
    cases r <;> exact asks_pure _

theorem Service.asks_compile (s : ServiceSettings) (r : Request) :
    Asks s.Contacts (Service.compile (m := Dialog) s r) := by
  unfold Service.compile
  refine (Dialog.asks_timedFetch fun u parsed => .inl ⟨rfl, parsed⟩).bind fun ⟨posted, spent⟩ => ?_
  dsimp only
  split
  · exact asks_pure _
  · split
    · exact asks_pure _
    · split
      · exact asks_pure _
      · refine (Service.asks_fetchArtifact s _).bind fun bytes => ?_
        cases bytes <;> exact asks_pure _

theorem Service.ofTrouble_kind {s : ServiceSettings} {url : String} {waited : FailureKind}
    (known : waited ≠ .assetLoad) (trouble : Net.Trouble) :
    (Service.ofTrouble s url waited trouble).kind ≠ .assetLoad := by
  cases trouble
  case timedOut => exact known
  all_goals exact nofun

theorem Service.readReply_kind {s : ServiceSettings} {r : Net.Reply} {failure : Failure}
    (h : Service.readReply s r = .error failure) : failure.kind ≠ .assetLoad := by
  unfold Service.readReply at h
  split at h
  · cases h
    exact ofTrouble_kind (by decide) _
  · split at h
    · cases h
      exact nofun
    · split at h
      · cases h
        exact nofun
      · split at h <;> cases h
        exact nofun

theorem Service.readArtifact_kind {s : ServiceSettings} {url : String} {r : Net.Reply}
    {failure : Failure} (h : Service.readArtifact s url r = .error failure) :
    failure.kind ≠ .assetLoad := by
  unfold Service.readArtifact at h
  split at h
  · cases bytes : r.bytes with
    | ok content =>
      rw [bytes] at h
      cases h
    | error trouble =>
      rw [bytes] at h
      cases h
      exact ofTrouble_kind (by decide) _
  · cases h
    exact nofun

theorem Service.fetchArtifact_kind {s : ServiceSettings} {left : Nat} {asked : List Answered}
    {failure : Failure}
    (h : (Service.fetchArtifact (m := Dialog) s left).Ends asked (.error failure)) :
    failure.kind ≠ .assetLoad := by
  unfold Service.fetchArtifact at h
  split at h
  · cases (ends_pure.mp h).2
    exact nofun
  · obtain ⟨_, _, r, _, _, last⟩ := ends_bind.mp h
    cases r with
    | error trouble =>
      cases (ends_pure.mp last).2
      exact Service.ofTrouble_kind (by decide) trouble
    | ok reply => exact Service.readArtifact_kind (ends_pure.mp last).2.symm

theorem Service.conclude_kind (reply : Reply) (bytes : Bytes) :
    (Service.conclude reply bytes).failureKind? ≠ some .assetLoad := by
  unfold Service.conclude
  split <;> exact nofun

/-- Services know nothing of assets. -/
theorem Service.compile_kind {s : ServiceSettings} {r : Request} {asked : List Answered}
    {result : Result} (h : (Service.compile (m := Dialog) s r).Ends asked result) :
    result.failureKind? ≠ some .assetLoad := by
  have of_failure {failure : Failure} (h : failure.kind ≠ .assetLoad) :
      (Result.failure failure).failureKind? ≠ some .assetLoad :=
    fun same => h (Option.some.inj same)
  obtain ⟨_, _, ⟨posted, spent⟩, _, _, h⟩ := ends_bind.mp h
  dsimp only at h
  split at h
  · rw [(ends_pure.mp h).2]
    exact of_failure (Service.ofTrouble_kind (by decide) _)
  · split at h
    · rename_i refused
      rw [(ends_pure.mp h).2]
      exact of_failure (Service.readReply_kind refused)
    · split at h
      · rw [(ends_pure.mp h).2]
        exact Service.conclude_kind _ _
      · obtain ⟨_, _, bytes, _, fetching, last⟩ := ends_bind.mp h
        cases bytes with
        | error failure =>
          rw [(ends_pure.mp last).2]
          exact of_failure (Service.fetchArtifact_kind fetching)
        | ok bytes =>
          rw [(ends_pure.mp last).2]
          exact Service.conclude_kind _ _

theorem Toolchain.verdict_kind (a : Assets) (timeout : Nat) (run : Run) :
    (Toolchain.verdict a timeout run).failureKind? = some .assetLoad ↔
      ∃ f, run = .notStarted f := by
  cases run with
  | noDirectory | noInputs | unfinished => exact ⟨nofun, nofun⟩
  | notStarted f => exact ⟨fun _ => ⟨f, rfl⟩, fun _ => rfl⟩
  | finished f =>
    refine ⟨fun kind => ?_, nofun⟩
    unfold Toolchain.verdict Toolchain.judge at kind
    simp only at kind
    split at kind
    · cases kind
    · split at kind <;> cases kind
    · cases kind

namespace Serving

/-- What is asked for a compile. -/
def Serves : Serving → Question → Prop
  | .toolchain t, q => ∃ a r, t.assets = some a ∧
      q = .run (Toolchain.invocation a r) t.settings.timeout
  | .remote s, q => s.Contacts q
  | .local s, q => s.Contacts q

theorem backend_of_serves_run {v : Serving} {i : Invocation} {timeout : Nat}
    (h : v.Serves (.run i timeout)) : v.backend = .toolchain := by
  cases v with
  | toolchain t => rfl
  | remote s => exact h.elim
  | «local» s => exact h.elim

/-- A toolchain that is ready just runs its compiler. -/
theorem compile_toolchain {t : Toolchain} {a : Assets} (h : t.assets = some a) (r : Request) :
    (Serving.toolchain t).compile (m := Dialog) r =
      Dialog.question (.run (Toolchain.invocation a r) t.settings.timeout) >>= fun run =>
        pure (.toolchain t, Toolchain.verdict a t.settings.timeout run) := by
  obtain ⟨settings, assets⟩ := t
  cases h
  rfl

theorem asks_compile {v : Serving} (ready : v.Ready) (r : Request) :
    Asks v.Serves (v.compile (m := Dialog) r) := by
  cases v with
  | toolchain t =>
    obtain ⟨a, there⟩ := Option.ne_none_iff_exists'.mp ready
    rw [compile_toolchain there]
    exact (asks_question ⟨a, r, there, rfl⟩).bind fun _ => asks_pure _
  | remote s => exact (Service.asks_compile s r).bind fun _ => asks_pure _
  | «local» s => exact (Service.asks_compile s r).bind fun _ => asks_pure _

theorem eq_of_compile {v v' : Serving} (ready : v.Ready) {r : Request} {asked : List Answered}
    {result : Result} (h : (v.compile (m := Dialog) r).Ends asked (v', result)) : v' = v := by
  cases v with
  | toolchain t =>
    obtain ⟨a, there⟩ := Option.ne_none_iff_exists'.mp ready
    rw [compile_toolchain there] at h
    obtain ⟨_, _, _, _, _, last⟩ := ends_bind.mp h
    exact (Prod.mk.inj (ends_pure.mp last).2).1
  | remote s =>
    obtain ⟨_, _, _, _, _, last⟩ := ends_bind.mp h
    exact (Prod.mk.inj (ends_pure.mp last).2).1
  | «local» s =>
    obtain ⟨_, _, _, _, _, last⟩ := ends_bind.mp h
    exact (Prod.mk.inj (ends_pure.mp last).2).1

theorem lines_compile {v : Serving} (ready : v.Ready) {r : Request} {asked : List Answered}
    {t : Dialog (Serving × Result)} (h : (v.compile (m := Dialog) r).Leads asked t) :
    linesOf asked = [] := by
  refine linesOf_eq_nil fun a mem line told => ?_
  have serves := ((asks_compile ready r).of_leads h).1 a mem
  rw [told] at serves
  cases v with
  | toolchain t =>
    obtain ⟨_, _, -, same⟩ := serves
    cases same
  | remote s => exact serves
  | «local» s => exact serves

/-- A compile speaks of assets exactly when the compiler could not be started. -/
theorem compile_kind {v v' : Serving} (ready : v.Ready) {r : Request} {asked : List Answered}
    {result : Result} (h : (v.compile (m := Dialog) r).Ends asked (v', result)) :
    result.failureKind? = some .assetLoad ↔
      ∃ i timeout f, (⟨.run i timeout, Run.notStarted f⟩ : Answered) ∈ asked := by
  have of_service {s : ServiceSettings} {before : List Answered}
      (contacts : ∀ a ∈ before, s.Contacts a.question)
      (h : (Service.compile (m := Dialog) s r).Ends before result) :
      result.failureKind? = some .assetLoad ↔
        ∃ i timeout f, (⟨.run i timeout, Run.notStarted f⟩ : Answered) ∈ before := by
    refine iff_of_false (Service.compile_kind h) ?_
    rintro ⟨i, timeout, f, mem⟩
    exact contacts _ mem
  cases v with
  | toolchain t =>
    obtain ⟨a, there⟩ := Option.ne_none_iff_exists'.mp ready
    rw [compile_toolchain there] at h
    obtain ⟨_, _, run, rfl, ran, last⟩ := ends_bind.mp h
    obtain ⟨rfl, same⟩ := ends_pure.mp last
    cases same
    rw [List.append_nil, Dialog.ends_question.mp ran]
    refine (Toolchain.verdict_kind a _ run).trans ?_
    constructor
    · rintro ⟨f, rfl⟩
      exact ⟨_, _, f, List.mem_singleton.mpr rfl⟩
    · rintro ⟨i, timeout, f, mem⟩
      cases List.mem_singleton.mp mem
      exact ⟨f, rfl⟩
  | remote s =>
    obtain ⟨before, _, compiled, rfl, compiling, last⟩ := ends_bind.mp h
    obtain ⟨rfl, same⟩ := ends_pure.mp last
    cases same
    rw [List.append_nil]
    exact of_service ((Service.asks_compile s r).of_ends compiling) compiling
  | «local» s =>
    obtain ⟨before, _, compiled, rfl, compiling, last⟩ := ends_bind.mp h
    obtain ⟨rfl, same⟩ := ends_pure.mp last
    cases same
    rw [List.append_nil]
    exact of_service ((Service.asks_compile s r).of_ends compiling) compiling

end Serving

end LiveSound.Compile
