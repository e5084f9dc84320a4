import LiveSound.Compile.Dispatcher
import LiveSound.Proofs.World.Dialog

/-!
# Attempts to find a backend

What a dispatcher asks its host until it has a backend, whatever it is answered. `Attempt` says how
such an attempt goes: the selected backend is made ready, and if that is a toolchain and it fails,
the session goes to the fallback. Services are ready from the start, so an attempt fails only when a
toolchain fails that has no fallback (`Attempt.of_error`). `establish_ends` says that this is what
`Dispatcher.establish` does.
-/

namespace LiveSound.Compile

open Dialog (Asks asks_pure asks_question asks_run_bind asks_attempt asks_inquire asks_fetch told
  ends_pure ends_bind ends_tell_bind)

/-! ## Fetching a toolchain -/

/-- What is asked while a toolchain is made ready: its assets are downloaded, and all else is about
files. -/
def ToolchainSettings.Fetches (s : ToolchainSettings) : Question → Prop
  | .exchange r _ => r.method = .get ∧ ∃ name, Net.Url.parse (s.assetUrl name) = .ok r.url
  | .tell _ | .run _ _ => False
  | _ => True

namespace Toolchain

variable {s : ToolchainSettings}

theorem asks_download (name destination : String) :
    Asks s.Fetches (download (m := Dialog) (s.assetUrl name) destination).run := by
  unfold download
  refine asks_run_bind (asks_attempt (asks_fetch fun u parsed => ⟨rfl, name, parsed⟩) _)
    fun reply => ?_
  refine asks_run_bind (asks_pure _) fun bytes => ?_
  exact asks_run_bind (asks_attempt (asks_question trivial) _) fun _ =>
    asks_attempt (asks_question trivial) _

theorem asks_ensureProgram (path : String) :
    Asks s.Fetches (ensureProgram (m := Dialog) s path).run := by
  unfold ensureProgram
  refine asks_run_bind (asks_inquire (asks_question trivial)) fun there => ?_
  split
  · exact asks_pure _
  · split
    · exact asks_pure _
    · exact asks_run_bind (asks_download _ _) fun _ => asks_attempt (asks_question trivial) _

theorem asks_unpackSysroot (archive target : String) :
    Asks s.Fetches (unpackSysroot (m := Dialog) archive target).run := by
  unfold unpackSysroot
  refine asks_run_bind (asks_attempt (asks_question trivial) _) fun bytes => ?_
  refine asks_run_bind (asks_inquire (asks_question trivial)) fun there => ?_
  cases there
  case' true =>
    -- What is in the way is removed first.
    refine asks_run_bind (asks_attempt (asks_question trivial) _) fun _ => ?_
  all_goals
    refine asks_run_bind (asks_attempt (asks_question trivial) _) fun _ => ?_
    refine asks_run_bind (asks_inquire (asks_question trivial)) fun unpacked => ?_
    split
    · exact asks_attempt (asks_question trivial) _
    · exact asks_pure _

theorem asks_ensureSysroot (path : String) :
    Asks s.Fetches (ensureSysroot (m := Dialog) s path).run := by
  unfold ensureSysroot
  refine asks_run_bind (asks_inquire (asks_question trivial)) fun there => ?_
  split
  · exact asks_pure _
  · refine asks_run_bind (asks_inquire (asks_question trivial)) fun downloaded => ?_
    split
    · exact asks_run_bind (asks_download _ _) fun _ => asks_unpackSysroot _ _
    · exact asks_unpackSysroot _ _

theorem asks_fetchAssets : Asks s.Fetches (fetchAssets (m := Dialog) s).run := by
  unfold fetchAssets
  split
  · exact asks_pure _
  · refine asks_run_bind (asks_attempt (asks_question trivial) _) fun _ => ?_
    refine asks_run_bind (asks_ensureProgram _) fun _ => ?_
    refine asks_run_bind (asks_ensureProgram _) fun _ => ?_
    exact asks_run_bind (asks_ensureSysroot _) fun _ => asks_pure _

theorem asks_prepare (t : Toolchain) : Asks t.settings.Fetches (t.prepare (m := Dialog)) := by
  unfold prepare
  split
  · exact asks_pure _
  · refine asks_fetchAssets.bind fun r => ?_
    cases r <;> exact asks_pure _

theorem prepare_ends_ok {t t' : Toolchain} {asked : List Answered} {a : Assets}
    (h : (t.prepare (m := Dialog)).Ends asked (t', .ok a)) : t'.assets = some a := by
  unfold prepare at h
  split at h
  · rename_i there
    obtain ⟨-, same⟩ := ends_pure.mp h
    cases same
    exact there
  · obtain ⟨before, after, r, -, -, last⟩ := ends_bind.mp h
    cases r with
    | ok fetched =>
      obtain ⟨-, same⟩ := ends_pure.mp last
      cases same
      rfl
    | error message =>
      obtain ⟨-, same⟩ := ends_pure.mp last
      cases same

end Toolchain

/-! ## Making a backend ready -/

namespace Serving

def Fetches : Serving → Question → Prop
  | .toolchain t, q => t.settings.Fetches q
  | _, _ => False

def Ready : Serving → Prop
  | .toolchain t => t.assets ≠ none
  | _ => True

theorem asks_prepare (v : Serving) : Asks v.Fetches (v.prepare (m := Dialog)) := by
  unfold prepare
  split
  · rename_i t
    exact (Toolchain.asks_prepare t).bind fun r => asks_pure _
  · exact asks_pure _

/-- No program runs while it is made ready. -/
theorem not_fetches_run (v : Serving) (i : Invocation) (timeout : Nat) :
    ¬ v.Fetches (.run i timeout) := by
  cases v <;> exact not_false

theorem prepare_service {c : DispatcherConfig} {b : Backend} (h : b ≠ .toolchain)
    {asked : List Answered} {r : Except Failure Serving} :
    ((ofBackend c b).prepare (m := Dialog)).Ends asked r ↔
      asked = [] ∧ r = .ok (ofBackend c b) := by
  cases b with
  | toolchain => exact absurd rfl h
  | remote => exact Dialog.ends_pure
  | «local» => exact Dialog.ends_pure

theorem prepare_toolchain {t : Toolchain} {asked : List Answered} {v : Serving}
    (h : ((Serving.toolchain t).prepare (m := Dialog)).Ends asked (.ok v)) :
    v.backend = .toolchain ∧ v.Ready := by
  unfold prepare at h
  obtain ⟨before, after, ⟨t', ready⟩, -, first, last⟩ := ends_bind.mp h
  obtain ⟨-, same⟩ := ends_pure.mp last
  cases ready with
  | error failure => cases same
  | ok a =>
    cases same
    refine ⟨rfl, ?_⟩
    rw [Ready, Toolchain.prepare_ends_ok first]
    exact Option.some_ne_none a

theorem prepare_ready {c : DispatcherConfig} {b : Backend} {asked : List Answered} {v : Serving}
    (h : ((ofBackend c b).prepare (m := Dialog)).Ends asked (.ok v)) : v.backend = b ∧ v.Ready := by
  by_cases service : b = .toolchain
  · subst service
    exact prepare_toolchain h
  · obtain ⟨-, same⟩ := (prepare_service service).mp h
    cases same
    cases b with
    | toolchain => exact absurd rfl service
    | remote => exact ⟨rfl, trivial⟩
    | «local» => exact ⟨rfl, trivial⟩

end Serving

/-! ## Attempts -/

def beginLine (c : DispatcherConfig) : String :=
  s!"Initializing compiler (mode: {c.selected.name})..."

def fallbackLine (failure : Failure) (b : Backend) : String :=
  s!"Toolchain unavailable ({failure.error}), falling back to {b.name}"

def readyLine : String := "Compiler ready!"

def unavailable (failure : Failure) : Failure :=
  .plain .assetLoad s!"toolchain unavailable: {failure.error}"

/-- How a backend is chosen: the questions and answers, and what comes of it. -/
inductive Choice (c : DispatcherConfig) : List Answered → Except Failure Serving → Prop where
  | ready {asked : List Answered} {v : Serving} :
      ((Serving.ofBackend c c.selected).prepare (m := Dialog)).Ends asked (.ok v) →
      Choice c (told (beginLine c) :: asked) (.ok v)
  | fallen {asked : List Answered} {failure : Failure} {b : Backend} : c.selected = .toolchain →
      ((Serving.ofBackend c .toolchain).prepare (m := Dialog)).Ends asked (.error failure) →
      c.fallback? = some b →
      Choice c (told (beginLine c) :: (asked ++ [told (fallbackLine failure b)]))
        (.ok (Serving.ofBackend c b))
  | failed {asked : List Answered} {failure : Failure} : c.selected = .toolchain →
      ((Serving.ofBackend c .toolchain).prepare (m := Dialog)).Ends asked (.error failure) →
      c.fallback? = none → Choice c (told (beginLine c) :: asked) (.error (unavailable failure))

/-- How an attempt to find a backend goes. -/
inductive Attempt (c : DispatcherConfig) : List Answered → Except Failure Serving → Prop where
  | found {asked : List Answered} {v : Serving} : Choice c asked (.ok v) →
      Attempt c (asked ++ [told readyLine]) (.ok v)
  | failed {asked : List Answered} {failure : Failure} : Choice c asked (.error failure) →
      Attempt c asked (.error failure)

theorem ne_toolchain_of_fallback {c : DispatcherConfig} {b : Backend} (h : c.fallback? = some b) :
    b ≠ .toolchain := by
  rintro rfl
  unfold DispatcherConfig.fallback? Backend.fallback? at h
  split at h
  · cases h
  · split at h <;> cases h

theorem choose_ends {c : DispatcherConfig} {asked : List Answered} {r : Except Failure Serving}
    (h : (Dispatcher.choose Dialog.tell c).Ends asked r) : Choice c asked r := by
  obtain ⟨rest, rfl, going⟩ := ends_tell_bind.mp h
  obtain ⟨asked, after, prepared, rfl, preparing, last⟩ := ends_bind.mp going
  cases prepared with
  | ok v =>
    obtain ⟨rfl, rfl⟩ := ends_pure.mp last
    rw [List.append_nil]
    exact .ready preparing
  | error failure =>
    -- Only the toolchain can fail to get ready.
    have selected : c.selected = .toolchain := Decidable.byContradiction fun service => by
      cases ((Serving.prepare_service service).mp preparing).2
    rw [selected] at preparing
    simp only [selected, ne_eq, not_true_eq_false, if_false] at last
    cases fallback : c.fallback? with
    | none =>
      rw [fallback] at last
      obtain ⟨rfl, rfl⟩ := ends_pure.mp last
      rw [List.append_nil]
      exact .failed selected preparing fallback
    | some b =>
      rw [fallback] at last
      obtain ⟨rest, rfl, ending⟩ := ends_tell_bind.mp last
      obtain ⟨rfl, rfl⟩ := (Serving.prepare_service (ne_toolchain_of_fallback fallback)).mp ending
      exact .fallen selected preparing fallback

theorem establish_ends {c : DispatcherConfig} {asked : List Answered} {d : Dispatcher}
    {r : Except Failure Serving}
    (h : (Dispatcher.establish Dialog.tell ⟨c, none⟩).Ends asked (d, r)) :
    Attempt c asked r ∧ d = ⟨c, r.toOption⟩ := by
  obtain ⟨chosen, after, r', rfl, choosing, last⟩ := ends_bind.mp h
  cases r' with
  | error failure =>
    obtain ⟨rfl, same⟩ := ends_pure.mp last
    cases same
    rw [List.append_nil]
    exact ⟨.failed (choose_ends choosing), rfl⟩
  | ok v =>
    obtain ⟨rest, rfl, ending⟩ := ends_tell_bind.mp last
    obtain ⟨rfl, same⟩ := ends_pure.mp ending
    cases same
    exact ⟨.found (choose_ends choosing), rfl⟩

theorem lines_prepare {v : Serving} {asked : List Answered} {r : Except Failure Serving}
    (h : (v.prepare (m := Dialog)).Ends asked r) : linesOf asked = [] := by
  refine linesOf_eq_nil fun a mem line told => ?_
  have fetches := v.asks_prepare.of_ends h a mem
  rw [told] at fetches
  cases v <;> exact fetches

theorem linesOf_told (line : String) (asked : List Answered) :
    linesOf (told line :: asked) = line :: linesOf asked := rfl

/-- What is known of a backend that was found: it is the selected one, or the fallback of a
toolchain that could not be made ready. -/
theorem Attempt.of_ok {c : DispatcherConfig} {asked : List Answered} {v : Serving}
    (h : Attempt c asked (.ok v)) : v.Ready ∧
      (v.backend = c.selected ∨
        (c.selected = .toolchain ∧ c.fallback? = some v.backend ∧
          ∃ failure preparing, preparing <:+: asked ∧
            ((Serving.ofBackend c .toolchain).prepare (m := Dialog)).Ends preparing
              (.error failure))) := by
  cases h with
  | found choice =>
    cases choice with
    | ready prepared =>
      obtain ⟨same, ready⟩ := Serving.prepare_ready prepared
      exact ⟨ready, .inl same⟩
    | @fallen preparing failure b selected prepared fallback =>
      have service := ne_toolchain_of_fallback fallback
      have same : (Serving.ofBackend c b).backend = b := by cases b <;> rfl
      have ready : (Serving.ofBackend c b).Ready := by
        cases b with
        | toolchain => exact absurd rfl service
        | remote => trivial
        | «local» => trivial
      refine ⟨ready, .inr ⟨selected, by rw [same, fallback], failure, preparing, ?_, prepared⟩⟩
      exact ⟨[told (beginLine c)], [told (fallbackLine failure b), told readyLine], by simp⟩

/-- Nothing is found only by a toolchain that has no fallback. -/
theorem Attempt.of_error {c : DispatcherConfig} {asked : List Answered} {failure : Failure}
    (h : Attempt c asked (.error failure)) :
    c.selected = .toolchain ∧ c.fallback? = none ∧ linesOf asked = [beginLine c] := by
  cases h with
  | failed choice =>
    cases choice with
    | failed selected prepared fallback =>
      refine ⟨selected, fallback, ?_⟩
      rw [linesOf_told, lines_prepare prepared]

/-- An attempt tells its lines, and asks what the selected backend has to ask. -/
theorem Attempt.asks {c : DispatcherConfig} {asked : List Answered} {r : Except Failure Serving}
    (h : Attempt c asked r) : ∀ a ∈ asked, (∃ line, a = told line) ∨
      (Serving.ofBackend c c.selected).Fetches a.question := by
  have of_prepare {asked : List Answered} {r : Except Failure Serving} {b : Backend}
      (selected : c.selected = b)
      (ends : ((Serving.ofBackend c b).prepare (m := Dialog)).Ends asked r) :
      ∀ a ∈ asked, (Serving.ofBackend c c.selected).Fetches a.question :=
    selected ▸ (Serving.asks_prepare _).of_ends ends
  have of_choice {asked : List Answered} {r : Except Failure Serving} (h : Choice c asked r) :
      ∀ a ∈ asked, (∃ line, a = told line) ∨
        (Serving.ofBackend c c.selected).Fetches a.question := by
    intro a mem
    cases h with
    | ready ends =>
      exact (List.mem_cons.mp mem).imp (fun same => ⟨_, same⟩) (of_prepare rfl ends a)
    | fallen selected ends _ =>
      rcases List.mem_cons.mp mem with same | mem
      · exact .inl ⟨_, same⟩
      · exact (List.mem_append.mp mem).symm.imp (fun mem => ⟨_, List.mem_singleton.mp mem⟩)
          (of_prepare selected ends a)
    | failed selected ends _ =>
      exact (List.mem_cons.mp mem).imp (fun same => ⟨_, same⟩) (of_prepare selected ends a)
  cases h with
  | found choice =>
    intro a mem
    rcases List.mem_append.mp mem with mem | mem
    · exact of_choice choice a mem
    · exact .inl ⟨_, List.mem_singleton.mp mem⟩
  | failed choice => exact of_choice choice

/-- What an attempt tells: that it begins, then a fallback if there is one, then that it found a
backend. -/
def IsCourse (c : DispatcherConfig) (lines : List String) : Prop :=
  ∃ fallback ready, lines = beginLine c :: (fallback ++ ready) ∧
    (fallback = [] ∨ ∃ failure b, c.fallback? = some b ∧ fallback = [fallbackLine failure b]) ∧
    (ready = [] ∨ ready = [readyLine])

theorem Attempt.course_of_ok {c : DispatcherConfig} {asked : List Answered} {v : Serving}
    (h : Attempt c asked (.ok v)) :
    ∃ fallback, linesOf asked = beginLine c :: (fallback ++ [readyLine]) ∧
      (fallback = [] ∨ ∃ failure b, c.fallback? = some b ∧
        fallback = [fallbackLine failure b]) := by
  cases h with
  | found choice =>
    rw [linesOf_append]
    cases choice with
    | ready prepared =>
      refine ⟨[], ?_, .inl rfl⟩
      rw [linesOf_told, lines_prepare prepared]
      rfl
    | @fallen preparing failure b selected prepared fallback =>
      refine ⟨[fallbackLine failure b], ?_, .inr ⟨failure, b, fallback, rfl⟩⟩
      rw [linesOf_told, linesOf_append, lines_prepare prepared]
      rfl

theorem Attempt.course {c : DispatcherConfig} {asked : List Answered} {r : Except Failure Serving}
    (h : Attempt c asked r) : IsCourse c (linesOf asked) := by
  cases r with
  | error failure => exact ⟨[], [], h.of_error.2.2, .inl rfl, .inl rfl⟩
  | ok v =>
    obtain ⟨fallback, lines, kind⟩ := h.course_of_ok
    exact ⟨fallback, [readyLine], lines, kind, .inr rfl⟩

theorem beginLine_ne (c : DispatcherConfig) : beginLine c ≠ readyLine := by
  unfold beginLine
  cases c.selected <;> decide

theorem fallbackLine_ne (failure : Failure) (b : Backend) : fallbackLine failure b ≠ readyLine := by
  have first : (fallbackLine failure b).toList.head? = some 'T' := by
    have text : fallbackLine failure b =
      "Toolchain unavailable (" ++ failure.error ++ "), falling back to " ++ b.name := rfl
    rw [text, String.append_assoc, String.append_assoc, String.toList_append, List.head?_append]
    rfl
  intro same
  rw [same] at first
  exact absurd first (by decide)

end LiveSound.Compile
