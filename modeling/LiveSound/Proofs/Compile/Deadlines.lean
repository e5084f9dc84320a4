import LiveSound.Proofs.Compile.Running

/-!
# The deadline follows the session

The deadline of a client is that of the last backend that was told, and the only backend that is
ever told is that of the session, so it changes once at most. Each compile tells the backend before
its reply, unless there was none when it looked. Then an attempt to find one had failed, which only
a toolchain without a fallback does, so a backend that is found later is the selected one and has
the deadline that the client has from the start (`Told`).
-/

namespace LiveSound.Compile

open Dialog (told ends_pure ends_bind ends_tell_bind)

/-- Some backend is told in these messages. -/
def Named (messages : List Message) : Prop := ∃ b, .backend b ∈ messages

theorem Named.mono {messages more : List Message} (h : Named messages) (sub : messages ⊆ more) :
    Named more := by
  obtain ⟨b, mem⟩ := h
  exact ⟨b, sub mem⟩

/-- The deadline is that of a backend that was told, or the first one if none was. -/
def Traffic.Timed (deadline : Nat) (s : Traffic) : Prop :=
  (∃ b, .backend b ∈ s.routed ∧ s.client.deadline = b.deadline) ∨
    (¬ Named s.routed ∧ s.client.deadline = deadline)

theorem Traffic.Timed.route {deadline : Nat} {s : Traffic} (h : Timed deadline s) (m : Message) :
    Timed deadline (s.route m) := by
  have kept (other : ∀ b, m ≠ .backend b) (same : (s.client.route m).1.deadline =
      s.client.deadline) : Timed deadline (s.route m) := by
    rcases h with ⟨b, mem, timed⟩ | ⟨unnamed, timed⟩
    · exact .inl ⟨b, List.mem_append_left _ mem, same.trans timed⟩
    · refine .inr ⟨?_, same.trans timed⟩
      rintro ⟨b, mem⟩
      rcases List.mem_append.mp mem with old | new
      · exact unnamed ⟨b, old⟩
      · exact other b (List.mem_singleton.mp new).symm
  cases m with
  | status text => exact kept nofun rfl
  | reply id r => exact kept nofun rfl
  | backend b => exact .inl ⟨b, List.mem_append_right _ (List.mem_singleton_self _), rfl⟩

theorem Traffic.timed_of_reachable {deadline : Nat} {s : Traffic} (h : Reachable deadline s) :
    Timed deadline s := by
  induction h with
  | refl =>
    refine .inr ⟨?_, rfl⟩
    rintro ⟨b, mem⟩
    cases mem
  | tail _ step ih =>
    cases step with
    | route m routing => exact ih.route m
    | _ => exact ih

def Phase.call? : Phase → Option Call
  | .waiting call | .expired call _ | .done _ (.late call _) => some call
  | _ => none

theorem Traffic.Step.call? {s s' : Traffic} {m : Option Message} (step : Step m s s') {k : Nat}
    {c : Caller} {call : Call} (caller : s'.callers[k]? = some c)
    (waits : c.phase.call? = some call) :
    call.deadline = s.client.deadline ∨
      ∃ c', s.callers[k]? = some c' ∧ c'.phase.call? = some call := by
  -- A step replaces at most the caller at `l`.
  have replaced {l : Nat} {d d' : Caller} (hl : s.callers[l]? = some d)
      (there : (s.callers.set l d')[k]? = some c)
      (own : d'.phase.call? = some call →
        call.deadline = s.client.deadline ∨ d.phase.call? = some call) :
      call.deadline = s.client.deadline ∨
        ∃ c', s.callers[k]? = some c' ∧ c'.phase.call? = some call := by
    rcases (Keyed.getElem?_set_eq_some hl).mp there with ⟨rfl, rfl⟩ | ⟨-, there⟩
    · exact (own waits).imp_right fun was => ⟨d, hl, was⟩
    · exact .inr ⟨c, there, waits⟩
  cases step with
  | start request =>
    rcases Keyed.getElem?_concat_eq_some.mp caller with old | ⟨-, rfl⟩
    · exact .inr ⟨c, old, waits⟩
    · cases waits
  | register was phase => exact replaced was caller fun own => by cases own
  | send was phase sending => exact replaced was caller fun own => by cases own
  | refuse was phase closed => exact replaced was caller fun own => by cases own
  | reject was phase => exact replaced was caller fun own => by cases own
  | wait was phase =>
    refine replaced was caller fun own => ?_
    cases own
    exact .inl rfl
  | answer was phase read => exact replaced was caller fun own => by cases own
  | drop was phase read => exact replaced was caller fun own => by cases own
  | expire was phase read late =>
    refine replaced was caller fun own => ?_
    rw [phase]
    exact .inr own
  | timeOut was phase =>
    refine replaced was caller fun own => ?_
    rw [phase]
    exact .inr own
  | route m routing => exact .inr ⟨c, caller, waits⟩
  | advance milliseconds => exact .inr ⟨c, caller, waits⟩
  | stopSending => exact .inr ⟨c, caller, waits⟩
  | stopRouting => exact .inr ⟨c, caller, waits⟩

namespace Running

variable {config : DispatcherConfig} {x x' x'' : Running} {v : Serving}

/-! ## The backend of the session -/

theorem settled_of_active? (h : Reachable config x) (active : x.active? = some v) :
    ∃ p, Shared.Settled config v x.shared p :=
  Shared.settled_of_active (reachable_shared h) active

theorem active?_of_steps (h : Reachable config x) (active : x.active? = some v)
    (steps : Steps x x') : x'.active? = some v := by
  obtain ⟨p, settled⟩ := settled_of_active? h active
  obtain ⟨more, settled'⟩ := settled.steps steps.shared
  rw [active?, settled'.dispatcher]

/-- An attempt to find a backend can fail. -/
def CanFail (config : DispatcherConfig) : Prop :=
  config.selected = .toolchain ∧ config.fallback? = none

theorem backend_of_canFail (h : Reachable config x) (active : x.active? = some v)
    (can : CanFail config) : v.backend = config.selected := by
  obtain ⟨p, settled⟩ := settled_of_active? h active
  rcases settled.found.of_ok.2 with same | ⟨-, fallback, -⟩
  · exact same
  · rw [can.2] at fallback
    cases fallback

/-- A compile that has its result and leaves the session without a backend has failed to find
one. -/
theorem canFail_of_ended (h : Reachable config x) (none : x.active? = none) {k : Nat} {u : Visit}
    (visit : x.shared.visits[k]? = some u) {v? : Option Serving} {r : Result}
    (stage : u.stage = .ended v? r) : CanFail config := by
  rcases Shared.era_of_reachable (reachable_shared h) with ⟨failed, seeking⟩ | ⟨v, p, settled⟩
  · rcases seeking.unserved visit with waiting | ⟨rest, choosing⟩ | ⟨result, ended⟩
    · cases stage.symm.trans waiting
    · cases stage.symm.trans choosing
    · obtain ⟨t, mem, -⟩ := (seeking.failures.ended k result).mp ⟨u, visit, ended⟩
      have failure := (seeking.failures.attempt t mem).of_error
      exact ⟨failure.1, failure.2.1⟩
  · rw [active?, settled.dispatcher] at none
    cases none

/-! ## What the worker tells -/

/-- Where a reply is, a backend was told before, unless there was none to tell. -/
def Heralded (config : DispatcherConfig) (messages : List Message) : Prop :=
  ∀ before, before <+: messages → (∃ id r, .reply id r ∈ before) → Named before ∨ CanFail config

theorem Heralded.concat {messages : List Message} (h : Heralded config messages) {m : Message}
    (new : (∃ id r, m = .reply id r) → Named messages ∨ CanFail config) :
    Heralded config (messages ++ [m]) := by
  intro before within reply
  rcases List.prefix_concat_iff.mp within with rfl | within
  · obtain ⟨id, r, mem⟩ := reply
    have named : Named messages ∨ CanFail config := by
      rcases List.mem_append.mp mem with old | last
      · exact h messages (List.prefix_refl _) ⟨id, r, old⟩
      · exact new ⟨id, r, (List.mem_singleton.mp last).symm⟩
    exact named.imp_left fun named => named.mono (List.subset_append_left _ _)
  · exact h before within reply

/-- What a job has left to send is nothing, its reply, or the backend and its reply. -/
def Remaining (config : DispatcherConfig) (x : Running) (j : Job) : Prop :=
  ∀ r rest, j.progress = .telling r rest → rest = [] ∨
    (rest = [.reply j.id r] ∧ (Named x.spawned.outbox ∨ CanFail config)) ∨
    ∃ v, rest = [.backend v.backend, .reply j.id r] ∧ x.active? = some v

structure Told (config : DispatcherConfig) (x : Running) : Prop where
  backend : ∀ b, .backend b ∈ x.spawned.outbox → ∃ v, x.active? = some v ∧ v.backend = b
  remaining : ∀ j ∈ x.spawned.jobs, Remaining config x j
  heralded : Heralded config x.spawned.outbox

namespace Told

theorem start (config : DispatcherConfig) : Told config (.start config) where
  backend b mem := by cases mem
  remaining j hj := by cases hj
  heralded before within reply := by
    obtain ⟨id, r, mem⟩ := reply
    rw [List.prefix_nil.mp within] at mem
    cases mem

/-- The worker sends a message, and its jobs are the old ones but for one. -/
theorem sends (h : Told config x) {m : Message}
    (spawned : x'.spawned.outbox = x.spawned.outbox ++ [m])
    (same : x'.active? = x.active?) (named : ∀ b, m = .backend b → ∃ v, x.active? = some v ∧
      v.backend = b)
    (reply : (∃ id r, m = .reply id r) → Named x.spawned.outbox ∨ CanFail config)
    (jobs : ∀ j ∈ x'.spawned.jobs, j ∈ x.spawned.jobs ∨ Remaining config x' j) :
    Told config x' := by
  constructor
  case backend =>
    intro b mem
    rw [spawned] at mem
    rw [same]
    rcases List.mem_append.mp mem with old | new
    · exact h.backend b old
    · exact named b (List.mem_singleton.mp new).symm
  case remaining =>
    intro j hj
    rcases jobs j hj with old | new
    · intro r rest progress
      rcases h.remaining j old r rest progress with none | ⟨reply, told⟩ | ⟨v, both, active⟩
      · exact .inl none
      · refine .inr (.inl ⟨reply, told.imp_left fun named => named.mono ?_⟩)
        rw [spawned]
        exact List.subset_append_left _ _
      · exact .inr (.inr ⟨v, both, same.trans active⟩)
    · exact new
  case heralded =>
    rw [spawned]
    exact h.heralded.concat reply

theorem quiet (h : Told config x) (outbox : x'.spawned.outbox = x.spawned.outbox)
    (active : ∀ v, x.active? = some v → x'.active? = some v)
    (jobs : ∀ j ∈ x'.spawned.jobs, j ∈ x.spawned.jobs ∨ Remaining config x' j) :
    Told config x' := by
  constructor
  case backend =>
    intro b mem
    rw [outbox] at mem
    obtain ⟨v, was, same⟩ := h.backend b mem
    exact ⟨v, active v was, same⟩
  case remaining =>
    intro j hj
    rcases jobs j hj with old | new
    · intro r rest progress
      rw [outbox]
      refine (h.remaining j old r rest progress).imp_right (.imp_right ?_)
      rintro ⟨v, both, was⟩
      exact ⟨v, both, active v was⟩
    · exact new
  case heralded =>
    rw [outbox]
    exact h.heralded

theorem step (h : Told config x) (reached : Reachable config x) (step : Step x x') :
    Told config x' := by
  have later {v : Serving} (active : x.active? = some v) : x'.active? = some v :=
    active?_of_steps reached active step.steps
  cases step with
  | call step => exact h.quiet rfl (fun _ => id) fun j hj => .inl hj
  | deliver next step => exact h.quiet rfl (fun _ => id) fun j hj => .inl hj
  | dispatch step inside => exact h.quiet rfl (fun _ => later) fun j hj => .inl hj
  | receive next =>
    refine h.quiet rfl (fun _ => id) fun j hj => ?_
    rcases List.mem_append.mp hj with old | new
    · exact .inl old
    · rw [List.mem_singleton.mp new]
      exact .inr fun r rest telling => by cases telling
  | report text =>
    exact h.sends rfl rfl (by simp) (by rintro ⟨id, r, same⟩; cases same) fun j hj => .inl hj
  | @look k j u v? r job progress visit stage free =>
    refine h.quiet rfl (fun _ => id) fun i hi => (List.mem_or_eq_of_mem_set hi).imp_right ?_
    rintro rfl r' rest telling
    cases telling
    cases active : x.active? with
    | none =>
      have silent : x.shared.dispatcher.activeBackend? = none := by
        rw [Dispatcher.activeBackend?, show x.shared.dispatcher.active = none from active]
        rfl
      refine .inr (.inl ⟨?_, .inr (canFail_of_ended reached active visit stage)⟩)
      rw [Session.messages, silent]
      rfl
    | some v =>
      have named : x.shared.dispatcher.activeBackend? = some v.backend := by
        rw [Dispatcher.activeBackend?, show x.shared.dispatcher.active = some v from active]
        rfl
      refine .inr (.inr ⟨v, ?_, active⟩)
      rw [Session.messages, named]
      rfl
  | @tell k j r m rest job progress =>
    have mem := List.mem_of_getElem? job
    have others {i : Job} (hi : i ∈ (x.tell k j r m rest).spawned.jobs) :
        i ∈ x.spawned.jobs ∨ i = { j with progress := .telling r rest } :=
      List.mem_or_eq_of_mem_set hi
    rcases h.remaining j mem r (m :: rest) progress with none | ⟨reply, told⟩ | ⟨v, both, active⟩
    · cases none
    · -- The reply is the last message.
      cases reply
      refine h.sends rfl rfl (by simp) (fun _ => told) fun i hi => (others hi).imp_right ?_
      rintro rfl r' rest telling
      cases telling
      exact .inl rfl
    · -- The backend is told, and then comes the reply.
      cases both
      refine h.sends rfl rfl ?_ (by rintro ⟨id, r, same⟩; cases same) fun i hi =>
        (others hi).imp_right ?_
      · rintro b same
        cases same
        exact ⟨v, active, rfl⟩
      · rintro rfl r' rest telling
        cases telling
        exact .inr (.inl ⟨rfl, .inl ⟨v.backend, List.mem_append_right _
          (List.mem_singleton_self _)⟩⟩)

theorem of_reachable (h : Reachable config x) : Told config x := by
  induction h with
  | refl => exact start config
  | tail before step ih => exact ih.step before step

end Told

/-! ## The deadline -/

/-- The deadline is that of the session once the backend was told, and the first one before. -/
theorem deadline_cases (h : Reachable config x) :
    (Named x.traffic.routed ∧ ∃ v, x.active? = some v ∧ x.deadline = v.backend.deadline) ∨
      (¬ Named x.traffic.routed ∧ x.deadline = config.selected.deadline) := by
  have run := Spawned.reachable_traffic (reachable_spawned h)
  refine (Traffic.timed_of_reachable run).imp_left ?_
  rintro ⟨b, mem, timed⟩
  obtain ⟨v, active, rfl⟩ := (Told.of_reachable h).backend b ((routed_grows h).subset mem)
  exact ⟨⟨_, mem⟩, v, active, timed⟩

theorem deadline_stays (h : Reachable config x) (named : Named x.traffic.routed)
    (steps : Steps x x') : x'.deadline = x.deadline := by
  have h' : Reachable config x' := h.trans steps
  have named' : Named x'.traffic.routed := named.mono steps.traffic.routed_grows.subset
  rcases deadline_cases h with ⟨-, v, active, timed⟩ | ⟨unnamed, -⟩
  · rcases deadline_cases h' with ⟨-, v', active', timed'⟩ | ⟨unnamed, -⟩
    · cases (active?_of_steps h active steps).symm.trans active'
      rw [timed, timed']
    · exact absurd named' unnamed
  · exact absurd named unnamed

/-- A client that has routed some reply has the deadline of the session. -/
theorem deadline_of_reply (h : Reachable config x) (active : x.active? = some v) {id : Nat}
    {r : Result} (reply : .reply id r ∈ x.traffic.routed) : x.deadline = v.backend.deadline := by
  rcases deadline_cases h with ⟨-, v', active', timed⟩ | ⟨unnamed, timed⟩
  · cases active.symm.trans active'
    exact timed
  · have can := ((Told.of_reachable h).heralded _ (routed_grows h) ⟨id, r, reply⟩).resolve_left
      unnamed
    rw [timed, backend_of_canFail h active can]

theorem waits_of_reply (h : Reachable config x) (active : x.active? = some v) {id : Nat}
    {r : Result} (reply : .reply id r ∈ x.traffic.routed) (steps : Steps x x') {k : Nat}
    {c : Caller} {call : Call} (caller : x'.traffic.callers[k]? = some c)
    (waits : c.phase.call? = some call) :
    call.deadline = v.backend.deadline ∨
      ∃ c', x.traffic.callers[k]? = some c' ∧ c'.phase.call? = some call := by
  induction steps generalizing c with
  | refl => exact .inr ⟨c, caller, waits⟩
  | @tail y y' before step ih =>
    have begun {m : Option Message} {s : Traffic} (step : Traffic.Step m y.traffic s)
        (there : s.callers[k]? = some c) : call.deadline = v.backend.deadline ∨
          ∃ c', x.traffic.callers[k]? = some c' ∧ c'.phase.call? = some call := by
      rcases step.call? there waits with now | ⟨c', was, waited⟩
      · refine .inl (now.trans ?_)
        exact deadline_of_reply (h.trans before) (active?_of_steps h active before)
          (before.traffic.routed_grows.subset reply)
      · exact ih was waited
    cases step with
    | call step => exact begun step caller
    | deliver next step => exact begun step caller
    | _ => exact ih caller waits

/-- However many calls are made and whatever the dispatcher is answered: the deadline is that of the
selected backend or that of the session's. It changes once at most, from the former to the latter.
When a call has come back with a reply and the session has a backend, the deadline is that of this
backend for good, and a call waits with another one only if it waited already. -/
theorem deadline_follows_the_session (reached : Reachable config x) :
    (x.deadline = config.selected.deadline ∨
      ∃ v, x.active? = some v ∧ x.deadline = v.backend.deadline) ∧
    (∀ x', Steps x x' → x'.deadline ≠ x.deadline →
      x.deadline = config.selected.deadline ∧
      (∃ v, x'.active? = some v ∧ x'.deadline = v.backend.deadline) ∧
      ∀ x'', Steps x' x'' → x''.deadline = x'.deadline) ∧
    ∀ c ∈ x.traffic.callers, ∀ r heard, c.phase = .done r (.answered heard) →
      ∀ v, x.active? = some v → ∀ x', Steps x x' →
        x'.active? = some v ∧ x'.deadline = v.backend.deadline ∧
        ∀ (k : Nat) (c' : Caller) (call : Call), x'.traffic.callers[k]? = some c' →
          c'.phase.call? = some call → call.deadline = v.backend.deadline ∨
            ∃ c'', x.traffic.callers[k]? = some c'' ∧ c''.phase.call? = some call := by
  refine ⟨?_, fun x' steps changed => ?_, fun c hc r heard answered v active x' steps => ?_⟩
  · exact (deadline_cases reached).symm.imp And.right And.right
  · rcases deadline_cases reached with ⟨named, -⟩ | ⟨-, timed⟩
    · exact absurd (deadline_stays reached named steps) changed
    · have reached' : Reachable config x' := reached.trans steps
      rcases deadline_cases reached' with ⟨named, found⟩ | ⟨-, timed'⟩
      · exact ⟨timed, found, fun x'' later => deadline_stays reached' named later⟩
      · exact absurd (timed'.trans timed.symm) changed
  · have reply := reply_mem_routed reached hc answered
    have active' := active?_of_steps reached active steps
    refine ⟨active', ?_, fun k c' call caller waits =>
      waits_of_reply reached active reply steps caller waits⟩
    exact deadline_of_reply (reached.trans steps) active' (steps.traffic.routed_grows.subset reply)

/-- A session that falls back to the development server, which cannot be reached. The first call
comes back, and the second one waits with the deadline of the server. -/
theorem second_call_waits_for_the_fallback :
    (start Shared.unconfigured).deadline = Backend.toolchain.deadline ∧
    ∃ x x', Reachable Shared.unconfigured x ∧ x.deadline = Backend.local.deadline ∧ Steps x x' ∧
      ∃ c ∈ x'.traffic.callers, ∃ call, c.phase.call? = some call ∧
        call.deadline = Backend.local.deadline := by
  let r : Request := ⟨"", .default⟩
  let v : Serving := .local Shared.unconfigured.localSettings
  have found : (Dispatcher.establish Dialog.tell ⟨Shared.unconfigured, none⟩).Ends
      [told (beginLine Shared.unconfigured),
        told (fallbackLine (.plain .assetLoad "toolchain CDN URL not configured") .local),
        told readyLine] (⟨Shared.unconfigured, some v⟩, .ok v) := .ask (.ask (.ask (.refl _)))
  obtain ⟨answers, ⟨v', result⟩, compiling⟩ := Dialog.exists_ends (v.compile (m := Dialog) r)
  obtain rfl : v' = v := Serving.eq_of_compile trivial compiling
  have compiled : (Dispatcher.compile Dialog.tell (.ofConfig Shared.unconfigured) r).Ends _
      (⟨Shared.unconfigured, some v⟩, result) :=
    ends_bind.mpr ⟨_, _, _, rfl, found, ends_tell_bind.mpr ⟨_, rfl,
      ends_bind.mpr ⟨_, _, _, rfl, compiling, ends_pure.mpr ⟨rfl, rfl⟩⟩⟩⟩
  have first :
      (Session.compile (m := Dialog) Dialog.tell (.start Shared.unconfigured) r).Ends _ _ :=
    ends_bind.mpr ⟨_, _, _, rfl, compiled, ends_pure.mpr ⟨rfl, rfl⟩⟩
  have started : Reachable Shared.unconfigured (start Shared.unconfigured) := .refl
  obtain ⟨x, reached, resting, same, c, heard, callers, -, answered⟩ :=
    compile_steps started (resting_start _) first
  have deadline : x.deadline = Backend.local.deadline :=
    (congrArg (fun s : Session => s.client.deadline) same).symm
  have active : x.active? = some v :=
    (congrArg (fun s : Session => s.dispatcher.active) same).symm
  -- The second call begins.
  obtain ⟨s, begun, routed, client, c', callers', -, -, -, more⟩ :=
    Traffic.compile_steps x.traffic r
  have accepted : x.traffic.client.compile.2.2 = none := by
    simp [Client.compile, resting.sending]
  rw [accepted] at more
  obtain ⟨-, call, waiting, -⟩ := more
  have steps := call_steps begun routed
  have there : (x.setTraffic s).traffic.callers[x.traffic.callers.length]? = some c' := by
    show s.callers[_]? = _
    rw [callers', List.getElem?_concat_length]
  have waits : c'.phase.call? = some call := by
    rw [waiting]
    rfl
  have follows := ((deadline_follows_the_session reached).2.2 c
    (by rw [callers]; exact List.mem_append_right _ (List.mem_singleton_self c)) result heard
    answered v active _ steps).2.2 _ c' call there waits
  refine ⟨rfl, x, _, reached, deadline, steps, c', List.mem_of_getElem? there, call, waits, ?_⟩
  refine follows.resolve_right ?_
  rintro ⟨c'', was, -⟩
  exact absurd (List.getElem?_eq_some_iff.mp was).1 (Nat.lt_irrefl _)

end Running

end LiveSound.Compile
