import LiveSound.Proofs.Compile.Sticking
import LiveSound.Proofs.Compile.Worker

/-!
# Clients, their worker and its dispatcher

The compiles of a worker share one dispatcher. A request that is received comes in as a call of the
dispatcher, the one of the same number, and when that call has its result the worker looks which
backend serves the session and tells what `Session.messages` says. Between the result and the look,
and between the look and each message, any other compile may go on; only a call that looks for a
backend keeps the others from looking at it.

`Running` puts together what the client and the worker do (`Spawned`) and what the dispatcher does
(`Shared`).
-/

namespace LiveSound.Compile

theorem Traffic.Steps.routed_grows {s s' : Traffic} (h : Steps s s') : s.routed <+: s'.routed := by
  induction h with
  | refl => exact List.prefix_refl _
  | tail _ step ih =>
    rw [(Spawned.sent_of_step step).2]
    exact ih.trans (List.prefix_append _ _)

theorem Traffic.Exact.read_of_heard {s : Traffic} (h : Exact s) {c : Caller}
    (hc : c ∈ s.callers) {call : Call} (waiting : c.phase = .waiting call) {r : Result}
    (heard : c.heard s.routed = [r]) :
    call.id = c.id ∧ ∃ p, s.pending.read call.ticket = (p, .result r) := by
  have tracks := h.tracks c hc
  have own := h.sound c hc
  simp only [Tracks, waiting, Phase.ticket?, heard] at tracks
  simp only [Sound, waiting] at own
  exact ⟨own, _, Pending.read_of_answered tracks.2⟩

/-- What a worker tells after the call has begun holds one reply to it. -/
theorem Caller.heard_messages (c : Caller) {routed : List Message} (since : c.since = routed.length)
    (d : Dispatcher) (result : Result) :
    c.heard (routed ++ Session.messages d c.id result) = [result] := by
  have unheard : c.heard routed = [] := by
    rw [Caller.heard, since, List.drop_length]
    rfl
  rw [Caller.heard_append c (Nat.le_of_eq since), unheard, List.nil_append]
  exact Spawned.Working.repliesTo_messages d c.id result

theorem Shared.Step.length_le {s s' : Shared} (h : Step s s') :
    s.visits.length ≤ s'.visits.length := by
  cases h <;> simp [Shared.receive, Shared.goes, Shared.take, Shared.hears, Shared.give,
    Shared.keep]

theorem Shared.Steps.length_le {s s' : Shared} (h : Steps s s') :
    s.visits.length ≤ s'.visits.length := by
  induction h with
  | refl => exact Nat.le_refl _
  | tail _ step ih => exact Nat.le_trans ih step.length_le

structure Running where
  spawned : Spawned
  shared : Shared

namespace Running

def start (config : DispatcherConfig) : Running := ⟨.start config, .start config⟩

def traffic (x : Running) : Traffic := x.spawned.traffic

/-- The deadline that a call which starts to wait now has. -/
def deadline (x : Running) : Nat := x.traffic.client.deadline

/-- The backend of the session. -/
def active? (x : Running) : Option Serving := x.shared.dispatcher.active

def setTraffic (x : Running) (s : Traffic) : Running :=
  { x with spawned := { x.spawned with traffic := s } }

/-- A request is received, and comes in as a call of the dispatcher. -/
def receive (x : Running) (q : Nat × Request) : Running :=
  ⟨{ x.spawned with jobs := x.spawned.jobs ++ [⟨q.1, q.2, .compiling⟩] }, x.shared.receive q.2⟩

/-- A job whose compile has this result looks at the backend of the session. -/
def look (x : Running) (k : Nat) (j : Job) (r : Result) : Running :=
  ⟨x.spawned.setProgress k j (.telling r (Session.messages x.shared.dispatcher j.id r)), x.shared⟩

def tell (x : Running) (k : Nat) (j : Job) (r : Result) (m : Message) (rest : List Message) :
    Running :=
  ⟨{ x.spawned.setProgress k j (.telling r rest) with outbox := x.spawned.outbox ++ [m] }, x.shared⟩

/-- The worker passes on a text of the dispatcher. -/
def report (x : Running) (text : String) : Running :=
  { x with spawned := { x.spawned with outbox := x.spawned.outbox ++ [.status text] } }

/-- What can happen next. -/
inductive Step : Running → Running → Prop where
  | call {x : Running} {s : Traffic} (step : Traffic.Step none x.traffic s) :
      Step x (x.setTraffic s)
  | receive {x : Running} {q : Nat × Request}
      (next : x.traffic.sent[x.spawned.jobs.length]? = some q) : Step x (x.receive q)
  | dispatch {x : Running} {s : Shared} (step : Shared.Step x.shared s)
      (inside : s.visits.length = x.shared.visits.length) : Step x { x with shared := s }
  | report {x : Running} (text : String) : Step x (x.report text)
  | look {x : Running} {k : Nat} {j : Job} {u : Visit} {v? : Option Serving} {r : Result}
      (job : x.spawned.jobs[k]? = some j) (progress : j.progress = .compiling)
      (visit : x.shared.visits[k]? = some u) (stage : u.stage = .ended v? r)
      (free : x.shared.turn = none) : Step x (x.look k j r)
  | tell {x : Running} {k : Nat} {j : Job} {r : Result} {m : Message} {rest : List Message}
      (job : x.spawned.jobs[k]? = some j) (progress : j.progress = .telling r (m :: rest)) :
      Step x (x.tell k j r m rest)
  | deliver {x : Running} {m : Message} {s : Traffic}
      (next : x.spawned.outbox[x.traffic.routed.length]? = some m)
      (step : Traffic.Step (some m) x.traffic s) : Step x (x.setTraffic s)

/-- Any number of steps. -/
inductive Steps (x : Running) : Running → Prop where
  | refl : Steps x x
  | tail {x' x'' : Running} : Steps x x' → Step x' x'' → Steps x x''

/-- The states of the runs of a client that was spawned, however many calls are made and whatever
the dispatcher is answered. -/
def Reachable (config : DispatcherConfig) (x : Running) : Prop := Steps (.start config) x

variable {config : DispatcherConfig} {x x' x'' : Running}

theorem Steps.trans (h : Steps x x') (h' : Steps x' x'') : Steps x x'' := by
  induction h' with
  | refl => exact h
  | tail _ step ih => exact .tail ih step

theorem Step.steps (h : Step x x') : Steps x x' := .tail .refl h

/-! ## The parts of a run -/

theorem Steps.shared (h : Steps x x') : Shared.Steps x.shared x'.shared := by
  induction h with
  | refl => exact .refl
  | tail _ step ih =>
    cases step with
    | receive next => exact ih.tail (.receive _)
    | dispatch step inside => exact ih.tail step
    | _ => exact ih

theorem Steps.traffic (h : Steps x x') : Traffic.Steps x.traffic x'.traffic := by
  induction h with
  | refl => exact .refl
  | tail _ step ih =>
    cases step with
    | call step => exact ih.tail step
    | deliver next step => exact ih.tail step
    | _ => exact ih

theorem reachable_shared (h : Reachable config x) : Shared.Reachable config x.shared :=
  Steps.shared h

theorem config_of_reachable {s : Shared} (h : Shared.Reachable config s) :
    s.dispatcher.config = config := by
  rcases Shared.era_of_reachable h with ⟨failed, seeking⟩ | ⟨v, p, settled⟩
  · rw [seeking.dispatcher]
  · rw [settled.dispatcher]

/-- The dispatcher gives some result for every request. -/
theorem reachable_spawned (h : Reachable config x) :
    Spawned.Reachable config (fun _ _ => True) x.spawned := by
  induction h with
  | refl => exact .refl
  | tail before step ih =>
    cases step with
    | call step => exact ih.tail (.call step)
    | receive next => exact ih.tail (.receive next)
    | dispatch step inside => exact ih
    | report text => exact ih.tail (.status text)
    | look job progress visit stage free =>
      have own := config_of_reachable (reachable_shared before)
      exact ih.tail (.compiled _ own job progress trivial)
    | tell job progress => exact ih.tail (.tell job progress)
    | deliver next step => exact ih.tail (.deliver next step)

/-- The messages that were routed are the first ones that the worker has sent. -/
theorem routed_grows (h : Reachable config x) : x.traffic.routed <+: x.spawned.outbox := by
  obtain ⟨later, outbox⟩ := (Spawned.Working.of_reachable (reachable_spawned h)).routed
  exact ⟨later, outbox.symm⟩

theorem reply_mem_routed (h : Reachable config x) {c : Caller} (hc : c ∈ x.traffic.callers)
    {r : Result} {heard : Nat} (answered : c.phase = .done r (.answered heard)) :
    .reply c.id r ∈ x.traffic.routed := by
  have run := Spawned.reachable_traffic (reachable_spawned h)
  obtain ⟨-, first⟩ := (Traffic.correlated run).result c hc r _ answered
  have mem := mem_repliesTo.mp (List.mem_of_mem_head? first)
  exact List.mem_of_mem_take (List.mem_of_mem_drop mem)

/-! ## A call that nobody comes between -/

theorem call_steps {s : Traffic} (steps : Traffic.Steps x.traffic s)
    (routed : s.routed = x.traffic.routed) : Steps x (x.setTraffic s) := by
  replace routed := congrArg List.length routed
  induction steps with
  | refl => exact .refl
  | @tail s' s'' m before step ih =>
    -- Messages that are routed stay, so none is routed on the way.
    have grown := before.routed_grows.length_le
    have last := congrArg List.length (Spawned.sent_of_step step).2
    rw [List.length_append] at last
    cases m with
    | none => exact (ih (by omega)).tail (.call (x := x.setTraffic s') step)
    | some m =>
      simp only [Option.toList_some, List.length_singleton] at last
      omega

theorem dispatch_steps {s : Shared} (steps : Shared.Steps x.shared s)
    (inside : s.visits.length = x.shared.visits.length) : Steps x { x with shared := s } := by
  induction steps with
  | refl => exact .refl
  | @tail s' s'' before step ih =>
    have grown := before.length_le
    have last := step.length_le
    have same : s'.visits.length = x.shared.visits.length := by omega
    exact (ih same).tail (.dispatch (x := { x with shared := s' }) step (inside.trans same.symm))

/-- Nothing is under way: all requests were received and all messages routed. -/
structure Resting (x : Running) : Prop where
  sending : x.traffic.client.sending = true
  routing : x.traffic.client.routing = true
  calls : x.traffic.client.calls = []
  received : x.traffic.sent.length = x.spawned.jobs.length
  visits : x.shared.visits.length = x.spawned.jobs.length
  free : x.shared.turn = none
  routed : x.spawned.outbox = x.traffic.routed

theorem resting_start (config : DispatcherConfig) : (start config).Resting where
  sending := rfl
  routing := rfl
  calls := rfl
  received := rfl
  visits := rfl
  free := rfl
  routed := rfl

/-- The worker sends what is left of a job, and the client routes it. -/
theorem tell_steps {k : Nat} {j : Job} {r : Result} {rest : List Message}
    (job : x.spawned.jobs[k]? = some j) (telling : j.progress = .telling r rest)
    (routing : x.traffic.client.routing = true) (routed : x.spawned.outbox = x.traffic.routed) :
    ∃ x', Steps x x' ∧ x'.shared = x.shared ∧ x'.traffic = rest.foldl Traffic.route x.traffic ∧
      x'.spawned.outbox = x'.traffic.routed ∧
      x'.spawned.jobs = x.spawned.jobs.set k { j with progress := .telling r [] } := by
  induction rest generalizing x j with
  | nil =>
    refine ⟨x, .refl, rfl, rfl, routed, ?_⟩
    obtain ⟨lt, rfl⟩ := List.getElem?_eq_some_iff.mp job
    rw [← telling, List.set_getElem_self]
  | cons m rest ih =>
    let x₁ := x.tell k j r m rest
    have next : x₁.spawned.outbox[x₁.traffic.routed.length]? = some m := by
      show (x.spawned.outbox ++ [m])[x.traffic.routed.length]? = some m
      rw [routed, List.getElem?_concat_length]
    let x₂ := x₁.setTraffic (x.traffic.route m)
    have told : Steps x x₂ := (Step.tell job telling).steps.tail (.deliver next (.route m routing))
    have routing' : x₂.traffic.client.routing = true := by cases m <;> exact routing
    have routed' : x₂.spawned.outbox = x₂.traffic.routed := by
      show x.spawned.outbox ++ [m] = x.traffic.routed ++ [m]
      rw [routed]
    obtain ⟨x', steps, shared, traffic, outbox, jobs⟩ :=
      ih (Spawned.getElem?_setProgress job (.telling r rest)) rfl routing' routed'
    refine ⟨x', told.trans steps, shared, traffic, outbox, jobs.trans ?_⟩
    show (x.spawned.jobs.set k _).set k _ = _
    rw [List.set_set]

theorem foldl_route (s : Traffic) (messages : List Message) :
    messages.foldl Traffic.route s =
      { s with client := Session.routeAll s.client messages, routed := s.routed ++ messages } := by
  induction messages generalizing s with
  | nil => simp [Session.routeAll]
  | cons m rest ih =>
    rw [List.foldl_cons, ih]
    simp [Traffic.route, Session.routeAll]

/-- Messages touch neither the calls nor the connections of a client. -/
theorem routeAll_keeps (c : Client) (messages : List Message) :
    (Session.routeAll c messages).calls = c.calls ∧
      (Session.routeAll c messages).sending = c.sending ∧
      (Session.routeAll c messages).routing = c.routing := by
  induction messages generalizing c with
  | nil => exact ⟨rfl, rfl, rfl⟩
  | cons m rest ih => cases m <;> exact ih _

theorem routeAll_calls (c : Client) (calls : List Call) (messages : List Message) :
    Session.routeAll { c with calls := calls } messages =
      { Session.routeAll c messages with calls := calls } := by
  induction messages generalizing c with
  | nil => rfl
  | cons m rest ih =>
    have first : ({ c with calls := calls }.route m).1 = { (c.route m).1 with calls := calls } := by
      cases m <;> rfl
    show Session.routeAll ({ c with calls := calls }.route m).1 rest = _
    rw [first, ih]
    rfl

theorem finish_answered {c : Client} {call : Call} {p : Pending} {r : Result}
    (read : c.pending.read call.ticket = (p, .result r)) :
    ({ c with calls := [call] } : Client).finish =
      ({ c with pending := p, calls := [] }, [(call.id, r)]) := by
  simp [Client.finish, Client.finishCalls, Client.outcome, read]

theorem finish_routeAll {c c' : Client} {call : Call} {messages : List Message} {p : Pending}
    {r : Result} (one : c.calls = [call])
    (others : c' = Session.routeAll { c with calls := [] } messages)
    (read : c'.pending.read call.ticket = (p, .result r)) :
    (Session.routeAll c messages).finish =
      ({ c' with pending := p, calls := [] }, [(call.id, r)]) := by
  have waits : c = { { c with calls := [] } with calls := [call] } := by rw [← one]
  have routed : Session.routeAll c messages = { c' with calls := [call] } := by
    rw [others, ← routeAll_calls, ← waits]
  rw [routed, finish_answered read]

theorem handle_steps {q : Nat × Request} (next : x.traffic.sent[x.spawned.jobs.length]? = some q)
    (visits : x.shared.visits.length = x.spawned.jobs.length) (free : x.shared.turn = none)
    (routing : x.traffic.client.routing = true) (routed : x.spawned.outbox = x.traffic.routed)
    {asked : List Answered} {d : Dispatcher} {result : Result}
    (ends : (x.shared.dispatcher.compile Dialog.tell q.2).Ends asked (d, result)) :
    ∃ x', Steps x x' ∧ x'.traffic = (Session.messages d q.1 result).foldl Traffic.route x.traffic ∧
      x'.spawned.outbox = x'.traffic.routed ∧ x'.shared.dispatcher = d ∧ x'.shared.turn = none ∧
      x'.spawned.jobs.length = x.spawned.jobs.length + 1 ∧
      x'.shared.visits.length = x'.spawned.jobs.length := by
  obtain ⟨v?, visited⟩ := Shared.compile_steps ends free
  let k := x.spawned.jobs.length
  let j : Job := ⟨q.1, q.2, .compiling⟩
  let x₁ := x.receive q
  let x₂ : Running :=
    ⟨x₁.spawned, d, none, x.shared.visits ++ [⟨q.2, .ended v? result⟩],
      x.shared.history ++ asked.map (x.shared.visits.length, ·)⟩
  have ended : Steps x x₂ := (Step.receive next).steps.trans
    (dispatch_steps (x := x₁) visited (by simp [x₁, receive, Shared.receive]))
  have job : x₂.spawned.jobs[k]? = some j := List.getElem?_concat_length
  have visit : x₂.shared.visits[k]? = some ⟨q.2, .ended v? result⟩ := by
    show (x.shared.visits ++ [_])[x.spawned.jobs.length]? = _
    rw [← visits, List.getElem?_concat_length]
  let x₃ := x₂.look k j result
  have looked : Steps x x₃ := ended.tail (.look job rfl visit rfl rfl)
  obtain ⟨x', told, shared, traffic, outbox, jobs⟩ := tell_steps (x := x₃)
    (Spawned.getElem?_setProgress job _) rfl routing routed
  have length : x'.spawned.jobs.length = x.spawned.jobs.length + 1 := by
    rw [jobs, List.length_set]
    show ((x.spawned.jobs ++ [j]).set k _).length = _
    rw [List.length_set, List.length_append, List.length_singleton]
  refine ⟨x', looked.trans told, traffic, outbox, ?_, ?_, length, ?_⟩
  · rw [shared]
    rfl
  · rw [shared]
    rfl
  · rw [shared, length, ← visits]
    exact List.length_append

/-- A call that nobody comes between does what `Session.compile` does. -/
theorem compile_steps (reached : Reachable config x) (resting : x.Resting) {r : Request}
    {asked : List Answered} {s : Session} {result : Result}
    (ends : (Session.compile (m := Dialog) Dialog.tell ⟨x.traffic.client, x.shared.dispatcher⟩
      r).Ends asked (s, result)) :
    ∃ x', Steps x x' ∧ x'.Resting ∧ s = ⟨x'.traffic.client, x'.shared.dispatcher⟩ ∧
      ∃ c heard, x'.traffic.callers = x.traffic.callers ++ [c] ∧ c.request = r ∧
        c.phase = .done result (.answered heard) := by
  obtain ⟨s₁, begun, routed₁, client₁, c, callers₁, id, request, since, more⟩ :=
    Traffic.compile_steps x.traffic r
  obtain ⟨accepted, sending, routing⟩ : x.traffic.client.compile.2.2 = none ∧
      x.traffic.client.compile.1.sending = true ∧ x.traffic.client.compile.1.routing = true := by
    simp [Client.compile, resting.sending, resting.routing]
  rw [accepted] at more
  obtain ⟨sent₁, call, waiting, calls⟩ := more
  unfold Session.compile at ends
  simp only [accepted] at ends
  obtain ⟨before, after, ⟨d, result₀⟩, rfl, compiling, last⟩ := Dialog.ends_bind.mp ends
  obtain ⟨-, same⟩ := Dialog.ends_pure.mp last
  -- The request is sent, and the worker handles it.
  have next : s₁.sent[x.spawned.jobs.length]? = some (c.id, r) := by
    rw [sent₁, ← resting.received, List.getElem?_concat_length]
  have routing₁ : s₁.client.routing = true := by rw [client₁, routing]
  obtain ⟨x₂, handled, traffic₂, outbox₂, dispatcher₂, free₂, jobs₂, visits₂⟩ :=
    handle_steps (x := x.setTraffic s₁) next resting.visits resting.free routing₁
      (resting.routed.trans routed₁.symm) compiling
  have steps := (call_steps begun routed₁).trans handled
  rw [foldl_route] at traffic₂
  have callers₂ : x₂.traffic.callers[x.traffic.callers.length]? = some c := by
    rw [traffic₂]
    show s₁.callers[_]? = _
    rw [callers₁, List.getElem?_concat_length]
  -- The reply is the first message for the call, so it is what its ticket holds.
  have exact := Traffic.Exact.of_reachable
    (Spawned.reachable_traffic (reachable_spawned (reached.trans steps)))
  have mem := List.mem_of_getElem? callers₂
  have heard : c.heard x₂.traffic.routed = [result₀] := by
    rw [traffic₂]
    exact c.heard_messages (since.trans (congrArg List.length routed₁.symm)) d result₀
  obtain ⟨own, p, read⟩ := exact.read_of_heard mem waiting heard
  have answered := steps.tail (.call (.answer callers₂ waiting read))
  -- What the client makes of its table is what `finish` says.
  have one : x.traffic.client.compile.1.calls = [call] := by
    rw [calls, resting.calls, List.nil_append]
  have client₂ : x₂.traffic.client =
      Session.routeAll { x.traffic.client.compile.1 with calls := [] }
        (Session.messages d c.id result₀) := by
    rw [traffic₂, ← resting.calls, ← client₁]
    rfl
  have finished := finish_routeAll one client₂ read
  simp only [← id, finished, own, List.lookup_cons, beq_self_eq_true, Option.getD_some] at same
  obtain ⟨rfl, rfl⟩ := Prod.mk.inj same
  have kept := routeAll_keeps { x.traffic.client.compile.1 with calls := [] }
    (Session.messages d c.id result)
  rw [← client₂] at kept
  have calls₂ : x₂.traffic.client.calls = [] := kept.1
  refine ⟨_, answered, ⟨?_, ?_, ?_, ?_, visits₂, free₂, outbox₂⟩, ?_,
    { c with phase := .done result (.answered x₂.traffic.routed.length) }, _, ?_, request, rfl⟩
  · exact kept.2.1.trans sending
  · exact kept.2.2.trans routing
  · exact calls₂
  · show x₂.traffic.sent.length = x₂.spawned.jobs.length
    rw [jobs₂, traffic₂]
    show s₁.sent.length = x.spawned.jobs.length + 1
    rw [sent₁, List.length_append, List.length_singleton, resting.received]
  · rw [← dispatcher₂, ← calls₂]
    rfl
  · show x₂.traffic.callers.set x.traffic.callers.length _ = _
    rw [traffic₂]
    show s₁.callers.set x.traffic.callers.length _ = _
    rw [callers₁, List.set_append_right _ _ (Nat.le_refl _), Nat.sub_self]
    rfl

end Running

end LiveSound.Compile
