import LiveSound.Compile.Session
import LiveSound.Proofs.Compile.Correlation

/-!
# Clients with their worker

A worker receives the requests of its client in the order in which they were sent and compiles them
side by side; each compile comes to an end in its own time, with a result that the dispatcher gives
for that request. Then the worker sends what `Session.messages` says, one message after another,
and the client routes the messages in the order in which they were sent.

Every request gets one reply, and it is this reply that a call comes back with
(`requests_and_replies_correlate`).
-/

namespace LiveSound.Compile

/-- How far the compile of a request has come. -/
inductive Progress where
  | compiling
  /-- It gave this result, and these messages are not sent yet. -/
  | telling (result : Result) (rest : List Message)

/-- A request that was received. -/
structure Job where
  id : Nat
  request : Request
  progress : Progress

/-- The messages of a job that are not sent yet. -/
def Progress.rest : Progress → List Message
  | .compiling => []
  | .telling _ rest => rest

def Progress.result? : Progress → Option Result
  | .compiling => none
  | .telling r _ => some r

/-- A client and the worker that it was spawned with. -/
structure Spawned where
  traffic : Traffic
  /-- The requests that were received, oldest first. -/
  jobs : List Job
  /-- The messages that the worker has sent, oldest first. -/
  outbox : List Message

/-! ## Each call sends one request -/

def Phase.unsent : Phase → Bool
  | .numbered | .registered _ | .refused _ | .done _ .refused => true
  | _ => false

namespace Traffic

variable {s s' : Traffic}

/-- The requests that were sent are those of the calls that sent one. -/
structure Sending (s : Traffic) : Prop where
  once : (s.sent.map (·.1)).Nodup
  caller : ∀ q ∈ s.sent, ∃ c ∈ s.callers, c.id = q.1 ∧ c.request = q.2 ∧ c.phase.unsent = false

namespace Sending

theorem connect (deadline : Nat) : Sending (.connect deadline) where
  once := List.nodup_nil
  caller q hq := by cases hq

/-- The calls that sent these requests are still there when one call changes. -/
theorem callers_of_set (exact : Exact s) {k : Nat} {c : Caller} (hk : s.callers[k]? = some c)
    (c' : Caller) (id : c'.id = c.id) (request : c'.request = c.request)
    (kept : c.phase.unsent = false → c'.phase.unsent = false) {q : Nat × Request}
    (h : ∃ u ∈ s.callers, u.id = q.1 ∧ u.request = q.2 ∧ u.phase.unsent = false) :
    ∃ u ∈ s.callers.set k c', u.id = q.1 ∧ u.request = q.2 ∧ u.phase.unsent = false := by
  obtain ⟨u, hu, hid, hrequest, was⟩ := h
  by_cases e : u.id = c.id
  · obtain rfl : u = c := exact.eq_of_id hu (List.mem_of_getElem? hk) e
    have lt := (List.getElem?_eq_some_iff.mp hk).1
    exact ⟨c', List.mem_set lt c', id.trans hid, request.trans hrequest, kept was⟩
  · exact ⟨u, Keyed.mem_set_of_ne hk hu e, hid, hrequest, was⟩

/-- A call changes and no request is sent. -/
theorem goes (h : Sending s) (exact : Exact s) {k : Nat} {c : Caller}
    (hk : s.callers[k]? = some c) {phase : Phase} {p : Pending}
    (kept : c.phase.unsent = false → phase.unsent = false) : Sending (s.goes k c phase p) :=
  ⟨h.once, fun q hq =>
    callers_of_set exact hk { c with phase := phase } rfl rfl kept (h.caller q hq)⟩

theorem send (h : Sending s) (exact : Exact s) {k : Nat} {c : Caller}
    (hk : s.callers[k]? = some c) {n : Nat} (phase : c.phase = .registered n) :
    Sending (s.send k c n) := by
  have lt := (List.getElem?_eq_some_iff.mp hk).1
  have first : c.id ∉ s.sent.map (·.1) := by
    intro mem
    obtain ⟨q, hq, same⟩ := List.mem_map.mp mem
    obtain ⟨u, hu, hid, -, was⟩ := h.caller q hq
    rw [exact.eq_of_id hu (List.mem_of_getElem? hk) (hid.trans same), phase] at was
    cases was
  constructor
  case once =>
    simp only [Traffic.send, List.map_append, List.map_cons, List.map_nil]
    exact List.nodup_append.mpr ⟨h.once, List.nodup_singleton _, fun id hid id' hid' same => first
      (by rwa [← List.mem_singleton.mp hid', ← same])⟩
  case caller =>
    intro q hq
    rcases List.mem_append.mp hq with hq | hq
    · exact callers_of_set exact hk { c with phase := .sent n } rfl rfl (fun _ => rfl)
        (h.caller q hq)
    · rw [List.mem_singleton.mp hq]
      exact ⟨_, List.mem_set lt _, rfl, rfl, rfl⟩

theorem step (h : Sending s) (exact : Exact s) {m : Option Message} (hs : Step m s s') :
    Sending s' := by
  cases hs with
  | start request =>
    refine ⟨h.once, fun q hq => ?_⟩
    obtain ⟨u, hu, rest⟩ := h.caller q hq
    exact ⟨u, List.mem_append_left _ hu, rest⟩
  | @register _ k c caller phase =>
    refine ⟨h.once, fun q hq => ?_⟩
    exact callers_of_set exact caller
      { c with since := s.routed.length, phase := .registered (s.pending.insert c.id).2 } rfl rfl
      (by simp [phase, Phase.unsent]) (h.caller q hq)
  | send caller phase sending => exact h.send exact caller phase
  | refuse caller phase closed => exact h.goes exact caller (by simp [phase, Phase.unsent])
  | reject caller phase => exact h.goes exact caller (by simp [phase, Phase.unsent])
  | wait caller phase => exact h.goes exact caller fun _ => rfl
  | answer caller phase read => exact h.goes exact caller fun _ => rfl
  | drop caller phase read => exact h.goes exact caller fun _ => rfl
  | expire caller phase read late => exact h.goes exact caller fun _ => rfl
  | timeOut caller phase => exact h.goes exact caller fun _ => rfl
  | route m routing => exact ⟨h.once, h.caller⟩
  | advance milliseconds => exact ⟨h.once, h.caller⟩
  | stopSending => exact ⟨h.once, h.caller⟩
  | stopRouting => exact ⟨h.once, h.caller⟩

theorem of_reachable {deadline : Nat} (h : Reachable deadline s) : Sending s := by
  have both : Sending s ∧ Exact s := by
    induction h with
    | refl => exact ⟨connect deadline, .connect deadline⟩
    | tail _ hs ih => exact ⟨ih.1.step ih.2 hs, ih.2.step hs⟩
  exact both.1

end Sending

end Traffic

namespace Spawned

/-- A client and a worker that have just been set up. -/
def start (config : DispatcherConfig) : Spawned :=
  ⟨⟨(Session.start config).client, [], [], []⟩, [], []⟩

def setProgress (w : Spawned) (k : Nat) (j : Job) (progress : Progress) : Spawned :=
  { w with jobs := w.jobs.set k { j with progress := progress } }

/-- What can happen next, when the dispatcher can give a result for a request if they are in
`answers`. -/
inductive Step (config : DispatcherConfig) (answers : Request → Result → Prop) :
    Spawned → Spawned → Prop where
  | call {w : Spawned} {s : Traffic} (step : Traffic.Step none w.traffic s) :
      Step config answers w { w with traffic := s }
  | receive {w : Spawned} {q : Nat × Request} (next : w.traffic.sent[w.jobs.length]? = some q) :
      Step config answers w { w with jobs := w.jobs ++ [⟨q.1, q.2, .compiling⟩] }
  | status {w : Spawned} (text : String) :
      Step config answers w { w with outbox := w.outbox ++ [.status text] }
  | compiled {w : Spawned} {k : Nat} {j : Job} (d : Dispatcher) {r : Result}
      (own : d.config = config) (job : w.jobs[k]? = some j) (progress : j.progress = .compiling)
      (result : answers j.request r) :
      Step config answers w (w.setProgress k j (.telling r (Session.messages d j.id r)))
  | tell {w : Spawned} {k : Nat} {j : Job} {r : Result} {m : Message} {rest : List Message}
      (job : w.jobs[k]? = some j) (progress : j.progress = .telling r (m :: rest)) :
      Step config answers w
        { w.setProgress k j (.telling r rest) with outbox := w.outbox ++ [m] }
  | deliver {w : Spawned} {m : Message} {s : Traffic}
      (next : w.outbox[w.traffic.routed.length]? = some m)
      (step : Traffic.Step (some m) w.traffic s) : Step config answers w { w with traffic := s }

/-- Any number of steps. -/
inductive Steps (config : DispatcherConfig) (answers : Request → Result → Prop) (w : Spawned) :
    Spawned → Prop where
  | refl : Steps config answers w w
  | tail {w' w'' : Spawned} :
    Steps config answers w w' → Step config answers w' w'' → Steps config answers w w''

def Reachable (config : DispatcherConfig) (answers : Request → Result → Prop) (w : Spawned) :
    Prop :=
  Steps config answers (.start config) w

variable {config : DispatcherConfig} {answers : Request → Result → Prop} {w w' : Spawned}

/-- The runs of a spawned client are among those with any worker. -/
theorem reachable_traffic (h : Reachable config answers w) :
    Traffic.Reachable config.selected.deadline w.traffic := by
  induction h with
  | refl => exact .refl
  | tail _ hs ih =>
    cases hs with
    | call step => exact ih.tail step
    | receive next => exact ih
    | status text => exact ih
    | compiled d own job progress result => exact ih
    | tell job progress => exact ih
    | deliver next step => exact ih.tail step

theorem sent_of_step {s s' : Traffic} {m : Option Message} (hs : Traffic.Step m s s') :
    (∃ more, s'.sent = s.sent ++ more) ∧ s'.routed = s.routed ++ m.toList := by
  have same : ∃ more, s.sent = s.sent ++ more := ⟨[], (List.append_nil _).symm⟩
  have none : s.routed = s.routed ++ [] := (List.append_nil _).symm
  cases hs with
  | send caller phase sending => exact ⟨⟨_, rfl⟩, none⟩
  | route m routing => exact ⟨same, rfl⟩
  | _ => exact ⟨same, none⟩

/-! ## What the worker has received and sent -/

def repliesOf (w : Spawned) (j : Job) : List Result :=
  repliesTo j.id w.outbox ++ repliesTo j.id j.progress.rest

structure Working (answers : Request → Result → Prop) (w : Spawned) : Prop where
  received : ∃ later, w.traffic.sent = w.jobs.map (fun j => (j.id, j.request)) ++ later
  routed : ∃ later, w.outbox = w.traffic.routed ++ later
  replies : ∀ j ∈ w.jobs, w.repliesOf j = j.progress.result?.toList
  own : ∀ j ∈ w.jobs, ∀ id r, .reply id r ∈ j.progress.rest → id = j.id
  known : ∀ id r, .reply id r ∈ w.outbox → ∃ j ∈ w.jobs, j.id = id
  answered : ∀ j ∈ w.jobs, ∀ r, j.progress.result? = some r → answers j.request r

namespace Working

theorem start (config : DispatcherConfig) : Working answers (.start config) where
  received := ⟨[], rfl⟩
  routed := ⟨[], rfl⟩
  replies j hj := by cases hj
  own j hj := by cases hj
  known id r h := by cases h
  answered j hj := by cases hj

theorem ids_nodup (h : Working answers w) (sending : w.traffic.Sending) :
    (w.jobs.map (·.id)).Nodup := by
  obtain ⟨later, received⟩ := h.received
  have once := sending.once
  rw [received, List.map_append, List.map_map] at once
  exact (List.nodup_append.mp once).1

/-- The client takes a step, and what it has routed is still the beginning of what was sent. -/
theorem client (h : Working answers w) {m : Option Message} {s : Traffic}
    (hs : Traffic.Step m w.traffic s) (routed : ∃ later, w.outbox = s.routed ++ later) :
    Working answers { w with traffic := s } := by
  obtain ⟨⟨more, sent⟩, -⟩ := sent_of_step hs
  obtain ⟨later, received⟩ := h.received
  exact ⟨⟨later ++ more, by rw [sent, received, List.append_assoc]⟩, routed, h.replies, h.own,
    h.known, h.answered⟩

theorem call (h : Working answers w) {s : Traffic} (hs : Traffic.Step none w.traffic s) :
    Working answers { w with traffic := s } := by
  obtain ⟨later, outbox⟩ := h.routed
  refine h.client hs ⟨later, ?_⟩
  rw [(sent_of_step hs).2, outbox, Option.toList_none, List.append_nil]

theorem deliver (h : Working answers w) {m : Message} {s : Traffic}
    (next : w.outbox[w.traffic.routed.length]? = some m)
    (hs : Traffic.Step (some m) w.traffic s) : Working answers { w with traffic := s } := by
  obtain ⟨later, outbox⟩ := h.routed
  rw [outbox, List.getElem?_append_right (Nat.le_refl _), Nat.sub_self] at next
  cases later with
  | nil => cases next
  | cons m' later =>
    cases next
    refine h.client hs ⟨later, ?_⟩
    rw [(sent_of_step hs).2, outbox, Option.toList_some, List.append_assoc]
    rfl

theorem receive (h : Working answers w) (sending : w.traffic.Sending) {q : Nat × Request}
    (next : w.traffic.sent[w.jobs.length]? = some q) :
    Working answers { w with jobs := w.jobs ++ [⟨q.1, q.2, .compiling⟩] } := by
  have old : ∀ j ∈ w.jobs ++ [Job.mk q.1 q.2 .compiling],
      j ∈ w.jobs ∨ j = ⟨q.1, q.2, .compiling⟩ := by simp
  obtain ⟨later, received⟩ := h.received
  have ahead : ∃ rest, later = q :: rest := by
    rw [received, List.getElem?_append_right (by simp)] at next
    cases later with
    | nil => cases next
    | cons q' rest =>
      rw [List.length_map, Nat.sub_self] at next
      cases next
      exact ⟨rest, rfl⟩
  obtain ⟨rest, rfl⟩ := ahead
  have unheard : repliesTo q.1 w.outbox = [] := by
    refine List.eq_nil_iff_forall_not_mem.mpr fun r hr => ?_
    obtain ⟨j, hj, same⟩ := h.known q.1 r (mem_repliesTo.mp hr)
    have once := sending.once
    rw [received, List.map_append, List.map_map] at once
    exact (List.nodup_append.mp once).2.2 j.id (List.mem_map.mpr ⟨j, hj, rfl⟩) q.1
      (List.mem_cons_self) same
  constructor
  case received => exact ⟨rest, by rw [received]; simp⟩
  case routed => exact h.routed
  case replies =>
    intro j hj
    rcases old j hj with hj | rfl
    · exact h.replies j hj
    · show repliesTo q.1 w.outbox ++ [] = []
      rw [unheard, List.append_nil]
  case own =>
    intro j hj
    rcases old j hj with hj | rfl
    · exact h.own j hj
    · intro id r hr
      cases hr
  case known =>
    intro id r hr
    obtain ⟨j, hj, same⟩ := h.known id r hr
    exact ⟨j, List.mem_append_left _ hj, same⟩
  case answered =>
    intro j hj
    rcases old j hj with hj | rfl
    · exact h.answered j hj
    · intro r hr
      cases hr

/-- A message without a result. -/
theorem status (h : Working answers w) (text : String) :
    Working answers { w with outbox := w.outbox ++ [.status text] } := by
  refine ⟨h.received, ?_, fun j hj => ?_, h.own, fun id r hr => ?_, h.answered⟩
  · obtain ⟨later, outbox⟩ := h.routed
    exact ⟨later ++ [.status text], by rw [outbox, List.append_assoc]⟩
  · have replies := h.replies j hj
    rw [repliesOf] at replies ⊢
    rw [repliesTo_append]
    simpa [repliesTo] using replies
  · rcases List.mem_append.mp hr with hr | hr
    · exact h.known id r hr
    · cases List.mem_singleton.mp hr

theorem advance (h : Working answers w) (sending : w.traffic.Sending) {k : Nat} {j : Job}
    (hk : w.jobs[k]? = some j) (progress : Progress) (out : List Message)
    (replies : repliesTo j.id (w.outbox ++ out) ++ repliesTo j.id progress.rest =
      progress.result?.toList)
    (outOwn : ∀ id r, .reply id r ∈ out → id = j.id)
    (own : ∀ id r, .reply id r ∈ progress.rest → id = j.id)
    (answered : ∀ r, progress.result? = some r → answers j.request r) :
    Working answers { w.setProgress k j progress with outbox := w.outbox ++ out } := by
  have lt := (List.getElem?_eq_some_iff.mp hk).1
  have cases_of {u : Job} (hu : u ∈ w.jobs.set k { j with progress := progress }) :=
    Keyed.mem_set (h.ids_nodup sending) hk hu
  constructor
  case received =>
    obtain ⟨later, received⟩ := h.received
    have same : (w.jobs.set k { j with progress := progress }).map (fun j => (j.id, j.request)) =
        w.jobs.map (fun j => (j.id, j.request)) := Keyed.map_set hk rfl
    exact ⟨later, by rw [setProgress, same, received]⟩
  case routed =>
    obtain ⟨later, outbox⟩ := h.routed
    exact ⟨later ++ out, by rw [outbox, List.append_assoc]; rfl⟩
  case replies =>
    intro u hu
    rcases cases_of hu with rfl | ⟨hu, hne⟩
    · exact replies
    · have quiet : repliesTo u.id out = [] :=
        repliesTo_eq_nil fun id r hr => by rw [outOwn id r hr]; exact hne.symm
      have replies := h.replies u hu
      rw [repliesOf] at replies ⊢
      rw [repliesTo_append, quiet, List.append_nil]
      exact replies
  case own =>
    intro u hu
    rcases cases_of hu with rfl | ⟨hu, -⟩
    · exact own
    · exact h.own u hu
  case known =>
    intro id r hr
    rcases List.mem_append.mp hr with hr | hr
    · obtain ⟨u, hu, same⟩ := h.known id r hr
      by_cases e : u.id = j.id
      · exact ⟨_, List.mem_set lt _, e.symm.trans same⟩
      · exact ⟨u, Keyed.mem_set_of_ne hk hu e, same⟩
    · exact ⟨_, List.mem_set lt _, (outOwn id r hr).symm⟩
  case answered =>
    intro u hu
    rcases cases_of hu with rfl | ⟨hu, -⟩
    · exact answered
    · exact h.answered u hu

theorem messages_own (d : Dispatcher) (id : Nat) (r : Result) :
    ∀ id' r', .reply id' r' ∈ Session.messages d id r → id' = id := by
  intro id' r' h
  rcases List.mem_append.mp h with h | h
  · simp at h
  · cases List.mem_singleton.mp h
    rfl

theorem repliesTo_messages (d : Dispatcher) (id : Nat) (r : Result) :
    repliesTo id (Session.messages d id r) = [r] := by
  have quiet : repliesTo id (d.activeBackend?.map Message.backend).toList = [] :=
    repliesTo_eq_nil fun id' r' h => by simp at h
  rw [Session.messages, repliesTo_append, quiet, repliesTo_reply, if_pos rfl, List.nil_append]

theorem compiled (h : Working answers w) (sending : w.traffic.Sending) {k : Nat} {j : Job}
    (hk : w.jobs[k]? = some j) (compiling : j.progress = .compiling) (d : Dispatcher) {r : Result}
    (result : answers j.request r) :
    Working answers (w.setProgress k j (.telling r (Session.messages d j.id r))) := by
  have unheard := h.replies j (List.mem_of_getElem? hk)
  simp only [repliesOf, compiling, Progress.rest, Progress.result?, Option.toList_none,
    List.append_eq_nil_iff] at unheard
  have told := h.advance sending hk (.telling r (Session.messages d j.id r)) []
    (by rw [List.append_nil, unheard.1, List.nil_append]; exact repliesTo_messages d j.id r)
    (fun id r hr => by cases hr) (messages_own d j.id r)
    (fun r' hr => by cases hr; exact result)
  rw [List.append_nil] at told
  exact told

theorem tell (h : Working answers w) (sending : w.traffic.Sending) {k : Nat} {j : Job}
    (hk : w.jobs[k]? = some j) {r : Result} {m : Message} {rest : List Message}
    (telling : j.progress = .telling r (m :: rest)) :
    Working answers { w.setProgress k j (.telling r rest) with outbox := w.outbox ++ [m] } := by
  have mem := List.mem_of_getElem? hk
  have replies := h.replies j mem
  have own := h.own j mem
  have answered := h.answered j mem
  simp only [repliesOf, telling, Progress.rest, Progress.result?] at replies own answered
  have split : repliesTo j.id (m :: rest) = repliesTo j.id [m] ++ repliesTo j.id rest :=
    repliesTo_append j.id [m] rest
  refine h.advance sending hk (.telling r rest) [m] ?_ ?_ ?_ answered
  · rw [repliesTo_append, List.append_assoc]
    show _ ++ (_ ++ repliesTo j.id rest) = [r]
    rw [← split]
    exact replies
  · intro id r' hr
    rw [List.mem_singleton] at hr
    exact own id r' (hr ▸ List.mem_cons_self)
  · intro id r' hr
    exact own id r' (List.mem_cons_of_mem _ hr)

theorem step (h : Working answers w) (sending : w.traffic.Sending) (hs : Step config answers w w') :
    Working answers w' := by
  cases hs with
  | call step => exact h.call step
  | receive next => exact h.receive sending next
  | status text => exact h.status text
  | compiled d own job compiling result => exact h.compiled sending job compiling d result
  | tell job telling => exact h.tell sending job telling
  | deliver next step => exact h.deliver next step

theorem of_reachable (h : Reachable config answers w) : Working answers w := by
  induction h with
  | refl => exact start config
  | tail before hs ih => exact ih.step (.of_reachable (reachable_traffic before)) hs

end Working

/-! ## Every request gets its reply -/

theorem Steps.head {w'' : Spawned} (hs : Step config answers w w')
    (h : Steps config answers w' w'') : Steps config answers w w'' := by
  induction h with
  | refl => exact .tail .refl hs
  | tail _ hs' ih => exact .tail ih hs'

theorem getElem?_setProgress {k : Nat} {j : Job} (hk : w.jobs[k]? = some j) (progress : Progress) :
    (w.setProgress k j progress).jobs[k]? = some { j with progress := progress } :=
  List.getElem?_set_self (List.getElem?_eq_some_iff.mp hk).1

/-- The worker can send what is left of a job. -/
theorem tells {k : Nat} {j : Job} {r : Result} {rest : List Message} (hk : w.jobs[k]? = some j)
    (telling : j.progress = .telling r rest) :
    ∃ w', Steps config answers w w' ∧ w'.jobs[k]? = some { j with progress := .telling r [] } := by
  induction rest generalizing w j with
  | nil => exact ⟨w, .refl, by rw [hk, ← telling]⟩
  | cons m rest ih =>
    obtain ⟨w', others, ended⟩ := ih
      (w := { w.setProgress k j (.telling r rest) with outbox := w.outbox ++ [m] })
      (getElem?_setProgress hk (.telling r rest)) rfl
    exact ⟨w', others.head (.tell hk telling), ended⟩

/-- A job for which the dispatcher can give a result can come to its end. -/
theorem finishes {k : Nat} {j : Job} (hk : w.jobs[k]? = some j) {r : Result}
    (result : answers j.request r) :
    ∃ w' r', Steps config answers w w' ∧
      w'.jobs[k]? = some { j with progress := .telling r' [] } := by
  cases progress : j.progress with
  | compiling =>
    let d := Dispatcher.ofConfig config
    obtain ⟨w', others, ended⟩ :=
      tells (getElem?_setProgress hk (.telling r (Session.messages d j.id r))) rfl
    exact ⟨w', r, others.head (.compiled d rfl hk progress result), ended⟩
  | telling r' rest =>
    obtain ⟨w', others, ended⟩ := tells hk progress
    exact ⟨w', r', others, ended⟩

/-- The reply that a call came back with is the one of its own request. -/
theorem result_of_answered (h : Reachable config answers w) {c : Caller}
    (hc : c ∈ w.traffic.callers) {r : Result} {heard : Nat}
    (answered : c.phase = .done r (.answered heard)) :
    ∃ j ∈ w.jobs, j.id = c.id ∧ j.request = c.request ∧ j.progress.result? = some r := by
  have run := reachable_traffic h
  have working := Working.of_reachable h
  obtain ⟨-, first⟩ := (Traffic.correlated run).result c hc r _ answered
  -- The reply was routed, so it was sent, so there is a job that sent it.
  have routed : .reply c.id r ∈ w.traffic.routed := by
    have mem := mem_repliesTo.mp (List.mem_of_mem_head? first)
    exact List.mem_of_mem_take (List.mem_of_mem_drop mem)
  have sent : .reply c.id r ∈ w.outbox := by
    obtain ⟨later, outbox⟩ := working.routed
    rw [outbox]
    exact List.mem_append_left _ routed
  obtain ⟨j, hj, same⟩ := working.known c.id r sent
  -- The job has only one result.
  have result : j.progress.result? = some r := by
    have mem : r ∈ w.repliesOf j :=
      List.mem_append_left _ (mem_repliesTo.mpr (by rw [same]; exact sent))
    rw [working.replies j hj] at mem
    simpa using mem
  -- Its request is the one that the call sent.
  obtain ⟨later, received⟩ := working.received
  have asked : (j.id, j.request) ∈ w.traffic.sent := by
    rw [received]
    exact List.mem_append_left _ (List.mem_map.mpr ⟨j, hj, rfl⟩)
  obtain ⟨c', hc', id, request, -⟩ := (Traffic.Sending.of_reachable run).caller _ asked
  have own : c' = c := (Traffic.Exact.of_reachable run).eq_of_id hc' hc (id.trans same)
  exact ⟨j, hj, same, by rw [← own, request], result⟩

/-- What holds of a client and its worker at every moment of every run. -/
structure Served (config : DispatcherConfig) (answers : Request → Result → Prop) (w : Spawned) :
    Prop where
  /-- The requests are received in the order in which they were sent, each once. -/
  received : ∃ later, w.traffic.sent = w.jobs.map (fun j => (j.id, j.request)) ++ later
  ids : (w.jobs.map (·.id)).Nodup
  /-- A request whose job has ended got one reply, with a result that it has. -/
  replied : ∀ j ∈ w.jobs, ∀ r, j.progress = .telling r [] →
    repliesTo j.id w.outbox = [r] ∧ answers j.request r
  once : ∀ j ∈ w.jobs, (repliesTo j.id w.outbox).length ≤ 1
  /-- Nothing else is replied to. -/
  known : ∀ id r, .reply id r ∈ w.outbox → ∃ j ∈ w.jobs, j.id = id
  /-- Every job can come to its end when the dispatcher gives some result. -/
  ends : ∀ (k : Nat) (j : Job) r, w.jobs[k]? = some j → answers j.request r →
    ∃ w' r', Steps config answers w w' ∧ w'.jobs[k]? = some { j with progress := .telling r' [] }
  /-- A call that came back with a reply has a result of its own request. -/
  result : ∀ c ∈ w.traffic.callers, ∀ r heard, c.phase = .done r (.answered heard) →
    answers c.request r

theorem served (h : Reachable config answers w) : Served config answers w := by
  have working := Working.of_reachable h
  constructor
  case received => exact working.received
  case ids => exact working.ids_nodup (.of_reachable (reachable_traffic h))
  case replied =>
    intro j hj r progress
    have replies := working.replies j hj
    simp only [repliesOf, progress, Progress.rest, Progress.result?] at replies
    refine ⟨?_, working.answered j hj r (by rw [progress]; rfl)⟩
    have none : repliesTo j.id [] = [] := rfl
    rwa [none, List.append_nil] at replies
  case once =>
    intro j hj
    have all := congrArg List.length (working.replies j hj)
    have le : j.progress.result?.toList.length ≤ 1 := by cases j.progress.result? <;> simp
    rw [repliesOf, List.length_append] at all
    omega
  case known => exact working.known
  case ends => exact fun k j r hk result => finishes hk result
  case result =>
    intro c hc r heard answered
    obtain ⟨j, hj, -, request, result⟩ := result_of_answered h hc answered
    rw [← request]
    exact working.answered j hj r result

end Spawned

/-- Whatever a worker sends, the calls of a client and its table of outstanding requests are
correlated with the messages that are routed. With the worker that the client was spawned with,
every request gets one reply, and a call comes back with a result of its own request. -/
theorem requests_and_replies_correlate :
    (∀ (deadline : Nat) (s : Traffic), Traffic.Reachable deadline s → Traffic.Correlated s) ∧
    ∀ (config : DispatcherConfig) (answers : Request → Result → Prop) (w : Spawned),
      Spawned.Reachable config answers w →
        Traffic.Correlated w.traffic ∧ Spawned.Served config answers w :=
  ⟨fun _ _ h => Traffic.correlated h, fun _ _ _ h =>
    ⟨Traffic.correlated (Spawned.reachable_traffic h), Spawned.served h⟩⟩

/-- Settings of a session that only the remote service serves. -/
def remoteOnly : DispatcherConfig :=
  ⟨.remote, false, true, false, .ofUrl "" "", ⟨"", none, 0⟩, "", none, 0, .default⟩

/-- A dispatcher that refuses every source and says which it was. -/
def refusal (request : Request) : Result := .fail .compile request.source

/-- Two calls at the same time. The second is answered first, the first one never in time, and its
reply is passed over when it comes. -/
theorem late_reply_is_passed_over :
    ∃ w, Spawned.Reachable remoteOnly (fun request r => r = refusal request) w ∧
      w.traffic.callers.map (·.phase.ticket?) = [none, none] ∧
      w.outbox = [.reply 1 (refusal ⟨"b", .default⟩), .reply 0 (refusal ⟨"a", .default⟩)] ∧
      w.traffic.routed = w.outbox ∧ w.traffic.pending.isEmpty = true ∧
      Spawned.Served remoteOnly (fun request r => r = refusal request) w := by
  have started : Spawned.Reachable remoteOnly (fun request r => r = refusal request) _ :=
    (Spawned.Steps.refl.tail (.call (.start ⟨"a", .default⟩))).tail
      (.call (.start ⟨"b", .default⟩))
  have registered := (started.tail (.call (.register (k := 0) rfl rfl))).tail
    (.call (.register (k := 1) rfl rfl))
  have sent := (registered.tail (.call (.send (k := 0) rfl rfl rfl))).tail
    (.call (.send (k := 1) rfl rfl rfl))
  have waiting := (sent.tail (.call (.wait (k := 0) rfl rfl))).tail
    (.call (.wait (k := 1) rfl rfl))
  have received := (waiting.tail (.receive rfl)).tail (.receive rfl)
  have told := (received.tail (.compiled (k := 1) (.ofConfig remoteOnly) rfl rfl rfl rfl)).tail
    (.tell (k := 1) rfl rfl)
  have answered := (told.tail (.deliver rfl (.route _ rfl))).tail
    (.call (.answer (k := 1) rfl rfl rfl))
  have expired := ((answered.tail (.call (.advance 60000))).tail
    (.call (.expire (k := 0) rfl rfl rfl (by decide)))).tail (.call (.timeOut (k := 0) rfl rfl))
  have late := ((expired.tail (.compiled (k := 0) (.ofConfig remoteOnly) rfl rfl rfl rfl)).tail
    (.tell (k := 0) rfl rfl)).tail (.deliver rfl (.route _ rfl))
  have served := (requests_and_replies_correlate.2 _ _ _ late).2
  exact ⟨_, late, rfl, rfl, rfl, rfl, served⟩

end LiveSound.Compile
