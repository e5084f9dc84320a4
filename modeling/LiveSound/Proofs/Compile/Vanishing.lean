import LiveSound.Proofs.Compile.Correlation

/-!
# Workers that go away

When a worker sends no more messages, the client keeps the tickets of the calls that wait: they are
in its table, and nobody takes them out. So a call whose request was sent and not answered by then
is not told that the request was dropped. It waits until its deadline is over and ends as a call
that had no reply in time, and only then is its id taken out of the table
(`unanswered_calls_wait_for_their_deadline`).
-/

namespace LiveSound.Compile

/-- The request was sent, and no result was read. -/
def Phase.Unanswered : Phase → Prop
  | .sent _ | .waiting _ | .expired _ _ | .done _ (.late _ _) => True
  | _ => False

namespace Traffic

/-- The worker has gone away, and no reply to the call was routed before that. -/
structure Forsaken (s : Traffic) (c : Caller) : Prop where
  gone : s.client.routing = false
  unanswered : c.phase.Unanswered
  unheard : c.heard s.routed = []

variable {s s' : Traffic} {m : Option Message} {k : Nat} {c : Caller}

namespace Forsaken

theorem ticket (h : s.Forsaken c) (exact : Exact s) (mem : c ∈ s.callers) {n : Nat}
    (holds : c.phase.ticket? = some n) :
    s.pending.ticketOf? c.id = some n ∧ s.pending.ticket? n = some .waiting := by
  have tracks := exact.tracks c mem
  simpa only [Tracks, holds, h.unheard] using tracks

/-- Reading the ticket brings nothing, and does not tell that nothing will come. -/
theorem read (h : s.Forsaken c) (exact : Exact s) (mem : c ∈ s.callers) {n : Nat}
    (holds : c.phase.ticket? = some n) : s.pending.read n = (s.pending, .empty) :=
  Pending.read_of_waiting (h.ticket exact mem holds).2

/-- What does not concern the call leaves it as it is. -/
theorem congr (h : s.Forsaken c) (gone : s'.client.routing = s.client.routing)
    (routed : s'.routed = s.routed) : s'.Forsaken c :=
  ⟨gone.trans h.gone, h.unanswered, routed ▸ h.unheard⟩

/-- A call is not forsaken at a phase in which its request is not sent, or its result was read. -/
theorem not_phase (h : s.Forsaken c) {phase : Phase} (at' : c.phase = phase)
    (other : ¬ phase.Unanswered) : False := other (at' ▸ h.unanswered)

end Forsaken

/-- A step of one call leaves the others as they are. -/
theorem Forsaken.replaced (h : s.Forsaken c) (hk : s.callers[k]? = some c) {l : Nat}
    {d d' : Caller} (hl : s.callers[l]? = some d) (callers : s'.callers = s.callers.set l d')
    (gone : s'.client.routing = s.client.routing) (routed : s'.routed = s.routed)
    (own : d = c → d'.id = c.id ∧ s'.Forsaken d') :
    ∃ c', s'.callers[k]? = some c' ∧ c'.id = c.id ∧ s'.Forsaken c' := by
  rw [callers]
  by_cases same : l = k
  · subst same
    have there := List.getElem?_set_self (a := d') (List.getElem?_eq_some_iff.mp hk).1
    exact ⟨d', there, own (Option.some.inj (hl.symm.trans hk))⟩
  · exact ⟨c, (List.getElem?_set_ne same).trans hk, rfl, h.congr gone routed⟩

theorem Forsaken.step (h : s.Forsaken c) (exact : Exact s) (hk : s.callers[k]? = some c)
    (hs : Step m s s') : ∃ c', s'.callers[k]? = some c' ∧ c'.id = c.id ∧ s'.Forsaken c' := by
  have mem := List.mem_of_getElem? hk
  cases hs with
  | start request =>
    have lt := (List.getElem?_eq_some_iff.mp hk).1
    exact ⟨c, (List.getElem?_append_left lt).trans hk, rfl, h.congr rfl rfl⟩
  | register caller phase | send caller phase | refuse caller phase | reject caller phase =>
    exact h.replaced hk caller rfl rfl rfl fun same => (h.not_phase (same ▸ phase) id).elim
  | wait caller phase | expire caller phase read late | timeOut caller phase =>
    refine h.replaced hk caller rfl rfl rfl fun same => ?_
    subst same
    exact ⟨rfl, h.gone, trivial, h.unheard⟩
  | answer caller phase read | drop caller phase read =>
    refine h.replaced hk caller rfl rfl rfl fun same => ?_
    subst same
    cases (h.read exact mem (by rw [phase]; rfl)).symm.trans read
  | route m routing => cases h.gone.symm.trans routing
  | advance milliseconds | stopSending => exact ⟨c, hk, rfl, h.congr rfl rfl⟩
  | stopRouting => exact ⟨c, hk, rfl, rfl, h.unanswered, h.unheard⟩

theorem Forsaken.steps (h : s.Forsaken c) (exact : Exact s) (hk : s.callers[k]? = some c)
    (hs : Steps s s') : ∃ c', s'.callers[k]? = some c' ∧ c'.id = c.id ∧ s'.Forsaken c' := by
  induction hs with
  | refl => exact ⟨c, hk, rfl, h⟩
  | tail earlier step ih =>
    obtain ⟨d, hd, id, forsaken⟩ := ih
    obtain ⟨c', hc', id', forsaken'⟩ := forsaken.step (exact.of_steps earlier) hd step
    exact ⟨c', hc', id'.trans id, forsaken'⟩

/-- How a call stands for which nothing will come. -/
def Lingers (s : Traffic) (c : Caller) : Prop :=
  match c.phase with
  | .sent _ => c.id ∈ s.pending.keys
  | .waiting call => c.id ∈ s.pending.keys ∧ s.pending.read call.ticket = (s.pending, .empty)
  | .expired call _ => c.id ∈ s.pending.keys ∧ call.started + call.deadline ≤ s.client.now
  | .done r _ => c.id ∉ s.pending.keys ∧ ∃ call : Call,
      r = .failure (.timeout call.deadline) ∧ call.started + call.deadline ≤ s.client.now
  | _ => False

theorem Forsaken.lingers (h : s.Forsaken c) (exact : Exact s) (mem : c ∈ s.callers) :
    s.Lingers c := by
  have there {n : Nat} (holds : c.phase.ticket? = some n) : c.id ∈ s.pending.keys :=
    Pending.mem_keys_iff.mpr ⟨n, (h.ticket exact mem holds).1⟩
  have sound := exact.sound c mem
  unfold Lingers
  cases phase : c.phase with
  | sent n => exact there (by rw [phase]; rfl)
  | waiting call => exact ⟨there (by rw [phase]; rfl), h.read exact mem (by rw [phase]; rfl)⟩
  | expired call heard =>
    simp only [Sound, phase] at sound
    exact ⟨there (by rw [phase]; rfl), sound.2.2.2⟩
  | done r ending =>
    simp only [Sound, phase] at sound
    cases ending with
    | late call heard =>
      obtain ⟨same, -, -, ended⟩ := sound
      refine ⟨fun mem' => ?_, call, same, ended⟩
      obtain ⟨n, entry⟩ := Pending.mem_keys_iff.mp mem'
      have tracks := exact.tracks c mem
      simp only [Tracks, phase, Phase.ticket?] at tracks
      cases tracks.symm.trans entry
    | refused | answered heard | dropped => exact (h.not_phase phase id).elim
  | numbered | registered n | refused n => exact (h.not_phase phase id).elim

theorem Forsaken.ends (h : s.Forsaken c) (exact : Exact s) (hk : s.callers[k]? = some c)
    {call : Call} (waiting : c.phase = .waiting call)
    (late : call.started + call.deadline ≤ s.client.now) :
    ∃ s' c' ending, Steps s s' ∧ s'.callers[k]? = some c' ∧ c'.id = c.id ∧
      c'.phase = .done (.failure (.timeout call.deadline)) ending := by
  have read := h.read exact (List.mem_of_getElem? hk) (by rw [waiting]; rfl)
  have at1 := getElem?_goes hk (.expired call s.routed.length) s.pending
  have ended := (Step.expire hk waiting read late).steps.tail (.timeOut at1 rfl)
  exact ⟨_, _, .late call s.routed.length, ended, getElem?_goes at1 _ _, rfl, rfl⟩

end Traffic

/-- When the worker goes away, a call that was sent and not answered by then is kept in the table
until its deadline is over. Then, and not before, it ends as one that had no reply in time, and is
in the table no more; no call is ever told that its request was dropped. -/
theorem unanswered_calls_wait_for_their_deadline {deadline : Nat} {s : Traffic}
    (reachable : Traffic.Reachable deadline s) :
    (∀ c ∈ s.callers, ∀ r ending, c.phase = .done r ending → ending ≠ .dropped) ∧
    ∀ (k : Nat) (c : Caller), s.callers[k]? = some c →
      ((∃ n, c.phase = .sent n) ∨ ∃ call, c.phase = .waiting call) →
      c.heard s.routed = [] → s.client.routing = false →
      (∀ s', Traffic.Steps s s' → ∃ c', s'.callers[k]? = some c' ∧ c'.id = c.id ∧ s'.Lingers c') ∧
      ∀ call, c.phase = .waiting call → call.started + call.deadline ≤ s.client.now →
        ∃ s' c' ending, Traffic.Steps s s' ∧ s'.callers[k]? = some c' ∧ c'.id = c.id ∧
          c'.phase = .done (.failure (.timeout call.deadline)) ending := by
  have exact := Traffic.Exact.of_reachable reachable
  constructor
  · rintro c hc r ending at' rfl
    have justified := exact.sound c hc
    rwa [Traffic.Sound, at'] at justified
  · intro k c hk sent unheard gone
    have forsaken : s.Forsaken c := by
      refine ⟨gone, ?_, unheard⟩
      rcases sent with ⟨n, at'⟩ | ⟨call, at'⟩ <;> rw [at'] <;> trivial
    refine ⟨fun s' later => ?_, fun call waiting late => forsaken.ends exact hk waiting late⟩
    obtain ⟨c', hk', id, forsaken'⟩ := forsaken.steps exact hk later
    exact ⟨c', hk', id, forsaken'.lingers (exact.of_steps later) (List.mem_of_getElem? hk')⟩

/-- The worker goes away with the request of a call that may wait for a minute: the call is in the
table for all of that minute, and then it ends as one that had no reply in time. -/
theorem forsaken_call_waits_a_minute :
    ∃ s s' : Traffic, ∃ c : Caller, ∃ call : Call,
      Traffic.Reachable 60000 s ∧ s.callers[0]? = some c ∧ c.phase = .waiting call ∧
      c.heard s.routed = [] ∧ s.client.routing = false ∧ s.client.now = 59999 ∧ s.Lingers c ∧
      s' = { s with client := s.client.advance 1 } ∧
      ∃ s'' c'' ending, Traffic.Steps s' s'' ∧ s''.callers[0]? = some c'' ∧ c''.id = c.id ∧
        c''.phase = .done (.failure (.timeout 60000)) ending := by
  have waiting : Traffic.Reachable 60000 _ :=
    (((Traffic.Steps.refl.tail (.start ⟨"x", .default⟩)).tail (.register (k := 0) rfl rfl)).tail
      (.send (k := 0) rfl rfl rfl)).tail (.wait (k := 0) rfl rfl)
  have gone := (waiting.tail .stopRouting).tail (.advance 59999)
  have later := gone.tail (.advance 1)
  obtain ⟨c', there, -, lingers⟩ :=
    ((unanswered_calls_wait_for_their_deadline gone).2 0 _ rfl (.inr ⟨_, rfl⟩) rfl rfl).1 _ .refl
  cases there
  have ends :=
    ((unanswered_calls_wait_for_their_deadline later).2 0 _ rfl (.inr ⟨_, rfl⟩) rfl rfl).2 _ rfl
      (by decide)
  exact ⟨_, _, _, _, gone, rfl, rfl, rfl, rfl, rfl, lingers, rfl, ends⟩

end LiveSound.Compile
