import LiveSound.Proofs.Processor.Generations
import Mathlib.Algebra.Order.Ring.Nat

/-!
# One outcome for each message

Every module that was accepted gets a bootstrap with a generation of its own and, by the time the
service returns, exactly one outcome and the event for it. The invariant is `Accounted`: which
modules are where, and what each task has posted at its stage. The service does get to its end once
nobody can send any more (`stops`), because each step of a task brings it closer to its outcome.
-/

namespace LiveSound.Processor

open Guest (Engine Instance InitFault AllText)

variable {μ σ : Type} {s s' : Run σ}

/-! ## What was posted -/

theorem postedBy_post (s : Run σ) (origin : Origin) (events : List Event) (generation : Nat) :
    (s.post origin events).postedBy generation =
      s.postedBy generation ++ if origin = .bootstrap generation then events else [] := by
  by_cases h : origin = .bootstrap generation <;>
    simp [Run.post, Run.postedBy, List.filter_append, List.filter_map, h, Function.comp_def]

def Task.Told (t : Task σ) (posted : List Event) : Prop :=
  match t.stage with
  | .starting rest => posted ++ rest = t.events
  | .offering _ | .offered => posted = t.events
  | .ended outcome => posted = t.events ++ outcome.events

/-- Modules and events of a run. -/
structure Accounted (μ : Type) (s : Run σ) : Prop where
  modules : s.tasks.map (·.module) ++ s.processor.waiting = s.sent
  closed : s.processor.accepting = false →
    s.processor.waiting = [] ∧ ∀ t ∈ s.tasks, t.HasEnded
  ran : ∀ t ∈ s.tasks, ∃ e : Engine μ σ, e.PostsText ∧
    Guest.Bootstrap.run e t.module t.generation = (t.events, t.result)
  told : ∀ t ∈ s.tasks, t.Told (s.postedBy t.generation)
  known : ∀ p ∈ s.posted, p.1 = .driver ∨ ∃ t ∈ s.tasks, p.1 = .bootstrap t.generation

namespace Accounted

theorem fresh (sampleRate : Nat) : Accounted μ (.fresh sampleRate : Run σ) where
  modules := rfl
  closed h := by cases h
  ran t ht := by cases ht
  told t ht := by cases ht
  known p hp := by cases hp

theorem driver (h : Accounted μ s) {events : List Event} (tasks : s'.tasks = s.tasks)
    (posted : s'.posted = (s.post .driver events).posted) (sent : s'.sent = s.sent)
    (waiting : s'.processor.waiting = s.processor.waiting)
    (accepting : s'.processor.accepting = s.processor.accepting) : Accounted μ s' := by
  have same (g : Nat) : s'.postedBy g = s.postedBy g := by
    have added := postedBy_post s .driver events g
    rw [if_neg (by simp), List.append_nil] at added
    rw [← added, Run.postedBy, posted, Run.postedBy]
  constructor
  case modules => rw [tasks, waiting, sent]; exact h.modules
  case closed => rw [tasks, waiting, accepting]; exact h.closed
  case ran => rw [tasks]; exact h.ran
  case told =>
    intro t ht
    rw [same]
    exact h.told t (tasks ▸ ht)
  case known =>
    intro p hp
    rw [posted] at hp
    rw [tasks]
    rcases List.mem_append.mp hp with hp | hp
    · exact h.known p hp
    · obtain ⟨event, -, rfl⟩ := List.mem_map.mp hp
      exact .inl rfl

/-- A task that has not ended goes on, and posts events as it does. -/
theorem advance (h : Accounted μ s) (ordered : Ordered μ s) {k : Nat} {t : Task σ}
    (hk : s.tasks[k]? = some t) (going : ¬ t.HasEnded) (stage : Stage) (events : List Event)
    (told : ∀ posted, t.Told posted → Task.Told { t with stage := stage } (posted ++ events))
    (tasks : s'.tasks = s.tasks.set k { t with stage := stage })
    (posted : s'.posted = (s.post (.bootstrap t.generation) events).posted)
    (sent : s'.sent = s.sent) (waiting : s'.processor.waiting = s.processor.waiting)
    (accepting : s'.processor.accepting = s.processor.accepting) : Accounted μ s' := by
  have mem : t ∈ s.tasks := List.mem_of_getElem? hk
  obtain ⟨lt, ht⟩ := List.getElem?_eq_some_iff.mp hk
  have changed (g : Nat) : s'.postedBy g =
      s.postedBy g ++ if Origin.bootstrap t.generation = .bootstrap g then events else [] := by
    rw [← postedBy_post, Run.postedBy, posted, Run.postedBy]
  constructor
  case modules =>
    have same : (s.tasks.set k { t with stage := stage }).map (·.module) =
        s.tasks.map (·.module) := Keyed.map_set hk rfl
    rw [tasks, same, waiting, sent]
    exact h.modules
  case closed =>
    rw [accepting]
    intro ended
    exact absurd ((h.closed ended).2 t mem) going
  case ran =>
    rw [tasks]
    intro u hu
    rcases ordered.tasks.mem_set hk hu with rfl | ⟨hu, -⟩
    · exact h.ran t mem
    · exact h.ran u hu
  case told =>
    rw [tasks]
    intro u hu
    rcases ordered.tasks.mem_set hk hu with rfl | ⟨hu, hne⟩
    · rw [changed, if_pos rfl]
      exact told _ (h.told t mem)
    · rw [changed, if_neg (by simpa using hne.symm), List.append_nil]
      exact h.told u hu
  case known =>
    intro p hp
    rw [posted] at hp
    rw [tasks]
    have kept : ∀ u ∈ s.tasks, ∃ u' ∈ s.tasks.set k { t with stage := stage },
        u'.generation = u.generation := by
      intro u hu
      by_cases e : u.generation = t.generation
      · exact ⟨_, List.mem_set lt _, e.symm⟩
      · exact ⟨u, Keyed.mem_set_of_ne hk hu e, rfl⟩
    rcases List.mem_append.mp hp with hp | hp
    · rcases h.known p hp with driver | ⟨u, hu, origin⟩
      · exact .inl driver
      · obtain ⟨u', hu', same⟩ := kept u hu
        exact .inr ⟨u', hu', by rw [origin, same]⟩
    · obtain ⟨event, -, rfl⟩ := List.mem_map.mp hp
      exact .inr ⟨_, List.mem_set lt _, rfl⟩

theorem receive (h : Accounted μ s) (ordered : Ordered μ s) (e : Engine μ σ) (text : e.PostsText)
    (serving : s.processor.accepting = true) {m : Module} {rest : List Module}
    (waiting : s.processor.waiting = m :: rest) : Accounted μ (s.receive e m) := by
  have old : ∀ t ∈ (s.receive e m).tasks,
      t ∈ s.tasks ∨ t = .begin e m (s.processor.latest + 1) := by simp [Run.receive]
  have unheard : s.postedBy (s.processor.latest + 1) = [] := by
    simp only [Run.postedBy, List.map_eq_nil_iff, List.filter_eq_nil_iff, decide_eq_true_eq]
    intro p hp origin
    rcases h.known p hp with driver | ⟨t, ht, by_task⟩
    · rw [driver] at origin
      cases origin
    · have le := ordered.tasks.generation_le ht
      have same := Origin.bootstrap.inj (by_task.symm.trans origin)
      omega
  constructor
  case modules =>
    have left : (s.receive e m).processor.waiting = rest := by
      simp [Run.receive, Processor.receive, waiting, issue]
    rw [left]
    show (s.tasks ++ [Task.begin e m (s.processor.latest + 1)]).map (·.module) ++ rest = s.sent
    rw [← h.modules, waiting]
    simp [Task.begin]
  case closed =>
    intro ended
    have same : (s.receive e m).processor.accepting = s.processor.accepting := by
      simp [Run.receive, Processor.receive, waiting, issue]
    rw [same, serving] at ended
    cases ended
  case ran =>
    intro t ht
    rcases old t ht with ht | rfl
    · exact h.ran t ht
    · exact ⟨e, text, rfl⟩
  case told =>
    intro t ht
    rcases old t ht with ht | rfl
    · exact h.told t ht
    · show s.postedBy (s.processor.latest + 1) ++ _ = _
      rw [unheard]
      rfl
  case known =>
    intro p hp
    rcases h.known p hp with driver | ⟨t, ht, origin⟩
    · exact .inl driver
    · exact .inr ⟨t, List.mem_append_left _ ht, origin⟩

theorem close (h : Accounted μ s) (ordered : Ordered μ s) {k : Nat} {t : Task σ}
    (hk : s.tasks[k]? = some t) (going : ¬ t.HasEnded)
    (told : ∀ posted, t.Told posted → posted = t.events) (outcome : InstallOutcome) :
    Accounted μ (s.close k t outcome) := by
  refine h.advance ordered hk going (.ended outcome) outcome.events ?_ rfl rfl rfl rfl rfl
  intro posted all
  show posted ++ outcome.events = t.events ++ outcome.events
  rw [told posted all]

theorem step {a : Actor} (h : Accounted μ s) (ordered : Ordered μ s) (hs : Step μ a s s') :
    Accounted μ s' := by
  have unposted : (s.post .driver []).posted = s.posted := by simp [Run.post]
  cases hs with
  | send m left =>
    cases serving : s.processor.accepting with
    | false =>
      have same : s.send m = s := by simp [Run.send, Processor.send, serving]
      rwa [same]
    | true =>
      have accepted : s.send m = { s with
          processor := { s.processor with waiting := s.processor.waiting ++ [m] },
          sent := s.sent ++ [m] } := by simp [Run.send, Processor.send, serving]
      rw [accepted]
      refine ⟨?_, fun ended => ?_, h.ran, h.told, h.known⟩
      · show s.tasks.map (·.module) ++ (s.processor.waiting ++ [m]) = s.sent ++ [m]
        rw [← h.modules, List.append_assoc]
      · exact absurd (ended.symm.trans serving) (by decide)
  | leave => exact h.driver rfl unposted.symm rfl rfl rfl
  | receive e text serving waiting => exact h.receive ordered e text serving waiting
  | collect serving => exact h.driver rfl unposted.symm rfl rfl rfl
  | stop serving left waiting ended =>
    refine ⟨?_, fun _ => ⟨rfl, ended⟩, h.ran, h.told, h.known⟩
    have modules := h.modules
    rwa [waiting] at modules
  | @post _ k t event rest task stage =>
    refine h.advance ordered task (by simp [Task.HasEnded, stage]) (.starting rest) [event] ?_
      rfl rfl rfl rfl rfl
    intro posted all
    simp only [Task.Told, stage] at all
    simpa [Task.Told] using all
  | fail task stage result =>
    exact h.close ordered task (by simp [Task.HasEnded, stage])
      (fun posted all => by simpa [Task.Told, stage] using all) _
  | lock task stage result free =>
    refine h.advance ordered task (by simp [Task.HasEnded, stage]) (.offering _) [] ?_ rfl
      (by simp [Run.post, Run.setStage]) rfl rfl rfl
    intro posted all
    simpa [Task.Told, stage] using all
  | @offer _ k t i seen task stage result =>
    have going : ¬ t.HasEnded := by simp [Task.HasEnded, stage]
    have told : ∀ posted, t.Told posted → posted = t.events := fun posted all => by
      simpa [Task.Told, stage] using all
    by_cases latest : i.generation = seen
    · rw [Run.offer_of_latest s k t latest]
      refine h.advance ordered task going .offered [] ?_ rfl
        (by simp [Run.post, Run.setStage, Run.put]) rfl rfl rfl
      intro posted all
      simpa [Task.Told] using told posted all
    · rw [Run.offer_of_stale s k t latest]
      exact h.close ordered task going told _
  | announce task stage =>
    exact h.close ordered task (by simp [Task.HasEnded, stage])
      (fun posted all => by simpa [Task.Told, stage] using all) _
  | process e contended elapsed buffer free => exact h.driver rfl rfl rfl rfl rfl

theorem of_steps (h : Accounted μ s) (ordered : Ordered μ s) (hs : Steps μ s s') :
    Accounted μ s' := by
  have both : Accounted μ s' ∧ Ordered μ s' := by
    induction hs with
    | refl => exact ⟨h, ordered⟩
    | tail _ hs ih => exact ⟨ih.1.step ih.2 hs, ih.2.step hs⟩
  exact both.1

theorem of_reachable {sampleRate : Nat} (h : Reachable μ sampleRate s) : Accounted μ s :=
  (fresh sampleRate).of_steps (.fresh sampleRate) h

end Accounted

/-! ## What a bootstrap that installs nothing leaves alone -/

/-- The bootstrap of a generation has put its instance into the slot. -/
def InstalledIn (s : Run σ) (generation : Nat) : Prop :=
  ∃ (k : Nat) (t : Task σ), s.tasks[k]? = some t ∧ t.generation = generation ∧ t.Installed

theorem InstalledIn.setStage {generation k : Nat} {t : Task σ} {stage : Stage}
    (h : InstalledIn s generation) (hk : s.tasks[k]? = some t)
    (kept : t.Installed → stage = .offered ∨ stage = .ended .installed) :
    InstalledIn (s.setStage k t stage) generation := by
  obtain ⟨l, u, hl, same, installed⟩ := h
  by_cases e : k = l
  · subst e
    obtain rfl : u = t := Option.some.inj (hl.symm.trans hk)
    exact ⟨k, _, Run.getElem?_setStage hk stage, same, kept installed⟩
  · refine ⟨l, u, ?_, same, installed⟩
    rw [Run.setStage, List.getElem?_set_ne e, hl]

theorem InstalledIn.step {a : Actor} {generation : Nat} (h : InstalledIn s generation)
    (hs : Step μ a s s') : InstalledIn s' generation := by
  cases hs with
  | send m left =>
    obtain ⟨k, t, hk, rest⟩ := h
    exact ⟨k, t, by simpa [Run.send] using hk, rest⟩
  | leave => exact h
  | receive e text serving waiting =>
    obtain ⟨k, t, hk, rest⟩ := h
    refine ⟨k, t, ?_, rest⟩
    rw [Run.receive, List.getElem?_append_left (List.getElem?_eq_some_iff.mp hk).1, hk]
  | collect serving => exact h
  | stop serving left waiting ended => exact h
  | post task stage => exact h.setStage task (by simp [Task.Installed, stage])
  | fail task stage result => exact h.setStage task (by simp [Task.Installed, stage])
  | lock task stage result free => exact h.setStage task (by simp [Task.Installed, stage])
  | @offer _ k t i seen task stage result =>
    by_cases latest : i.generation = seen
    · rw [Run.offer_of_latest s k t latest]
      exact InstalledIn.setStage (s := s.put i) h task fun _ => .inl rfl
    · rw [Run.offer_of_stale s k t latest]
      exact h.setStage task (by simp [Task.Installed, stage])
  | announce task stage => exact h.setStage task fun _ => .inr rfl
  | process e contended elapsed buffer free => exact h

theorem InstalledIn.of_steps {generation : Nat} (h : InstalledIn s generation)
    (hs : Steps μ s s') : InstalledIn s' generation := by
  induction hs with
  | refl => exact h
  | tail _ hs ih => exact ih.step hs

/-- A step of a bootstrap touches the slot only to put its instance there, and never the driver. -/
theorem deck_of_step {generation : Nat} (hs : Step μ (.bootstrap generation) s s') :
    s'.processor.deck = s.processor.deck ∨ InstalledIn s' generation := by
  cases hs with
  | post task stage => exact .inl rfl
  | fail task stage result => exact .inl rfl
  | lock task stage result free => exact .inl rfl
  | @offer _ k t i seen task stage result =>
    by_cases latest : i.generation = seen
    · rw [Run.offer_of_latest s k t latest]
      exact .inr ⟨k, _, Run.getElem?_setStage (s := s.put i) task .offered, rfl, .inl rfl⟩
    · rw [Run.offer_of_stale s k t latest]
      exact .inl rfl
  | announce task stage => exact .inl rfl

/-- A bootstrap that turns out stale or failed changes nothing of the slot and the driver. -/
theorem deck_of_unsuccessful {sampleRate : Nat} {s₁ s₂ : Run σ} (h : Reachable μ sampleRate s)
    {t : Task σ} (ht : t ∈ s.tasks)
    (outcome : t.stage = .ended .stale ∨ ∃ fault, t.stage = .ended (.failed fault))
    (hs : Step μ (.bootstrap t.generation) s₁ s₂) (later : Steps μ s₂ s) :
    s₂.processor.deck = s₁.processor.deck := by
  rcases deck_of_step hs with same | put
  · exact same
  · obtain ⟨k, u, hk, same, installed⟩ := put.of_steps later
    obtain rfl : u = t :=
      (Ordered.of_reachable h).tasks.eq_of_generation (List.mem_of_getElem? hk) ht same
    rcases installed with installed | installed <;> rcases outcome with stale | ⟨fault, failed⟩
    · cases installed.symm.trans stale
    · cases installed.symm.trans failed
    · cases installed.symm.trans stale
    · cases installed.symm.trans failed

/-! ## The service gets to its end -/

/-- An upper bound of the steps that a task has still to take. -/
def Stage.left : Stage → Nat
  | .starting rest => rest.length + 3
  | .offering _ => 2
  | .offered => 1
  | .ended _ => 0

def left (s : Run σ) : Nat := (s.tasks.map (·.stage.left)).sum

theorem sum_set_lt {xs : List Nat} {k x y : Nat} (hk : xs[k]? = some x) (less : y < x) :
    (xs.set k y).sum < xs.sum := by
  induction xs generalizing k with
  | nil => cases hk
  | cons z xs ih =>
    cases k with
    | zero =>
      cases hk
      simp only [List.set_cons_zero, List.sum_cons]
      omega
    | succ k =>
      have := ih hk
      simp only [List.set_cons_succ, List.sum_cons]
      omega

theorem left_setStage {k : Nat} {t : Task σ} (hk : s.tasks[k]? = some t) {stage : Stage}
    (less : stage.left < t.stage.left) : left (s.setStage k t stage) < left s := by
  simp only [left, Run.setStage, List.map_set]
  exact sum_set_lt (by rw [List.getElem?_map, hk]; rfl) less

theorem frame_of_step {generation : Nat} (hs : Step μ (.bootstrap generation) s s') :
    s'.processor.waiting = s.processor.waiting ∧ s'.processor.accepting = s.processor.accepting ∧
      s'.senders = s.senders ∧ s'.sent = s.sent := by
  cases hs with
  | post task stage => exact ⟨rfl, rfl, rfl, rfl⟩
  | fail task stage result => exact ⟨rfl, rfl, rfl, rfl⟩
  | lock task stage result free => exact ⟨rfl, rfl, rfl, rfl⟩
  | @offer _ k t i seen task stage result =>
    by_cases latest : i.generation = seen
    · rw [Run.offer_of_latest s k t latest]
      exact ⟨rfl, rfl, rfl, rfl⟩
    · rw [Run.offer_of_stale s k t latest]
      exact ⟨rfl, rfl, rfl, rfl⟩
  | announce task stage => exact ⟨rfl, rfl, rfl, rfl⟩

theorem offer_less {k seen : Nat} {t : Task σ} (hk : s.tasks[k]? = some t)
    (stage : t.stage = .offering seen) {i : Instance σ} (result : t.result = .ok i) :
    ∃ g s', Step μ (.bootstrap g) s s' ∧ left s' < left s := by
  refine ⟨_, _, .offer hk stage result, ?_⟩
  by_cases latest : i.generation = seen
  · rw [Run.offer_of_latest s k t latest]
    exact left_setStage (s := s.put i) hk (by simp [stage, Stage.left])
  · rw [Run.offer_of_stale s k t latest]
    exact left_setStage hk (by simp [stage, Stage.left])

/-- As long as not all tasks have ended, one of them can take a step: a task that waits for the
slot waits for a task that can go on. -/
theorem exists_step_of_going (ordered : Ordered μ s) {t : Task σ} (ht : t ∈ s.tasks)
    (going : ¬ t.HasEnded) : ∃ g s', Step μ (.bootstrap g) s s' ∧ left s' < left s := by
  obtain ⟨k, hk⟩ := List.mem_iff_getElem?.mp ht
  cases stage : t.stage with
  | starting rest =>
    cases rest with
    | cons event rest =>
      exact ⟨_, _, .post hk stage, left_setStage hk (by simp [stage, Stage.left])⟩
    | nil =>
      cases result : t.result with
      | error fault =>
        exact ⟨_, _, .fail hk stage result, left_setStage hk (by simp [stage, Stage.left])⟩
      | ok i =>
        by_cases free : s.SlotFree
        · exact ⟨_, _, .lock hk stage result free,
            left_setStage hk (by simp [stage, Stage.left])⟩
        · obtain ⟨u, hu, held⟩ : ∃ u ∈ s.tasks, u.HoldsSlot := by
            simpa [Run.SlotFree] using free
          obtain ⟨j, result⟩ := ordered.tasks.succeeded u hu (.inl held)
          obtain ⟨seen, stage⟩ := held
          obtain ⟨l, hl⟩ := List.mem_iff_getElem?.mp hu
          exact offer_less hl stage result
  | offering seen =>
    obtain ⟨i, result⟩ := ordered.tasks.succeeded t ht (.inl ⟨seen, stage⟩)
    exact offer_less hk stage result
  | offered =>
    exact ⟨_, _, .announce hk stage, left_setStage hk (by simp [stage, Stage.left])⟩
  | ended outcome => exact absurd ⟨outcome, stage⟩ going

theorem settles (ordered : Ordered μ s) :
    ∃ s', Steps μ s s' ∧ (∀ t ∈ s'.tasks, t.HasEnded) ∧
      s'.processor.waiting = s.processor.waiting ∧
      s'.processor.accepting = s.processor.accepting ∧ s'.senders = s.senders ∧
      s'.sent = s.sent := by
  induction n : left s using Nat.strongRecOn generalizing s with
  | ind n ih =>
    by_cases ended : ∀ t ∈ s.tasks, t.HasEnded
    · exact ⟨s, .refl, ended, rfl, rfl, rfl, rfl⟩
    · obtain ⟨t, ht, going⟩ : ∃ t ∈ s.tasks, ¬ t.HasEnded := by simpa using ended
      obtain ⟨g, s₁, first, less⟩ := exists_step_of_going ordered ht going
      obtain ⟨s₂, others, ended, waiting, accepting, senders, sent⟩ :=
        ih (left s₁) (n ▸ less) (ordered.step first) rfl
      obtain ⟨waiting', accepting', senders', sent'⟩ := frame_of_step first
      exact ⟨s₂, first.steps.trans others, ended, waiting.trans waiting',
        accepting.trans accepting', senders.trans senders', sent.trans sent'⟩

theorem receives_all {e : Engine μ σ} (text : e.PostsText)
    (serving : s.processor.accepting = true) :
    ∃ s', Steps μ s s' ∧ s'.processor.waiting = [] ∧ s'.processor.accepting = true ∧
      s'.senders = s.senders ∧ s'.sent = s.sent := by
  induction hw : s.processor.waiting generalizing s with
  | nil => exact ⟨s, .refl, hw, serving, rfl, rfl⟩
  | cons m rest ih =>
    have left : (s.receive e m).processor.waiting = rest := by
      simp [Run.receive, Processor.receive, hw, issue]
    have open_still : (s.receive e m).processor.accepting = true := by
      simpa [Run.receive, Processor.receive, hw, issue] using serving
    obtain ⟨s', others, empty, accepting, senders, sent⟩ := ih open_still left
    exact ⟨s', (Step.receive e text serving hw).steps.trans others, empty, accepting, senders, sent⟩

/-- When nobody can send any more, the service can get to its end, and nothing is lost then. -/
theorem stops {sampleRate : Nat} (h : Reachable μ sampleRate s) {e : Engine μ σ}
    (text : e.PostsText) (gone : s.senders = false) :
    ∃ s', Steps μ s s' ∧ s'.processor.accepting = false ∧ s'.sent = s.sent := by
  cases serving : s.processor.accepting with
  | false => exact ⟨s, .refl, serving, rfl⟩
  | true =>
    obtain ⟨s₁, received, empty, serving, senders, sent⟩ := receives_all text serving
    obtain ⟨s₂, settled, ended, waiting, accepting, senders', sent'⟩ :=
      settles (Ordered.of_reachable (h.trans received))
    have stop : Step μ .service s₂ { s₂ with processor := s₂.processor.collect.abandon } :=
      .stop (accepting.trans serving) (senders'.trans (senders.trans gone))
        (waiting.trans empty) ended
    exact ⟨_, (received.trans settled).tail stop, rfl, sent'.trans sent⟩

/-! ## One outcome for each message -/

/-- A task that came to this outcome, and all that it posted. -/
structure Settled (μ : Type) (s : Run σ) (t : Task σ) (outcome : InstallOutcome) : Prop where
  ended : t.stage = .ended outcome
  ran : ∃ e : Engine μ σ, e.PostsText ∧
    Guest.Bootstrap.run e t.module t.generation = (t.events, t.result)
  text : AllText t.events
  posted : s.postedBy t.generation = t.events ++ outcome.events
  failed : ∀ fault, outcome = .failed fault ↔ t.result = .error fault
  stale : outcome = .stale → t.generation < s.processor.latest

theorem settled_of_ended {sampleRate : Nat} (h : Reachable μ sampleRate s) {t : Task σ}
    (ht : t ∈ s.tasks) {outcome : InstallOutcome} (ended : t.stage = .ended outcome) :
    Settled μ s t outcome := by
  have accounted := Accounted.of_reachable h
  have ordered := Ordered.of_reachable h
  obtain ⟨e, text, ran⟩ := accounted.ran t ht
  constructor
  case ended => exact ended
  case ran => exact ⟨e, text, ran⟩
  case text =>
    have posted := Guest.Bootstrap.run_isText text t.module t.generation
    rwa [ran] at posted
  case posted =>
    have told := accounted.told t ht
    rwa [Task.Told, ended] at told
  case failed =>
    intro fault
    constructor
    · rintro rfl
      exact ordered.tasks.failed t ht fault ended
    · intro result
      have unsuccessful : ¬ ∃ i, t.result = .ok i := by simp [result]
      cases outcome with
      | installed =>
        exact absurd (ordered.tasks.succeeded t ht (.inr (.inl (.inr ended)))) unsuccessful
      | stale => exact absurd (ordered.tasks.succeeded t ht (.inr (.inr ended))) unsuccessful
      | failed fault' =>
        have same := ordered.tasks.failed t ht fault' ended
        rw [result] at same
        cases same
        rfl
  case stale =>
    rintro rfl
    exact ordered.tasks.stale t ht ended

/-- By the time the service returns every message that was accepted, and nothing else, has had a
bootstrap with a generation of its own and has come to one outcome; its bootstrap has posted its
text and then the event for the outcome, if there is one. A bootstrap that turns out stale or
failed has changed nothing of the slot and the driver. The service does return once nobody can
send any more. -/
theorem every_message_has_one_outcome {sampleRate : Nat} {s : Run σ}
    (h : Reachable μ sampleRate s) :
    (s.processor.accepting = false →
      s.tasks.map (·.module) = s.sent ∧ s.tasks.map (·.generation) = List.range' 1 s.sent.length ∧
      (∀ t ∈ s.tasks, ∃ outcome, Settled μ s t outcome) ∧
      ∀ p ∈ s.posted, p.1 = .driver ∨ ∃ t ∈ s.tasks, p.1 = .bootstrap t.generation) ∧
    (∀ t ∈ s.tasks, (t.stage = .ended .stale ∨ ∃ fault, t.stage = .ended (.failed fault)) →
      ∀ s₁ s₂, Step μ (.bootstrap t.generation) s₁ s₂ → Steps μ s₂ s →
        s₂.processor.deck = s₁.processor.deck) ∧
    (∀ e : Engine μ σ, e.PostsText → s.senders = false →
      ∃ s', Steps μ s s' ∧ s'.processor.accepting = false ∧ s'.sent = s.sent) := by
  have accounted := Accounted.of_reachable h
  have ordered := Ordered.of_reachable h
  refine ⟨fun returned => ?_, ?_, fun e text gone => stops h text gone⟩
  · have modules : s.tasks.map (·.module) = s.sent := by
      have modules := accounted.modules
      rwa [(accounted.closed returned).1, List.append_nil] at modules
    refine ⟨modules, ?_, ?_, accounted.known⟩
    · rw [ordered.tasks.generations, ← modules, List.length_map]
    · intro t ht
      obtain ⟨outcome, ended⟩ := (accounted.closed returned).2 t ht
      exact ⟨outcome, settled_of_ended h ht ended⟩
  · intro t ht outcome s₁ s₂ hs later
    exact deck_of_unsuccessful h ht outcome hs later

/-- A message that is overtaken, one whose module is refused and one that is installed. -/
theorem three_messages_have_outcomes :
    ∃ s : Run Unit, Reachable Unit 48000 s ∧ s.processor.accepting = false ∧
      s.sent.length = 3 ∧
      s.posted = [(.bootstrap 2, .error "failed to instantiate module: no code"),
        (.bootstrap 3, .ready)] ∧
      ∀ t ∈ s.tasks, ∃ outcome, Settled Unit s t outcome := by
  have sent : Reachable Unit 48000 ((((Run.fresh 48000 : Run Unit).send
      (Guest.shortModule 1)).send Guest.emptyModule).send (Guest.shortModule 3)) :=
    ((Step.send _ rfl).steps.tail (.send _ rfl)).tail (.send _ rfl)
  have received := (((sent.tail .leave).tail
    (.receive .quiet Engine.quiet_postsText rfl rfl)).tail
    (.receive .quiet Engine.quiet_postsText rfl rfl)).tail
    (.receive .quiet Engine.quiet_postsText rfl rfl)
  have failed := received.tail (.fail (k := 1) rfl rfl rfl)
  have discarded := (failed.tail (.lock (k := 0) rfl rfl rfl (by decide))).tail
    (.offer (k := 0) rfl rfl rfl)
  have installed := ((discarded.tail (.lock (k := 2) rfl rfl rfl (by decide))).tail
    (.offer (k := 2) rfl rfl rfl)).tail (.announce (k := 2) rfl rfl)
  have returned := installed.tail (.stop rfl rfl rfl (by decide))
  have outcomes := (every_message_has_one_outcome returned).1 rfl
  exact ⟨_, returned, rfl, rfl, rfl, outcomes.2.2.1⟩

end LiveSound.Processor
