import LiveSound.Proofs.Compile.Serving
import LiveSound.Proofs.Compile.Sharing

/-!
# The eras of a session

A session goes through two eras. While it has no backend (`Seeking`), the calls take turns to look
for one, and all that was asked are their attempts, one after the other. The attempt that finds a
backend settles the session (`Settled`): from then on all that is asked are compiles with this
backend. Each step of a session stays in its era or is that attempt coming to its end
(`Seeking.step`, `Settled.step`).
-/

namespace LiveSound.Compile

open Dialog (told)

/-- An attempt that found no backend, and the call that made it. -/
structure Failed where
  visit : Nat
  asked : List Answered
  failure : Failure

/-- What was asked in an attempt, with the call that asked. -/
def Failed.events (t : Failed) : List (Nat × Answered) := t.asked.map (t.visit, ·)

def askedBy (k : Nat) (history : List (Nat × Answered)) : List Answered :=
  history.filterMap fun e => if e.1 = k then some e.2 else none

theorem askedBy_append (k : Nat) (h h' : List (Nat × Answered)) :
    askedBy k (h ++ h') = askedBy k h ++ askedBy k h' := List.filterMap_append

theorem askedBy_self (k : Nat) (asked : List Answered) :
    askedBy k (asked.map (k, ·)) = asked := by
  simp only [askedBy, List.filterMap_map, Function.comp_def, if_true, List.filterMap_some]

theorem askedBy_other {j k : Nat} (ne : j ≠ k) (asked : List Answered) :
    askedBy j (asked.map (k, ·)) = [] := by
  refine List.filterMap_eq_nil_iff.mpr fun e mem => ?_
  obtain ⟨a, -, rfl⟩ := List.mem_map.mp mem
  simp [ne.symm]

/-- How far a call is that asked all this with the backend of the session. -/
def Stage.Fits (c : DispatcherConfig) (v : Serving) (r : Request) (asked : List Answered) :
    Stage → Prop
  | .waiting => asked = []
  | .choosing rest => asked = [] ∧ rest = .done (⟨c, some v⟩, .ok v)
  | .obtained v' => asked = [] ∧ v' = v
  | .compiling v' rest => v' = v ∧ ∃ answers, asked = told compilingLine :: answers ∧
      (v.compile (m := Dialog) r).Leads answers rest
  | .ended none _ => asked = []
  | .ended (some v') result => v' = v ∧ ∃ answers, asked = told compilingLine :: answers ∧
      (v.compile (m := Dialog) r).Ends answers (v, result)

theorem Stage.Fits.asked {c : DispatcherConfig} {v : Serving} {r : Request}
    {asked : List Answered} {stage : Stage} (h : stage.Fits c v r asked) :
    asked = [] ∨ ∃ answers t, asked = told compilingLine :: answers ∧
      (v.compile (m := Dialog) r).Leads answers t := by
  unfold Stage.Fits at h
  split at h
  · exact .inl h
  · exact .inl h.1
  · exact .inl h.1
  · obtain ⟨-, answers, same, leads⟩ := h
    exact .inr ⟨answers, _, same, leads⟩
  · exact .inl h
  · obtain ⟨-, answers, same, leads⟩ := h
    exact .inr ⟨answers, _, same, leads⟩

def Stage.server? : Stage → Option Serving
  | .waiting | .choosing _ => none
  | .obtained v | .compiling v _ => some v
  | .ended v? _ => v?

def Stage.started : Stage → Bool
  | .compiling _ _ | .ended (some _) _ => true
  | _ => false

/-- It tells that it compiles once, when it has the backend. -/
theorem Stage.Fits.lines {c : DispatcherConfig} {v : Serving} (ready : v.Ready) {r : Request}
    {asked : List Answered} {stage : Stage} (h : stage.Fits c v r asked) :
    linesOf asked = if stage.started then [compilingLine] else [] := by
  have of_leads {answers : List Answered} {t : Dialog (Serving × Result)}
      (same : asked = told compilingLine :: answers)
      (leads : (v.compile (m := Dialog) r).Leads answers t) : linesOf asked = [compilingLine] := by
    rw [same, linesOf_told, Serving.lines_compile ready leads]
  unfold Stage.Fits at h
  split at h
  · rw [h]
    rfl
  · rw [h.1]
    rfl
  · rw [h.1]
    rfl
  · obtain ⟨-, answers, same, leads⟩ := h
    exact of_leads same leads
  · rw [h]
    rfl
  · obtain ⟨-, answers, same, leads⟩ := h
    exact of_leads same leads

namespace Shared

variable {c : DispatcherConfig} {s s' : Shared} {k : Nat} {u : Visit} {failed : List Failed}

/-- A call came back with this result and never had a backend. -/
def Unserved (visits : List Visit) (k : Nat) (result : Result) : Prop :=
  ∃ u, visits[k]? = some u ∧ u.stage = .ended none result

/-- These are the attempts that failed, and the calls that came back with their failures. -/
structure Failures (c : DispatcherConfig) (visits : List Visit) (failed : List Failed) :
    Prop where
  attempt : ∀ t ∈ failed, Attempt c t.asked (.error t.failure)
  ended : ∀ k result, Unserved visits k result ↔
    ∃ t ∈ failed, t.visit = k ∧ result = .failure t.failure

/-- There is no backend yet; the call whose turn it is, and no other, is making an attempt. -/
structure Seeking (c : DispatcherConfig) (s : Shared) (failed : List Failed) : Prop where
  dispatcher : s.dispatcher = ⟨c, none⟩
  failures : Failures c s.visits failed
  idle : ∀ (k : Nat) (u : Visit), s.visits[k]? = some u → s.turn ≠ some k →
    u.stage = .waiting ∨ ∃ result, u.stage = .ended none result
  between : s.turn = none → s.history = failed.flatMap Failed.events
  attempting : ∀ k, s.turn = some k → ∃ u rest asked, s.visits[k]? = some u ∧
    u.stage = .choosing rest ∧
    (Dispatcher.establish Dialog.tell ⟨c, none⟩).Leads asked rest ∧
    s.history = failed.flatMap Failed.events ++ asked.map (k, ·)

/-- A session that has a backend: what happened until it was found, and since. -/
structure Past where
  failed : List Failed
  /-- The call that found the backend. -/
  finder : Nat
  asked : List Answered
  since : List (Nat × Answered)

def Past.history (p : Past) : List (Nat × Answered) :=
  p.failed.flatMap Failed.events ++ p.asked.map (p.finder, ·) ++ p.since

structure Settled (c : DispatcherConfig) (v : Serving) (s : Shared) (p : Past) : Prop where
  dispatcher : s.dispatcher = ⟨c, some v⟩
  failures : Failures c s.visits p.failed
  found : Attempt c p.asked (.ok v)
  history : s.history = p.history
  stages : ∀ (k : Nat) (u : Visit), s.visits[k]? = some u →
    u.stage.Fits c v u.request (askedBy k p.since)
  turn : ∀ (k : Nat) (u : Visit) rest, s.visits[k]? = some u → u.stage = .choosing rest →
    s.turn = some k
  owner : ∀ e ∈ p.since, e.1 < s.visits.length
  started : linesOf (p.since.map (·.2)) =
    List.replicate (s.visits.countP fun u : Visit => u.stage.started) compilingLine

/-! ## Failures -/

theorem Failures.receive (h : Failures c s.visits failed) (r : Request) :
    Failures c (s.receive r).visits failed := by
  refine ⟨h.attempt, fun k result => ?_⟩
  rw [← h.ended]
  constructor
  · rintro ⟨u, visit, stage⟩
    rcases (lookup_receive s r).mp visit with old | ⟨-, rfl⟩
    · exact ⟨u, old, stage⟩
    · cases stage
  · rintro ⟨u, visit, stage⟩
    exact ⟨u, (lookup_receive s r).mpr (.inl visit), stage⟩

/-- A call goes on and comes to no failure. -/
theorem Failures.goes (h : Failures c s.visits failed) (visit : s.visits[k]? = some u)
    {stage : Stage} (before : ∀ result, u.stage ≠ .ended none result)
    (after : ∀ result, stage ≠ .ended none result) :
    Failures c (s.goes k u stage).visits failed := by
  refine ⟨h.attempt, fun j result => ?_⟩
  rw [← h.ended]
  constructor
  · rintro ⟨w, there, ended⟩
    rcases (lookup_goes visit stage).mp there with ⟨-, rfl⟩ | ⟨-, old⟩
    · exact absurd ended (after result)
    · exact ⟨w, old, ended⟩
  · rintro ⟨w, there, ended⟩
    have ne : j ≠ k := by
      rintro rfl
      rw [visit] at there
      cases there
      exact before result ended
    exact ⟨w, (lookup_goes visit stage).mpr (.inr ⟨ne, there⟩), ended⟩

theorem Failures.fail (h : Failures c s.visits failed) (visit : s.visits[k]? = some u)
    (before : ∀ result, u.stage ≠ .ended none result) {asked : List Answered} {failure : Failure}
    (attempt : Attempt c asked (.error failure)) :
    Failures c (s.goes k u (.ended none (.failure failure))).visits
      (failed ++ [⟨k, asked, failure⟩]) := by
  constructor
  case attempt =>
    intro t mem
    rcases List.mem_append.mp mem with old | new
    · exact h.attempt t old
    · rw [List.mem_singleton.mp new]
      exact attempt
  case ended =>
    intro j result
    constructor
    · rintro ⟨w, there, ended⟩
      rcases (lookup_goes visit _).mp there with ⟨rfl, rfl⟩ | ⟨-, old⟩
      · cases ended
        exact ⟨_, List.mem_append_right _ (List.mem_singleton_self _), rfl, rfl⟩
      · obtain ⟨t, mem, rest⟩ := (h.ended j result).mp ⟨w, old, ended⟩
        exact ⟨t, List.mem_append_left _ mem, rest⟩
    · rintro ⟨t, mem, rfl, rfl⟩
      rcases List.mem_append.mp mem with old | new
      · obtain ⟨w, there, ended⟩ := (h.ended t.visit _).mpr ⟨t, old, rfl, rfl⟩
        have ne : t.visit ≠ k := by
          intro same
          rw [same, visit] at there
          cases there
          exact before _ ended
        exact ⟨w, (lookup_goes visit _).mpr (.inr ⟨ne, there⟩), ended⟩
      · rw [List.mem_singleton.mp new]
        exact ⟨_, (lookup_goes visit _).mpr (.inl ⟨rfl, rfl⟩), rfl⟩

/-! ## While there is no backend -/

theorem Seeking.start (c : DispatcherConfig) : Seeking c (.start c) [] where
  dispatcher := rfl
  failures := ⟨by simp, by simp [Shared.start, Unserved]⟩
  idle := by simp [Shared.start]
  between _ := rfl
  attempting := by simp [Shared.start]

/-- A call that looks for a backend has its turn. -/
theorem Seeking.attempt_of (h : Seeking c s failed) (visit : s.visits[k]? = some u)
    {rest : Dialog (Dispatcher × Except Failure Serving)} (stage : u.stage = .choosing rest) :
    s.turn = some k ∧ ∃ asked, (Dispatcher.establish Dialog.tell ⟨c, none⟩).Leads asked rest ∧
      s.history = failed.flatMap Failed.events ++ asked.map (k, ·) := by
  have turn : s.turn = some k := Decidable.byContradiction fun other => by
    rcases h.idle k u visit other with waiting | ⟨result, ended⟩
    · cases stage.symm.trans waiting
    · cases stage.symm.trans ended
  obtain ⟨u', rest', asked, visit', stage', leads, history⟩ := h.attempting k turn
  rw [visit] at visit'
  cases visit'
  rw [stage] at stage'
  cases stage'
  exact ⟨turn, asked, leads, history⟩

/-- A call waits, looks for a backend or came back without one. -/
theorem Seeking.unserved (h : Seeking c s failed) (visit : s.visits[k]? = some u) :
    u.stage = .waiting ∨ (∃ rest, u.stage = .choosing rest) ∨
      ∃ result, u.stage = .ended none result := by
  by_cases turn : s.turn = some k
  · obtain ⟨u', rest, -, visit', stage, -⟩ := h.attempting k turn
    rw [visit] at visit'
    cases visit'
    exact .inr (.inl ⟨rest, stage⟩)
  · exact (h.idle k u visit turn).imp_right .inr

/-- No call has a backend. -/
theorem Seeking.server?_eq_none (h : Seeking c s failed) (visit : s.visits[k]? = some u) :
    u.stage.server? = none := by
  rcases h.unserved visit with waiting | ⟨rest, choosing⟩ | ⟨result, ended⟩
  · rw [waiting, Stage.server?]
  · rw [choosing, Stage.server?]
  · rw [ended, Stage.server?]

theorem Seeking.receive (h : Seeking c s failed) (r : Request) :
    Seeking c (s.receive r) failed where
  dispatcher := h.dispatcher
  failures := h.failures.receive r
  idle k u visit other := by
    rcases (lookup_receive s r).mp visit with old | ⟨-, rfl⟩
    · exact h.idle k u old other
    · exact .inl rfl
  between := h.between
  attempting k turn := by
    obtain ⟨u, rest, asked, visit, attempting⟩ := h.attempting k turn
    exact ⟨u, rest, asked, (lookup_receive s r).mpr (.inl visit), attempting⟩

/-- A call begins an attempt. -/
theorem Seeking.take (h : Seeking c s failed) (visit : s.visits[k]? = some u)
    (stage : u.stage = .waiting) (free : s.turn = none) :
    Seeking c ((s.take k).goes k u (.choosing (s.dispatcher.establish Dialog.tell))) failed where
  dispatcher := h.dispatcher
  failures := h.failures.goes visit (by simp [stage]) nofun
  idle j w there other := by
    rcases (lookup_goes (s := s.take k) visit _).mp there with ⟨rfl, -⟩ | ⟨-, old⟩
    · exact absurd rfl other
    · exact h.idle j w old (by simp [free])
  between := nofun
  attempting j turn := by
    cases turn
    refine ⟨_, _, [], getElem?_goes (s := s.take k) visit _, rfl, ?_, ?_⟩
    · rw [h.dispatcher]
      exact .refl _
    · simpa [goes, Shared.take] using h.between free

theorem Seeking.choose (h : Seeking c s failed) (visit : s.visits[k]? = some u) {q : Question}
    {next : q.Answer → Dialog (Dispatcher × Except Failure Serving)}
    (stage : u.stage = .choosing (.ask q next)) (answer : q.Answer) :
    Seeking c ((s.goes k u (.choosing (next answer))).hears k ⟨q, answer⟩) failed := by
  obtain ⟨turn, asked, leads, history⟩ := h.attempt_of visit stage
  constructor
  case dispatcher => exact h.dispatcher
  case failures => exact h.failures.goes visit (by simp [stage]) nofun
  case idle =>
    intro j w there other
    rcases (lookup_goes visit _).mp there with ⟨rfl, -⟩ | ⟨-, old⟩
    · exact absurd turn other
    · exact h.idle j w old other
  case between =>
    intro free
    cases turn.symm.trans free
  case attempting =>
    intro j turn'
    cases Option.some.inj (turn.symm.trans turn')
    refine ⟨_, _, _, getElem?_goes visit _, rfl, leads.answer answer, ?_⟩
    simp [hears, goes, history]

/-- The attempt came to nothing, and the next one can begin. -/
theorem Seeking.fail (h : Seeking c s failed) (visit : s.visits[k]? = some u) {d : Dispatcher}
    {failure : Failure} (stage : u.stage = .choosing (.done (d, .error failure))) :
    ∃ asked, Seeking c ((s.give d).goes k u (.ended none (.failure failure)))
      (failed ++ [⟨k, asked, failure⟩]) := by
  obtain ⟨turn, asked, leads, history⟩ := h.attempt_of visit stage
  obtain ⟨attempt, same⟩ := establish_ends leads
  obtain rfl : d = ⟨c, none⟩ := same
  refine ⟨asked, ?_⟩
  constructor
  case dispatcher => rfl
  case failures => exact h.failures.fail visit (by simp [stage]) attempt
  case idle =>
    intro j w there _
    rcases (lookup_goes (s := s.give _) visit _).mp there with ⟨rfl, rfl⟩ | ⟨ne, old⟩
    · exact .inr ⟨_, rfl⟩
    · refine h.idle j w old ?_
      rw [turn]
      exact fun same => ne (Option.some.inj same).symm
  case between =>
    intro _
    simp [goes, give, history, Failed.events]
  case attempting => simp [goes, give]

/-- The attempt found a backend. All other calls are still waiting or have failed. -/
theorem Seeking.obtain (h : Seeking c s failed) (visit : s.visits[k]? = some u) {d : Dispatcher}
    {v : Serving} (stage : u.stage = .choosing (.done (d, .ok v))) :
    ∃ asked, Settled c v ((s.give d).goes k u (.obtained v)) ⟨failed, k, asked, []⟩ := by
  obtain ⟨turn, asked, leads, history⟩ := h.attempt_of visit stage
  obtain ⟨attempt, same⟩ := establish_ends leads
  obtain rfl : d = ⟨c, some v⟩ := same
  have others (j : Nat) (w : Visit)
      (there : ((s.give ⟨c, some v⟩).goes k u (.obtained v)).visits[j]? = some w) :
      w.stage = .obtained v ∨ w.stage = .waiting ∨ ∃ result, w.stage = .ended none result := by
    rcases (lookup_goes (s := s.give _) visit _).mp there with ⟨rfl, rfl⟩ | ⟨ne, old⟩
    · exact .inl rfl
    · refine .inr (h.idle j w old ?_)
      rw [turn]
      exact fun same => ne (Option.some.inj same).symm
  refine ⟨asked, ?_⟩
  constructor
  case dispatcher => rfl
  case failures => exact h.failures.goes visit (by simp [stage]) nofun
  case found => exact attempt
  case history => simp [goes, give, history, Past.history]
  case stages =>
    intro j w there
    rcases others j w there with obtained | waiting | ⟨result, ended⟩
    · rw [obtained]
      exact ⟨rfl, rfl⟩
    · rw [waiting]
      rfl
    · rw [ended]
      rfl
  case turn =>
    intro j w rest there choosing
    rcases others j w there with obtained | waiting | ⟨result, ended⟩
    · cases obtained.symm.trans choosing
    · cases waiting.symm.trans choosing
    · cases ended.symm.trans choosing
  case owner => exact fun e mem => absurd mem List.not_mem_nil
  case started =>
    have none_started : (((s.give ⟨c, some v⟩).goes k u (.obtained v)).visits.countP
        fun u : Visit => u.stage.started) = 0 := by
      refine List.countP_eq_zero.mpr fun w mem => ?_
      obtain ⟨j, there⟩ := List.mem_iff_getElem?.mp mem
      rcases others j w there with obtained | waiting | ⟨result, ended⟩
      · simp [obtained, Stage.started]
      · simp [waiting, Stage.started]
      · simp [ended, Stage.started]
    exact (congrArg (List.replicate · compilingLine) none_started).symm

theorem Seeking.step (h : Seeking c s failed) (step : Step s s') :
    (∃ more, Seeking c s' (failed ++ more)) ∨
      ∃ v p, Settled c v s' p ∧ p.failed = failed := by
  cases step with
  | receive r => exact .inl ⟨[], by simpa using h.receive r⟩
  | take visit stage free => exact .inl ⟨[], by simpa using h.take visit stage free⟩
  | choose visit stage answer => exact .inl ⟨[], by simpa using h.choose visit stage answer⟩
  | obtain visit stage =>
    obtain ⟨asked, settled⟩ := h.obtain visit stage
    exact .inr ⟨_, _, settled, rfl⟩
  | fail visit stage =>
    obtain ⟨asked, seeking⟩ := h.fail visit stage
    exact .inl ⟨_, seeking⟩
  | announce visit stage =>
    have none := h.server?_eq_none visit
    rw [stage] at none
    cases none
  | compile visit stage answer =>
    have none := h.server?_eq_none visit
    rw [stage] at none
    cases none
  | finish visit stage =>
    have none := h.server?_eq_none visit
    rw [stage] at none
    cases none

/-! ## With a backend -/

theorem countP_goes (visit : s.visits[k]? = some u) (stage : Stage)
    (grows : u.stage.started.toNat ≤ stage.started.toNat) :
    ((s.goes k u stage).visits.countP fun u : Visit => u.stage.started) =
      (s.visits.countP fun u : Visit => u.stage.started) +
        (stage.started.toNat - u.stage.started.toNat) := by
  obtain ⟨lt, same⟩ := List.getElem?_eq_some_iff.mp visit
  have mem : u ∈ s.visits := List.mem_of_getElem? visit
  have set := List.countP_set (p := fun u : Visit => u.stage.started)
    (a := { u with stage := stage }) lt
  rw [same] at set
  rw [goes, set]
  cases before : u.stage.started with
  | false => cases after : stage.started <;> simp
  | true =>
    have positive : 0 < s.visits.countP fun u : Visit => u.stage.started :=
      List.countP_pos_iff.mpr ⟨u, mem, before⟩
    rw [before] at grows
    cases after : stage.started with
    | false => simp [after] at grows
    | true =>
      simp
      omega

theorem Settled.moves {v : Serving} {p : Past} (h : Settled c v s p)
    (visit : s.visits[k]? = some u) {stage : Stage} (asked : List Answered)
    (dispatcher : s'.dispatcher = s.dispatcher) (visits : s'.visits = (s.goes k u stage).visits)
    (history : s'.history = s.history ++ asked.map (k, ·))
    (before : ∀ result, u.stage ≠ .ended none result) (after : ∀ result, stage ≠ .ended none result)
    (fits : stage.Fits c v u.request (askedBy k p.since ++ asked))
    (own : ∀ rest, stage = .choosing rest → s'.turn = some k)
    (others : ∀ j, j ≠ k → s.turn = some j → s'.turn = some j)
    (grows : u.stage.started.toNat ≤ stage.started.toNat)
    (lines : linesOf asked =
      List.replicate (stage.started.toNat - u.stage.started.toNat) compilingLine) :
    Settled c v s' { p with since := p.since ++ asked.map (k, ·) } where
  dispatcher := dispatcher.trans h.dispatcher
  failures := visits ▸ h.failures.goes visit before after
  found := h.found
  history := by simp [history, h.history, Past.history]
  stages j w there := by
    rw [askedBy_append]
    rw [visits] at there
    rcases (lookup_goes visit stage).mp there with ⟨rfl, rfl⟩ | ⟨ne, old⟩
    · rw [askedBy_self]
      exact fits
    · rw [askedBy_other ne, List.append_nil]
      exact h.stages j w old
  turn j w rest there choosing := by
    rw [visits] at there
    rcases (lookup_goes visit stage).mp there with ⟨rfl, rfl⟩ | ⟨ne, old⟩
    · exact own rest choosing
    · exact others j ne (h.turn j w rest old choosing)
  owner e mem := by
    rw [visits, goes, List.length_set]
    rcases List.mem_append.mp mem with old | new
    · exact h.owner e old
    · obtain ⟨a, -, rfl⟩ := List.mem_map.mp new
      exact (List.getElem?_eq_some_iff.mp visit).1
  started := by
    have count := countP_goes visit stage grows
    have split : linesOf ((p.since ++ asked.map (k, ·)).map (·.2)) =
        linesOf (p.since.map (·.2)) ++ linesOf asked := by
      simp [linesOf_append, Function.comp_def]
    rw [split, h.started, lines, List.replicate_append_replicate, ← count, visits]

theorem Settled.moves_silently {v : Serving} {p : Past} (h : Settled c v s p)
    (visit : s.visits[k]? = some u) {stage : Stage}
    (dispatcher : s'.dispatcher = s.dispatcher) (visits : s'.visits = (s.goes k u stage).visits)
    (history : s'.history = s.history)
    (before : ∀ result, u.stage ≠ .ended none result) (after : ∀ result, stage ≠ .ended none result)
    (fits : stage.Fits c v u.request (askedBy k p.since))
    (own : ∀ rest, stage = .choosing rest → s'.turn = some k)
    (others : ∀ j, j ≠ k → s.turn = some j → s'.turn = some j)
    (same : stage.started = u.stage.started) : Settled c v s' p := by
  have moved := h.moves visit [] dispatcher visits (by simp [history]) before after
    (by rwa [List.append_nil]) own others (same ▸ Nat.le_refl _)
    (by simp [same, linesOf])
  simpa using moved

theorem Settled.receive {v : Serving} {p : Past} (h : Settled c v s p) (r : Request) :
    Settled c v (s.receive r) p where
  dispatcher := h.dispatcher
  failures := h.failures.receive r
  found := h.found
  history := h.history
  stages k u visit := by
    rcases (lookup_receive s r).mp visit with old | ⟨rfl, rfl⟩
    · exact h.stages k u old
    · refine List.filterMap_eq_nil_iff.mpr fun e mem => ?_
      simp [Nat.ne_of_lt (h.owner e mem)]
  turn k u rest visit choosing := by
    rcases (lookup_receive s r).mp visit with old | ⟨-, rfl⟩
    · exact h.turn k u rest old choosing
    · cases choosing
  owner e mem := by
    have lt := h.owner e mem
    simp only [Shared.receive, List.length_append, List.length_singleton]
    omega
  started := by
    rw [h.started]
    simp [Shared.receive, Stage.started]

theorem Settled.step {v : Serving} {p : Past} (h : Settled c v s p) (step : Step s s') :
    ∃ more, Settled c v s' { p with since := p.since ++ more } := by
  have ready := h.found.of_ok.1
  have quiet {t : Shared} (settled : Settled c v t p) :
      ∃ more, Settled c v t { p with since := p.since ++ more } := ⟨[], by simpa using settled⟩
  cases step with
  | receive r => exact quiet (h.receive r)
  | @take k u visit stage free =>
    have fits := h.stages k u visit
    rw [stage] at fits
    refine quiet (h.moves_silently visit rfl rfl rfl (by simp [stage]) (by simp) ?_ ?_ ?_ ?_)
    · rw [h.dispatcher]
      exact ⟨fits, rfl⟩
    · exact fun _ _ => rfl
    · intro j _ turn
      cases free.symm.trans turn
    · rw [stage]
      rfl
  | @choose k u q next visit stage answer =>
    have fits := h.stages k u visit
    rw [stage] at fits
    cases fits.2
  | @obtain k u d v' visit stage =>
    have fits := h.stages k u visit
    rw [stage] at fits
    obtain ⟨none, same⟩ := fits
    cases same
    have turn := h.turn k u _ visit stage
    refine quiet (h.moves_silently visit h.dispatcher.symm rfl rfl (by simp [stage]) (by simp)
      ⟨none, rfl⟩ (by simp) ?_ ?_)
    · intro j ne other
      exact absurd (Option.some.inj (other.symm.trans turn)) ne
    · rw [stage]
      rfl
  | @fail k u d failure visit stage =>
    have fits := h.stages k u visit
    rw [stage] at fits
    cases fits.2
  | @announce k u v' visit stage =>
    have fits := h.stages k u visit
    rw [stage] at fits
    obtain ⟨none, rfl⟩ := fits
    refine ⟨_, h.moves visit [told compilingLine] rfl rfl rfl (by simp [stage]) (by simp)
      ⟨rfl, [], by rw [none, List.nil_append], .refl _⟩ (by simp) (fun _ _ turn => turn) ?_ ?_⟩
    · rw [stage]
      exact Nat.zero_le _
    · rw [stage]
      rfl
  | @compile k u v' q next visit stage answer =>
    have fits := h.stages k u visit
    rw [stage] at fits
    obtain ⟨rfl, answers, asked, leads⟩ := fits
    refine ⟨_, h.moves visit [⟨q, answer⟩] rfl rfl rfl (by simp [stage]) (by simp)
      ⟨rfl, answers ++ [⟨q, answer⟩], by rw [asked, List.cons_append], leads.answer answer⟩
      (by simp) (fun _ _ turn => turn) ?_ ?_⟩
    · rw [stage]
      exact Nat.le_refl _
    · have silent := Serving.lines_compile ready (leads.answer answer)
      rw [linesOf_append] at silent
      rw [stage, (List.append_eq_nil_iff.mp silent).2]
      rfl
  | @finish k u v' v'' result visit stage =>
    have fits := h.stages k u visit
    rw [stage] at fits
    obtain ⟨rfl, answers, asked, leads⟩ := fits
    obtain rfl := Serving.eq_of_compile ready leads
    refine quiet (h.moves_silently visit ?_ rfl rfl (by simp [stage]) (by simp)
      ⟨rfl, answers, asked, leads⟩ (by simp) (fun _ _ turn => turn) ?_)
    · rw [keep, goes, h.dispatcher]
    · rw [stage]
      rfl

theorem Settled.steps {v : Serving} {p : Past} (h : Settled c v s p) (steps : Steps s s') :
    ∃ more, Settled c v s' { p with since := p.since ++ more } := by
  induction steps with
  | refl => exact ⟨[], by simpa using h⟩
  | tail _ step ih =>
    obtain ⟨more, settled⟩ := ih
    obtain ⟨last, settled'⟩ := settled.step step
    refine ⟨more ++ last, ?_⟩
    rw [← List.append_assoc]
    exact settled'

theorem era_of_reachable (h : Reachable c s) :
    (∃ failed, Seeking c s failed) ∨ ∃ v p, Settled c v s p := by
  induction h with
  | refl => exact .inl ⟨[], .start c⟩
  | tail _ step ih =>
    rcases ih with ⟨failed, seeking⟩ | ⟨v, p, settled⟩
    · exact (seeking.step step).imp (fun ⟨more, h⟩ => ⟨_, h⟩) fun ⟨v, p, h, _⟩ => ⟨v, p, h⟩
    · obtain ⟨more, settled'⟩ := settled.step step
      exact .inr ⟨v, _, settled'⟩

end Shared

end LiveSound.Compile
