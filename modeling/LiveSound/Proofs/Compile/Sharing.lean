import LiveSound.Proofs.Compile.Attempts
import LiveSound.Proofs.Data.Keyed

/-!
# Calls that share a dispatcher

Any number of calls of one dispatcher can be under way at the same time. A call that comes in waits
for its turn to look for the backend, which one call at a time can do (`Dispatcher.establish`). When
it has the backend it gives the turn away, tells that it compiles, and compiles
(`Serving.compile`), side by side with the others.

`Step` says what can happen next, in pieces as small as the others can come between: one question of
one call and its answer. The answers are arbitrary, so anything may have happened to files and
network since the question before. `Shared` keeps all questions and answers and whose they were. A
call that nobody comes between does what `Dispatcher.compile` says (`compile_steps`).
-/

namespace LiveSound.Compile

open Dialog (told)

def compilingLine : String := "Compiling..."

/-- How far a call has come. -/
inductive Stage where
  /-- It waits for its turn. -/
  | waiting
  /-- It is its turn, and this is left to do until it has a backend. -/
  | choosing (rest : Dialog (Dispatcher × Except Failure Serving))
  | obtained (v : Serving)
  /-- This is left to do until it has a result. -/
  | compiling (v : Serving) (rest : Dialog (Serving × Result))
  /-- It came back with a result, and had this backend. -/
  | ended (v? : Option Serving) (result : Result)

structure Visit where
  request : Request
  stage : Stage

structure Shared where
  dispatcher : Dispatcher
  /-- The call whose turn it is. -/
  turn : Option Nat
  /-- All calls that came in, oldest first. -/
  visits : List Visit
  /-- What was asked and answered, oldest first, with the call that asked. -/
  history : List (Nat × Answered)

namespace Shared

def start (c : DispatcherConfig) : Shared := ⟨.ofConfig c, none, [], []⟩

/-- A call comes in. -/
def receive (s : Shared) (r : Request) : Shared := { s with visits := s.visits ++ [⟨r, .waiting⟩] }

def goes (s : Shared) (k : Nat) (u : Visit) (stage : Stage) : Shared :=
  { s with visits := s.visits.set k { u with stage := stage } }

/-- A call has asked something and has this answer. -/
def hears (s : Shared) (k : Nat) (a : Answered) : Shared :=
  { s with history := s.history ++ [(k, a)] }

/-- It is the turn of a call. -/
def take (s : Shared) (k : Nat) : Shared := { s with turn := some k }

/-- The turn of a call is over, with what it made of the dispatcher. -/
def give (s : Shared) (d : Dispatcher) : Shared := { s with dispatcher := d, turn := none }

/-- The backend of the session as a compile leaves it. -/
def keep (s : Shared) (v : Serving) : Shared :=
  { s with dispatcher := { s.dispatcher with active := some v } }

/-- What can happen next. -/
inductive Step : Shared → Shared → Prop where
  | receive {s : Shared} (r : Request) : Step s (s.receive r)
  | take {s : Shared} {k : Nat} {u : Visit} (visit : s.visits[k]? = some u)
      (stage : u.stage = .waiting) (free : s.turn = none) :
      Step s ((s.take k).goes k u (.choosing (s.dispatcher.establish Dialog.tell)))
  | choose {s : Shared} {k : Nat} {u : Visit} {q : Question}
      {next : q.Answer → Dialog (Dispatcher × Except Failure Serving)}
      (visit : s.visits[k]? = some u) (stage : u.stage = .choosing (.ask q next))
      (answer : q.Answer) :
      Step s ((s.goes k u (.choosing (next answer))).hears k ⟨q, answer⟩)
  | obtain {s : Shared} {k : Nat} {u : Visit} {d : Dispatcher} {v : Serving}
      (visit : s.visits[k]? = some u) (stage : u.stage = .choosing (.done (d, .ok v))) :
      Step s ((s.give d).goes k u (.obtained v))
  | fail {s : Shared} {k : Nat} {u : Visit} {d : Dispatcher} {failure : Failure}
      (visit : s.visits[k]? = some u) (stage : u.stage = .choosing (.done (d, .error failure))) :
      Step s ((s.give d).goes k u (.ended none (.failure failure)))
  | announce {s : Shared} {k : Nat} {u : Visit} {v : Serving}
      (visit : s.visits[k]? = some u) (stage : u.stage = .obtained v) :
      Step s ((s.goes k u (.compiling v (v.compile u.request))).hears k (told compilingLine))
  | compile {s : Shared} {k : Nat} {u : Visit} {v : Serving} {q : Question}
      {next : q.Answer → Dialog (Serving × Result)}
      (visit : s.visits[k]? = some u) (stage : u.stage = .compiling v (.ask q next))
      (answer : q.Answer) :
      Step s ((s.goes k u (.compiling v (next answer))).hears k ⟨q, answer⟩)
  | finish {s : Shared} {k : Nat} {u : Visit} {v v' : Serving} {result : Result}
      (visit : s.visits[k]? = some u) (stage : u.stage = .compiling v (.done (v', result))) :
      Step s ((s.keep v').goes k u (.ended (some v') result))

/-- Any number of steps. -/
inductive Steps (s : Shared) : Shared → Prop where
  | refl : Steps s s
  | tail {s' s'' : Shared} : Steps s s' → Step s' s'' → Steps s s''

/-- The states of a session, however many calls come in and whatever is answered. -/
def Reachable (c : DispatcherConfig) (s : Shared) : Prop := Steps (.start c) s

variable {s s' s'' : Shared} {k : Nat} {u : Visit}

theorem Steps.trans (h : Steps s s') (h' : Steps s' s'') : Steps s s'' := by
  induction h' with
  | refl => exact h
  | tail _ step ih => exact .tail ih step

theorem Step.steps (h : Step s s') : Steps s s' := .tail .refl h

theorem getElem?_goes (hk : s.visits[k]? = some u) (stage : Stage) :
    (s.goes k u stage).visits[k]? = some { u with stage := stage } :=
  List.getElem?_set_self (List.getElem?_eq_some_iff.mp hk).1

theorem lookup_goes (hk : s.visits[k]? = some u) (stage : Stage) {j : Nat} {w : Visit} :
    (s.goes k u stage).visits[j]? = some w ↔
      (j = k ∧ w = { u with stage := stage }) ∨ (j ≠ k ∧ s.visits[j]? = some w) :=
  Keyed.getElem?_set_eq_some hk

theorem lookup_receive (s : Shared) (r : Request) {j : Nat} {w : Visit} :
    (s.receive r).visits[j]? = some w ↔
      s.visits[j]? = some w ∨ (j = s.visits.length ∧ w = ⟨r, .waiting⟩) :=
  Keyed.getElem?_concat_eq_some

/-! ## A call that nobody comes between -/

/-- A call goes to another stage and has asked all this on the way. -/
def passes (s : Shared) (k : Nat) (u : Visit) (asked : List Answered) (stage : Stage) : Shared :=
  { s.goes k u stage with history := s.history ++ asked.map (k, ·) }

theorem passes_nil (visit : s.visits[k]? = some u) : s.passes k u [] u.stage = s := by
  have same : s.visits.set k u = s.visits := by
    obtain ⟨lt, rfl⟩ := List.getElem?_eq_some_iff.mp visit
    exact List.set_getElem_self lt
  simp only [passes, goes, List.map_nil, List.append_nil]
  rw [same]

theorem passes_passes (s : Shared) (k : Nat) (u : Visit) (asked more : List Answered)
    (stage stage' : Stage) :
    (s.passes k u asked stage).passes k { u with stage := stage } more stage' =
      s.passes k u (asked ++ more) stage' := by
  simp [passes, goes, List.set_set]

theorem leads_steps {α : Type} {part : Dialog α → Stage}
    (ask : ∀ {s : Shared} {u : Visit} {q : Question} {next : q.Answer → Dialog α},
      s.visits[k]? = some u → u.stage = part (.ask q next) → ∀ answer,
        Step s ((s.goes k u (part (next answer))).hears k ⟨q, answer⟩))
    {t t' : Dialog α} {asked : List Answered} (leads : t.Leads asked t')
    (visit : s.visits[k]? = some u) (stage : u.stage = part t) :
    Steps s (s.passes k u asked (part t')) := by
  induction leads generalizing s u with
  | refl t =>
    rw [← stage, passes_nil visit]
    exact .refl
  | @ask q next a asked t _ ih =>
    have first : Steps s (s.passes k u [⟨q, a⟩] (part (next a))) := (ask visit stage a).steps
    have rest := ih (getElem?_goes visit (part (next a))) rfl
      (s := s.passes k u [⟨q, a⟩] (part (next a)))
    rw [passes_passes] at rest
    exact first.trans rest

/-- A call that has come in while it is nobody's turn looks for the backend. -/
theorem choose_steps {r : Request} {asked : List Answered}
    {found : Dispatcher × Except Failure Serving}
    (ends : (s.dispatcher.establish Dialog.tell).Ends asked found) (free : s.turn = none) :
    Steps (s.receive r) (((s.receive r).take s.visits.length).passes s.visits.length ⟨r, .waiting⟩
      asked (.choosing (.done found))) := by
  have visit : (s.receive r).visits[s.visits.length]? = some ⟨r, .waiting⟩ := by simp [receive]
  have taken := (Step.take visit rfl free).steps
  have rest := leads_steps .choose ends
    (getElem?_goes (s := (s.receive r).take s.visits.length) visit _) rfl
  simpa [passes, goes, List.set_set] using taken.trans rest

theorem establish_steps {r : Request} {asked : List Answered}
    {found : Dispatcher × Except Failure Serving}
    (ends : (s.dispatcher.establish Dialog.tell).Ends asked found) (free : s.turn = none) :
    Steps s (((s.receive r).take s.visits.length).passes s.visits.length ⟨r, .waiting⟩ asked
      (.choosing (.done found))) :=
  (Step.receive r).steps.trans (choose_steps ends free)

/-- A call that has come in, has its turn and then compiles without anybody between does what
`compile` says. -/
theorem compile_steps {d : Dispatcher} {r : Request} {asked : List Answered} {result : Result}
    (ends : (s.dispatcher.compile Dialog.tell r).Ends asked (d, result)) (free : s.turn = none) :
    ∃ v? , Steps (s.receive r)
      ⟨d, none, s.visits ++ [⟨r, .ended v? result⟩],
        s.history ++ asked.map (s.visits.length, ·)⟩ := by
  obtain ⟨before, after, ⟨d₁, session⟩, rfl, establishing, last⟩ := Dialog.ends_bind.mp ends
  have chosen := choose_steps (r := r) establishing free
  have visit : (((s.receive r).take s.visits.length).passes s.visits.length ⟨r, .waiting⟩ before
      (.choosing (.done (d₁, session)))).visits[s.visits.length]? =
        some ⟨r, .choosing (.done (d₁, session))⟩ :=
    getElem?_goes (u := ⟨r, .waiting⟩) (by simp [receive, take]) _
  cases session with
  | error failure =>
    obtain ⟨rfl, same⟩ := Dialog.ends_pure.mp last
    cases same
    refine ⟨none, ?_⟩
    have failed := chosen.tail (.fail visit rfl)
    simpa [passes, goes, receive, take, give] using failed
  | ok v =>
    obtain ⟨after, rfl, compiling⟩ := Dialog.ends_tell_bind.mp last
    obtain ⟨middle, _, ⟨v', result'⟩, rfl, compiled, ending⟩ := Dialog.ends_bind.mp compiling
    obtain ⟨rfl, same⟩ := Dialog.ends_pure.mp ending
    cases same
    refine ⟨some v', ?_⟩
    have obtained := chosen.tail (.obtain visit rfl)
    have visit₂ := getElem?_goes visit (.obtained v)
    have announced := obtained.tail (.announce visit₂ rfl)
    have visit₃ := getElem?_goes visit₂ (.compiling v (v.compile r))
    have finished := (announced.trans (leads_steps .compile compiled visit₃ rfl)).tail
      (.finish (getElem?_goes visit₃ _) rfl)
    simpa [passes, goes, receive, take, give, keep, hears, compilingLine] using finished

end Shared

end LiveSound.Compile
