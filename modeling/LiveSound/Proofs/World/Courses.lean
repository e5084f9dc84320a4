import LiveSound.Net.Exchange

/-!
# Servers that take their time

A server meets every request in a way of its own, after some time or never. A client that waits
until a deadline hears of what came before it, and of nothing else.
-/

namespace LiveSound.Net

/-- How a request is met, however long the client waits. -/
inductive Course where
  | never
  /-- There is no connection. -/
  | refused (after : Nat)
  /-- The system gives up waiting for a connection. -/
  | timedOut (after : Nat)
  /-- After so many milliseconds there is all of the reply that ever comes. -/
  | answered (r : Reply) (after : Nat)

/-- What a client makes of it that waits so many milliseconds, and how many of them pass. -/
def Course.within (limit : Nat) : Course → Exchange × Nat
  | .never => (.silent, limit)
  | .refused after => if after ≤ limit then (.unreachable, after) else (.silent, limit)
  | .timedOut after => if after ≤ limit then (.timedOut, after) else (.silent, limit)
  | .answered r after => if after ≤ limit then (.answered r, after) else (.silent, limit)

/-- Servers, and the requests that they were sent. How a request is met may depend on those before
it. -/
structure Remote where
  meet : List Request → Request → Course
  requests : List Request

instance : Network (StateM Remote) where
  exchange r limit := fun w =>
    ((w.meet w.requests r).within limit, { w with requests := w.requests ++ [r] })

/-- What a client hears of a request until its deadline. -/
inductive Heard where
  | nothing
  /-- The request could not be sent. -/
  | trouble
  /-- The system gave up waiting for the connection. -/
  | givenUp
  | reply (r : Reply) (moment : Nat)

/-- What the client is told by then that hears this until its deadline. -/
def Heard.Tells (deadline : Nat) (outcome : Except Trouble Reply) (now : Nat) : Heard → Prop
  | .nothing => outcome = .error .silent
  | .trouble => ∃ message, outcome = .error (.failed message)
  | .givenUp => ∃ message, outcome = .error (.timedOut message)
  | .reply r moment => outcome = .ok r ∧ moment = now ∧ now ≤ deadline

def requestFor? (method : Method) (url : String) (body : Option String) : Option Request :=
  (Url.parse url).toOption.map fun u => ⟨method, u, body⟩

namespace Remote

variable (w : Remote) (method : Method) (url : String) (body : Option String)

/-- What is heard until the deadline of a request that is sent at a moment. -/
def hears (start deadline : Nat) : Heard :=
  match requestFor? method url body with
  | none => .trouble
  | some r =>
    match w.meet w.requests r with
    | .never => .nothing
    | .refused after => if start + after ≤ deadline then .trouble else .nothing
    | .timedOut after => if start + after ≤ deadline then .givenUp else .nothing
    | .answered reply after =>
      if start + after ≤ deadline then .reply reply (start + after) else .nothing

def sends : Remote :=
  { w with requests := w.requests ++ (requestFor? method url body).toList }

/-- A client that waits for the time that is left is told what is heard until the deadline. -/
theorem timedFetch_run {start deadline : Nat} (left : start ≤ deadline) :
    ∃ outcome spent,
      timedFetch (m := StateM Remote) method url body (deadline - start) w =
        ((outcome, spent), w.sends method url body) ∧
      (w.hears method url body start deadline).Tells deadline outcome (start + spent) := by
  unfold timedFetch hears sends requestFor?
  cases parsed : Url.parse url with
  | error fault =>
    simp only [Except.toOption, Option.map_none, Option.toList_none, List.append_nil]
    cases fault <;> exact ⟨_, _, rfl, _, rfl⟩
  | ok u =>
    simp only [bind, StateT.bind, Network.exchange, Except.toOption, Option.map_some]
    cases met : w.meet w.requests ⟨method, u, body⟩ with
    | never => exact ⟨_, _, rfl, rfl⟩
    | refused after | timedOut after =>
      by_cases inTime : after ≤ deadline - start
      · have : start + after ≤ deadline := by omega
        simp only [Course.within, if_pos inTime, if_pos this]
        exact ⟨_, _, rfl, _, rfl⟩
      · have : ¬ start + after ≤ deadline := by omega
        simp only [Course.within, if_neg inTime, if_neg this]
        exact ⟨_, _, rfl, rfl⟩
    | answered r after =>
      by_cases inTime : after ≤ deadline - start
      · have : start + after ≤ deadline := by omega
        simp only [Course.within, if_pos inTime, if_pos this]
        exact ⟨_, _, rfl, rfl, rfl, this⟩
      · have : ¬ start + after ≤ deadline := by omega
        simp only [Course.within, if_neg inTime, if_neg this]
        exact ⟨_, _, rfl, rfl⟩

end Remote

end LiveSound.Net
