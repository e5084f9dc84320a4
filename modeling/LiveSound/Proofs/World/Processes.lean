import LiveSound.World.Host

/-!
# Programs that take their time

A program that is run goes its own way and ends after some time or never. Who waits for it until a
deadline is told how it ended if that was in time, and of nothing else that it did.
-/

namespace LiveSound

/-- How a process ended. -/
inductive ExitStatus where
  | code (n : Int)
  | signal (n : Nat)
  deriving DecidableEq, Repr

/-- What there is when a process has ended. -/
structure Remains where
  status : ExitStatus
  stdout : Bytes
  stderr : Bytes
  product : Product

def Remains.finished (r : Remains) : Finished :=
  ⟨r.status = .code 0, r.stdout, r.stderr, r.product⟩

/-- How a run of a program goes, however long one waits. -/
inductive Process where
  | noDirectory (trouble : String)
  | noInputs (f : OsFault)
  | notStarted (f : OsFault)
  | endless
  | ended (r : Remains) (after : Nat)

/-- What is told of it to who waits so many milliseconds. -/
def Process.within (limit : Nat) : Process → Run
  | .noDirectory trouble => .noDirectory trouble
  | .noInputs f => .noInputs f
  | .notStarted f => .notStarted f
  | .endless => .unfinished
  | .ended r after => if after ≤ limit then .finished r.finished else .unfinished

/-- Programs, and the runs that there were. A run goes by what is run: the program, its arguments
and the files that it finds. It may go differently each time. -/
structure Workshop where
  behave : List Invocation → Invocation → Process
  runs : List Invocation

instance : Programs (StateM Workshop) where
  run i limit := fun w => ((w.behave w.runs i).within limit, { w with runs := w.runs ++ [i] })

end LiveSound
