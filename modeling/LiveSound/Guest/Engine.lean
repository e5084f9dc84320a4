import LiveSound.Event.Basic
import LiveSound.Text.Utf8

/-!
# Guests

A guest is code that runs inside the player. An `Engine` is all that the player knows of it:
functions on a state of which nothing else is known. What a guest posts while it runs is part of
the answer of each call, so the order of events is the order of calls.
-/

namespace LiveSound.Guest

/-- Why a call did not return. -/
inductive Halt where
  | exit (code : Int)
  | trap (text : String)
  deriving DecidableEq, Repr

def Halt.message : Halt → String
  | .exit code => s!"module exited with code {code}"
  | .trap text => text

/-- What a guest has under a name, when a function of one signature is looked for. -/
inductive Entry where
  /-- No function of that name. -/
  | absent
  /-- A function of another signature; the short and the full text of the difference. -/
  | mismatched (summary full : String)
  | present
  deriving DecidableEq, Repr

/-- The answer of a call: the state after it, what was posted, and how it ended. -/
structure Reply (σ α : Type) where
  state : σ
  events : List Event
  outcome : Except Halt α

/-- The functions that a guest is made and called with. `μ` are compiled modules, `σ` the states
of instances. -/
structure Engine (μ σ : Type) where
  compile : Bytes → Except String μ
  instantiate : μ → List Event × Except String σ
  /-- The size of the exported memory in bytes. -/
  memorySize : σ → Nat
  /-- Looks for a function without arguments and results. -/
  procedure : σ → String → Entry
  callProcedure : σ → String → Reply σ Unit
  /-- Looks for a function without arguments that gives a sample. -/
  sampler : σ → String → Entry
  callSampler : σ → String → Reply σ Binary32

/-- The names of the functions that a module exports. -/
def startName : String := "_start"

def initName : String := "hear_c_init"

def sampleName : String := "hear_c_next_sample"

end LiveSound.Guest
