import LiveSound.Guest.Engine
import LiveSound.Module

/-!
# Bootstrapping

A module becomes an `Instance`: it is compiled and instantiated, its start function runs, then the
user's init function, and the function for samples is looked up. A start that fails is only worth
a warning; an init that fails refuses the module.
-/

namespace LiveSound.Guest

/-- Why there is no instance. -/
inductive InitFault where
  | instantiation (text : String)
  | userInit (text : String)
  deriving DecidableEq, Repr

def InitFault.message : InitFault → String
  | .instantiation text => "failed to instantiate module: " ++ text
  | .userInit text => "init() failed: " ++ text

/-- What became of the start function. -/
inductive Startup where
  | skipped
  | completed
  /-- It exited with code 0. -/
  | exited
  | warned (message : String)
  deriving DecidableEq, Repr

/-- The remark about a start that failed. -/
def startupWarning (message : String) : String := "Warning: _start() threw: " ++ message

/-- A guest that is ready to play. -/
structure Instance (σ : Type) where
  state : σ
  generation : Nat
  startup : Startup
  hasSampler : Bool

namespace Bootstrap

variable {μ σ : Type}

/-- Runs the start function: the state after it, what was posted, and what became of it. -/
def start (e : Engine μ σ) (s : σ) : σ × List Event × Startup :=
  match e.procedure s startName with
  | .absent => (s, [], .skipped)
  | .mismatched summary _ => (s, [], .warned summary)
  | .present =>
    match e.callProcedure s startName with
    | ⟨s, events, .ok ()⟩ => (s, events, .completed)
    | ⟨s, events, .error (.exit 0)⟩ => (s, events, .exited)
    | ⟨s, events, .error halt⟩ => (s, events, .warned halt.message)

/-- The event that tells of a start that failed. -/
def remarks : Startup → List Event
  | .warned message => [.log (startupWarning message ++ "\n")]
  | _ => []

def init (e : Engine μ σ) (s : σ) : σ × List Event × Except InitFault Unit :=
  match e.procedure s initName with
  | .absent => (s, [], .ok ())
  | .mismatched _ full => (s, [], .error (.userInit full))
  | .present =>
    match e.callProcedure s initName with
    | ⟨s, events, .ok ()⟩ => (s, events, .ok ())
    | ⟨s, events, .error halt⟩ => (s, events, .error (.userInit halt.message))

/-- Whether the guest gives samples; a function of another signature is passed over. -/
def sampler (e : Engine μ σ) (s : σ) : List Event × Bool :=
  match e.sampler s sampleName with
  | .absent => ([], false)
  | .mismatched summary _ =>
    ([.log (s!"Warning: {sampleName} ignored: {summary}" ++ "\n")], false)
  | .present => ([], true)

/-- What was posted and the instance, or why there is none. -/
def run (e : Engine μ σ) (m : Module) (generation : Nat) :
    List Event × Except InitFault (Instance σ) :=
  match e.compile m.bytes with
  | .error text => ([], .error (.instantiation text))
  | .ok compiled =>
    match e.instantiate compiled with
    | (early, .error text) => (early, .error (.instantiation text))
    | (early, .ok s) =>
      let (s, started, startup) := start e s
      let soFar := early ++ started ++ remarks startup
      match init e s with
      | (_, posted, .error fault) => (soFar ++ posted, .error fault)
      | (s, posted, .ok ()) =>
        let (ignored, hasSampler) := sampler e s
        (soFar ++ posted ++ ignored, .ok ⟨s, generation, startup, hasSampler⟩)

end Bootstrap

namespace Instance

variable {μ σ : Type}

def memorySize (e : Engine μ σ) (i : Instance σ) : Nat := e.memorySize i.state

def nextSample (e : Engine μ σ) (i : Instance σ) : Reply (Instance σ) Binary32 :=
  let ⟨state, events, outcome⟩ := e.callSampler i.state sampleName
  ⟨{ i with state := state }, events, outcome⟩

end Instance

end LiveSound.Guest
