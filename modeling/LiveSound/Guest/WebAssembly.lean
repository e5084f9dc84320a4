import LiveSound.Guest.Bootstrap
import LiveSound.Guest.SystemCall
import LiveSound.Wasm.Instance

/-!
# WebAssembly guests

The engine that runs compiled modules, with the system calls as their host.
-/

namespace LiveSound.Guest

open Wasm (Program Signature Kind)

def Host.fresh (seed clock : UInt64) : Host := ⟨[], none, seed, clock⟩

abbrev Running := Wasm.Instance Host

namespace Running

/-- Takes out what was posted, oldest first. -/
def takeEvents (r : Running) : List Event × Running :=
  let ⟨linked, ⟨memory, globals, table, host⟩⟩ := r
  (host.posted.reverse, ⟨linked, ⟨memory, globals, table, { host with posted := [] }⟩⟩)

/-- The player is not told a failure of the host from a trap of the guest. -/
def halt : Wasm.Stop → Halt
  | .exit code => .exit code
  | stop => .trap stop.message

/-- The first difference of a signature from one without arguments and with these results. -/
def compare (expected : List Kind) (found : Signature) : Entry :=
  let difference (part : String) (n m : Nat) : Entry :=
    .mismatched s!"type mismatch with {part}"
      s!"type mismatch with {part}: expected {n} types, found {m}"
  if found.params ≠ [] then difference "parameters" 0 found.params.length
  else if found.results ≠ expected then
    difference "results" expected.length found.results.length
  else .present

def entry (expected : List Kind) (r : Running) (name : String) : Entry :=
  match r.function? name with
  | some (_, signature) => compare expected signature
  | none => .absent

/-- Calls an exported function without arguments. -/
def call {α : Type} (r : Running) (name : String) (result : List Wasm.Value → α) :
    Reply Running α :=
  match r.function? name with
  | none => ⟨r, [], .error (.trap Wasm.Trap.unreachable.message)⟩
  | some (index, _) =>
    let (r, outcome) := r.invoke index []
    let (events, r) := takeEvents r
    match outcome with
    | .ok values => ⟨r, events, .ok (result values)⟩
    | .error stop => ⟨r, events, .error (halt stop)⟩

def sampleOf : List Wasm.Value → Binary32
  | [.f32 x] => x
  | _ => .zero

end Running

/-- The engine for modules in WebAssembly; every instance gets the same random seed and time. -/
def webAssembly (seed clock : UInt64) : Engine Program Running where
  compile bytes :=
    match Wasm.compile? bytes with
    | some program => .ok program
    | none => .error "invalid module"
  instantiate program :=
    match Wasm.Instance.instantiate SystemCall.offer program (.fresh seed clock) with
    | (host, .error fault) => (host.posted.reverse, .error fault.message)
    | (_, .ok r) =>
      let (events, r) := Running.takeEvents r
      (events, .ok r)
  memorySize r := (r.memory?).elim 0 (·.size)
  procedure r name := Running.entry [] r name
  callProcedure r name := Running.call r name fun _ => ()
  sampler r name := Running.entry [.f32] r name
  callSampler r name := Running.call r name Running.sampleOf

end LiveSound.Guest
