import LiveSound.Live.Loader

/-!
# What a load sends

A load has two halves. The first one, `Loader.fetch`, reads and compiles the source; it knows
nothing of the processor. The second one only looks at the result: a compiled module is sent, and
that is all that a load ever sends (`load_eq`).
-/

namespace LiveSound

variable {σ : Type}

namespace Live

/-- The module that is sent after a compile; there is no result if the source cannot be read. -/
def artifact? : Option Compile.Result → Option Module
  | some (.success s) => some s.artifact
  | _ => none

end Live

def Processor.deliver (p : Processor σ) (result : Option Compile.Result) : Processor σ :=
  match Live.artifact? result with
  | some m => (p.send m).2
  | none => p

theorem Processor.deliver_of_accepting {p : Processor σ} (accepting : p.accepting = true)
    (result : Option Compile.Result) :
    p.deliver result =
      { p with waiting := p.waiting ++ (Live.artifact? result).toList } := by
  unfold deliver
  cases Live.artifact? result with
  | none => simp
  | some m =>
    unfold send
    simp only [accepting, ↓reduceIte, Option.toList_some]

namespace Live

open Net (Network)

namespace Loader

variable {m : Type → Type} [Monad m] [FileSystem m] [Network m] [Programs m] [Terminal m] [Clock m]

/-- Reads and compiles the source at a path. -/
def fetch (logger : Log.Logger) (options : Compile.Options) (report : String → m Unit)
    (path : String) (session : Compile.Session) : m (Compile.Session × Option Compile.Result) := do
  match ← FileSystem.readText path with
  | none => return (session, none)
  | some source =>
    Terminal.print (logger.log .action s!"Compiling {path}")
    let started ← Clock.nanoseconds
    let (session, result) ← session.compile report ⟨source, options⟩
    Terminal.print (logger.compileResult result)
    if result.isSuccess then
      let took := (← Clock.nanoseconds) - started
      Terminal.print (logger.log .debug s!"compile took {elapsedText took}")
    return (session, some result)

def verdict (path : String) (accepting : Bool) : Option Compile.Result → Except LoadFault Unit
  | none => .error (.unreadable path)
  | some (.failure f) => .error (.compile f)
  | some (.success _) => if accepting then .ok () else .error .stopped

theorem deliver_eq (path : String) (l : Loader σ) (result : Compile.Result) :
    l.deliver result =
      ({ l with processor := l.processor.deliver (some result) },
        verdict path l.processor.accepting (some result)) := by
  cases result with
  | failure f => rfl
  | success s =>
    unfold deliver Processor.deliver verdict artifact? Processor.send
    cases l.processor.accepting <;> rfl

/-- What a load does to the processor follows from the result of the compile alone. -/
theorem load_eq [LawfulMonad m] (logger : Log.Logger) (options : Compile.Options)
    (report : String → m Unit) (path : String) (l : Loader σ) :
    l.load logger options report path = do
      let (session, result) ← fetch logger options report path l.session
      return (⟨session, l.processor.deliver result⟩,
        verdict path l.processor.accepting result) := by
  unfold load fetch
  rw [bind_assoc]
  congr 1
  funext source
  cases source with
  | none => simp [verdict, Processor.deliver, artifact?]
  | some source =>
    simp only [bind_assoc, deliver_eq path]
    congr 1
    funext _
    congr 1
    funext started
    congr 1
    funext ⟨session, result⟩
    congr 1
    funext _
    split <;> simp

end Loader

end Live

end LiveSound
