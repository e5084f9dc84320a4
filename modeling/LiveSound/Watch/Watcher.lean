import LiveSound.Watch.Notice
import LiveSound.World.Host

/-!
# Watching a file

A watcher waits for changes of one file. Its directory is watched and not the file itself, since
editors save by renaming a new file. Changes that follow each other closely are one: a change is
reported only when nothing has happened for the time of the debounce. What happens is kept until
somebody who asks sees it, up to a number that is enough to know of it. Time is in milliseconds.
-/

namespace LiveSound.Watch

inductive WatchFault where
  | notFile (path : String)
  | unwatchable (directory : String)
  deriving DecidableEq, Repr

def WatchFault.message : WatchFault → String
  | .notFile path => s!"not a file path: {path}"
  | .unwatchable directory => s!"failed to watch {directory}"

inductive Phase where
  /-- Nobody asks. -/
  | idle
  /-- Somebody waits for a first change. -/
  | waiting
  /-- Somebody waits, and saw the last change at this time. -/
  | settling (last : Nat)
  deriving DecidableEq, Repr

structure Watcher where
  path : String
  /-- The last part of the path. -/
  name : String
  debounce : Nat
  /-- Changes that nobody has seen. -/
  queued : Nat
  phase : Phase
  deriving DecidableEq, Repr

namespace Watcher

/-- The most changes that are kept. -/
def capacity : Nat := 64

/-- Where a file of that path stands. -/
def directoryOf (path : String) : String :=
  match Path.parent? path with
  | some parent => if parent.isEmpty then "." else parent
  | none => "."

def directory (w : Watcher) : String := directoryOf w.path

def ofPath? (path : String) (debounce : Nat) : Except WatchFault Watcher :=
  match Path.fileName? path with
  | some name => .ok ⟨path, name, debounce, 0, .idle⟩
  | none => .error (.notFile path)

/-- Starts to watch; the directory has to be there. -/
def start {m : Type → Type} [Monad m] [FileSystem m] (path : String) (debounce : Nat) :
    m (Except WatchFault Watcher) := do
  match ofPath? path debounce with
  | .error f => return .error f
  | .ok w =>
    if ← FileSystem.isPresent (directoryOf path) then return .ok w
    else return .error (.unwatchable (directoryOf path))

/-- The kinds of change after which a file may have new content. -/
def mayChange : NoticeKind → Bool
  | .created => true
  | .modified => true
  | .unspecified => true
  | _ => false

/-- A notice counts if it may tell of a change of the file. -/
def isRelevant (w : Watcher) (n : Notice) : Bool :=
  mayChange n.kind &&
    (n.places.isEmpty || n.places.any fun place => place.getLast? == some w.name)

/-- Keeps a notice that counts, if there is room for it. -/
def notice (w : Watcher) (n : Notice) : Watcher :=
  if w.isRelevant n then { w with queued := min capacity (w.queued + 1) } else w

/-- Somebody asks for the next change. -/
def ask (w : Watcher) : Watcher := { w with phase := .waiting }

/-- Whoever waits takes all that is kept, and has to wait for the debounce anew. -/
def receive (w : Watcher) (now : Nat) : Watcher :=
  match w.phase with
  | .idle => w
  | _ => if 0 < w.queued then { w with queued := 0, phase := .settling now } else w

/-- Whoever waits looks what is there, and has the path of the file once it has been quiet for
long enough. -/
def poll (w : Watcher) (now : Nat) : Watcher × Option String :=
  let w := w.receive now
  match w.phase with
  | .settling last =>
    if last + w.debounce ≤ now then ({ w with phase := .idle }, some w.path) else (w, none)
  | _ => (w, none)

/-- The answer to somebody who asks after these notices and then waits while it is quiet. -/
def next (w : Watcher) (now : Nat) (notices : List Notice) : Watcher × Option String :=
  match (notices.foldl notice w).ask.poll now with
  | (w, some path) => (w, some path)
  | (w, none) => w.poll (now + w.debounce)

end Watcher

end LiveSound.Watch
