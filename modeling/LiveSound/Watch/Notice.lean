import LiveSound.World.Files

/-!
# What a system tells of changes

When something changes in a directory, the system tells what kind of change it was and which names
it concerns.
-/

namespace LiveSound.Watch

inductive NoticeKind where
  | created
  | modified
  | removed
  /-- Something was read, opened or closed. -/
  | accessed
  /-- The system does not say. -/
  | unspecified
  | other
  deriving DecidableEq, Repr

structure Notice where
  kind : NoticeKind
  /-- Absolute names. -/
  places : List Place
  deriving DecidableEq, Repr

/-- Something that is done to a file tree. -/
inductive Change where
  | write (path : String) (content : Bytes)
  | rename (source target : String)
  | remove (path : String)
  | makeDirectory (path : String)

namespace Change

/-- The place that a path names, if it can be followed. -/
def place? (f : Files) (base : Place) (p : String) : Option Place := (f.locate base p).toOption

def apply (f : Files) (base : Place) : Change → Except OsFault Files
  | .write path content => f.write base path content
  | .rename source target => f.rename base source target
  | .remove path =>
    match f.locate base path with
    | .error e => .error e
    | .ok place => if (f.entry? place).isSome then .ok (f.drop place) else .error .notFound
  | .makeDirectory path => f.makeDirectory base path

def notices (f : Files) (base : Place) : Change → List Notice
  | .write path _ =>
    match place? f base path with
    | none => []
    | some place =>
      (if (f.entry? place).isNone then [⟨.created, [place]⟩] else []) ++ [⟨.modified, [place]⟩]
  | .rename source target =>
    [source, target].filterMap fun p => (place? f base p).map fun place => ⟨.modified, [place]⟩
  | .remove path => ((place? f base path).map fun place => ⟨.removed, [place]⟩).toList
  | .makeDirectory path => ((place? f base path).map fun place => ⟨.created, [place]⟩).toList

end Change

/-- A change that may fail: the tree after it, and what the system tells. -/
def perform (f : Files) (base : Place) (c : Change) : Files × List Notice :=
  match c.apply f base with
  | .ok f' => (f', c.notices f base)
  | .error _ => (f, [])

/-- A notice about something in this directory itself, and not below it. -/
def Notice.isIn (directory : Place) (n : Notice) : Bool :=
  n.places.any fun place => place.dropLast == directory && !place.isEmpty

end LiveSound.Watch
