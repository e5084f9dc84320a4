import LiveSound.Watch.Watcher

/-!
# What a watcher does in time

Notices come at any time, and somebody asks for changes, does something else for any time, and asks
again. `Record` is a watcher with a clock and what has come to pass so far: each notice that counts
is a save, whether there was room to keep it or not, and each answer is a report. Whoever waits is
run from time to time (`Act.poll`), not only when something has come.
-/

namespace LiveSound.Watch

namespace Watcher

/-- What somebody who waits has to wait for, if anything was seen: the time of the last look that
found something. -/
def Sees (w : Watcher) (now last : Nat) : Prop :=
  (w.phase ≠ .idle ∧ 0 < w.queued ∧ last = now) ∨ (w.queued = 0 ∧ w.phase = .settling last)

/-- Nothing is to be reported, or the last that was seen is too young, or it is old enough. -/
theorem poll_cases (w : Watcher) (now : Nat) :
    (w.poll now = (w, none) ∧ (w.phase = .idle ∨ w.phase = .waiting ∧ w.queued = 0)) ∨
    (∃ last, w.Sees now last ∧ now < last + w.debounce ∧
      w.poll now = ({ w with queued := 0, phase := .settling last }, none)) ∨
    (∃ last, w.Sees now last ∧ last + w.debounce ≤ now ∧
      w.poll now = ({ w with queued := 0, phase := .idle }, some w.path)) := by
  obtain ⟨path, name, debounce, queued, phase⟩ := w
  cases phase with
  | idle => exact .inl ⟨rfl, .inl rfl⟩
  | waiting =>
    rcases Nat.eq_zero_or_pos queued with rfl | some
    · exact .inl ⟨rfl, .inr ⟨rfl, rfl⟩⟩
    · have sees : Sees ⟨path, name, debounce, queued, .waiting⟩ now now := .inl ⟨nofun, some, rfl⟩
      by_cases old : now + debounce ≤ now
      · exact .inr (.inr ⟨now, sees, old, by simp [poll, receive, some, old]⟩)
      · exact .inr (.inl ⟨now, sees, Nat.lt_of_not_le old, by simp [poll, receive, some, old]⟩)
  | settling last =>
    rcases Nat.eq_zero_or_pos queued with rfl | some
    · have sees : Sees ⟨path, name, debounce, 0, .settling last⟩ now last := .inr ⟨rfl, rfl⟩
      by_cases old : last + debounce ≤ now
      · exact .inr (.inr ⟨last, sees, old, by simp [poll, receive, old]⟩)
      · exact .inr (.inl ⟨last, sees, Nat.lt_of_not_le old, by simp [poll, receive, old]⟩)
    · have sees : Sees ⟨path, name, debounce, queued, .settling last⟩ now now :=
        .inl ⟨nofun, some, rfl⟩
      by_cases old : now + debounce ≤ now
      · exact .inr (.inr ⟨now, sees, old, by simp [poll, receive, some, old]⟩)
      · exact .inr (.inl ⟨now, sees, Nat.lt_of_not_le old, by simp [poll, receive, some, old]⟩)

/-- A notice counts if its kind may change the file, and it names the file or nothing. -/
theorem isRelevant_iff (w : Watcher) (n : Notice) :
    w.isRelevant n = true ↔
      (n.kind = .modified ∨ n.kind = .created ∨ n.kind = .unspecified) ∧
      (n.places = [] ∨ ∃ place ∈ n.places, place.getLast? = some w.name) := by
  obtain ⟨kind, places⟩ := n
  cases kind <;> simp [isRelevant, mayChange]

end Watcher

/-- What has come to pass. -/
inductive Mark where
  /-- A notice that counts came at this time. -/
  | saved (time : Nat)
  | reported (time : Nat) (path : String)
  deriving DecidableEq, Repr

structure Record where
  watcher : Watcher
  now : Nat
  /-- Oldest first. -/
  marks : List Mark

/-- What can happen next. -/
inductive Act where
  | elapse (milliseconds : Nat)
  | notice (n : Notice)
  /-- The next change is asked for, if nobody waits for one. -/
  | ask
  /-- Whoever waits is run. -/
  | poll

namespace Act

def time : Act → Nat
  | elapse milliseconds => milliseconds
  | _ => 0

/-- It is no save. -/
def isQuiet (w : Watcher) : Act → Bool
  | notice n => !w.isRelevant n
  | _ => true

/-- It is no notice, or one that counts. -/
def counts (w : Watcher) : Act → Bool
  | notice n => w.isRelevant n
  | _ => true

end Act

def elapsed (acts : List Act) : Nat := acts.foldr (fun a after => a.time + after) 0

/-- No save comes. -/
def Quiet (w : Watcher) (acts : List Act) : Prop := ∀ a ∈ acts, a.isQuiet w = true

theorem quiet_cons {w : Watcher} {a : Act} {acts : List Act} :
    Quiet w (a :: acts) ↔ a.isQuiet w = true ∧ Quiet w acts := List.forall_mem_cons

theorem quiet_append {w : Watcher} {acts more : List Act} :
    Quiet w (acts ++ more) ↔ Quiet w acts ∧ Quiet w more := List.forall_mem_append

/-- The last save is `age` old, and from then on the last save is always younger than the
debounce. -/
def Dense (w : Watcher) (age : Nat) : List Act → Prop
  | [] => age < w.debounce
  | .elapse milliseconds :: rest => Dense w (age + milliseconds) rest
  | .notice n :: rest =>
    if w.isRelevant n then age < w.debounce ∧ Dense w 0 rest else Dense w age rest
  | .ask :: rest | .poll :: rest => Dense w age rest

theorem Dense.lt {w : Watcher} {age : Nat} {acts : List Act} (h : Dense w age acts) :
    age < w.debounce := by
  induction acts generalizing age with
  | nil => exact h
  | cons a rest ih =>
    cases a with
    | elapse milliseconds => exact Nat.lt_of_le_of_lt (Nat.le_add_right _ _) (ih h)
    | notice n =>
      rw [Dense] at h
      split at h
      · exact h.1
      · exact ih h
    | ask | poll => exact ih h

/-- They watch the same file. -/
structure Like (w w' : Watcher) : Prop where
  path : w'.path = w.path
  name : w'.name = w.name
  debounce : w'.debounce = w.debounce

theorem Like.isRelevant {w w' : Watcher} (h : Like w w') (n : Notice) :
    w'.isRelevant n = w.isRelevant n := by
  rw [Watcher.isRelevant, h.name, Watcher.isRelevant]

theorem Quiet.like {w w' : Watcher} {acts : List Act} (quiet : Quiet w acts) (like : Like w w') :
    Quiet w' acts := by
  intro a mem
  have same := quiet a mem
  cases a with
  | notice n => simpa only [Act.isQuiet, like.isRelevant n] using same
  | elapse milliseconds | ask | poll => rfl

theorem Dense.like {w w' : Watcher} {age : Nat} {acts : List Act} (dense : Dense w age acts)
    (like : Like w w') : Dense w' age acts := by
  induction acts generalizing age with
  | nil => exact Nat.lt_of_lt_of_eq dense like.debounce.symm
  | cons a rest ih =>
    cases a with
    | notice n =>
      rw [Dense] at dense ⊢
      rw [like.isRelevant n, like.debounce]
      split at dense <;> rename_i relevant
      · rw [if_pos relevant]
        exact ⟨dense.1, ih dense.2⟩
      · rw [if_neg relevant]
        exact ih dense
    | elapse milliseconds | ask | poll => exact ih dense

namespace Record

def start (w : Watcher) : Record := ⟨w, 0, []⟩

def act (s : Record) : Act → Record
  | .elapse milliseconds => { s with now := s.now + milliseconds }
  | .notice n =>
    { s with
      watcher := s.watcher.notice n,
      marks := s.marks ++ if s.watcher.isRelevant n then [.saved s.now] else [] }
  | .ask => if s.watcher.phase = .idle then { s with watcher := s.watcher.ask } else s
  | .poll =>
    let (w, found) := s.watcher.poll s.now
    { s with watcher := w, marks := s.marks ++ (found.map (Mark.reported s.now)).toList }

def run (s : Record) (acts : List Act) : Record := acts.foldl act s

/-- Somebody waits for a change. -/
def Calling (s : Record) : Prop := s.watcher.phase ≠ .idle

/-- There was a save since the last report. -/
def Owes (s : Record) : Prop := ∃ earlier t, s.marks = earlier ++ [.saved t]

theorem run_append (s : Record) (acts more : List Act) :
    s.run (acts ++ more) = (s.run acts).run more := List.foldl_append

theorem run_cons (s : Record) (a : Act) (acts : List Act) :
    s.run (a :: acts) = (s.act a).run acts := rfl

/-! ## Steps -/

variable {s : Record} {w : Watcher}

/-- A notice that does not count changes nothing. -/
theorem act_other {n : Notice} (other : s.watcher.isRelevant n = false) :
    s.act (.notice n) = s := by
  simp [act, Watcher.notice, other]

theorem marks_relevant {n : Notice} (relevant : s.watcher.isRelevant n = true) :
    (s.act (.notice n)).marks = s.marks ++ [.saved s.now] := by
  simp only [act, relevant, if_pos]

theorem phase_notice (s : Record) (n : Notice) :
    (s.act (.notice n)).watcher.phase = s.watcher.phase := by
  simp only [act, Watcher.notice]
  split <;> rfl

theorem like_act (s : Record) (a : Act) : Like s.watcher (s.act a).watcher := by
  cases a with
  | elapse milliseconds => exact ⟨rfl, rfl, rfl⟩
  | notice n =>
    simp only [act, Watcher.notice]
    split <;> exact ⟨rfl, rfl, rfl⟩
  | ask =>
    simp only [act]
    split <;> exact ⟨rfl, rfl, rfl⟩
  | poll =>
    simp only [act]
    rcases s.watcher.poll_cases s.now with ⟨same, -⟩ | ⟨_, -, -, same⟩ | ⟨_, -, -, same⟩ <;>
      rw [same] <;> exact ⟨rfl, rfl, rfl⟩

theorem like_run (s : Record) (acts : List Act) : Like s.watcher (s.run acts).watcher := by
  induction acts generalizing s with
  | nil => exact ⟨rfl, rfl, rfl⟩
  | cons a rest ih =>
    have first := like_act s a
    have later := ih (s.act a)
    exact ⟨later.path.trans first.path, later.name.trans first.name,
      later.debounce.trans first.debounce⟩

theorem calling_notice (calling : s.Calling) (n : Notice) : (s.act (.notice n)).Calling := by
  rwa [Calling, phase_notice]

theorem now_act (s : Record) (a : Act) : (s.act a).now = s.now + a.time := by
  cases a with
  | ask =>
    simp only [act]
    split <;> rfl
  | elapse milliseconds | notice n | poll => rfl

theorem now_run (s : Record) (acts : List Act) : (s.run acts).now = s.now + elapsed acts := by
  induction acts generalizing s with
  | nil => rfl
  | cons a rest ih =>
    calc ((s.act a).run rest).now = s.now + a.time + elapsed rest := by rw [ih, now_act]
      _ = s.now + elapsed (a :: rest) := Nat.add_assoc _ _ _

/-- Whoever waits gets an answer or goes on waiting. -/
theorem marks_poll (s : Record) :
    ((s.act .poll).marks = s.marks ∧ (s.Calling → (s.act .poll).Calling)) ∨
      (s.act .poll).marks = s.marks ++ [.reported s.now s.watcher.path] := by
  simp only [Calling, act]
  rcases s.watcher.poll_cases s.now with ⟨same, -⟩ | ⟨last, -, -, same⟩ | ⟨last, -, -, same⟩ <;>
    rw [same]
  · exact .inl ⟨List.append_nil _, id⟩
  · exact .inl ⟨List.append_nil _, fun _ => nofun⟩
  · exact .inr rfl

/-- What neither saves nor looks leaves no mark. -/
theorem marks_quiet (s : Record) {a : Act} (quiet : a.isQuiet s.watcher = true) (ne : a ≠ .poll) :
    (s.act a).marks = s.marks ∧ (s.Calling → (s.act a).Calling) := by
  cases a with
  | elapse milliseconds => exact ⟨rfl, id⟩
  | notice n =>
    rw [act_other (by simpa [Act.isQuiet] using quiet)]
    exact ⟨rfl, id⟩
  | ask =>
    simp only [act]
    split
    · exact ⟨rfl, fun _ => nofun⟩
    · exact ⟨rfl, id⟩
  | poll => exact absurd rfl ne

end Record

end LiveSound.Watch
