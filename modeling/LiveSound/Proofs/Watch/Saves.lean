import LiveSound.Proofs.Watch.Records

/-!
# Saves that are reported

A report comes only after a save of its own, and not before all saves are as old as the debounce. As
long as there is a save without a report the watcher knows of it, so that whoever waits gets an
answer once it has been quiet (`every_save_is_reported`).
-/

namespace LiveSound.Watch

namespace Record

variable {s : Record} {w : Watcher}

/-! ## What a watcher knows of the saves -/

theorem cut_concat {α : Type} {all before after : List α} {a b : α}
    (h : all ++ [a] = before ++ b :: after) :
    (before = all ∧ b = a) ∨ ∃ rest, all = before ++ b :: rest := by
  rcases List.eq_nil_or_concat after with rfl | ⟨rest, c, rfl⟩
  · obtain ⟨rfl, same⟩ := List.append_inj' h rfl
    exact .inl ⟨rfl, (List.cons.inj same).1.symm⟩
  · refine .inr ⟨rest, ?_⟩
    have same : all ++ [a] = (before ++ b :: rest) ++ [c] := by simpa using h
    exact (List.append_inj' same rfl).1

theorem owes_saved {marks : List Mark} {t : Nat} (h : s.marks = marks ++ [.saved t]) : s.Owes :=
  ⟨marks, t, h⟩

theorem not_owes_reported {marks : List Mark} {u : Nat} {path : String}
    (h : s.marks = marks ++ [.reported u path]) : ¬ s.Owes := by
  rintro ⟨earlier, t, same⟩
  cases (List.append_inj' (h.symm.trans same) rfl).2

theorem owes_congr {s' : Record} (h : s'.marks = s.marks) : s'.Owes ↔ s.Owes := by
  rw [Owes, h, Owes]

/-- Of each report: it names the file, there was a save since the report before, and all saves were
old enough. -/
def Reports (s : Record) : Prop :=
  ∀ before u path after, s.marks = before ++ .reported u path :: after →
    path = s.watcher.path ∧ (∃ earlier t, before = earlier ++ [.saved t]) ∧
      ∀ t, .saved t ∈ before → t + s.watcher.debounce ≤ u

/-- A save without a report is kept or was seen, and what was seen last is no older than the
saves. -/
structure Known (s : Record) : Prop where
  past : ∀ t, .saved t ∈ s.marks → t ≤ s.now
  owes : s.Owes ↔ 0 < s.watcher.queued ∨ ∃ last, s.watcher.phase = .settling last
  seen : ∀ last, s.watcher.queued = 0 → s.watcher.phase = .settling last →
    ∀ t, .saved t ∈ s.marks → t ≤ last
  earlier : ∀ last, s.watcher.phase = .settling last → last ≤ s.now
  reports : s.Reports

namespace Known

theorem start (idle : w.phase = .idle) (empty : w.queued = 0) : Known (.start w) where
  past t mem := nomatch mem
  owes := by
    constructor
    · rintro ⟨earlier, t, same⟩
      cases List.append_eq_nil_iff.mp same.symm |>.2
    · rintro (some | ⟨last, settling⟩)
      · exact absurd empty (Nat.ne_of_gt some)
      · cases idle.symm.trans settling
  seen last _ _ t mem := nomatch mem
  earlier last settling := by cases idle.symm.trans settling
  reports before u path after same := by
    cases List.append_eq_nil_iff.mp same.symm |>.2

/-- What is seen at a look was seen no earlier than any save. -/
theorem le_of_sees (h : Known s) {last : Nat} (sees : s.watcher.Sees s.now last) {t : Nat}
    (mem : .saved t ∈ s.marks) : t ≤ last := by
  rcases sees with ⟨-, -, rfl⟩ | ⟨empty, settling⟩
  · exact h.past t mem
  · exact h.seen last empty settling t mem

theorem sees_le (h : Known s) {last : Nat} (sees : s.watcher.Sees s.now last) : last ≤ s.now := by
  rcases sees with ⟨-, -, rfl⟩ | ⟨-, settling⟩
  · exact Nat.le_refl _
  · exact h.earlier last settling

theorem owes_of_sees (h : Known s) {last : Nat} (sees : s.watcher.Sees s.now last) : s.Owes := by
  refine h.owes.mpr ?_
  rcases sees with ⟨-, some, -⟩ | ⟨-, settling⟩
  · exact .inl some
  · exact .inr ⟨last, settling⟩

theorem notice (h : Known s) {n : Notice} (relevant : s.watcher.isRelevant n = true) :
    Known (s.act (.notice n)) := by
  have kept : 0 < (s.act (.notice n)).watcher.queued := by
    simp only [act, Watcher.notice, relevant, if_pos, Watcher.capacity]
    omega
  have marks := marks_relevant relevant
  have like := like_act s (.notice n)
  constructor
  case past =>
    intro t mem
    rw [marks, List.mem_append, List.mem_singleton, Mark.saved.injEq] at mem
    rcases mem with mem | rfl
    · exact h.past t mem
    · exact Nat.le_refl _
  case owes => exact ⟨fun _ => .inl kept, fun _ => owes_saved marks⟩
  case seen => exact fun last empty => absurd empty (Nat.ne_of_gt kept)
  case earlier =>
    exact fun last settling => h.earlier last ((phase_notice s n).symm.trans settling)
  case reports =>
    intro before u path after same
    rw [marks] at same
    rw [like.path, like.debounce]
    rcases cut_concat same with ⟨-, other⟩ | ⟨rest, same⟩
    · cases other
    · exact h.reports before u path rest same

theorem poll (h : Known s) : Known (s.act .poll) := by
  rcases s.watcher.poll_cases s.now with ⟨same, -⟩ | ⟨last, sees, -, same⟩ | ⟨last, sees, old, same⟩
  · have stays : s.act .poll = s := by simp [act, same]
    rwa [stays]
  · have after : s.act .poll =
        { s with watcher := { s.watcher with queued := 0, phase := .settling last } } := by
      simp [act, same]
    rw [after]
    refine ⟨h.past, ⟨fun _ => .inr ⟨last, rfl⟩, fun _ => h.owes_of_sees sees⟩, ?_, ?_, h.reports⟩
    · rintro _ - ⟨⟩ t mem
      exact h.le_of_sees sees mem
    · rintro _ ⟨⟩
      exact h.sees_le sees
  · have after : s.act .poll =
        { s with
          watcher := { s.watcher with queued := 0, phase := .idle },
          marks := s.marks ++ [.reported s.now s.watcher.path] } := by
      simp [act, same]
    rw [after]
    constructor
    case past =>
      intro t mem
      refine h.past t ?_
      simpa using mem
    case owes =>
      refine ⟨fun owes => absurd owes (not_owes_reported rfl), ?_⟩
      rintro (some | ⟨last, ⟨⟩⟩)
      exact absurd some (Nat.lt_irrefl 0)
    case seen => rintro last - ⟨⟩
    case earlier => rintro last ⟨⟩
    case reports =>
      intro before u path rest same
      rcases cut_concat same with ⟨first, same⟩ | ⟨rest, same⟩
      · cases same
        rw [first]
        exact ⟨rfl, h.owes_of_sees sees, fun t mem =>
          Nat.le_trans (Nat.add_le_add_right (h.le_of_sees sees mem) _) old⟩
      · exact h.reports before u path rest same

theorem act (h : Known s) (a : Act) : Known (s.act a) := by
  cases a with
  | elapse milliseconds =>
    have later : s.now ≤ s.now + milliseconds := Nat.le_add_right _ _
    exact ⟨fun t mem => Nat.le_trans (h.past t mem) later, h.owes, h.seen,
      fun last settling => Nat.le_trans (h.earlier last settling) later, h.reports⟩
  | notice n =>
    cases relevant : s.watcher.isRelevant n with
    | true => exact h.notice relevant
    | false => rwa [act_other relevant]
  | ask =>
    simp only [Record.act]
    split
    · rename_i idle
      have unseen (phase : Phase) (other : phase = .idle ∨ phase = .waiting) :
          ¬ ∃ last, phase = .settling last := by
        rintro ⟨last, rfl⟩
        rcases other with same | same <;> cases same
      refine ⟨h.past, h.owes.trans (or_congr_right (iff_of_false ?_ ?_)), ?_, ?_, h.reports⟩
      · exact unseen _ (.inl idle)
      · exact unseen _ (.inr rfl)
      · rintro last - ⟨⟩
      · rintro last ⟨⟩
    · exact h
  | poll => exact h.poll

theorem run (h : Known s) (acts : List Act) : Known (s.run acts) := by
  induction acts generalizing s with
  | nil => exact h
  | cons a rest ih => exact ih (h.act a)

/-! ## Reports that come and reports that do not -/

/-- While a save is younger than the debounce nothing is reported. -/
theorem poll_of_young (h : Known s) {t : Nat} (mem : .saved t ∈ s.marks)
    (young : s.now < t + s.watcher.debounce) :
    (s.act .poll).marks = s.marks ∧ (s.Calling → (s.act .poll).Calling) := by
  rcases s.marks_poll with silent | reported
  · exact silent
  · have old := (h.poll.reports _ _ _ [] reported).2.2 t mem
    rw [(like_act s .poll).debounce] at old
    omega

/-- Nothing is reported without a save. -/
theorem poll_of_not_owes (h : Known s) (settled : ¬ s.Owes) :
    (s.act .poll).marks = s.marks := by
  rcases s.marks_poll with ⟨silent, -⟩ | reported
  · exact silent
  · exact absurd (h.poll.reports _ _ _ [] reported).2.1 settled

theorem run_of_not_owes (h : Known s) (settled : ¬ s.Owes) {acts : List Act}
    (quiet : Quiet s.watcher acts) : (s.run acts).marks = s.marks := by
  induction acts generalizing s with
  | nil => rfl
  | cons a rest ih =>
    obtain ⟨first, others⟩ := quiet_cons.mp quiet
    have same : (s.act a).marks = s.marks := by
      by_cases poll : a = .poll
      · rw [poll, h.poll_of_not_owes settled]
      · exact (s.marks_quiet first poll).1
    exact (ih (h.act a) (mt (owes_congr same).mp settled) (others.like (like_act s a))).trans same

theorem run_of_owes (h : Known s) {acts : List Act} (quiet : Quiet s.watcher acts) :
    (s.run acts).marks = s.marks ∨
      ∃ u, (s.run acts).marks = s.marks ++ [.reported u s.watcher.path] := by
  induction acts generalizing s with
  | nil => exact .inl rfl
  | cons a rest ih =>
    obtain ⟨first, others⟩ := quiet_cons.mp quiet
    have later := ih (h.act a) (others.like (like_act s a))
    have step : (s.act a).marks = s.marks ∨
        (s.act a).marks = s.marks ++ [.reported s.now s.watcher.path] := by
      by_cases poll : a = .poll
      · rw [poll]
        exact s.marks_poll.imp_left And.left
      · exact .inl (s.marks_quiet first poll).1
    rcases step with same | reported
    · rw [same, (like_act s a).path] at later
      exact later
    · exact .inr ⟨s.now, ((h.act a).run_of_not_owes (not_owes_reported reported)
        (others.like (like_act s a))).trans reported⟩

end Known

/-- Whoever waits has seen all that came, the last of it at this time. -/
def Settling (s : Record) (last : Nat) : Prop :=
  s.watcher.queued = 0 ∧ s.watcher.phase = .settling last

/-- After a look there is an answer, or whoever waits has seen all that came. -/
theorem poll_settles (h : Known s) (owes : s.Owes) (calling : s.Calling) :
    (s.act .poll).marks = s.marks ++ [.reported s.now s.watcher.path] ∨
      ((s.act .poll).marks = s.marks ∧ ∃ last ≤ s.now, (s.act .poll).Settling last) := by
  rcases s.watcher.poll_cases s.now with ⟨-, idle | ⟨waiting, empty⟩⟩ | ⟨last, sees, -, same⟩ |
    ⟨last, -, -, same⟩
  · exact absurd idle calling
  · rcases h.owes.mp owes with some | ⟨last, settling⟩
    · exact absurd empty (Nat.ne_of_gt some)
    · cases waiting.symm.trans settling
  · have after : s.act .poll =
        { s with watcher := { s.watcher with queued := 0, phase := .settling last } } := by
      simp [act, same]
    rw [after]
    exact .inr ⟨rfl, last, h.sees_le sees, rfl, rfl⟩
  · exact .inl (by simp [act, same])

/-- Once the debounce is over the look brings the answer, and before that nothing changes. -/
theorem Settling.poll {last : Nat} (h : s.Settling last) :
    if last + s.watcher.debounce ≤ s.now then
      (s.act .poll).marks = s.marks ++ [.reported s.now s.watcher.path]
    else s.act .poll = s := by
  obtain ⟨⟨path, name, debounce, queued, phase⟩, now, marks⟩ := s
  obtain ⟨rfl, rfl⟩ := h
  split <;> rename_i old <;> simp [act, Watcher.poll, Watcher.receive, old]

theorem Settling.quiet {last : Nat} (h : s.Settling last) {a : Act}
    (quiet : a.isQuiet s.watcher = true) (ne : a ≠ .poll) : (s.act a).Settling last := by
  cases a with
  | elapse milliseconds => exact h
  | notice n =>
    rwa [act_other (by simpa [Act.isQuiet] using quiet)]
  | ask =>
    have busy : s.watcher.phase ≠ .idle := by simp [h.2]
    simpa only [act, if_neg busy] using h
  | poll => exact absurd rfl ne

/-- There is one report more. -/
def Answered (s s' : Record) : Prop :=
  ∃ u, s'.marks = s.marks ++ [.reported u s.watcher.path]

theorem Answered.run {s' : Record} (h : s.Answered s') (known : Known s') {acts : List Act}
    (quiet : Quiet s'.watcher acts) : s.Answered (s'.run acts) := by
  obtain ⟨u, reported⟩ := h
  exact ⟨u, (known.run_of_not_owes (not_owes_reported reported) quiet).trans reported⟩

theorem Answered.of_marks {s₀ s' : Record} (h : s.Answered s') (marks : s.marks = s₀.marks)
    (path : s.watcher.path = s₀.watcher.path) : s₀.Answered s' := by
  obtain ⟨u, reported⟩ := h
  exact ⟨u, by rw [reported, marks, path]⟩

/-- In the quiet, whoever waits goes on so until there is an answer. -/
theorem Settling.run {last : Nat} (h : s.Settling last) (known : Known s) {acts : List Act}
    (quiet : Quiet s.watcher acts) :
    ((s.run acts).marks = s.marks ∧ (s.run acts).Settling last) ∨ s.Answered (s.run acts) := by
  induction acts generalizing s with
  | nil => exact .inl ⟨rfl, h⟩
  | cons a rest ih =>
    obtain ⟨first, others⟩ := quiet_cons.mp quiet
    by_cases poll : a = .poll
    · subst poll
      have look := h.poll
      split at look
      · exact .inr (Answered.run ⟨s.now, look⟩ known.poll (others.like (like_act s _)))
      · rw [run_cons, look]
        exact ih h known others
    · have same := (s.marks_quiet first poll).1
      rcases ih (h.quiet first poll) (known.act a) (others.like (like_act s a)) with
        ⟨later, settling⟩ | answered
      · exact .inl ⟨later.trans same, settling⟩
      · exact .inr (answered.of_marks same (like_act s a).path)

/-- The look after the debounce brings the answer. -/
theorem Known.answered_of_settling (known : Known s) {last : Nat} (h : s.Settling last)
    {between later : List Act} (quiet : Quiet s.watcher (between ++ .poll :: later))
    (old : last + s.watcher.debounce ≤ s.now + elapsed between) :
    s.Answered (s.run (between ++ .poll :: later)) := by
  obtain ⟨quiet, rest⟩ := quiet_append.mp quiet
  have like := like_run s between
  have known' := known.run between
  rw [run_append]
  rcases h.run known quiet with ⟨same, settling⟩ | answered
  · have look := settling.poll
    rw [now_run, like.debounce, if_pos old] at look
    have answered : (s.run between).Answered ((s.run between).act .poll) := ⟨_, look⟩
    have rest := (quiet_cons.mp rest).2.like like |>.like (like_act _ .poll)
    exact (answered.run known'.poll rest).of_marks same like.path
  · exact answered.run known' (rest.like like)

/-- Whoever waits has one answer after two looks in the quiet that are one debounce apart. -/
theorem Known.answered_of_calling (known : Known s) (owes : s.Owes) (calling : s.Calling)
    {between later : List Act} (quiet : Quiet s.watcher (.poll :: between ++ .poll :: later))
    (long : s.watcher.debounce ≤ elapsed between) :
    s.Answered (s.run (.poll :: between ++ .poll :: later)) := by
  have like := like_act s .poll
  have rest := (quiet_cons.mp quiet).2.like like
  rcases poll_settles known owes calling with reported | ⟨same, last, seen, settling⟩
  · exact Answered.run ⟨s.now, reported⟩ known.poll rest
  · have old : last + (s.act .poll).watcher.debounce ≤ (s.act .poll).now + elapsed between := by
      rw [like.debounce, now_act]
      exact Nat.add_le_add seen long
    exact (known.poll.answered_of_settling settling rest old).of_marks same like.path

theorem Known.answered (known : Known s) (owes : s.Owes) {first between later : List Act}
    (quiet : Quiet s.watcher (first ++ (.poll :: between ++ .poll :: later)))
    (calling : (s.run first).Calling) (long : s.watcher.debounce ≤ elapsed between) :
    s.Answered (s.run (first ++ (.poll :: between ++ .poll :: later))) := by
  obtain ⟨quiet, rest⟩ := quiet_append.mp quiet
  have like := like_run s first
  rw [run_append]
  rcases known.run_of_owes quiet with same | answered
  · exact ((known.run first).answered_of_calling ((owes_congr same).mpr owes) calling
      (rest.like like) (like.debounce ▸ long)).of_marks same like.path
  · exact Answered.run answered (known.run first) (rest.like like)

/-! ## Bursts -/

/-- Nothing is reported as long as the next save is there before the debounce is over. -/
theorem Known.run_dense (known : Known s) (owes : s.Owes) (calling : s.Calling) {t age : Nat}
    (mem : .saved t ∈ s.marks) (now : s.now = t + age) {acts : List Act}
    (dense : Dense s.watcher age acts) :
    ∃ times : List Nat, (s.run acts).marks = s.marks ++ times.map .saved ∧
      (s.run acts).Owes ∧ (s.run acts).Calling := by
  induction acts generalizing s t age with
  | nil => exact ⟨[], (List.append_nil _).symm, owes, calling⟩
  | cons a rest ih =>
    have known' := known.act a
    have like := like_act s a
    cases a with
    | elapse milliseconds =>
      refine ih known' owes calling mem ?_ dense
      rw [now_act, now, Nat.add_assoc, Act.time]
    | notice n =>
      rw [Dense] at dense
      split at dense <;> rename_i relevant
      · have marks := marks_relevant relevant
        obtain ⟨times, later, rest⟩ := ih known' (owes_saved marks) (calling_notice calling n)
          (marks ▸ List.mem_append_right _ (List.mem_singleton_self _)) (Nat.add_zero _).symm
          (dense.2.like like)
        refine ⟨s.now :: times, ?_, rest⟩
        rw [run_cons, later, marks, List.append_assoc]
        rfl
      · rw [run_cons, act_other (by simpa using relevant)]
        exact ih known owes calling mem now dense
    | ask =>
      have stays : s.act .ask = s := if_neg calling
      rw [run_cons, stays]
      exact ih known owes calling mem now dense
    | poll =>
      have young : s.now < t + s.watcher.debounce := by
        have := dense.lt
        omega
      obtain ⟨same, goes⟩ := known.poll_of_young mem young
      obtain ⟨times, later, rest⟩ := ih known' ((owes_congr same).mpr owes) (goes calling)
        (same ▸ mem) ((now_act s .poll).trans now) (dense.like like)
      exact ⟨times, later.trans (congrArg (· ++ _) same), rest⟩

/-- Saves that follow each other closely are one change. -/
theorem Known.burst (known : Known s) (calling : s.Calling) {n : Notice}
    (relevant : s.watcher.isRelevant n = true) {burst between later : List Act}
    (dense : Dense s.watcher 0 burst)
    (quiet : Quiet s.watcher (.poll :: between ++ .poll :: later))
    (long : s.watcher.debounce ≤ elapsed between) :
    ∃ (times : List Nat) (u : Nat),
      (s.run (.notice n :: burst ++ (.poll :: between ++ .poll :: later))).marks =
        s.marks ++ times.map .saved ++ [.reported u s.watcher.path] := by
  have like := like_act s (.notice n)
  have marks := marks_relevant relevant
  obtain ⟨times, saved, owes, calling⟩ := (known.act (.notice n)).run_dense (owes_saved marks)
    (calling_notice calling n) (marks ▸ List.mem_append_right _ (List.mem_singleton_self _))
    (Nat.add_zero _).symm (dense.like like)
  have like' := like_run (s.act (.notice n)) burst
  obtain ⟨u, reported⟩ := ((known.act (.notice n)).run burst).answered_of_calling owes calling
    ((quiet.like like).like like') (like'.debounce ▸ like.debounce ▸ long)
  refine ⟨s.now :: times, u, ?_⟩
  rw [run_append, run_cons, reported, saved, marks, like'.path, like.path, List.append_assoc s.marks]
  rfl

end Record

/-! ## Every save -/

/-- What a watcher that was opened for this file and is in this state has told, and will tell. -/
structure Attentive (path : String) (debounce : Nat) (w : Watcher) (s : Record) : Prop where
  /-- These notices count. -/
  counts : ∀ n, w.isRelevant n = true ↔
    (n.kind = .modified ∨ n.kind = .created ∨ n.kind = .unspecified) ∧
      (n.places = [] ∨ ∃ place ∈ n.places, place.getLast? = Path.fileName? path)
  /-- The others change nothing. -/
  others : ∀ acts, s.run acts = s.run (acts.filter (·.counts w))
  /-- A report comes when there was a save since the report before, and only when every save, kept
  or not, is as old as the debounce. -/
  reports : ∀ before u place after, s.marks = before ++ .reported u place :: after →
    place = path ∧ (∃ earlier t, before = earlier ++ [.saved t]) ∧
      ∀ t, .saved t ∈ before → t + debounce ≤ u
  /-- If there was a save since the last report, kept or not, whoever waits now or later has one
  answer once it has been quiet for the debounce. -/
  answers : ∀ earlier t first between later, s.marks = earlier ++ [.saved t] →
    Quiet w (first ++ (.poll :: between ++ .poll :: later)) → (s.run first).Calling →
    debounce ≤ elapsed between →
    ∃ u, (s.run (first ++ (.poll :: between ++ .poll :: later))).marks =
      s.marks ++ [.reported u path]
  /-- Saves that come while somebody waits, each before the debounce after the last is over, have
  one answer. -/
  bursts : ∀ n burst between later, s.Calling → w.isRelevant n = true → Dense w 0 burst →
    Quiet w (.poll :: between ++ .poll :: later) → debounce ≤ elapsed between →
    ∃ (times : List Nat) (u : Nat),
      (s.run (.notice n :: burst ++ (.poll :: between ++ .poll :: later))).marks =
        s.marks ++ times.map .saved ++ [.reported u path]

theorem Record.run_counts {s : Record} {w : Watcher} (like : Like w s.watcher) (acts : List Act) :
    s.run acts = s.run (acts.filter (·.counts w)) := by
  induction acts generalizing s with
  | nil => rfl
  | cons a rest ih =>
    rw [run_cons, List.filter_cons]
    split
    · have like' := s.like_act a
      exact ih ⟨like'.path.trans like.path, like'.name.trans like.name,
        like'.debounce.trans like.debounce⟩
    · rename_i other
      cases a with
      | notice n =>
        rw [act_other (by simpa [Act.counts, like.isRelevant n] using other)]
        exact ih like
      | elapse milliseconds | ask | poll => exact absurd rfl other

/-- No save is lost, and no burst of saves is told more than once, whatever comes at whatever time
and whenever somebody asks. -/
theorem every_save_is_reported {path : String} {debounce : Nat} {w : Watcher}
    (opened : Watcher.ofPath? path debounce = .ok w) (acts : List Act) :
    Attentive path debounce w ((Record.start w).run acts) := by
  unfold Watcher.ofPath? at opened
  split at opened <;> cases opened
  rename_i name named
  have known : Record.Known (.start ⟨path, name, debounce, 0, .idle⟩) := .start rfl rfl
  have known := known.run acts
  have like := Record.like_run (.start ⟨path, name, debounce, 0, .idle⟩) acts
  generalize (Record.start ⟨path, name, debounce, 0, .idle⟩).run acts = s at known like
  constructor
  case counts =>
    intro n
    rw [Watcher.isRelevant_iff, named]
  case others => exact Record.run_counts like
  case reports =>
    intro before u place after same
    have report := known.reports before u place after same
    rwa [like.path, like.debounce] at report
  case answers =>
    intro earlier t first between later saved quiet calling long
    have answered := known.answered ⟨earlier, t, saved⟩ (quiet.like like) calling
      (like.debounce ▸ long)
    rwa [Record.Answered, like.path] at answered
  case bursts =>
    intro n burst between later calling relevant dense quiet long
    have answered := known.burst calling ((like.isRelevant n).trans relevant) (dense.like like)
      (quiet.like like) (like.debounce ▸ long)
    rwa [like.path] at answered

/-- Not all of seventy saves are kept while nobody asks, and the answer to a later question tells of
them. -/
theorem full_queue_is_reported :
    let w : Watcher := ⟨"src/user.h", "user.h", 250, 0, .idle⟩
    let save : Notice := ⟨.modified, [["home", "src", "user.h"]]⟩
    let s := (Record.start w).run (List.replicate 70 (.notice save) ++ [.elapse 900, .ask])
    s.watcher.queued = 64 ∧ s.marks = List.replicate 69 (.saved 0) ++ [.saved 0] ∧
      ∃ u, (s.run (.poll :: [.elapse 250] ++ .poll :: [])).marks =
        s.marks ++ [.reported u "src/user.h"] := by
  intro w save s
  have opened : Watcher.ofPath? "src/user.h" 250 = .ok w := by rfl
  have saved : s.marks = List.replicate 69 (.saved 0) ++ [.saved 0] := by decide +kernel
  have calling : (s.run []).Calling := by
    unfold Record.Calling
    decide +kernel
  have quiet : Quiet w (.poll :: [.elapse 250] ++ .poll :: []) := by simp [Quiet, Act.isQuiet]
  have attentive := every_save_is_reported opened
    (List.replicate 70 (.notice save) ++ [.elapse 900, .ask])
  exact ⟨by decide +kernel, saved,
    attentive.answers _ 0 [] [.elapse 250] [] saved quiet calling (Nat.le_refl _)⟩

end LiveSound.Watch
