import LiveSound.Proofs.Live.Course
import LiveSound.World.Model
import Mathlib.Order.Monotone.Basic

/-!
# Loads that fail

A load that fails changes nothing for those that listen. Two courses are compared: a longer one, and
the shorter one that is left when some loads that fail are taken out of it with all their moves.
What is heard is the same but for the generations (`failed_loads_change_nothing`), because a
bootstrap that fails offers nothing, and it does not matter which generation an instance has as
long as it is the one that was issued last.

That is why a module must not be sent for a load that is going to fail while the bootstrap of
another one is still to be made: it would make that one stale, and has nothing to put in its place.
-/

namespace LiveSound.Live

open Guest (AllText Engine Instance InitFault)
open Playback (Buffer Driver)
open Processor (Renumbered)

variable {μ σ : Type}

/-- Bootstraps of this module fail. -/
def Refused (e : Engine μ σ) (m : Module) : Prop :=
  ∃ fault, (Guest.Bootstrap.run e m 0).2 = .error fault

/-- A remark on a load, by itself or by the guest. -/
def Entry.isNotice : Entry → Bool
  | .line _ | .event (.log _) | .event (.error _) => true
  | .event .ready | .event (.perf ..) => false

/-! ## Other numbers -/

def Task.renumber (ρ : Nat → Nat) (t : Task σ) : Task σ :=
  ⟨ρ t.generation, t.events, t.result.map (·.map (·.renumber ρ))⟩

def Heard.renumber (ρ : Nat → Nat) (h : Heard σ) : Heard σ :=
  ⟨h.picked.map (·.renumber ρ), h.buffer, h.driver.renumber ρ⟩

theorem Task.begin_renumber (e : Engine μ σ) (m : Module) (ρ : Nat → Nat) (generation : Nat) :
    Task.begin e m (ρ generation) = (Task.begin e m generation).renumber ρ := by
  unfold Task.begin
  rw [Guest.Bootstrap.run_renumber]
  rfl

theorem Task.isOver_renumber (ρ : Nat → Nat) (t : Task σ) : (t.renumber ρ).isOver = t.isOver := by
  obtain ⟨generation, events, result⟩ := t
  cases result <;> rfl

/-- A task has nothing to offer and only remarks to make. -/
structure Task.Fails (t : Task σ) : Prop where
  events : ∀ event ∈ t.events, (Entry.event event).isNotice = true
  result : ∀ result, t.result = some result → ∃ fault, result = .error fault

theorem Refused.begin {e : Engine μ σ} (text : e.PostsText) {m : Module} (h : Refused e m)
    (generation : Nat) : (Task.begin e m generation : Task σ).Fails := by
  obtain ⟨fault, failed⟩ := h
  have other := Guest.Bootstrap.run_renumber e m (fun _ => generation) 0
  have posted := Guest.Bootstrap.run_isText text m generation
  rw [failed] at other
  unfold Task.begin
  rw [show Guest.Bootstrap.run e m generation = _ from other] at posted ⊢
  constructor
  · intro event he
    have isText := posted event he
    cases event with
    | log => rfl
    | ready | error | perf => cases isText
  · intro result hr
    exact ⟨fault, (Option.some.inj hr).symm⟩

/-! ## Taking loads out -/

section

variable (kept : Nat → Bool)

/-- The move is by a load that is kept, or by none. -/
def Move.isKept (move : Move) : Bool := move.load?.all kept

/-- No load that is kept has a message or a bootstrap on its way. -/
def Course.isQuiet (s : Course σ) : Bool :=
  s.queued.all (fun x => !kept x.1) && s.tasks.all fun x => !kept x.1 || x.2.isOver

/-- The move does not send a module for a load that is not kept, unless it is quiet. -/
def Course.allows (s : Course σ) : Move → Bool
  | .load n _ result => kept n || (artifact? result).isNone || s.isQuiet kept
  | _ => true

/-- Each move is allowed when it is made. -/
def Course.allowsAll (e : Engine μ σ) : Course σ → List Move → Bool
  | _, [] => true
  | s, move :: moves => s.allows kept move && (s.step e move).all (allowsAll e · moves)

/-- A renumbering that gives, to each generation that is issued for a load that is kept, the number
that is issued when no load is taken out. -/
def Fits (ρ : Nat → Nat) : List Move → Nat → Nat → Prop
  | [], _, _ => True
  | .receive n :: moves, short, long =>
    if kept n then ρ (short + 1) = long + 1 ∧ Fits ρ moves (short + 1) (long + 1)
    else Fits ρ moves short (long + 1)
  | _ :: moves, short, long => Fits ρ moves short long

end

variable {kept : Nat → Bool}

/-- There always is a renumbering that fits, and it can be made to agree with another one on the
generations that were issued before. -/
theorem exists_fits (moves : List Move) (short long : Nat) {ρ₀ : Nat → Nat} (mono : StrictMono ρ₀)
    (later : ∀ k, ρ₀ (short + 1 + k) = long + 1 + k) :
    ∃ ρ, StrictMono ρ ∧ (∀ k ≤ short, ρ k = ρ₀ k) ∧ Fits kept ρ moves short long := by
  induction moves generalizing short long ρ₀ with
  | nil => exact ⟨ρ₀, mono, fun _ _ => rfl, trivial⟩
  | cons move moves ih =>
    cases move with
    | receive n =>
      unfold Fits
      by_cases here : kept n = true
      · have later₁ (k : Nat) : ρ₀ (short + 1 + 1 + k) = long + 1 + 1 + k := by
          rw [Nat.add_assoc _ 1 k, Nat.add_comm 1 k, later]
          omega
        obtain ⟨ρ, mono', same, fits⟩ := ih (short + 1) (long + 1) mono later₁
        refine ⟨ρ, mono', fun k le => same k (by omega), ?_⟩
        rw [if_pos here]
        exact ⟨(same _ (Nat.le_refl _)).trans (later 0), fits⟩
      · let ρ₁ k := if k ≤ short then ρ₀ k else ρ₀ k + 1
        have mono₁ : StrictMono ρ₁ := by
          intro a b lt
          have lt₀ := mono lt
          show (if a ≤ short then ρ₀ a else ρ₀ a + 1) < if b ≤ short then ρ₀ b else ρ₀ b + 1
          split <;> split <;> omega
        have later₁ (k : Nat) : ρ₁ (short + 1 + k) = long + 1 + 1 + k := by
          show (if short + 1 + k ≤ short then _ else _) = _
          rw [if_neg (by omega), later]
          omega
        obtain ⟨ρ, mono', same, fits⟩ := ih short (long + 1) mono₁ later₁
        refine ⟨ρ, mono', fun k le => (same k le).trans (if_pos le), ?_⟩
        rwa [if_neg here]
    | load | advance | collect | process => exact ih short long mono later

/-! ## What two courses have in common -/

/-- The shorter journal is what loads that are kept show, and all else in the longer one are
remarks. -/
structure SameShown (kept : Nat → Bool) (short long : List (Option Nat × Entry)) : Prop where
  same : long.filter (fun x => x.1.all kept) = short
  notices : ∀ x ∈ long, x.1.all kept = false → x.2.isNotice = true

namespace SameShown

variable {short long : List (Option Nat × Entry)} {load? : Option Nat}

theorem both (h : SameShown kept short long) (here : load?.all kept = true)
    (entries : List Entry) :
    SameShown kept (short ++ entries.map (load?, ·)) (long ++ entries.map (load?, ·)) := by
  constructor
  · rw [List.filter_append, h.same, List.filter_eq_self.mpr]
    intro x hx
    obtain ⟨entry, -, rfl⟩ := List.mem_map.mp hx
    exact here
  · intro x hx other
    rcases List.mem_append.mp hx with hx | hx
    · exact h.notices x hx other
    · obtain ⟨entry, -, rfl⟩ := List.mem_map.mp hx
      rw [here] at other
      cases other

theorem remark (h : SameShown kept short long) (other : load?.all kept = false)
    (entries : List Entry) (notices : ∀ entry ∈ entries, entry.isNotice = true) :
    SameShown kept short (long ++ entries.map (load?, ·)) := by
  constructor
  · rw [List.filter_append, h.same, List.filter_eq_nil_iff.mpr, List.append_nil]
    intro x hx
    obtain ⟨entry, -, rfl⟩ := List.mem_map.mp hx
    simpa using other
  · intro x hx _
    rcases List.mem_append.mp hx with hx | hx
    · exact h.notices x hx ‹_›
    · obtain ⟨entry, he, rfl⟩ := List.mem_map.mp hx
      exact notices entry he

end SameShown

/-- The longer queue has further messages before those of the shorter one, of modules that are
going to be refused. -/
structure SameQueue (kept : Nat → Bool) (e : Engine μ σ) (short long : List (Nat × Module)) :
    Prop where
  others : ∃ others, long = others ++ short ∧ ∀ x ∈ others, kept x.1 = false ∧ Refused e x.2
  kept : ∀ x ∈ short, kept x.1 = true

namespace SameQueue

variable {e : Engine μ σ} {short long rest : List (Nat × Module)} {n : Nat} {m : Module}

theorem both (h : SameQueue kept e short long) (here : kept n = true) (sent : List Module) :
    SameQueue kept e (short ++ sent.map (n, ·)) (long ++ sent.map (n, ·)) := by
  obtain ⟨⟨others, rfl, refused⟩, kept⟩ := h
  refine ⟨⟨others, List.append_assoc .., refused⟩, fun x hx => ?_⟩
  rcases List.mem_append.mp hx with hx | hx
  · exact kept x hx
  · obtain ⟨m, -, rfl⟩ := List.mem_map.mp hx
    exact here

/-- Nothing of the shorter queue may wait when a message is sent that it does not have. -/
theorem send (h : SameQueue kept e [] long) (other : kept n = false) (refused : Refused e m) :
    SameQueue kept e [] (long ++ [(n, m)]) := by
  obtain ⟨⟨others, rfl, all⟩, kept⟩ := h
  refine ⟨⟨others ++ [(n, m)], by simp, fun x hx => ?_⟩, kept⟩
  rcases List.mem_append.mp hx with hx | hx
  · exact all x hx
  · rw [List.mem_singleton.mp hx]
    exact ⟨other, refused⟩

/-- When a message is received that the shorter queue has, the queues are the same. -/
theorem eq_of_kept (h : SameQueue kept e short long) (head : long = (n, m) :: rest)
    (here : kept n = true) : short = long := by
  obtain ⟨⟨others, rfl, all⟩, -⟩ := h
  cases others with
  | nil => rfl
  | cons x others =>
    obtain ⟨rfl, -⟩ := List.cons.inj head
    have other := (all _ (.head _)).1
    rw [here] at other
    cases other

/-- When a message is received that the shorter queue does not have, the queues differ. -/
theorem receive (h : SameQueue kept e short long) (head : long = (n, m) :: rest)
    (other : kept n = false) : SameQueue kept e short rest ∧ Refused e m ∧ long ≠ short := by
  obtain ⟨⟨others, rfl, all⟩, kept_short⟩ := h
  cases others with
  | nil =>
    have here := kept_short (n, m) (by rw [show short = _ from head]; exact .head _)
    rw [other] at here
    cases here
  | cons x others =>
    obtain ⟨rfl, rfl⟩ := List.cons.inj head
    refine ⟨⟨⟨others, rfl, fun x hx => all x (.tail _ hx)⟩, kept_short⟩, (all _ (.head _)).2, ?_⟩
    intro same
    have lengths := congrArg List.length same
    rw [List.length_append, List.length_cons] at lengths
    omega

end SameQueue

/-- The shorter list has the tasks of the loads that are kept, under other numbers, and all other
tasks fail. -/
structure SameTasks (kept : Nat → Bool) (ρ : Nat → Nat) (short long : List (Nat × Task σ)) :
    Prop where
  same : long.filter (fun x => kept x.1) = short.map fun x => (x.1, x.2.renumber ρ)
  fails : ∀ x ∈ long, kept x.1 = false → x.2.Fails

namespace SameTasks

variable {ρ : Nat → Nat} {short long : List (Nat × Task σ)} {n : Nat} {t : Task σ}

theorem lookup_kept (h : SameTasks kept ρ short long) (here : kept n = true)
    (task : long.lookup n = some t) : ∃ t', short.lookup n = some t' ∧ t = t'.renumber ρ := by
  rw [← Keyed.lookup_filter_key here, h.same, Keyed.lookup_map_values] at task
  obtain ⟨t', found, rfl⟩ := Option.map_eq_some_iff.mp task
  exact ⟨t', found, rfl⟩

theorem lookup_other (h : SameTasks kept ρ short long) (other : kept n = false)
    (task : long.lookup n = some t) : t.Fails := by
  obtain ⟨before, after, rfl, -⟩ := List.lookup_eq_some_iff.mp task
  exact h.fails (n, t) (List.mem_append_right _ (.head _)) other

theorem add (h : SameTasks kept ρ short long) (here : kept n = true) (t : Task σ) :
    SameTasks kept ρ (short ++ [(n, t)]) (long ++ [(n, t.renumber ρ)]) := by
  constructor
  · rw [List.filter_append, h.same, List.map_append]
    simp [here]
  · intro x hx other
    rcases List.mem_append.mp hx with hx | hx
    · exact h.fails x hx other
    · rw [List.mem_singleton.mp hx, here] at other
      cases other

theorem add_failing (h : SameTasks kept ρ short long) (other : kept n = false) (fails : t.Fails) :
    SameTasks kept ρ short (long ++ [(n, t)]) := by
  constructor
  · rw [List.filter_append, h.same]
    simp [other]
  · intro x hx _
    rcases List.mem_append.mp hx with hx | hx
    · exact h.fails x hx ‹_›
    · rw [List.mem_singleton.mp hx]
      exact fails

theorem replace (h : SameTasks kept ρ short long) (here : kept n = true) (t : Task σ) :
    SameTasks kept ρ (Keyed.replace n t short) (Keyed.replace n (t.renumber ρ) long) := by
  constructor
  · rw [Keyed.filter_replace, h.same, Keyed.map_replace]
  · intro x hx other
    rcases Keyed.mem_replace hx with rfl | hx
    · rw [here] at other
      cases other
    · exact h.fails x hx other

theorem replace_failing (h : SameTasks kept ρ short long) (other : kept n = false)
    (fails : t.Fails) : SameTasks kept ρ short (Keyed.replace n t long) := by
  constructor
  · rw [Keyed.filter_replace, Keyed.replace_of_notMem, h.same]
    intro mem
    obtain ⟨x, hx, rfl⟩ := List.mem_map.mp mem
    have here := (List.mem_filter.mp hx).2
    rw [other] at here
    cases here
  · intro x hx _
    rcases Keyed.mem_replace hx with rfl | hx
    · exact fails
    · exact h.fails x hx ‹_›

end SameTasks

/-- The longer course has further loads, all of which fail. -/
structure Alike (kept : Nat → Bool) (ρ : Nat → Nat) (e : Engine μ σ) (short long : Course σ) :
    Prop where
  processor : Renumbered ρ short.processor long.processor
  queued : SameQueue kept e short.queued long.queued
  tasks : SameTasks kept ρ short.tasks long.tasks
  /-- As long as an offer is to be made, no message was received that the shorter course does not
  have. -/
  going : (∃ x ∈ short.tasks, x.2.isOver = false) →
    long.queued = short.queued ∧ long.processor.latest = ρ short.processor.latest
  heard : long.heard = short.heard.map (·.renumber ρ)
  shown : SameShown kept short.journal long.journal

namespace Alike

variable {ρ : Nat → Nat} {e : Engine μ σ} {short long : Course σ}

theorem fresh (sampleRate : Nat) : Alike kept ρ e (.fresh sampleRate) (.fresh sampleRate) where
  processor := ⟨rfl, rfl⟩
  queued := ⟨⟨[], rfl, by simp⟩, by rintro x ⟨⟩⟩
  tasks := ⟨rfl, by rintro x ⟨⟩⟩
  going := by rintro ⟨x, ⟨⟩, -⟩
  heard := rfl
  shown := ⟨rfl, by rintro x ⟨⟩⟩

theorem knows (h : Alike kept ρ e short long) {n : Nat} (new : long.knows n = false) :
    short.knows n = false := by
  obtain ⟨others, queued, -⟩ := h.queued.others
  unfold Course.knows at new ⊢
  simp only [Bool.or_eq_false_iff, List.any_eq_false, decide_eq_true_eq] at new ⊢
  refine ⟨fun x hx => new.1 x ?_, fun x hx => ?_⟩
  · rw [queued]
    exact List.mem_append_right _ hx
  · have mem : (x.1, x.2.renumber ρ) ∈ long.tasks.filter fun x => kept x.1 := by
      rw [h.tasks.same]
      exact List.mem_map_of_mem hx
    exact new.2 (x.1, x.2.renumber ρ) (List.mem_filter.mp mem).1

theorem quiet (h : Alike kept ρ e short long) (quiet : long.isQuiet kept = true) :
    short.queued = [] ∧ ∀ x ∈ short.tasks, x.2.isOver = true := by
  obtain ⟨others, queued, -⟩ := h.queued.others
  unfold Course.isQuiet at quiet
  simp only [Bool.and_eq_true, List.all_eq_true, Bool.or_eq_true, Bool.not_eq_true'] at quiet
  constructor
  · refine List.eq_nil_iff_forall_not_mem.mpr fun x hx => ?_
    have other := quiet.1 x (by rw [queued]; exact List.mem_append_right _ hx)
    rw [h.queued.kept x hx] at other
    cases other
  · intro x hx
    have mem : (x.1, x.2.renumber ρ) ∈ long.tasks.filter fun x => kept x.1 := by
      rw [h.tasks.same]
      exact List.mem_map_of_mem hx
    obtain ⟨mem, here⟩ := List.mem_filter.mp mem
    rcases quiet.2 _ mem with other | ended
    · rw [here] at other
      cases other
    · rwa [Task.isOver_renumber] at ended

/-! ### Loads -/

theorem load (h : Alike kept ρ e short long) (sound : short.Sound) (sound' : long.Sound) {n : Nat}
    (here : kept n = true) (lines : List String) (result : Option Compile.Result) :
    Alike kept ρ e (short.loaded n lines result) (long.loaded n lines result) := by
  have sent := Processor.deliver_of_accepting sound.accepting result
  have sent' := Processor.deliver_of_accepting sound'.accepting result
  have shown := h.shown.both (show (some n).all kept = true from here) (lines.map .line)
  refine ⟨?_, h.queued.both here _, h.tasks, fun going => ⟨?_, ?_⟩, h.heard, shown⟩
  · show Renumbered ρ (short.processor.deliver result) (long.processor.deliver result)
    rw [sent, sent']
    exact ⟨h.processor.driver, h.processor.pending⟩
  · exact congrArg (· ++ _) (h.going going).1
  · show (long.processor.deliver result).latest = ρ (short.processor.deliver result).latest
    rw [sent, sent']
    exact (h.going going).2

theorem load_failing (h : Alike kept ρ e short long) (sound : long.Sound) {n : Nat}
    (other : kept n = false) {lines : List String} {result : Option Compile.Result}
    (refused : ∀ m, artifact? result = some m → Refused e m)
    (allowed : long.allows kept (.load n lines result) = true) :
    Alike kept ρ e short (long.loaded n lines result) := by
  have sent := Processor.deliver_of_accepting sound.accepting result
  have shown := h.shown.remark (show (some n).all kept = false from other)
    (lines.map .line) (by simp [Entry.isNotice])
  have processor : Renumbered ρ short.processor (long.processor.deliver result) := by
    rw [sent]
    exact ⟨h.processor.driver, h.processor.pending⟩
  have latest : (long.processor.deliver result).latest = long.processor.latest := by
    rw [sent]
  cases artifact : artifact? result with
  | none =>
    have queued : (long.loaded n lines result).queued = long.queued := by
      simp [Course.loaded, Course.enter, artifact]
    refine ⟨processor, by rw [queued]; exact h.queued, h.tasks, fun going => ⟨?_, ?_⟩, h.heard,
      shown⟩
    · rw [queued]
      exact (h.going going).1
    · exact latest.trans (h.going going).2
  | some m =>
    have isQuiet : long.isQuiet kept = true := by
      simpa [Course.allows, other, artifact] using allowed
    obtain ⟨empty, ended⟩ := h.quiet isQuiet
    have queued : (long.loaded n lines result).queued = long.queued ++ [(n, m)] := by
      simp [Course.loaded, Course.enter, artifact]
    refine ⟨processor, ?_, h.tasks, ?_, h.heard, shown⟩
    · have before := h.queued
      rw [empty] at before
      rw [queued, empty]
      exact before.send other (refused m artifact)
    · rintro ⟨x, hx, going⟩
      rw [ended x hx] at going
      cases going

/-! ### Bootstraps -/

theorem receive (h : Alike kept ρ e short long) (sound : short.Sound) (sound' : long.Sound)
    {n : Nat} (here : kept n = true) {m : Module} {rest : List (Nat × Module)}
    (head : long.queued = (n, m) :: rest)
    (fits : ρ (short.processor.latest + 1) = long.processor.latest + 1) :
    short.queued = (n, m) :: rest ∧
      Alike kept ρ e (short.received e n m rest) (long.received e n m rest) := by
  have head' : short.queued = (n, m) :: rest := (h.queued.eq_of_kept head here).trans head
  have received := sound.receive head'
  have received' := sound'.receive head
  refine ⟨head', ?_, ⟨⟨[], rfl, by simp⟩, fun x hx => h.queued.kept x ?_⟩, ?_, fun _ => ⟨rfl, ?_⟩,
    h.heard, h.shown⟩
  · show Renumbered ρ short.processor.receive long.processor.receive
    rw [received, received']
    exact ⟨h.processor.driver, h.processor.pending⟩
  · rw [head']
    exact .tail _ hx
  · show SameTasks kept ρ _ (long.tasks ++ [(n, Task.begin e m (long.processor.latest + 1))])
    rw [← fits, Task.begin_renumber]
    exact h.tasks.add here _
  · show long.processor.receive.latest = ρ short.processor.receive.latest
    rw [received, received', fits]

theorem receive_failing (h : Alike kept ρ e short long) (text : e.PostsText)
    (sound : long.Sound) {n : Nat} (other : kept n = false) {m : Module}
    {rest : List (Nat × Module)} (head : long.queued = (n, m) :: rest) :
    Alike kept ρ e short (long.received e n m rest) := by
  obtain ⟨queued, refused, differ⟩ := h.queued.receive head other
  refine ⟨?_, queued, h.tasks.add_failing other (refused.begin text _), fun going => ?_, h.heard,
    h.shown⟩
  · show Renumbered ρ short.processor long.processor.receive
    rw [sound.receive head]
    exact ⟨h.processor.driver, h.processor.pending⟩
  · exact absurd (h.going going).1 differ

/-- What is going on after a bootstrap went on was going on before. -/
theorem going_of_replace {tasks : List (Nat × Task σ)} {n : Nat} {t t' : Task σ}
    (task : tasks.lookup n = some t) (ended : t'.isOver = false → t.isOver = false)
    (going : ∃ x ∈ Keyed.replace n t' tasks, x.2.isOver = false) :
    ∃ x ∈ tasks, x.2.isOver = false := by
  obtain ⟨x, hx, going⟩ := going
  obtain ⟨before, after, rfl, -⟩ := List.lookup_eq_some_iff.mp task
  rcases Keyed.mem_replace hx with rfl | hx
  · exact ⟨(n, t), List.mem_append_right _ (.head _), ended going⟩
  · exact ⟨x, hx, going⟩

theorem post (h : Alike kept ρ e short long) {n : Nat} (here : kept n = true) {t : Task σ}
    (task : short.tasks.lookup n = some t) (event : Event) (rest : List Event) :
    Alike kept ρ e (short.posted n t event rest)
      (long.posted n (t.renumber ρ) event rest) where
  processor := h.processor
  queued := h.queued
  tasks := h.tasks.replace here { t with events := rest }
  going going := h.going
    (going_of_replace task (fun same : Task.isOver { t with events := rest } = false => same) going)
  heard := h.heard
  shown := h.shown.both (show (some n).all kept = true from here) [.event event]

theorem post_failing (h : Alike kept ρ e short long) {n : Nat} (other : kept n = false)
    {t : Task σ} (fails : t.Fails) {event : Event} {rest : List Event}
    (events : t.events = event :: rest) : Alike kept ρ e short (long.posted n t event rest) where
  processor := h.processor
  queued := h.queued
  tasks := by
    refine h.tasks.replace_failing other ⟨fun event' he => fails.events event' ?_, fails.result⟩
    rw [events]
    exact .tail _ he
  going := h.going
  heard := h.heard
  shown := by
    refine h.shown.remark (show (some n).all kept = false from other) [.event event]
      (List.forall_mem_singleton.mpr (fails.events event ?_))
    rw [events]
    exact .head _

theorem offer (h : Alike kept ρ e short long) (injective : ρ.Injective) {n : Nat}
    (here : kept n = true) {t : Task σ} {result : Except InitFault (Instance σ)}
    (task : short.tasks.lookup n = some t) (offers : t.result = some result) :
    Alike kept ρ e (short.offered n t result)
      (long.offered n (t.renumber ρ) (result.map (·.renumber ρ))) := by
  have going : ∃ x ∈ short.tasks, x.2.isOver = false := by
    obtain ⟨before, after, tasks, -⟩ := List.lookup_eq_some_iff.mp task
    refine ⟨(n, t), ?_, by unfold Task.isOver; rw [offers]; rfl⟩
    rw [tasks]
    exact List.mem_append_right _ (.head _)
  obtain ⟨pending, tidings⟩ := h.processor.offer injective (h.going going).2 result
  rw [Course.offered_eq, Course.offered_eq, pending, tidings]
  exact {
    processor := ⟨h.processor.driver, rfl⟩
    queued := h.queued
    tasks := h.tasks.replace here
      { t with events := short.processor.tidings result, result := none }
    going := fun _ => h.going going
    heard := h.heard
    shown := h.shown }

theorem offer_failing (h : Alike kept ρ e short long) {n : Nat} (other : kept n = false)
    {t : Task σ} (fails : t.Fails) {result : Except InitFault (Instance σ)}
    (offers : t.result = some result) : Alike kept ρ e short (long.offered n t result) := by
  obtain ⟨fault, rfl⟩ := fails.result result offers
  rw [Course.offered_eq]
  exact {
    processor := ⟨h.processor.driver, h.processor.pending⟩
    queued := h.queued
    tasks := h.tasks.replace_failing other
      ⟨List.forall_mem_singleton.mpr rfl, fun result none => by cases none⟩
    going := h.going
    heard := h.heard
    shown := h.shown }

/-! ### The audio side -/

theorem process (h : Alike kept ρ e short long) (contended : Bool) (elapsed : Rat)
    (buffer : Buffer) :
    Alike kept ρ e (short.process e contended elapsed buffer)
      (long.process e contended elapsed buffer) := by
  obtain ⟨driver, filled, events, pending, taken⟩ :=
    h.processor.process e contended elapsed buffer
  refine ⟨⟨driver, pending⟩, h.queued, h.tasks, h.going, ?_, ?_⟩
  · unfold Course.process
    simp only [Course.enter, driver, filled, taken, h.heard, List.map_append]
    rfl
  · unfold Course.process
    simp only [Course.enter, events]
    exact h.shown.both rfl _

/-! ### All moves -/

/-- A move of a load that is kept, or of none, can be made in both courses. -/
theorem step (h : Alike kept ρ e short long) (sound : short.Sound) (sound' : long.Sound)
    (injective : ρ.Injective) {move : Move} {moves : List Move} (here : move.isKept kept = true)
    (fits : Fits kept ρ (move :: moves) short.processor.latest long.processor.latest)
    {long' : Course σ} (made : long.step e move = some long') :
    ∃ short', short.step e move = some short' ∧ Alike kept ρ e short' long' ∧
      Fits kept ρ moves short'.processor.latest long'.processor.latest := by
  suffices both : ∃ short', short.step e move = some short' ∧ Alike kept ρ e short' long' by
    obtain ⟨short', made', alike⟩ := both
    refine ⟨short', made', alike, ?_⟩
    rw [sound.latest_step made', sound'.latest_step made]
    cases move with
    | receive n =>
      have kept_n : kept n = true := here
      unfold Fits at fits
      rw [if_pos kept_n] at fits
      exact fits.2
    | load | advance | collect | process => exact fits
  cases move with
  | load n lines result =>
    obtain ⟨new, rfl⟩ := Course.step_load made
    refine ⟨short.loaded n lines result, ?_, h.load sound sound' here lines result⟩
    simp [Course.step, h.knows new]
  | receive n =>
    have kept_n : kept n = true := here
    obtain ⟨m, rest, head, rfl⟩ := Course.step_receive made
    unfold Fits at fits
    rw [if_pos kept_n] at fits
    obtain ⟨head', alike⟩ := h.receive sound sound' here head fits.1
    refine ⟨short.received e n m rest, ?_, alike⟩
    simp [Course.step, head']
  | advance n =>
    obtain ⟨t, task, case⟩ := Course.step_advance made
    obtain ⟨t, task', rfl⟩ := h.tasks.lookup_kept here task
    have advance : short.step e (.advance n) = short.advance n t := by
      show (short.tasks.lookup n).bind _ = _
      rw [task']
      rfl
    rw [advance]
    rcases case with ⟨event, rest, events, rfl⟩ | ⟨result, events, offers, rfl⟩
    · exact ⟨_, Course.advance_of_cons events, h.post here task' event rest⟩
    · obtain ⟨result, offers', rfl⟩ := Option.map_eq_some_iff.mp offers
      exact ⟨_, Course.advance_of_nil events offers', h.offer injective here task' offers'⟩
  | collect n =>
    cases made
    exact ⟨_, rfl, ⟨h.processor.driver, h.processor.pending⟩, h.queued, h.tasks, h.going, h.heard,
      h.shown⟩
  | process contended elapsed buffer =>
    cases made
    exact ⟨_, rfl, h.process contended elapsed buffer⟩

/-- A move of a load that is taken out changes nothing that the courses have in common. -/
theorem step_failing (h : Alike kept ρ e short long) (text : e.PostsText) (sound : long.Sound)
    {move : Move} {moves : List Move} (other : move.isKept kept = false)
    (refused : ∀ n lines result, move = .load n lines result →
      ∀ m, artifact? result = some m → Refused e m)
    (allowed : long.allows kept move = true)
    (fits : Fits kept ρ (move :: moves) short.processor.latest long.processor.latest)
    {long' : Course σ} (made : long.step e move = some long') :
    Alike kept ρ e short long' ∧
      Fits kept ρ moves short.processor.latest long'.processor.latest := by
  rw [sound.latest_step made]
  cases move with
  | load n lines result =>
    obtain ⟨-, rfl⟩ := Course.step_load made
    exact ⟨h.load_failing sound other (refused n lines result rfl) allowed, fits⟩
  | receive n =>
    have other_n : ¬ kept n = true := by simpa using (show kept n = false from other)
    obtain ⟨m, rest, head, rfl⟩ := Course.step_receive made
    unfold Fits at fits
    rw [if_neg other_n] at fits
    exact ⟨h.receive_failing text sound other head, fits⟩
  | advance n =>
    obtain ⟨t, task, case⟩ := Course.step_advance made
    have fails := h.tasks.lookup_other other task
    rcases case with ⟨event, rest, events, rfl⟩ | ⟨result, -, offers, rfl⟩
    · exact ⟨h.post_failing other fails events, fits⟩
    · exact ⟨h.offer_failing other fails offers, fits⟩
  | collect n =>
    cases made
    exact ⟨⟨⟨h.processor.driver, h.processor.pending⟩, h.queued, h.tasks, h.going, h.heard,
      h.shown⟩, fits⟩
  | process => cases other

theorem run (text : e.PostsText) (injective : ρ.Injective) {moves : List Move} {long' : Course σ}
    (h : Alike kept ρ e short long) (sound : short.Sound) (sound' : long.Sound)
    (refused : ∀ n lines result, .load n lines result ∈ moves → kept n = false →
      ∀ m, artifact? result = some m → Refused e m)
    (allowed : long.allowsAll kept e moves = true)
    (fits : Fits kept ρ moves short.processor.latest long.processor.latest)
    (ran : long.run e moves = some long') :
    ∃ short', short.run e (moves.filter (·.isKept kept)) = some short' ∧
      Alike kept ρ e short' long' := by
  induction moves generalizing short long with
  | nil =>
    cases ran
    exact ⟨short, rfl, h⟩
  | cons move moves ih =>
    obtain ⟨next, made, ran⟩ := Option.bind_eq_some_iff.mp ran
    unfold Course.allowsAll at allowed
    rw [made, Option.all_some, Bool.and_eq_true] at allowed
    have refused' := fun n lines result mem => refused n lines result (.tail move mem)
    cases here : move.isKept kept with
    | true =>
      obtain ⟨short', made', alike, fits'⟩ := h.step sound sound' injective here fits made
      obtain ⟨last, ran', alike'⟩ :=
        ih alike (sound.step made') (sound'.step made) refused' allowed.2 fits' ran
      refine ⟨last, ?_, alike'⟩
      rw [List.filter_cons_of_pos (by exact here)]
      show (short.step e move).bind _ = _
      rw [made']
      exact ran'
    | false =>
      have refused_now : ∀ n lines result, move = .load n lines result →
          ∀ m, artifact? result = some m → Refused e m := by
        rintro n lines result rfl
        exact refused n lines result (.head _) here
      obtain ⟨alike, fits'⟩ :=
        h.step_failing text sound' here refused_now allowed.1 fits made
      rw [List.filter_cons_of_neg (by simp [here])]
      exact ih alike sound (sound'.step made) refused' allowed.2 fits' ran

end Alike

/-! ## What is heard -/

section

open Net (Network)

variable {m : Type → Type} [Monad m] [LawfulMonad m] [FileSystem m] [Network m] [Programs m]
  [Terminal m] [Clock m]

/-- Take loads that fail out of a session, no matter where they are, except that a module is not
sent for one of them while another load has its message or its bootstrap on its way. Then what is
heard is the same but for the generations, and all that the session no longer shows are remarks. For
what a load does to the processor depends on the result of its compile alone: a compiled module is
sent, once, and nothing else ever is. -/
theorem failed_loads_change_nothing (e : Engine μ σ) (text : e.PostsText) (sampleRate : Nat)
    (kept : Nat → Bool) (moves : List Move) {long : Course σ}
    (ran : (Course.fresh sampleRate).run e moves = some long)
    (refused : ∀ n lines result, .load n lines result ∈ moves → kept n = false →
      ∀ artifact, artifact? result = some artifact → Refused e artifact)
    (allowed : (Course.fresh sampleRate : Course σ).allowsAll kept e moves = true) :
    (∃ short ρ, (Course.fresh sampleRate).run e (moves.filter (·.isKept kept)) = some short ∧
      StrictMono ρ ∧ long.heard = short.heard.map (·.renumber ρ) ∧
      long.journal.filter (fun x => x.1.all kept) = short.journal ∧
      ∀ x ∈ long.journal, x.1.all kept = false → x.2.isNotice = true) ∧
    ∀ (logger : Log.Logger) (options : Compile.Options) (report : String → m Unit) (path : String)
      (l : Loader σ),
      (l.load logger options report path = do
        let (session, result) ← Loader.fetch logger options report path l.session
        return (⟨session, l.processor.deliver result⟩,
          Loader.verdict path l.processor.accepting result)) ∧
      (l.processor.accepting = true → ∀ result, l.processor.deliver result =
        { l.processor with
          waiting := l.processor.waiting ++
            match result with
            | some (.success s) => [s.artifact]
            | _ => [] }) := by
  constructor
  · obtain ⟨ρ, mono, -, fits⟩ : ∃ ρ, StrictMono ρ ∧ (∀ k ≤ 0, ρ k = k) ∧ Fits kept ρ moves 0 0 :=
      exists_fits moves 0 0 strictMono_id fun k => rfl
    have start : Alike kept ρ e (.fresh sampleRate) (.fresh sampleRate) := .fresh sampleRate
    obtain ⟨short, ran', alike⟩ := start.run text mono.injective (.fresh sampleRate)
      (.fresh sampleRate) refused allowed fits ran
    exact ⟨short, ρ, ran', mono, alike.heard, alike.shown.same, alike.shown.notices⟩
  · intro logger options report path l
    refine ⟨Loader.load_eq logger options report path l, fun accepting result => ?_⟩
    rw [Processor.deliver_of_accepting accepting]
    rcases result with _ | _ | _ <;> rfl

end

/-- A module that is refused and a source that cannot be read, in a session that plays one module
after another. -/
theorem refused_module_is_not_heard :
    let kept : Nat → Bool := fun n => n == 0 || n == 3
    let moves : List Move :=
      [.load 0 [] (some (.success ⟨Guest.shortModule 1, "", []⟩)), .receive 0,
        .load 1 ["no source"] none, .advance 0, .advance 0, .process false 0 [[⟨9⟩]],
        .load 2 [] (some (.success ⟨Guest.emptyModule, "", []⟩)), .receive 2,
        .process false 0 [[⟨9⟩]], .advance 2, .advance 2, .collect (some 2),
        .load 3 [] (some (.success ⟨Guest.shortModule 3, "", []⟩)), .receive 3, .advance 3,
        .advance 3, .process false 0 [[⟨9⟩]]]
    ∃ long short : Course Unit,
      (Course.fresh 48000).run .quiet moves = some long ∧
      (Course.fresh 48000).run .quiet (moves.filter (·.isKept kept)) = some short ∧
      (∃ ρ, StrictMono ρ ∧ long.heard = short.heard.map (·.renumber ρ)) ∧
      long.heard.map (·.driver.activeGeneration) = [some 1, some 1, some 3] ∧
      long.journal =
        [(some 1, .line "no source"), (some 0, .event .ready),
          (some 2, .event (.error "failed to instantiate module: no code")),
          (some 3, .event .ready)] := by
  intro kept moves
  have refused : ∀ n lines result, .load n lines result ∈ moves → kept n = false →
      ∀ artifact, artifact? result = some artifact → Refused .quiet artifact := by
    intro n lines result mem other artifact found
    simp only [moves, List.mem_cons, reduceCtorEq, Move.load.injEq, List.not_mem_nil, or_false,
      false_or] at mem
    rcases mem with ⟨rfl, -, rfl⟩ | ⟨rfl, -, rfl⟩ | ⟨rfl, -, rfl⟩ | ⟨rfl, -, rfl⟩
    · cases other
    · cases found
    · cases found
      exact ⟨_, rfl⟩
    · cases other
  obtain ⟨short, ρ, ran, mono, heard, -⟩ :=
    (failed_loads_change_nothing (m := StateM World) .quiet Guest.Engine.quiet_postsText 48000 kept
      moves rfl refused (by decide)).1
  exact ⟨_, short, rfl, ran, ⟨ρ, mono, heard⟩, by decide, by decide⟩

/-- The module of a load that fails is sent while the bootstrap of the only other load is to be
made: the instance of that one is stale when it is there, and nothing is heard. -/
theorem refused_module_makes_stale :
    let original : List Move :=
      [.load 0 [] (some (.success ⟨Guest.shortModule 1, "", []⟩)), .receive 0, .advance 0,
        .process false 0 [[⟨9⟩]]]
    let further : List Move :=
      [.load 1 [] (some (.success ⟨Guest.emptyModule, "", []⟩)), .receive 1, .advance 1, .advance 1]
    Refused .quiet Guest.emptyModule ∧
      ∃ short long : Course Unit,
        (Course.fresh 48000).run .quiet original = some short ∧
        (Course.fresh 48000).run .quiet (original.take 2 ++ further ++ original.drop 2) =
          some long ∧
        short.heard.map (·.buffer) = [[[.zero]]] ∧ long.heard.map (·.buffer) = [[[⟨9⟩]]] ∧
        ∀ ρ, long.heard ≠ short.heard.map (·.renumber ρ) := by
  intro original further
  have heard : ∃ short long : Course Unit,
      (Course.fresh 48000).run .quiet original = some short ∧
      (Course.fresh 48000).run .quiet (original.take 2 ++ further ++ original.drop 2) =
        some long ∧
      short.heard.map (·.buffer) = [[[.zero]]] ∧ long.heard.map (·.buffer) = [[[⟨9⟩]]] :=
    ⟨_, _, rfl, rfl, by decide, by decide⟩
  obtain ⟨short, long, ran, ran', silent, kept⟩ := heard
  refine ⟨⟨_, rfl⟩, short, long, ran, ran', silent, kept, fun ρ same => ?_⟩
  have buffers : long.heard.map (·.buffer) = short.heard.map (·.buffer) := by
    rw [same, List.map_map]
    rfl
  rw [silent, kept] at buffers
  cases buffers

end LiveSound.Live
