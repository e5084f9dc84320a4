import LiveSound.Proofs.Data.Keyed
import LiveSound.Proofs.Processor.Interleaving

/-!
# The last message wins

In every run of a processor the instance that plays is never newer than the one that waits in the
slot, and neither is newer than the generation issued last. The invariant has two parts: `Orderly`
is about the tasks, most of all that while a task holds the slot with its own generation as the
latest, no instance of that generation or a later one was offered; `Succession` is about the slot
and the driver, and says where the instance of the latest generation is once it was offered.
-/

namespace LiveSound.Processor

open Guest (Engine Instance InitFault)
open Guest.Instance (Becomes)
open Playback (Driver Handoff)

variable {μ σ : Type}

/-! ## Tasks -/

/-- The tasks of a run, with the generation issued last. -/
structure Orderly (tasks : List (Task σ)) (latest : Nat) : Prop where
  latest_eq : latest = tasks.length
  generation : ∀ k t, tasks[k]? = some t → t.generation = k + 1
  made : ∀ t ∈ tasks, ∀ i, t.result = .ok i → i.generation = t.generation
  /-- Only a task with an instance comes to the slot. -/
  succeeded : ∀ t ∈ tasks, t.HoldsSlot ∨ t.Installed ∨ t.stage = .ended .stale →
    ∃ i, t.result = .ok i
  failed : ∀ t ∈ tasks, ∀ fault, t.stage = .ended (.failed fault) → t.result = .error fault
  seen : ∀ t ∈ tasks, ∀ n, t.stage = .offering n → t.generation ≤ n ∧ n ≤ latest
  alone : ∀ t ∈ tasks, ∀ u ∈ tasks, t.HoldsSlot → u.HoldsSlot → t.generation = u.generation
  /-- Whoever is about to install an instance is newer than everyone who did. -/
  newest : ∀ t ∈ tasks, t.stage = .offering t.generation →
    ∀ u ∈ tasks, u.Installed → u.generation < t.generation
  stale : ∀ t ∈ tasks, t.stage = .ended .stale → t.generation < latest

namespace Orderly

variable {tasks : List (Task σ)} {latest : Nat}

theorem nil : Orderly ([] : List (Task σ)) 0 := by
  constructor <;> simp

theorem generation_le (h : Orderly tasks latest) {t : Task σ} (ht : t ∈ tasks) :
    t.generation ≤ latest := by
  obtain ⟨k, hk⟩ := List.mem_iff_getElem?.mp ht
  have := (List.getElem?_eq_some_iff.mp hk).1
  rw [h.generation k t hk, h.latest_eq]
  omega

theorem generations (h : Orderly tasks latest) :
    tasks.map (·.generation) = List.range' 1 tasks.length := by
  refine List.ext_getElem (by simp) fun k hk _ => ?_
  have lt : k < tasks.length := by simpa using hk
  rw [List.getElem_map, List.getElem_range', h.generation k _ (List.getElem?_eq_getElem lt)]
  omega

theorem nodup (h : Orderly tasks latest) : (tasks.map (·.generation)).Nodup := by
  rw [h.generations]
  exact List.nodup_range'

theorem eq_of_generation (h : Orderly tasks latest) {t u : Task σ} (ht : t ∈ tasks)
    (hu : u ∈ tasks) (e : t.generation = u.generation) : t = u :=
  Keyed.eq_of_key h.nodup ht hu e

theorem mem_set (h : Orderly tasks latest) {k : Nat} {t : Task σ} (hk : tasks[k]? = some t)
    {t' u : Task σ} (hu : u ∈ tasks.set k t') :
    u = t' ∨ (u ∈ tasks ∧ u.generation ≠ t.generation) :=
  Keyed.mem_set h.nodup hk hu

/-- A bootstrap is begun. -/
theorem begin (h : Orderly tasks latest) (e : Engine μ σ) (m : Module) :
    Orderly (tasks ++ [.begin e m (latest + 1)]) (latest + 1) := by
  have old : ∀ u ∈ tasks ++ [Task.begin e m (latest + 1)],
      u ∈ tasks ∨ u = Task.begin e m (latest + 1) := by simp
  have free : ¬ (Task.begin e m (latest + 1)).HoldsSlot := by rintro ⟨n, hn⟩; cases hn
  have out : ¬ (Task.begin e m (latest + 1)).Installed := by rintro (hn | hn) <;> cases hn
  constructor
  case latest_eq => simp [h.latest_eq]
  case generation =>
    intro k t hk
    rcases Keyed.getElem?_concat_eq_some.mp hk with hk | ⟨rfl, rfl⟩
    · exact h.generation k t hk
    · rw [← h.latest_eq]
      rfl
  case made =>
    intro t ht i hi
    rcases old t ht with ht | rfl
    · exact h.made t ht i hi
    · exact Guest.Bootstrap.run_generation hi
  case succeeded =>
    rintro t ht hs
    rcases old t ht with ht | rfl
    · exact h.succeeded t ht hs
    · rcases hs with hs | hs | hs
      · exact absurd hs free
      · exact absurd hs out
      · cases hs
  case failed =>
    intro t ht fault hs
    rcases old t ht with ht | rfl
    · exact h.failed t ht fault hs
    · cases hs
  case seen =>
    intro t ht n hn
    rcases old t ht with ht | rfl
    · have := h.seen t ht n hn
      omega
    · cases hn
  case alone =>
    intro t ht u hu hts hus
    rcases old t ht with ht | rfl
    · rcases old u hu with hu | rfl
      · exact h.alone t ht u hu hts hus
      · exact absurd hus free
    · exact absurd hts free
  case newest =>
    intro t ht hs u hu hi
    rcases old t ht with ht | rfl
    · rcases old u hu with hu | rfl
      · exact h.newest t ht hs u hu hi
      · exact absurd hi out
    · cases hs
  case stale =>
    intro t ht hs
    rcases old t ht with ht | rfl
    · have := h.stale t ht hs
      omega
    · cases hs

theorem set (h : Orderly tasks latest) {k : Nat} {t : Task σ} (hk : tasks[k]? = some t)
    {stage : Stage}
    (locks : ∀ n, stage = .offering n →
      n = latest ∧ (∃ i, t.result = .ok i) ∧ ∀ u ∈ tasks, ¬ u.HoldsSlot)
    (installs : stage = .offered ∨ stage = .ended .installed → t.HoldsSlot ∨ t.Installed)
    (discards : stage = .ended .stale → t.HoldsSlot ∧ t.generation < latest)
    (fails : ∀ fault, stage = .ended (.failed fault) → t.result = .error fault) :
    Orderly (tasks.set k { t with stage := stage }) latest := by
  have mem : t ∈ tasks := List.mem_of_getElem? hk
  have ok : t.HoldsSlot ∨ t.Installed → ∃ i, t.result = .ok i := fun hs =>
    h.succeeded t mem (hs.imp_right .inl)
  constructor
  case latest_eq => simpa using h.latest_eq
  case generation =>
    intro l u hl
    rcases (Keyed.getElem?_set_eq_some hk).mp hl with ⟨rfl, rfl⟩ | ⟨-, hl⟩
    · exact h.generation l t hk
    · exact h.generation l u hl
  case made =>
    intro u hu i hi
    rcases h.mem_set hk hu with rfl | ⟨hu, -⟩
    · exact h.made t mem i hi
    · exact h.made u hu i hi
  case succeeded =>
    intro u hu hs
    rcases h.mem_set hk hu with rfl | ⟨hu, -⟩
    · rcases hs with ⟨n, hn⟩ | hs | hs
      · exact (locks n hn).2.1
      · exact ok (installs hs)
      · exact ok (.inl (discards hs).1)
    · exact h.succeeded u hu hs
  case failed =>
    intro u hu fault hs
    rcases h.mem_set hk hu with rfl | ⟨hu, -⟩
    · exact fails fault hs
    · exact h.failed u hu fault hs
  case seen =>
    intro u hu n hn
    rcases h.mem_set hk hu with rfl | ⟨hu, -⟩
    · have le := h.generation_le mem
      rw [(locks n hn).1]
      exact ⟨le, Nat.le_refl _⟩
    · exact h.seen u hu n hn
  case alone =>
    intro u hu v hv hus hvs
    rcases h.mem_set hk hu with rfl | ⟨hu, -⟩
    · rcases h.mem_set hk hv with rfl | ⟨hv, -⟩
      · rfl
      · obtain ⟨n, hn⟩ := hus
        exact absurd hvs ((locks n hn).2.2 v hv)
    · rcases h.mem_set hk hv with rfl | ⟨hv, -⟩
      · obtain ⟨n, hn⟩ := hvs
        exact absurd hus ((locks n hn).2.2 u hu)
      · exact h.alone u hu v hv hus hvs
  case newest =>
    intro u hu hs v hv hi
    rcases h.mem_set hk hu with rfl | ⟨hu, hne⟩
    · rcases h.mem_set hk hv with rfl | ⟨hv, hne⟩
      · rcases hi with hi | hi <;> cases hs.symm.trans hi
      · have le := h.generation_le hv
        rw [(locks _ hs).1.symm] at le
        exact Nat.lt_of_le_of_ne le hne
    · rcases h.mem_set hk hv with rfl | ⟨hv, -⟩
      · rcases installs hi with held | held
        · exact absurd (h.alone u hu t mem ⟨_, hs⟩ held) hne
        · exact h.newest u hu hs t mem held
      · exact h.newest u hu hs v hv hi
  case stale =>
    intro u hu hs
    rcases h.mem_set hk hu with rfl | ⟨hu, -⟩
    · exact (discards hs).2
    · exact h.stale u hu hs

end Orderly

/-! ## The slot and the driver -/

/-- An instance that was put into the slot. -/
def Offered (tasks : List (Task σ)) (i : Instance σ) : Prop :=
  ∃ t ∈ tasks, t.result = .ok i ∧ t.Installed

/-- The instance waits in the slot, or the driver has taken over just this one. -/
def Current (μ : Type) (pending active : Option (Instance σ)) (i : Instance σ) : Prop :=
  pending = some i ∨ pending = none ∧ ∃ j, active = some j ∧ Becomes μ i j

/-- What is in the slot and what plays, when `offered` were put into the slot. -/
structure Succession (μ : Type) (offered : Instance σ → Prop) (latest : Nat)
    (pending active : Option (Instance σ)) : Prop where
  pending_offered : ∀ i, pending = some i → offered i
  active_offered : ∀ j, active = some j → ∃ i, offered i ∧ Becomes μ i j
  newer : ∀ i j, pending = some i → active = some j → j.generation < i.generation
  last : ∀ i, offered i → i.generation = latest → Current μ pending active i

namespace Succession

variable {offered : Instance σ → Prop} {latest : Nat} {pending active : Option (Instance σ)}

theorem congr (h : Succession μ offered latest pending active) {offered' : Instance σ → Prop}
    (same : ∀ i, offered' i ↔ offered i) : Succession μ offered' latest pending active := by
  rwa [show offered' = offered from funext fun i => propext (same i)]

theorem issue (h : Succession μ offered latest pending active)
    (old : ∀ i, offered i → i.generation ≤ latest) :
    Succession μ offered (latest + 1) pending active where
  pending_offered := h.pending_offered
  active_offered := h.active_offered
  newer := h.newer
  last i hi e := by
    have := old i hi
    omega

/-- An instance is put into the slot that is newer than all before it. -/
theorem put (h : Succession μ offered latest pending active) {i : Instance σ}
    (le : i.generation ≤ latest) (newest : ∀ u, offered u → u.generation < i.generation) :
    Succession μ (fun u => offered u ∨ u = i) latest (some i) active where
  pending_offered u hu := .inr (Option.some.inj hu).symm
  active_offered j hj := by
    obtain ⟨u, hu, huj⟩ := h.active_offered j hj
    exact ⟨u, .inl hu, huj⟩
  newer u j hu hj := by
    obtain ⟨v, hv, hvj⟩ := h.active_offered j hj
    rw [hvj.generation_eq, ← Option.some.inj hu]
    exact newest v hv
  last u hu e := by
    rcases hu with hu | rfl
    · have := newest u hu
      omega
    · exact .inl rfl

/-- The driver takes over the instance in the slot. -/
theorem take {i : Instance σ} (h : Succession μ offered latest (some i) active) :
    Succession μ offered latest none (some i) where
  pending_offered u hu := by cases hu
  active_offered j hj := by
    cases hj
    exact ⟨i, h.pending_offered i rfl, .refl⟩
  newer u j hu _ := by cases hu
  last u hu e := by
    rcases h.last u hu e with hp | ⟨hp, -⟩
    · cases hp
      exact .inr ⟨rfl, i, rfl, .refl⟩
    · cases hp

theorem advance (h : Succession μ offered latest pending active) {active' : Option (Instance σ)}
    (idle : active = none → active' = none)
    (playing : ∀ i, active = some i → ∃ j, active' = some j ∧ Becomes μ i j) :
    Succession μ offered latest pending active' := by
  have back : ∀ j, active' = some j → ∃ i, active = some i ∧ Becomes μ i j := by
    intro j hj
    cases ha : active with
    | none => rw [idle ha] at hj; cases hj
    | some i =>
      obtain ⟨j', hj', hij⟩ := playing i ha
      rw [hj', Option.some.injEq] at hj
      exact ⟨i, rfl, hj ▸ hij⟩
  constructor
  case pending_offered => exact h.pending_offered
  case active_offered =>
    intro j hj
    obtain ⟨i, hi, hij⟩ := back j hj
    obtain ⟨u, hu, hui⟩ := h.active_offered i hi
    exact ⟨u, hu, hui.trans hij⟩
  case newer =>
    intro u j hu hj
    obtain ⟨i, hi, hij⟩ := back j hj
    rw [hij.generation_eq]
    exact h.newer u i hu hi
  case last =>
    intro u hu e
    rcases h.last u hu e with hp | ⟨hp, i, hi, hui⟩
    · exact .inl hp
    · obtain ⟨j, hj, hij⟩ := playing i hi
      exact .inr ⟨hp, j, hj, hui.trans hij⟩

end Succession

/-! ## Which instances were offered -/

section Offered

variable {tasks : List (Task σ)} {latest : Nat} {i : Instance σ}

theorem offered_begin (e : Engine μ σ) (m : Module) :
    Offered (tasks ++ [.begin e m (latest + 1)]) i ↔ Offered tasks i := by
  constructor
  · rintro ⟨t, ht, hr, hi⟩
    rcases List.mem_append.mp ht with ht | ht
    · exact ⟨t, ht, hr, hi⟩
    · rw [List.mem_singleton] at ht
      subst ht
      rcases hi with hi | hi <;> cases hi
  · rintro ⟨t, ht, hr, hi⟩
    exact ⟨t, List.mem_append_left _ ht, hr, hi⟩

/-- When a task goes to another stage, only its own instance can be new. -/
theorem offered_set (h : Orderly tasks latest) {k : Nat} {t : Task σ} (hk : tasks[k]? = some t)
    {stage : Stage} (kept : t.Installed → stage = .offered ∨ stage = .ended .installed) :
    Offered (tasks.set k { t with stage := stage }) i ↔
      Offered tasks i ∨ (t.result = .ok i ∧ (stage = .offered ∨ stage = .ended .installed)) := by
  have lt : k < tasks.length := (List.getElem?_eq_some_iff.mp hk).1
  constructor
  · rintro ⟨u, hu, hr, hi⟩
    rcases h.mem_set hk hu with rfl | ⟨hu, -⟩
    · exact .inr ⟨hr, hi⟩
    · exact .inl ⟨u, hu, hr, hi⟩
  · rintro (⟨u, hu, hr, hi⟩ | ⟨hr, hi⟩)
    · obtain ⟨l, hl⟩ := List.mem_iff_getElem?.mp hu
      by_cases e : k = l
      · subst e
        obtain rfl : u = t := Option.some.inj (hl.symm.trans hk)
        exact ⟨_, List.mem_set lt _, hr, kept hi⟩
      · exact ⟨u, List.mem_of_getElem? (by rw [List.getElem?_set_ne e, hl]), hr, hi⟩
    · exact ⟨_, List.mem_set lt _, hr, hi⟩

theorem offered_set_of_same (h : Orderly tasks latest) {k : Nat} {t : Task σ}
    (hk : tasks[k]? = some t) {stage : Stage}
    (same : t.Installed ↔ stage = .offered ∨ stage = .ended .installed) :
    Offered (tasks.set k { t with stage := stage }) i ↔ Offered tasks i := by
  rw [offered_set h hk same.mp]
  constructor
  · rintro (hi | ⟨hr, hs⟩)
    · exact hi
    · exact ⟨t, List.mem_of_getElem? hk, hr, same.mpr hs⟩
  · exact .inl

theorem Orderly.offered_le (h : Orderly tasks latest) (hi : Offered tasks i) :
    i.generation ≤ latest := by
  obtain ⟨t, ht, hr, -⟩ := hi
  rw [h.made t ht i hr]
  exact h.generation_le ht

end Offered

/-! ## Every step keeps the order -/

/-- The order of the instances of a run. -/
structure Ordered (μ : Type) (s : Run σ) : Prop where
  tasks : Orderly s.tasks s.processor.latest
  slot : Succession μ (Offered s.tasks) s.processor.latest s.pending s.active
  rising : s.taken.Pairwise (· < ·)
  taken_le : ∀ g ∈ s.taken, ∃ j, s.active = some j ∧ g ≤ j.generation

namespace Ordered

variable {s : Run σ}

theorem fresh (sampleRate : Nat) : Ordered μ (.fresh sampleRate : Run σ) where
  tasks := .nil
  slot := by
    constructor
    · intro i hi; cases hi
    · intro j hj; cases hj
    · intro i j hi; cases hi
    · rintro i ⟨t, ht, -⟩; cases ht
  rising := .nil
  taken_le := by intro g hg; cases hg

/-- A step that is not seen by the tasks, the slot and the driver. -/
theorem congr (h : Ordered μ s) {s' : Run σ} (tasks : s'.tasks = s.tasks)
    (latest : s'.processor.latest = s.processor.latest) (pending : s'.pending = s.pending)
    (active : s'.active = s.active) (taken : s'.taken = s.taken) : Ordered μ s' where
  tasks := by rw [tasks, latest]; exact h.tasks
  slot := by rw [tasks, latest, pending, active]; exact h.slot
  rising := by rw [taken]; exact h.rising
  taken_le := by rw [taken, active]; exact h.taken_le

theorem receive (h : Ordered μ s) (e : Engine μ σ) {m : Module} {rest : List Module}
    (waiting : s.processor.waiting = m :: rest) : Ordered μ (s.receive e m) := by
  have latest : (s.receive e m).processor.latest = s.processor.latest + 1 := by
    simp [Run.receive, Processor.receive, waiting, issue]
  have deck : (s.receive e m).processor.deck = s.processor.deck := by
    simp [Run.receive, Processor.receive, waiting, issue]
  have same : ∀ i, Offered (s.tasks ++ [.begin e m (s.processor.latest + 1)]) i ↔
      Offered s.tasks i := fun i => offered_begin e m
  have slot := (h.slot.issue fun i => h.tasks.offered_le).congr same
  refine ⟨?_, ?_, h.rising, ?_⟩
  · rw [latest]
    exact h.tasks.begin e m
  · rw [latest, Run.pending, Run.active, deck]
    exact slot
  · rw [Run.active, deck]
    exact h.taken_le

theorem setStage (h : Ordered μ s) {k : Nat} {t : Task σ} (hk : s.tasks[k]? = some t)
    {stage : Stage}
    (locks : ∀ n, stage = .offering n →
      n = s.processor.latest ∧ (∃ i, t.result = .ok i) ∧ s.SlotFree)
    (same : t.Installed ↔ stage = .offered ∨ stage = .ended .installed)
    (discards : stage = .ended .stale → t.HoldsSlot ∧ t.generation < s.processor.latest)
    (fails : ∀ fault, stage = .ended (.failed fault) → t.result = .error fault) :
    Ordered μ (s.setStage k t stage) where
  tasks := h.tasks.set hk locks (fun hs => .inr (same.mpr hs)) discards fails
  slot := h.slot.congr fun _ => offered_set_of_same h.tasks hk same
  rising := h.rising
  taken_le := h.taken_le

theorem close (h : Ordered μ s) {k : Nat} {t : Task σ} (hk : s.tasks[k]? = some t)
    {outcome : InstallOutcome} (same : t.Installed ↔ outcome = .installed)
    (discards : outcome = .stale → t.HoldsSlot ∧ t.generation < s.processor.latest)
    (fails : ∀ fault, outcome = .failed fault → t.result = .error fault) :
    Ordered μ (s.close k t outcome) := by
  have closed : Ordered μ (s.setStage k t (.ended outcome)) :=
    h.setStage hk (fun n hn => by cases hn) (by simpa using same)
      (fun hs => discards (Stage.ended.inj hs)) (fun fault hs => fails fault (Stage.ended.inj hs))
  exact closed.congr rfl rfl rfl rfl rfl

theorem offer (h : Ordered μ s) {k seen : Nat} {t : Task σ} {i : Instance σ}
    (hk : s.tasks[k]? = some t) (stage : t.stage = .offering seen) (result : t.result = .ok i) :
    Ordered μ (s.offer k t i seen) := by
  have mem : t ∈ s.tasks := List.mem_of_getElem? hk
  have made := h.tasks.made t mem i result
  have bounds := h.tasks.seen t mem seen stage
  have out : ¬ t.Installed := by rintro (hs | hs) <;> rw [stage] at hs <;> cases hs
  by_cases e : i.generation = seen
  · rw [s.offer_of_latest k t e]
    have newest : ∀ u, Offered s.tasks u → u.generation < i.generation := by
      rintro u ⟨v, hv, hr, hi⟩
      rw [h.tasks.made v hv u hr, made]
      exact h.tasks.newest t mem (by rw [stage, ← e, made]) v hv hi
    refine ⟨?_, ?_, h.rising, h.taken_le⟩
    · exact h.tasks.set hk (fun n hn => by cases hn) (fun _ => .inl ⟨seen, stage⟩)
        (fun hs => by cases hs) (fun fault hs => by cases hs)
    · refine (h.slot.put (by omega) newest).congr fun u => ?_
      show Offered (s.tasks.set k { t with stage := .offered }) u ↔ _
      rw [offered_set h.tasks hk fun hs => absurd hs out, result]
      simp [eq_comm]
  · rw [s.offer_of_stale k t e]
    exact h.close hk (by simp [out]) (fun _ => ⟨⟨seen, stage⟩, by omega⟩)
      (fun fault hs => by cases hs)

/-- The audio side takes over what is newer than all that it had before. -/
theorem process (h : Ordered μ s) (e : Engine μ σ) (contended : Bool) (elapsed : Rat)
    (buffer : Playback.Buffer) : Ordered μ (s.process e contended elapsed buffer) := by
  cases ht : Driver.taken? s.processor.deck.handoff contended with
  | none =>
    obtain ⟨pending, taken, idle, goes⟩ := s.process_of_none e ht elapsed buffer
    refine ⟨h.tasks, ?_, by rw [taken]; exact h.rising, ?_⟩
    · rw [pending]
      exact h.slot.advance idle goes
    · rw [taken]
      intro g hg
      obtain ⟨i, hi, le⟩ := h.taken_le g hg
      obtain ⟨j, hj, hij⟩ := goes i hi
      exact ⟨j, hj, by rw [hij.generation_eq]; exact le⟩
  | some next =>
    obtain ⟨waits, empty, taken, j, hj, hnj⟩ := s.process_of_some e ht elapsed buffer
    have slot := h.slot
    rw [waits] at slot
    have newer : ∀ g ∈ s.taken, g < next.generation := by
      intro g hg
      obtain ⟨i, hi, le⟩ := h.taken_le g hg
      exact Nat.lt_of_le_of_lt le (slot.newer next i rfl hi)
    refine ⟨h.tasks, ?_, ?_, ?_⟩
    · rw [empty]
      refine slot.take.advance (fun ha => by cases ha) fun i hi => ?_
      cases hi
      exact ⟨j, hj, hnj⟩
    · rw [taken, List.pairwise_append]
      refine ⟨h.rising, List.pairwise_singleton _ _, fun g hg g' hg' => ?_⟩
      rw [List.mem_singleton.mp hg']
      exact newer g hg
    · rw [taken]
      intro g hg
      refine ⟨j, hj, ?_⟩
      rw [hnj.generation_eq]
      rcases List.mem_append.mp hg with hg | hg
      · exact Nat.le_of_lt (newer g hg)
      · exact Nat.le_of_eq (List.mem_singleton.mp hg)

theorem step {a : Actor} {s' : Run σ} (h : Ordered μ s) (hs : Step μ a s s') : Ordered μ s' := by
  cases hs with
  | send m left =>
    refine h.congr rfl ?_ ?_ ?_ rfl <;>
      simp only [Run.send, Processor.send, Run.pending, Run.active] <;> split <;> rfl
  | leave => exact h.congr rfl rfl rfl rfl rfl
  | receive e text serving waiting => exact h.receive e waiting
  | collect serving => exact h.congr rfl rfl rfl rfl rfl
  | stop serving left waiting ended => exact h.congr rfl rfl rfl rfl rfl
  | @post _ k t event rest task stage =>
    have moved : Ordered μ (s.setStage k t (.starting rest)) :=
      h.setStage task (fun n hn => by cases hn) (by simp [Task.Installed, stage])
        (fun hs => by cases hs) (fun fault hs => by cases hs)
    exact moved.congr rfl rfl rfl rfl rfl
  | fail task stage result =>
    refine h.close task (by simp [Task.Installed, stage]) (fun hs => by cases hs) ?_
    intro fault hf
    cases hf
    exact result
  | lock task stage result free =>
    refine h.setStage task ?_ (by simp [Task.Installed, stage]) (fun hs => by cases hs)
      (fun fault hs => by cases hs)
    intro n hn
    cases hn
    exact ⟨rfl, ⟨_, result⟩, free⟩
  | offer task stage result => exact h.offer task stage result
  | announce task stage =>
    exact h.close task (by simp [Task.Installed, stage]) (fun hs => by cases hs)
      (fun fault hs => by cases hs)
  | process e contended elapsed buffer free => exact h.process e contended elapsed buffer

theorem of_steps {s' : Run σ} (h : Ordered μ s) (hs : Steps μ s s') : Ordered μ s' := by
  induction hs with
  | refl => exact h
  | tail _ hs ih => exact ih.step hs

theorem of_reachable {sampleRate : Nat} (h : Reachable μ sampleRate s) : Ordered μ s :=
  (fresh sampleRate).of_steps h

/-- The bootstrap of the latest generation cannot be stale, so its instance was offered. -/
theorem offered_of_latest (h : Ordered μ s) {t : Task σ} (ht : t ∈ s.tasks)
    (latest : t.generation = s.processor.latest) (ended : t.HasEnded) {i : Instance σ}
    (result : t.result = .ok i) : Offered s.tasks i := by
  obtain ⟨outcome, stage⟩ := ended
  cases outcome with
  | installed => exact ⟨t, ht, result, .inr stage⟩
  | stale =>
    have := h.tasks.stale t ht stage
    omega
  | failed fault =>
    have failed := h.tasks.failed t ht fault stage
    rw [result] at failed
    cases failed

end Ordered

/-! ## The instance of the latest generation plays -/

/-- The next buffer, when the slot is free, is filled by what has become of `i`; an instance that
is taken over for it starts without a fault. -/
def PlaysNext (s : Run σ) (e : Engine μ σ) (elapsed : Rat) (buffer : Playback.Buffer)
    (i : Instance σ) : Prop :=
  let done := s.processor.deck.driver.process e s.processor.deck.handoff false elapsed buffer
  ∃ (d : Driver σ) (j : Instance σ), d.active = some j ∧ Becomes μ i j ∧
    (s.pending = some i → j = i ∧ d.faulted = false) ∧
    done.driver = (d.play e elapsed buffer).1 ∧ done.buffer = (d.play e elapsed buffer).2.1 ∧
    done.events = (d.play e elapsed buffer).2.2

theorem playsNext_of_current {s : Run σ} {i : Instance σ} (h : Current μ s.pending s.active i)
    (e : Engine μ σ) (elapsed : Rat) (buffer : Playback.Buffer) :
    PlaysNext s e elapsed buffer i := by
  rcases h with hp | ⟨hp, j, hj, hij⟩
  · have taken : Driver.taken? s.processor.deck.handoff false = some i := hp
    obtain ⟨driver, filled, events, -⟩ :=
      Driver.process_of_some e s.processor.deck.driver taken elapsed buffer
    exact ⟨s.processor.deck.driver.takeOver i, i, rfl, .refl, fun _ => ⟨rfl, rfl⟩, driver, filled,
      events⟩
  · have taken : Driver.taken? s.processor.deck.handoff false = none := hp
    have done := Driver.process_of_none e s.processor.deck.driver taken elapsed buffer
    refine ⟨s.processor.deck.driver, j, hj, hij, fun hi => ?_, ?_, ?_, ?_⟩
    · rw [hp] at hi
      cases hi
    · rw [done]
    · rw [done]
    · rw [done]

/-- In every run, no generation in the slot or the driver is above the latest, what waits is newer
than what plays, and the generations that the driver takes over rise. Once every bootstrap has
ended, the instance of the latest generation, if there is one, waits in the slot or plays, and is
what the next buffer is filled from. -/
theorem last_issued_wins {sampleRate : Nat} {s : Run σ} (h : Reachable μ sampleRate s) :
    (∀ i, s.pending = some i ∨ s.active = some i → i.generation ≤ s.processor.latest) ∧
    (∀ i j, s.pending = some i → s.active = some j → j.generation < i.generation) ∧
    s.taken.Pairwise (· < ·) ∧
    ((∀ t ∈ s.tasks, t.HasEnded) →
      ∀ t ∈ s.tasks, t.generation = s.processor.latest → ∀ i, t.result = .ok i →
        Current μ s.pending s.active i ∧
        ∀ (e : Engine μ σ) (elapsed : Rat) (buffer : Playback.Buffer),
          PlaysNext s e elapsed buffer i) := by
  have ordered := Ordered.of_reachable h
  refine ⟨?_, ordered.slot.newer, ordered.rising, ?_⟩
  · rintro i (hi | hi)
    · exact ordered.tasks.offered_le (ordered.slot.pending_offered i hi)
    · obtain ⟨u, hu, hui⟩ := ordered.slot.active_offered i hi
      rw [hui.generation_eq]
      exact ordered.tasks.offered_le hu
  · intro ended t ht latest i result
    have offered := ordered.offered_of_latest ht latest (ended t ht) result
    have made : i.generation = s.processor.latest := by
      rw [ordered.tasks.made t ht i result, latest]
    have current := ordered.slot.last i offered made
    exact ⟨current, playsNext_of_current current⟩

/-- Two messages are received, and the bootstrap of the first takes longer: the second instance is
taken over before the first is offered. -/
theorem second_message_wins :
    ∃ s : Run Unit, Reachable Unit 48000 s ∧ s.tasks.length = 2 ∧ s.taken = [2] ∧
      (∀ t ∈ s.tasks, t.HasEnded) ∧
      Current Unit s.pending s.active ⟨(), 2, .skipped, true⟩ := by
  have sent : Reachable Unit 48000 (((Run.fresh 48000 : Run Unit).send
      (Guest.shortModule 1)).send (Guest.shortModule 2)) :=
    (Step.send _ rfl).steps.tail (.send _ rfl)
  have received := (sent.tail (.receive .quiet Engine.quiet_postsText rfl rfl)).tail
    (.receive .quiet Engine.quiet_postsText rfl rfl)
  have installed := ((received.tail (.lock (k := 1) rfl rfl rfl (by decide))).tail
    (.offer (k := 1) rfl rfl rfl)).tail (.announce (k := 1) rfl rfl)
  have played := installed.tail (.process .quiet false 0 [] fun _ => by decide)
  have discarded := (played.tail (.lock (k := 0) rfl rfl rfl (by decide))).tail
    (.offer (k := 0) rfl rfl rfl)
  have wins := (last_issued_wins discarded).2.2.2 (by decide) _ (.tail _ (.head _)) rfl _ rfl
  exact ⟨_, discarded, rfl, rfl, by decide, wins.1⟩

end LiveSound.Processor
