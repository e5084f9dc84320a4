import LiveSound.Playback.Driver
import LiveSound.Proofs.Guest.Posting

/-!
# What an instance answers

An instance that is asked for samples again and again answers each time from the state in which the
time before left it, also when that time failed. `answer` is the answer to each of these calls,
counted from 0, and `after` the instance that a number of them leaves; `Gives` and `FailsAt` say
how far the answers are samples. The samples that the driver gets in one go are read off these
answers (`sample_of_gives`, `sample_of_failsAt`).
-/

namespace LiveSound.Guest.Instance

variable {μ σ : Type}

/-- The instance after `k` calls. -/
def after (e : Engine μ σ) (i : Instance σ) : Nat → Instance σ
  | 0 => i
  | k + 1 => ((i.after e k).nextSample e).state

/-- The answer to call number `k`. -/
def answer (e : Engine μ σ) (i : Instance σ) (k : Nat) : Reply (Instance σ) Binary32 :=
  (i.after e k).nextSample e

/-- The first `n` answers are samples. -/
def Gives (e : Engine μ σ) (i : Instance σ) (n : Nat) : Prop :=
  ∀ k < n, ∃ x, (i.answer e k).outcome = .ok x

/-- The first answer that is no sample is number `k`. -/
def FailsAt (e : Engine μ σ) (i : Instance σ) (k : Nat) (halt : Halt) : Prop :=
  i.Gives e k ∧ (i.answer e k).outcome = .error halt

/-- The sample that is answer number `k`; silence if it is none. -/
def sampleAt (e : Engine μ σ) (i : Instance σ) (k : Nat) : Binary32 :=
  match (i.answer e k).outcome with
  | .ok x => x
  | .error _ => .zero

/-- What is posted during `n` calls, beginning with call number `k`. -/
def postedIn (e : Engine μ σ) (i : Instance σ) (k n : Nat) : List Event :=
  (List.range n).flatMap fun j => (i.answer e (k + j)).events

variable {e : Engine μ σ} {i : Instance σ}

theorem after_after (m k : Nat) : (i.after e m).after e k = i.after e (m + k) := by
  induction k with
  | zero => rfl
  | succ k ih =>
    show ((i.after e m).after e k |>.nextSample e).state = _
    rw [ih]
    rfl

theorem answer_after (m k : Nat) : (i.after e m).answer e k = i.answer e (m + k) := by
  unfold answer
  rw [after_after]

theorem sampleAt_after (m k : Nat) : (i.after e m).sampleAt e k = i.sampleAt e (m + k) := by
  unfold sampleAt
  rw [answer_after]

theorem postedIn_after (m k n : Nat) :
    (i.after e m).postedIn e k n = i.postedIn e (m + k) n := by
  simp only [postedIn, answer_after, Nat.add_assoc]

theorem hasSampler_after (k : Nat) : (i.after e k).hasSampler = i.hasSampler := by
  induction k with
  | zero => rfl
  | succ k ih => exact ih

theorem sampleAt_of_ok {k : Nat} {x : Binary32} (h : (i.answer e k).outcome = .ok x) :
    i.sampleAt e k = x := by
  unfold sampleAt
  rw [h]

theorem Gives.mono {m n : Nat} (h : i.Gives e n) (le : m ≤ n) : i.Gives e m := fun k hk =>
  h k (by omega)

theorem Gives.after {m n : Nat} (h : i.Gives e (m + n)) : (i.after e m).Gives e n := by
  intro k hk
  rw [answer_after]
  exact h (m + k) (by omega)

theorem Gives.add {m n : Nat} (h : i.Gives e m) (h' : (i.after e m).Gives e n) :
    i.Gives e (m + n) := by
  intro k hk
  rcases Nat.lt_or_ge k m with lt | ge
  · exact h k lt
  · obtain ⟨j, rfl⟩ := Nat.exists_eq_add_of_le ge
    rw [← answer_after]
    exact h' j (by omega)

theorem FailsAt.after {m k : Nat} {halt : Halt} (h : i.FailsAt e (m + k) halt) :
    (i.after e m).FailsAt e k halt := by
  refine ⟨h.1.after, ?_⟩
  rw [answer_after]
  exact h.2

theorem FailsAt.add {m k : Nat} {halt : Halt} (h : i.Gives e m)
    (h' : (i.after e m).FailsAt e k halt) : i.FailsAt e (m + k) halt := by
  refine ⟨h.add h'.1, ?_⟩
  rw [← answer_after]
  exact h'.2

/-- Either the first `n` answers are samples, or one of them is the first that is none. -/
theorem gives_or_failsAt (e : Engine μ σ) (i : Instance σ) (n : Nat) :
    i.Gives e n ∨ ∃ k < n, ∃ halt, i.FailsAt e k halt := by
  induction n with
  | zero => exact .inl fun k hk => by omega
  | succ n ih =>
    rcases ih with gives | ⟨k, lt, halt, fails⟩
    · cases h : (i.answer e n).outcome with
      | ok x =>
        refine .inl fun k hk => ?_
        rcases Nat.lt_succ_iff_lt_or_eq.mp hk with lt | rfl
        · exact gives k lt
        · exact ⟨x, h⟩
      | error halt => exact .inr ⟨n, by omega, halt, gives, h⟩
    · exact .inr ⟨k, by omega, halt, fails⟩

theorem postedIn_succ (k n : Nat) :
    i.postedIn e k (n + 1) = (i.answer e k).events ++ i.postedIn e (k + 1) n := by
  simp only [postedIn, List.range_succ_eq_map, List.flatMap_cons, List.flatMap_map,
    Nat.add_zero]
  congr 2
  funext j
  rw [Nat.add_assoc, Nat.add_comm 1]

/-- Whatever an instance answers, on an engine whose guests post text it posts nothing but text. -/
theorem answers_isText (text : e.PostsText) {m : Module} {generation : Nat}
    (made : (Bootstrap.run e m generation).2 = .ok i) (k : Nat) :
    AllText (i.answer e k).events := by
  obtain ⟨Sound, instantiated, procedures, samplers⟩ := text
  have sound : Sound (i.after e k).state := by
    induction k with
    | zero => exact Bootstrap.run_sound (fun m => (instantiated m).2) procedures made
    | succ k ih => exact (samplers _ sampleName ih).2
  exact (samplers _ sampleName sound).1

end LiveSound.Guest.Instance

namespace LiveSound.Playback.Driver

open Guest (Engine Instance Halt)

variable {μ σ : Type} {e : Engine μ σ} {i : Instance σ}

/-- The instance that a failure leaves has been asked once more. -/
theorem sample_succ (e : Engine μ σ) (n : Nat) (i : Instance σ) :
    sample e (n + 1) i =
      match (i.answer e 0).outcome with
      | .ok x =>
        let rest := sample e n (i.after e 1)
        ⟨rest.guest, x :: rest.samples, (i.answer e 0).events ++ rest.events, rest.halt⟩
      | .error halt => ⟨i.after e 1, [], (i.answer e 0).events, some halt⟩ := by
  simp only [sample, Guest.Instance.answer, Guest.Instance.after]
  split <;> rename_i h <;> rw [h]

/-- The first of `n + 1` calls gives a sample. -/
theorem sample_succ_of_ok (n : Nat) {x : Binary32} (ok : (i.answer e 0).outcome = .ok x) :
    sample e (n + 1) i =
      ⟨(sample e n (i.after e 1)).guest, i.sampleAt e 0 :: (sample e n (i.after e 1)).samples,
        (i.answer e 0).events ++ (sample e n (i.after e 1)).events,
        (sample e n (i.after e 1)).halt⟩ := by
  rw [sample_succ, ok, Guest.Instance.sampleAt_of_ok ok]

theorem map_sampleAt_succ (n : Nat) :
    (List.range (n + 1)).map (i.sampleAt e) =
      i.sampleAt e 0 :: (List.range n).map ((i.after e 1).sampleAt e) := by
  rw [List.range_succ_eq_map, List.map_cons, List.map_map]
  congr 1
  refine List.map_congr_left fun k _ => ?_
  rw [Guest.Instance.sampleAt_after, Nat.add_comm]
  rfl

/-- As long as samples come, each is asked for once. -/
theorem sample_of_gives {n : Nat} (gives : i.Gives e n) :
    sample e n i =
      ⟨i.after e n, (List.range n).map (i.sampleAt e), i.postedIn e 0 n, none⟩ := by
  induction n generalizing i with
  | zero => rfl
  | succ n ih =>
    obtain ⟨x, ok⟩ := gives 0 (by omega)
    have rest := ih (Guest.Instance.Gives.after (m := 1) (by rwa [Nat.add_comm]))
    rw [sample_succ_of_ok n ok, rest, map_sampleAt_succ, Guest.Instance.after_after,
      Guest.Instance.postedIn_after, Guest.Instance.postedIn_succ 0 n, Nat.add_comm 1 n]

/-- The first call that fails is the last one. -/
theorem sample_of_failsAt {n k : Nat} {halt : Halt} (fails : i.FailsAt e k halt) (lt : k < n) :
    sample e n i =
      ⟨i.after e (k + 1), (List.range k).map (i.sampleAt e), i.postedIn e 0 (k + 1),
        some halt⟩ := by
  induction k generalizing i n with
  | zero =>
    obtain ⟨n, rfl⟩ := Nat.exists_eq_add_of_lt lt
    rw [Nat.zero_add, sample_succ, fails.2, Guest.Instance.postedIn_succ]
    simp [Guest.Instance.postedIn]
  | succ k ih =>
    obtain ⟨n, rfl⟩ : ∃ m, n = m + 1 := ⟨n - 1, by omega⟩
    obtain ⟨x, ok⟩ := fails.1 0 (by omega)
    have rest := ih (n := n) (Guest.Instance.FailsAt.after (m := 1) (by rwa [Nat.add_comm]))
      (by omega)
    rw [sample_succ_of_ok n ok, rest, map_sampleAt_succ, Guest.Instance.after_after,
      Guest.Instance.postedIn_after, Guest.Instance.postedIn_succ 0 (k + 1), Nat.add_comm 1 (k + 1)]

end LiveSound.Playback.Driver

namespace LiveSound.Guest

/-! ## A guest that fails after a while -/

/-- The engine of guests that give as many samples as their module has bytes after its header, and
then fail. -/
def Engine.countdown : Engine Nat Nat where
  compile bytes := .ok (bytes.length - 8)
  instantiate n := ([], .ok n)
  memorySize _ := 0
  procedure _ _ := .absent
  callProcedure s _ := ⟨s, [], .ok ()⟩
  sampler _ _ := .present
  callSampler s _ :=
    match s with
    | 0 => ⟨0, [], .error (.trap "no more samples")⟩
    | n + 1 => ⟨n, [], .ok ⟨.ofNat (n + 1)⟩⟩

end LiveSound.Guest
