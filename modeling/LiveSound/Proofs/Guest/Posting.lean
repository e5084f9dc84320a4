import LiveSound.Guest.Bootstrap

/-!
# What guests post

Guest code can post text and nothing else; that a module is ready and that something went wrong is
said by the player. `Engine.PostsText` is that property of an engine. A bootstrap on such an engine
posts text only, whatever comes of it (`Bootstrap.run_isText`), and the instance that it makes has
the generation that it was given (`Bootstrap.run_generation`).
-/

namespace LiveSound

/-- Text that a guest wrote, or a remark about it. -/
def Event.isText : Event → Bool
  | .log _ => true
  | _ => false

namespace Guest

variable {μ σ : Type}

def AllText (events : List Event) : Prop := ∀ event ∈ events, event.isText = true

theorem AllText.nil : AllText [] := by simp [AllText]

theorem AllText.append {as bs : List Event} (ha : AllText as) (hb : AllText bs) :
    AllText (as ++ bs) := by
  intro event h
  rcases List.mem_append.mp h with h | h
  · exact ha event h
  · exact hb event h

/-- A guest posts text only, from its instantiation on. `Sound` are the states that an instance
can be in. -/
def Engine.PostsText (e : Engine μ σ) : Prop :=
  ∃ Sound : σ → Prop,
    (∀ m, AllText (e.instantiate m).1 ∧ ∀ s, (e.instantiate m).2 = .ok s → Sound s) ∧
    (∀ s name, Sound s →
      AllText (e.callProcedure s name).events ∧ Sound (e.callProcedure s name).state) ∧
    (∀ s name, Sound s →
      AllText (e.callSampler s name).events ∧ Sound (e.callSampler s name).state)

namespace Bootstrap

theorem remarks_isText (startup : Startup) : AllText (remarks startup) := by
  cases startup <;> simp [remarks, AllText, Event.isText]

theorem sampler_isText (e : Engine μ σ) (s : σ) : AllText (sampler e s).1 := by
  unfold sampler
  split <;> simp [AllText, Event.isText]

theorem start_isText {e : Engine μ σ} {Sound : σ → Prop}
    (hcall : ∀ s name, Sound s →
      AllText (e.callProcedure s name).events ∧ Sound (e.callProcedure s name).state)
    {s : σ} (hs : Sound s) : AllText (start e s).2.1 ∧ Sound (start e s).1 := by
  have called := hcall s startName hs
  unfold start
  split
  · exact ⟨.nil, hs⟩
  · exact ⟨.nil, hs⟩
  · split <;> rename_i h <;> rw [h] at called <;> exact called

theorem init_isText {e : Engine μ σ} {Sound : σ → Prop}
    (hcall : ∀ s name, Sound s →
      AllText (e.callProcedure s name).events ∧ Sound (e.callProcedure s name).state)
    {s : σ} (hs : Sound s) : AllText (init e s).2.1 ∧ Sound (init e s).1 := by
  have called := hcall s initName hs
  unfold init
  split
  · exact ⟨.nil, hs⟩
  · exact ⟨.nil, hs⟩
  · split <;> rename_i h <;> rw [h] at called <;> exact called

theorem run_isText {e : Engine μ σ} (he : e.PostsText) (m : Module) (generation : Nat) :
    AllText (run e m generation).1 := by
  obtain ⟨Sound, made, hcall, -⟩ := he
  unfold run
  split
  · exact .nil
  · rename_i compiled _
    have early := made compiled
    split
    · rename_i h
      rw [h] at early
      exact early.1
    · rename_i s h
      rw [h] at early
      have started := start_isText hcall (early.2 s rfl)
      have inited := init_isText hcall started.2
      have soFar := (early.1.append started.1).append (remarks_isText (start e s).2.2)
      simp only
      split
      · rename_i h
        rw [h] at inited
        exact soFar.append inited.1
      · rename_i h
        rw [h] at inited
        exact (soFar.append inited.1).append (sampler_isText e _)

/-- A bootstrap leaves the instance that it makes in a state that instances can be in. -/
theorem run_sound {e : Engine μ σ} {Sound : σ → Prop}
    (made : ∀ m s, (e.instantiate m).2 = .ok s → Sound s)
    (hcall : ∀ s name, Sound s →
      AllText (e.callProcedure s name).events ∧ Sound (e.callProcedure s name).state)
    {m : Module} {generation : Nat} {i : Instance σ} (h : (run e m generation).2 = .ok i) :
    Sound i.state := by
  unfold run at h
  split at h
  · cases h
  · rename_i compiled _
    split at h
    · cases h
    · rename_i s instantiated
      have started := start_isText hcall (made compiled s (by rw [instantiated]))
      have inited := init_isText hcall started.2
      simp only at h
      split at h
      · cases h
      · rename_i ready
        rw [ready] at inited
        cases h
        exact inited.2

theorem run_generation {e : Engine μ σ} {m : Module} {generation : Nat} {i : Instance σ}
    (h : (run e m generation).2 = .ok i) : i.generation = generation := by
  unfold run at h
  split at h
  · cases h
  · split at h
    · cases h
    · simp only at h
      split at h
      · cases h
      · cases h
        rfl

end Bootstrap

/-! ## The least guest -/

/-- A header with nothing after it. -/
def emptyModule : Module := ⟨Module.magic ++ Module.version, by decide⟩

/-- A header with one byte after it. -/
def shortModule (b : UInt8) : Module :=
  ⟨Module.magic ++ Module.version ++ [b], by simp [Module.fault?, Module.magic, Module.version]⟩

/-- The engine of guests that do nothing and give silence. A module must have something after its
header. -/
def Engine.quiet : Engine Unit Unit where
  compile bytes := if bytes.length ≤ 8 then .error "no code" else .ok ()
  instantiate _ := ([], .ok ())
  memorySize _ := 0
  procedure _ _ := .absent
  callProcedure s _ := ⟨s, [], .ok ()⟩
  sampler _ _ := .present
  callSampler s _ := ⟨s, [], .ok .zero⟩

theorem Engine.quiet_postsText : Engine.quiet.PostsText := by
  refine ⟨fun _ => True, ?_, ?_, ?_⟩ <;> intros <;> exact ⟨.nil, by simp⟩

end Guest

end LiveSound
