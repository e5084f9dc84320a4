import LiveSound.Wasm.Instance

/-!
# What code can do to its host

Code changes the state of the host only by calling functions of the host. A property of that state
which those functions keep (`Linked.Keeps`) holds after every step, after every run, and after an
instantiation, whether or not it succeeds.
-/

namespace LiveSound.Wasm

variable {η : Type} {P : η → Prop}

/-- A call of the function keeps a property of the host. -/
def HostFunction.Keeps (P : η → Prop) (f : HostFunction η) : Prop :=
  ∀ args memory host, P host → P (f.run args memory host).state

def Function.Keeps (P : η → Prop) : Function η → Prop
  | .host f => f.Keeps P
  | .code _ _ _ => True

def Linked.Keeps (P : η → Prop) (l : Linked η) : Prop := ∀ f ∈ l.functions, f.Keeps P

def Step.store : Step η → Store η
  | .next m => m.store
  | .done store _ => store
  | .stop store _ => store

namespace Machine

variable {l : Linked η} {m : Machine η}

@[simp] theorem leave_store (m : Machine η) (control : List Control) :
    (leave m control).store = m.store := by
  induction control with
  | nil => rfl
  | cons c rest ih =>
    cases c with
    | label => exact ih
    | frame => rfl

@[simp] theorem branch_store (m : Machine η) (n : Nat) (control : List Control) :
    (branch m n control).store = m.store := by
  induction control generalizing n with
  | nil => cases n <;> exact leave_store m []
  | cons c rest ih =>
    cases c with
    | label =>
      cases n with
      | zero => rfl
      | succ n => exact ih n
    | frame => cases n <;> exact leave_store m _

@[simp] theorem enter_store (m : Machine η) (taken arity : Nat) (target body after : List Instr) :
    (enter m taken arity target body after).store = m.store := rfl

@[simp] theorem unary_store (op : Value → Except Trap Value) (m : Machine η)
    (after : List Instr) : (unary op m after).store = m.store := by
  unfold unary
  split
  · split <;> rfl
  · rfl

@[simp] theorem binary_store (op : Value → Value → Except Trap Value) (m : Machine η)
    (after : List Instr) : (binary op m after).store = m.store := by
  unfold binary
  split
  · split <;> rfl
  · rfl

@[simp] theorem stuck_store (m : Machine η) : (stuck m).store = m.store := rfl

theorem call_host (hl : l.Keeps P) (h : P m.store.host) (index : Nat) (after : List Instr) :
    P (call l m index after).store.host := by
  unfold call
  split
  · exact h
  · rename_i f found
    have keeps : f.Keeps P := hl _ (Array.mem_of_getElem? found)
    simp only
    split
    · have kept := keeps (m.stack.take f.signature.params.length).reverse m.store.memory _ h
      split <;> rename_i reply <;> rw [reply] at kept <;> exact kept
    · have kept := keeps (m.stack.take f.signature.params.length).reverse none _ h
      split <;> rename_i reply <;> rw [reply] at kept <;> exact kept
  · split <;> exact h

/-- The memory that functions of the host see. -/
def seen (l : Linked η) (store : Store η) : Option Memory :=
  if l.memoryVisible then store.memory else none

theorem seen_eq_some {store : Store η} {memory : Memory} :
    seen l store = some memory ↔ l.memoryVisible = true ∧ store.memory = some memory := by
  unfold seen
  split <;> simp [*]

/-- To put back what was seen changes nothing. -/
theorem kept_seen (l : Linked η) (store : Store η) :
    (if l.memoryVisible then seen l store else store.memory) = store.memory := by
  unfold seen
  split <;> rfl

/-- Goes on with what a function of the host left behind. -/
def resume (l : Linked η) (m : Machine η) (below : List Value) (after : List Instr)
    (reply : HostReply η) : Step η :=
  let store : Store η :=
    { m.store with
      memory := if l.memoryVisible then reply.memory else m.store.memory
      host := reply.state }
  match reply.outcome with
  | .ok results => .next { m with store := store, stack := results.reverse ++ below, code := after }
  | .error why => .stop store why

/-- A call of a function of the host is that function, run on what is on the stack. -/
theorem call_eq_resume {f : HostFunction η} {index : Nat}
    (linked : l.functions[index]? = some (.host f)) {args below : List Value}
    (stack : m.stack = args.reverse ++ below) (count : args.length = f.signature.params.length)
    (after : List Instr) :
    call l m index after = resume l m below after (f.run args (seen l m.store) m.store.host) := by
  have taken : m.stack.take f.signature.params.length = args.reverse := by
    rw [stack, ← count, ← List.length_reverse, List.take_left]
  have dropped : m.stack.drop f.signature.params.length = below := by
    rw [stack, ← count, ← List.length_reverse, List.drop_left]
  unfold call resume seen
  rw [linked]
  simp only [taken, dropped, List.reverse_reverse]
  split <;> split <;> simp [*]

theorem step_host (hl : l.Keeps P) (h : P m.store.host) : P (step l m).store.host := by
  unfold step
  split
  · split
    · exact h
    · exact h
    · simpa using h
  · rename_i instr after code
    cases instr
    case call n => exact call_host hl h n after
    case callIndirect type table =>
      simp only
      repeat' split
      all_goals first | exact h | exact call_host hl (by exact h) _ after
    case br n => simpa using h
    case ret => simpa using h
    case brIf n =>
      simp only
      repeat' split
      all_goals first | exact h | simpa using h
    case brTable labels otherwise =>
      simp only
      split
      all_goals simpa using h
    case isZero | intUnary | floatUnary | conversion => simpa using h
    case intBinary | intRelation | floatBinary | floatRelation => simpa using h
    all_goals
      simp only
      first | exact h | (repeat' split) <;> exact h

theorem run_host (hl : l.Keeps P) (fuel : Nat) (h : P m.store.host) :
    P (run l fuel m).1.host := by
  induction fuel generalizing m with
  | zero => exact h
  | succ fuel ih =>
    have stepped := step_host hl h
    unfold run
    split <;> rename_i next <;> rw [next] at stepped
    · exact ih stepped
    · exact stepped
    · exact stepped

theorem invoke_host (hl : l.Keeps P) {store : Store η} (h : P store.host) (index : Nat)
    (args : List Value) : P (invoke l store index args).1.host :=
  run_host hl maxSteps h

end Machine

/-! ## Attempts one after another -/

theorem ok_bind {α β ε : Type} (a : α) (f : α → Except ε β) : Except.ok a >>= f = f a := rfl

theorem exists_of_bind_ok {α β ε : Type} {x : Except ε α} {f : α → Except ε β} {b : β}
    (h : x >>= f = .ok b) : ∃ a, x = .ok a ∧ f a = .ok b := by
  cases x with
  | error fault => cases h
  | ok a => exact ⟨a, rfl, h⟩

/-- What a list of attempts gave, when all succeeded. -/
theorem exists_of_mapM_ok {α β ε : Type} {f : α → Except ε β} {xs : List α} {ys : List β}
    (h : xs.mapM f = .ok ys) : ∀ y ∈ ys, ∃ x ∈ xs, f x = .ok y := by
  induction xs generalizing ys with
  | nil => cases h; simp
  | cons x xs ih =>
    rw [List.mapM_cons] at h
    cases hx : f x with
    | error fault => rw [hx] at h; cases h
    | ok y =>
      cases hxs : xs.mapM f with
      | error fault => rw [hx, hxs] at h; cases h
      | ok rest =>
        rw [hx, hxs] at h
        cases h
        intro z hz
        rcases List.mem_cons.mp hz with rfl | hz
        · exact ⟨x, List.mem_cons_self, hx⟩
        · obtain ⟨x', hx', hz⟩ := ih hxs z hz
          exact ⟨x', List.mem_cons_of_mem _ hx', hz⟩

/-! ## Instances -/

namespace Instance

/-- A property of the host that all functions linked to an instance keep, and that holds now. -/
def Keeps (P : η → Prop) (i : Instance η) : Prop := i.linked.Keeps P ∧ P i.store.host

theorem Keeps.invoke {i : Instance η} (h : i.Keeps P) (index : Nat) (args : List Value) :
    (i.invoke index args).1.Keeps P :=
  ⟨h.1, Machine.invoke_host h.1 h.2 index args⟩

/-- The functions found for the imports of a program are among those that the host offers. -/
theorem resolve_keeps {offer : String → String → Option (HostFunction η)}
    (ho : ∀ space name f, offer space name = some f → f.Keeps P) {p : Program}
    {imported : List (Function η)} (h : resolve offer p = .ok imported) :
    ∀ f ∈ imported, f.Keeps P := by
  unfold resolve at h
  obtain ⟨found, names, types⟩ := exists_of_bind_ok h
  intro f hf
  obtain ⟨⟨i, g⟩, hg, checked⟩ := exists_of_mapM_ok types f hf
  obtain ⟨j, -, named⟩ := exists_of_mapM_ok names _ hg
  have offered : offer i.space i.name = some g := by
    split at named
    · cases named
      assumption
    · cases named
  simp only at checked
  split at checked
  · split at checked
    · cases checked
      exact ho _ _ _ offered
    · cases checked
  · cases checked

theorem ownFunctions_keeps (p : Program) : ∀ f ∈ ownFunctions (η := η) p, f.Keeps P := by
  intro f hf
  obtain ⟨_, _, rfl⟩ := List.mem_map.mp hf
  trivial

theorem allocate_keeps {offer : String → String → Option (HostFunction η)}
    (ho : ∀ space name f, offer space name = some f → f.Keeps P) {p : Program} {host : η}
    (h : P host) {i : Instance η} (hi : allocate offer p host = .ok i) : i.Keeps P := by
  unfold allocate at hi
  obtain ⟨imported, resolved, hi⟩ := exists_of_bind_ok hi
  obtain ⟨table, -, hi⟩ := exists_of_bind_ok hi
  obtain ⟨memory, -, hi⟩ := exists_of_bind_ok hi
  cases hi
  refine ⟨fun f hf => ?_, h⟩
  rcases List.mem_append.mp (List.mem_toArray.mp hf) with hf | hf
  · exact resolve_keeps ho resolved f hf
  · exact ownFunctions_keeps p f hf

/-- The host after an attempt to instantiate, and the instance if there is one. -/
theorem instantiate_keeps {offer : String → String → Option (HostFunction η)}
    (ho : ∀ space name f, offer space name = some f → f.Keeps P) (p : Program) {host : η}
    (h : P host) :
    P (instantiate offer p host).1 ∧ ∀ i, (instantiate offer p host).2 = .ok i → i.Keeps P := by
  unfold instantiate
  split
  · exact ⟨h, fun i hi => by cases hi⟩
  · rename_i i allocated
    have keeps := allocate_keeps ho h allocated
    split
    · refine ⟨h, fun j hj => ?_⟩
      cases hj
      exact keeps
    · rename_i index _
      have invoked := keeps.invoke index []
      split <;> rename_i outcome <;> rw [outcome] at invoked
      · refine ⟨invoked.2, fun j hj => ?_⟩
        cases hj
        exact invoked
      · exact ⟨invoked.2, fun j hj => by cases hj⟩

end Instance

end LiveSound.Wasm
