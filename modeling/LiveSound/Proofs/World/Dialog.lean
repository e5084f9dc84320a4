import LiveSound.World.Host

/-!
# Programs as dialogs

A program that is written against the classes of the host can be run one question at a time.
`Dialog` is such a program, cut at each question; what it does next depends on the answer.
`t.Leads asked t'` says that after these questions and answers `t'` is left to do. Any answer can
come to any question, so what holds of every dialog with a program holds on every host, whatever
others do to it in between.
-/

namespace LiveSound

open Net (Network)

/-- What a program can ask of its host. -/
inductive Question where
  /-- Tells a line; there is nothing to answer. -/
  | tell (line : String)
  | exchange (r : Net.Request) (timeout : Nat)
  | run (i : Invocation) (timeout : Nat)
  | readFile (path : String)
  | writeFile (path : String) (content : Bytes)
  | makeDirectories (path : String)
  | rename (source target : String)
  | removeTree (path : String)
  | setMode (path : String) (mode : Nat)
  | unpack (compressed : Bool) (content : Bytes) (path : String)
  | isFile (path : String)
  | isDirectory (path : String)
  | isPresent (path : String)
  | currentDirectory
  | cacheDirectory

namespace Question

def Answer : Question → Type
  | tell _ => Unit
  | exchange _ _ => Net.Exchange × Nat
  | run _ _ => Run
  | readFile _ => Except OsFault Bytes
  | writeFile _ _ | makeDirectories _ | rename _ _ | removeTree _ | setMode _ _ =>
    Except OsFault Unit
  | unpack _ _ _ | isFile _ | isDirectory _ | isPresent _ => Bool
  | currentDirectory | cacheDirectory => String

instance (q : Question) : Nonempty q.Answer := by
  cases q
  case tell => exact ⟨()⟩
  case exchange => exact ⟨.silent, 0⟩
  case run => exact ⟨Run.unfinished⟩
  case unpack | isFile | isDirectory | isPresent => exact ⟨false⟩
  case currentDirectory | cacheDirectory => exact ⟨""⟩
  all_goals exact ⟨.error .denied⟩

end Question

/-- A question and what was answered. -/
structure Answered where
  question : Question
  answer : question.Answer

def Answered.line? (a : Answered) : Option String :=
  match a.question with
  | .tell line => some line
  | _ => none

/-- The lines that were told, oldest first. -/
def linesOf (asked : List Answered) : List String := asked.filterMap Answered.line?

theorem linesOf_append (asked more : List Answered) :
    linesOf (asked ++ more) = linesOf asked ++ linesOf more := List.filterMap_append

theorem linesOf_eq_nil {asked : List Answered}
    (h : ∀ a ∈ asked, ∀ line, a.question ≠ .tell line) : linesOf asked = [] := by
  refine List.filterMap_eq_nil_iff.mpr fun a mem => ?_
  unfold Answered.line?
  split
  · rename_i line same
    exact absurd same (h a mem line)
  · rfl

/-- A program, cut at each question. -/
inductive Dialog (α : Type) where
  | done (a : α)
  | ask (q : Question) (next : q.Answer → Dialog α)

namespace Dialog

variable {α β : Type}

def bind : Dialog α → (α → Dialog β) → Dialog β
  | done a, f => f a
  | ask q next, f => ask q fun a => (next a).bind f

instance : Monad Dialog where
  pure := done
  bind := bind

def question (q : Question) : Dialog q.Answer := ask q done

def tell (line : String) : Dialog Unit := question (.tell line)

def told (line : String) : Answered := ⟨.tell line, ()⟩

instance : Network Dialog where
  exchange r timeout := question (.exchange r timeout)

instance : Programs Dialog where
  run i timeout := question (.run i timeout)

instance : FileSystem Dialog where
  readFile p := question (.readFile p)
  writeFile p content := question (.writeFile p content)
  makeDirectories p := question (.makeDirectories p)
  rename p q := question (.rename p q)
  removeTree p := question (.removeTree p)
  setMode p mode := question (.setMode p mode)
  unpack compressed content p := question (.unpack compressed content p)
  isFile p := question (.isFile p)
  isDirectory p := question (.isDirectory p)
  isPresent p := question (.isPresent p)
  currentDirectory := question .currentDirectory
  cacheDirectory := question .cacheDirectory

/-! ## Courses of a dialog -/

/-- After these answers this is left to do. -/
inductive Leads : Dialog α → List Answered → Dialog α → Prop where
  | refl (t : Dialog α) : Leads t [] t
  | ask {q : Question} {next : q.Answer → Dialog α} {a : q.Answer} {asked : List Answered}
      {t : Dialog α} : Leads (next a) asked t → Leads (ask q next) (⟨q, a⟩ :: asked) t

/-- After these answers the dialog is over, with this outcome. -/
def Ends (t : Dialog α) (asked : List Answered) (a : α) : Prop := t.Leads asked (done a)

variable {t t' : Dialog α} {f : α → Dialog β} {asked more : List Answered} {a : α} {b : β}

theorem leads_done : (done a).Leads asked t ↔ asked = [] ∧ t = done a := by
  constructor
  · intro h
    cases h
    exact ⟨rfl, rfl⟩
  · rintro ⟨rfl, rfl⟩
    exact .refl _

theorem ends_done {a' : α} : (done a).Ends asked a' ↔ asked = [] ∧ a' = a := by
  rw [Ends, leads_done]
  constructor <;> rintro ⟨rfl, same⟩ <;> cases same <;> exact ⟨rfl, rfl⟩

theorem ends_pure {a' : α} : (pure a : Dialog α).Ends asked a' ↔ asked = [] ∧ a' = a := ends_done

theorem ends_ask {q : Question} {next : q.Answer → Dialog α} :
    (Dialog.ask q next).Ends asked a ↔
      ∃ answer rest, asked = ⟨q, answer⟩ :: rest ∧ (next answer).Ends rest a := by
  constructor
  · rintro (_ | later)
    exact ⟨_, _, rfl, later⟩
  · rintro ⟨answer, rest, rfl, later⟩
    exact .ask later

theorem ends_question {q : Question} {answer : q.Answer} :
    (question q).Ends asked answer ↔ asked = [⟨q, answer⟩] := by
  rw [question, ends_ask]
  simp only [ends_done]
  constructor
  · rintro ⟨_, _, rfl, rfl, rfl⟩
    rfl
  · rintro rfl
    exact ⟨answer, [], rfl, rfl, rfl⟩

theorem Leads.trans (h : t.Leads asked t') {t'' : Dialog α} (h' : t'.Leads more t'') :
    t.Leads (asked ++ more) t'' := by
  induction h with
  | refl => exact h'
  | ask _ ih => exact .ask (ih h')

theorem Leads.answer {q : Question} {next : q.Answer → Dialog α}
    (h : t.Leads asked (.ask q next)) (answer : q.Answer) :
    t.Leads (asked ++ [⟨q, answer⟩]) (next answer) := h.trans (.ask (.refl _))

theorem exists_ends (t : Dialog α) : ∃ asked a, t.Ends asked a := by
  induction t with
  | done a => exact ⟨[], a, .refl _⟩
  | ask q next ih =>
    obtain ⟨answer⟩ := (inferInstance : Nonempty q.Answer)
    obtain ⟨asked, a, ends⟩ := ih answer
    exact ⟨⟨q, answer⟩ :: asked, a, .ask ends⟩

theorem ends_bind :
    (t >>= f).Ends asked b ↔
      ∃ before after a, asked = before ++ after ∧ t.Ends before a ∧ (f a).Ends after b := by
  induction t generalizing asked with
  | done a =>
    constructor
    · intro h
      exact ⟨[], asked, a, rfl, .refl _, h⟩
    · rintro ⟨before, after, a', rfl, first, second⟩
      obtain ⟨rfl, rfl⟩ := ends_done.mp first
      exact second
  | ask q next ih =>
    have cut : (Dialog.ask q next >>= f) = .ask q fun answer => next answer >>= f := rfl
    rw [cut, ends_ask]
    constructor
    · rintro ⟨answer, rest, rfl, later⟩
      obtain ⟨before, after, a, rfl, first, second⟩ := (ih answer).mp later
      exact ⟨⟨q, answer⟩ :: before, after, a, rfl, .ask first, second⟩
    · rintro ⟨before, after, a, rfl, first, second⟩
      obtain ⟨answer, rest, rfl, later⟩ := ends_ask.mp first
      exact ⟨answer, rest ++ after, rfl, (ih answer).mpr ⟨rest, after, a, rfl, later, second⟩⟩

theorem ends_tell_bind {line : String} {f : Unit → Dialog β} :
    (tell line >>= f).Ends asked b ↔
      ∃ rest, asked = told line :: rest ∧ (f ()).Ends rest b := by
  refine Iff.trans ends_ask ?_
  constructor
  · rintro ⟨⟨⟩, rest, same, later⟩
    exact ⟨rest, same, later⟩
  · rintro ⟨rest, same, later⟩
    exact ⟨(), rest, same, later⟩

/-! ## What a dialog can ask -/

/-- Whatever is answered, every question is of this kind. -/
inductive Asks (kind : Question → Prop) : Dialog α → Prop where
  | done (a : α) : Asks kind (.done a)
  | ask {q : Question} {next : q.Answer → Dialog α} : kind q → (∀ a, Asks kind (next a)) →
      Asks kind (.ask q next)

variable {kind : Question → Prop}

theorem Asks.bind (ht : Asks kind t) (hf : ∀ a, Asks kind (f a)) : Asks kind (t >>= f) := by
  induction ht with
  | done a => exact hf a
  | ask first _ ih => exact .ask first ih

theorem asks_pure (a : α) : Asks kind (pure a : Dialog α) := .done a

theorem asks_question {q : Question} (h : kind q) : Asks kind (question q) := .ask h .done

theorem Asks.of_leads (ht : Asks kind t) (h : t.Leads asked t') :
    (∀ a ∈ asked, kind a.question) ∧ Asks kind t' := by
  induction h with
  | refl => exact ⟨by simp, ht⟩
  | @ask q next a asked t later ih =>
    cases ht with
    | ask first rest =>
      obtain ⟨all, left⟩ := ih (rest a)
      exact ⟨List.forall_mem_cons.mpr ⟨first, all⟩, left⟩

theorem Asks.of_ends (ht : Asks kind t) (h : t.Ends asked a) : ∀ a ∈ asked, kind a.question :=
  (ht.of_leads h).1

theorem asks_run_bind {ε : Type} {x : ExceptT ε Dialog α} {rest : α → ExceptT ε Dialog β}
    (hx : Asks kind x.run) (hrest : ∀ a, Asks kind (rest a).run) : Asks kind (x >>= rest).run := by
  refine hx.bind fun r => ?_
  cases r with
  | ok a => exact hrest a
  | error e => exact asks_pure _

theorem asks_attempt {ε : Type} {operation : Dialog (Except ε α)} (h : Asks kind operation)
    (words : ε → String) : Asks kind (attempt operation words).run := h.bind fun _ => asks_pure _

theorem asks_inquire (h : Asks kind t) : Asks kind (inquire t).run := h.bind fun _ => asks_pure _

theorem asks_timedFetch {method : Net.Method} {url : String} {body : Option String}
    {timeout : Nat}
    (h : ∀ u, Net.Url.parse url = .ok u → kind (.exchange ⟨method, u, body⟩ timeout)) :
    Asks kind (Net.timedFetch (m := Dialog) method url body timeout) := by
  unfold Net.timedFetch
  split
  · exact asks_pure _
  · exact asks_pure _
  · rename_i u parsed
    exact (asks_question (h u parsed)).bind fun _ => asks_pure _

theorem asks_fetch {method : Net.Method} {url : String} {body : Option String} {timeout : Nat}
    (h : ∀ u, Net.Url.parse url = .ok u → kind (.exchange ⟨method, u, body⟩ timeout)) :
    Asks kind (Net.fetch (m := Dialog) method url body timeout) :=
  (asks_timedFetch h).bind fun _ => asks_pure _

end Dialog

end LiveSound
