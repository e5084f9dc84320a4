import Mathlib.Data.List.Infix
import Mathlib.Data.List.TakeWhile
import LiveSound.Proofs.Text.Lines

/-!
# Patterns of text

A pattern is matched at a place of a text in ways of which the first is preferred: an alternative
before the ones after it, a greedy run longest first, a lazy run shortest first. A search takes the
leftmost place at which there is a way, then goes on behind what was matched.
-/

namespace LiveSound.Text

/-- What was matched, and what of it each named group took. -/
structure Match where
  text : List Char
  groups : List (String × List Char)
  deriving DecidableEq, Repr

namespace Match

def group? (m : Match) (name : String) : Option (List Char) := m.groups.lookup name

/-- One match and another just behind it. -/
def andThen (m n : Match) : Match := ⟨m.text ++ n.text, m.groups ++ n.groups⟩

end Match

inductive Pattern where
  | literal (word : List Char)
  | one (p : Char → Bool)
  | greedy (p : Char → Bool)
  | lazy (p : Char → Bool)
  | lineStart
  | lineEnd
  | group (name : String) (e : Pattern)
  | seq (d e : Pattern)
  | alt (d e : Pattern)

namespace Pattern

def all : List Pattern → Pattern
  | [] => literal []
  | [e] => e
  | e :: es => seq e (all es)

def optional (e : Pattern) : Pattern := alt e (literal [])

/-- A named run of one or more characters, as long as possible. -/
def atLeastOne (name : String) (p : Char → Bool) : Pattern := group name (seq (one p) (greedy p))

/-- Whether a line begins after this character, or with the text. -/
def atLineStart : Option Char → Bool
  | none => true
  | some c => c = '\n'

/-- Whether a line ends where this is left. -/
def atLineEnd : List Char → Bool
  | [] => true
  | c :: _ => c = '\n'

/-- The ways in which a pattern matches at the beginning of `cs`, which `prev` stands before, the
preferred ones first. -/
@[simp]
def ways : Pattern → Option Char → List Char → List Match
  | literal word, _, cs => if word <+: cs then [⟨word, []⟩] else []
  | one p, _, cs => ((cs.take 1).filter p).map fun c => ⟨[c], []⟩
  | greedy p, _, cs => (cs.takeWhile p).inits.reverse.map fun run => ⟨run, []⟩
  | lazy p, _, cs => (cs.takeWhile p).inits.map fun run => ⟨run, []⟩
  | lineStart, prev, _ => if atLineStart prev then [⟨[], []⟩] else []
  | lineEnd, _, cs => if atLineEnd cs then [⟨[], []⟩] else []
  | group name e, prev, cs => (e.ways prev cs).map fun m => ⟨m.text, (name, m.text) :: m.groups⟩
  | seq d e, prev, cs =>
    (d.ways prev cs).flatMap fun m =>
      (e.ways (m.text.getLast?.or prev) (cs.drop m.text.length)).map m.andThen
  | alt d e, prev, cs => d.ways prev cs ++ e.ways prev cs

def first? (e : Pattern) (prev : Option Char) (cs : List Char) : Option Match :=
  (e.ways prev cs).head?

/-- The matches that a search finds, one behind the other. With `ended`, a match has just ended
here: an empty one is then passed over. -/
def scan (e : Pattern) (ended : Bool) (prev : Option Char) (cs : List Char) : List Match :=
  match e.first? prev cs, cs with
  | none, [] => []
  | none, c :: cs => scan e false c cs
  | some m, [] => if ended ∧ m.text = [] then [] else [m]
  | some m, c :: cs =>
    if m.text = [] then (if ended then [] else [m]) ++ scan e false c cs
    else m :: scan e true m.text.getLast? (cs.drop (m.text.length - 1))
termination_by cs.length

section Search

variable {e : Pattern} {ended : Bool} {prev : Option Char} {c : Char} {cs : List Char}

theorem scan_nil_of_none (h : e.first? prev [] = none) : e.scan ended prev [] = [] := by
  rw [scan.eq_def, h]

theorem scan_cons_of_none (h : e.first? prev (c :: cs) = none) :
    e.scan ended prev (c :: cs) = e.scan false c cs := by
  rw [scan.eq_def, h]

theorem scan_cons_of_some {m : Match} (h : e.first? prev (c :: cs) = some m)
    (hm : m.text ≠ []) :
    e.scan ended prev (c :: cs) =
      m :: e.scan true m.text.getLast? (cs.drop (m.text.length - 1)) := by
  rw [scan.eq_def, h]
  exact if_neg hm

end Search

/-! ## What is matched -/

@[simp] theorem mem_ways_seq {d e : Pattern} {prev : Option Char} {cs : List Char} {m : Match} :
    m ∈ (seq d e).ways prev cs ↔
      ∃ first ∈ d.ways prev cs,
        ∃ second ∈ e.ways (first.text.getLast?.or prev) (cs.drop first.text.length),
          first.andThen second = m := by
  simp [ways]

theorem one_inv {p : Char → Bool} {prev : Option Char} {cs : List Char} {m : Match}
    (hm : m ∈ (one p).ways prev cs) : ∃ c, m = ⟨[c], []⟩ ∧ p c ∧ [c] <+: cs := by
  obtain ⟨c, hc, rfl⟩ := List.mem_map.mp hm
  obtain ⟨hfirst, hp⟩ := List.mem_filter.mp hc
  cases cs with
  | nil => cases hfirst
  | cons d cs =>
    rw [List.mem_singleton.mp hfirst] at hp ⊢
    exact ⟨d, rfl, hp, List.prefix_append [d] cs⟩

theorem greedy_inv {p : Char → Bool} {prev : Option Char} {cs : List Char} {m : Match}
    (hm : m ∈ (greedy p).ways prev cs) :
    (∀ c ∈ m.text, p c) ∧ m.text <+: cs := by
  obtain ⟨run, hrun, rfl⟩ := List.mem_map.mp hm
  have hbegin : run <+: cs.takeWhile p := (List.mem_inits _ _).mp (List.mem_reverse.mp hrun)
  exact ⟨fun c hc => List.mem_takeWhile_imp (hbegin.subset hc),
    hbegin.trans (List.takeWhile_prefix p)⟩

theorem lazy_inv {p : Char → Bool} {prev : Option Char} {cs : List Char} {m : Match}
    (hm : m ∈ (lazy p).ways prev cs) :
    (∀ c ∈ m.text, p c) ∧ m.text <+: cs := by
  obtain ⟨run, hrun, rfl⟩ := List.mem_map.mp hm
  have hbegin : run <+: cs.takeWhile p := (List.mem_inits _ _).mp hrun
  exact ⟨fun c hc => List.mem_takeWhile_imp (hbegin.subset hc),
    hbegin.trans (List.takeWhile_prefix p)⟩

theorem prefix_of_mem_ways {e : Pattern} {prev : Option Char} {cs : List Char} {m : Match}
    (hm : m ∈ e.ways prev cs) : m.text <+: cs := by
  induction e generalizing prev cs m with
  | literal word =>
    by_cases hword : word <+: cs <;> simp [ways, hword] at hm
    rwa [hm]
  | one p =>
    obtain ⟨c, rfl, -, hbegin⟩ := one_inv hm
    exact hbegin
  | greedy p => exact (greedy_inv hm).2
  | lazy p => exact (lazy_inv hm).2
  | lineStart =>
    by_cases hstart : atLineStart prev <;> simp [ways, hstart] at hm
    simp [hm]
  | lineEnd =>
    by_cases hend : atLineEnd cs <;> simp [ways, hend] at hm
    simp [hm]
  | group name e ih =>
    obtain ⟨inner, hinner, rfl⟩ := List.mem_map.mp hm
    show inner.text <+: cs
    exact ih hinner
  | seq d e ihd ihe =>
    obtain ⟨first, hfirst, second, hsecond, rfl⟩ := mem_ways_seq.mp hm
    obtain ⟨rest, rfl⟩ := ihd hfirst
    rw [List.drop_left] at hsecond
    exact List.prefix_append_right_inj first.text |>.mpr (ihe hsecond)
  | alt d e ihd ihe =>
    rcases List.mem_append.mp hm with h | h
    · exact ihd h
    · exact ihe h

theorem seq_inv {d e : Pattern} {prev : Option Char} {cs : List Char} {m : Match}
    (hm : m ∈ (seq d e).ways prev cs) :
    ∃ first second rest, first ∈ d.ways prev cs ∧ cs = first.text ++ rest ∧
      second ∈ e.ways (first.text.getLast?.or prev) rest ∧ m = first.andThen second := by
  obtain ⟨first, hfirst, second, hsecond, rfl⟩ := mem_ways_seq.mp hm
  obtain ⟨rest, rfl⟩ := prefix_of_mem_ways hfirst
  rw [List.drop_left] at hsecond
  exact ⟨first, second, rest, hfirst, rfl, hsecond, rfl⟩

/-- The pattern may match `text` where `after` follows. -/
def Takes (e : Pattern) (text after : List Char) : Prop :=
  ∃ prev m, m ∈ e.ways prev (text ++ after) ∧ m.text = text

namespace Takes

variable {d e : Pattern} {p : Char → Bool} {name : String} {text after : List Char}

theorem seq (h : Takes (seq d e) text after) :
    ∃ first second, text = first ++ second ∧ Takes d first (second ++ after) ∧
      Takes e second after := by
  obtain ⟨prev, m, hm, rfl⟩ := h
  obtain ⟨first, second, rest, hfirst, hrest, hsecond, rfl⟩ := seq_inv hm
  simp only [Match.andThen, List.append_assoc, List.append_cancel_left_eq] at hrest
  subst hrest
  refine ⟨first.text, second.text, rfl, ⟨prev, first, ?_, rfl⟩, _, second, hsecond, rfl⟩
  rwa [Match.andThen, List.append_assoc] at hfirst

theorem group (h : Takes (group name e) text after) : Takes e text after := by
  obtain ⟨prev, m, hm, rfl⟩ := h
  obtain ⟨inner, hinner, rfl⟩ := List.mem_map.mp hm
  exact ⟨prev, inner, hinner, rfl⟩

theorem alt (h : Takes (alt d e) text after) : Takes d text after ∨ Takes e text after := by
  obtain ⟨prev, m, hm, htext⟩ := h
  exact (List.mem_append.mp hm).imp (⟨prev, m, ·, htext⟩) (⟨prev, m, ·, htext⟩)

theorem literal {word : List Char} (h : Takes (literal word) text after) : text = word := by
  obtain ⟨prev, m, hm, rfl⟩ := h
  by_cases hword : word <+: m.text ++ after <;> simp [ways, hword] at hm
  rw [hm]

theorem lineStart (h : Takes lineStart text after) : text = [] := by
  obtain ⟨prev, m, hm, rfl⟩ := h
  by_cases hstart : atLineStart prev <;> simp [ways, hstart] at hm
  rw [hm]

theorem lineEnd (h : Takes lineEnd text after) : text = [] ∧ atLineEnd after := by
  obtain ⟨prev, m, hm, rfl⟩ := h
  by_cases hend : atLineEnd (m.text ++ after) <;> simp [ways, hend] at hm
  rw [hm] at hend ⊢
  exact ⟨rfl, hend⟩

theorem lazy (h : Takes (lazy p) text after) : ∀ c ∈ text, p c := by
  obtain ⟨prev, m, hm, rfl⟩ := h
  exact (lazy_inv hm).1

theorem greedy (h : Takes (greedy p) text after) : ∀ c ∈ text, p c := by
  obtain ⟨prev, m, hm, rfl⟩ := h
  exact (greedy_inv hm).1

theorem one (h : Takes (one p) text after) : ∃ c, text = [c] ∧ p c := by
  obtain ⟨prev, m, hm, rfl⟩ := h
  obtain ⟨c, rfl, hc, -⟩ := one_inv hm
  exact ⟨c, rfl, hc⟩

theorem atLeastOne (h : Takes (atLeastOne name p) text after) :
    text ≠ [] ∧ ∀ c ∈ text, p c := by
  obtain ⟨first, more, rfl, hfirst, hmore⟩ := h.group.seq
  obtain ⟨c, rfl, hc⟩ := hfirst.one
  exact ⟨by simp, by simpa [hc] using hmore.greedy⟩

end Takes

/-! ## A run and a mark after it -/

/-- A part that can be matched in one way only is behind the search for the rest. -/
theorem first?_seq_of_single {d : Pattern} {text rest : List Char}
    {groups : List (String × List Char)} {prev : Option Char}
    (single : d.ways prev (text ++ rest) = [⟨text, groups⟩]) (e : Pattern) :
    (seq d e).first? prev (text ++ rest) =
      (e.first? (text.getLast?.or prev) rest).map (Match.andThen ⟨text, groups⟩) := by
  simp [first?, ways, single]

theorem first?_literal_seq (word : List Char) (e : Pattern) (prev : Option Char)
    (rest : List Char) :
    (seq (literal word) e).first? prev (word ++ rest) =
      (e.first? (word.getLast?.or prev) rest).map (Match.andThen ⟨word, []⟩) :=
  first?_seq_of_single (by simp [ways]) e

/-- The pattern matches no text that begins with such a character. -/
def Shuns (e : Pattern) (p : Char → Bool) : Prop :=
  ∀ prev c cs, p c → e.ways prev (c :: cs) = []

theorem shuns_literal {p : Char → Bool} {mark : Char} (hmark : p mark = false) (word : List Char)
    (e : Pattern) : Shuns (seq (literal (mark :: word)) e) p := by
  intro prev c cs hc
  have hne : mark ≠ c := fun heq => by simp [← heq, hmark] at hc
  simp [ways, hne]

/-- Of the beginnings of a run, longest first, only the whole one gives anything if no proper one
does. -/
theorem flatMap_inits_reverse {α : Type} {run : List Char} {f : List Char → List α}
    (proper : ∀ start c more, run = start ++ c :: more → f start = []) :
    run.inits.reverse.flatMap f = f run := by
  rcases List.eq_nil_or_concat run with rfl | ⟨most, last, rfl⟩
  · simp
  · have shorter : most.inits.reverse.flatMap f = [] := by
      rw [List.flatMap_eq_nil_iff]
      intro start hstart
      obtain ⟨more, rfl⟩ := (List.mem_inits _ _).mp (List.mem_reverse.mp hstart)
      obtain ⟨c, others, hothers⟩ : ∃ c others, more ++ [last] = c :: others :=
        List.exists_cons_of_ne_nil (by simp)
      exact proper start c others (by rw [List.concat_eq_append, List.append_assoc, hothers])
    have hinits : (most.concat last).inits = most.inits ++ [most.concat last] := by
      simp [List.inits_append]
    rw [hinits, List.reverse_append, List.reverse_singleton, List.singleton_append,
      List.flatMap_cons, shorter, List.append_nil]

/-- A run is taken as a whole where what comes after it cannot begin inside of it. -/
theorem first?_atLeastOne_seq {name : String} {p : Char → Bool} {e : Pattern} (shuns : Shuns e p)
    {run rest : List Char} (hne : run ≠ []) (hrun : ∀ c ∈ run, p c)
    (hrest : ∀ c ∈ rest.head?, p c = false) (prev : Option Char) :
    (seq (atLeastOne name p) e).first? prev (run ++ rest) =
      (e.first? (run.getLast?.or prev) rest).map (Match.andThen ⟨run, [(name, run)]⟩) := by
  obtain ⟨c, more, rfl⟩ := List.exists_cons_of_ne_nil hne
  obtain ⟨hc, hmore⟩ := List.forall_mem_cons.mp hrun
  have hstop : rest.takeWhile p = [] := by
    cases rest with
    | nil => rfl
    | cons x xs => simp [hrest x rfl]
  have htake : (more ++ rest).takeWhile p = more := by
    rw [List.takeWhile_append_of_pos hmore, hstop, List.append_nil]
  have hways : (atLeastOne name p).ways prev (c :: more ++ rest) =
      more.inits.reverse.map fun start => ⟨c :: start, [(name, c :: start)]⟩ := by
    simp [atLeastOne, ways, hc, htake, Match.andThen]
  rw [first?, ways, hways, List.flatMap_map, flatMap_inits_reverse]
  · simp [first?]
  · rintro start x others rfl
    have hx : p x := hmore x (by simp)
    simp [shuns _ x _ hx]

/-! ## The rest of a line -/

/-- As little as possible, then a carriage return if there is one, up to the end of the line. -/
def restOfLine (name : String) : Pattern :=
  all [group name (lazy (· ≠ '\n')), optional (literal ['\r']), lineEnd]

theorem takeWhile_line {line after : List Char} (hline : '\n' ∉ line) (hafter : atLineEnd after) :
    (line ++ after).takeWhile (· ≠ '\n') = line := by
  have hstop : after.takeWhile (· ≠ '\n') = [] := by
    cases after with
    | nil => rfl
    | cons c cs =>
      have hc : c = '\n' := by simpa [atLineEnd] using hafter
      simp [hc]
  have hall : ∀ c ∈ line, decide (c ≠ '\n') = true := fun c hc =>
    decide_eq_true fun heq => hline (heq ▸ hc)
  rw [List.takeWhile_append_of_pos hall, hstop, List.append_nil]

/-- What a line may still hold where its text is over. -/
def spent (cs : List Char) : Bool := cs = [] ∨ cs = ['\r']

theorem ways_return_lineEnd {line after : List Char} (hline : '\n' ∉ line)
    (hafter : atLineEnd after) (prev : Option Char) :
    (seq (optional (literal ['\r'])) lineEnd).ways prev (line ++ after) =
      if spent line then [⟨line, []⟩] else [] := by
  have hnoReturn : ¬ ['\r'] <+: after := by
    rintro ⟨rest, rfl⟩
    simp [atLineEnd] at hafter
  cases line with
  | nil => simp [optional, ways, spent, hafter, hnoReturn, Match.andThen]
  | cons c line =>
    have hc : c ≠ '\n' := fun heq => hline (heq ▸ List.mem_cons_self)
    have hmiddle : atLineEnd (c :: (line ++ after)) = false := by simp [atLineEnd, hc]
    by_cases hreturn : c = '\r'
    · subst hreturn
      cases line with
      | nil =>
        rw [List.nil_append] at hmiddle
        simp [optional, ways, spent, hafter, hmiddle, Match.andThen]
      | cons d line =>
        have hd : d ≠ '\n' := fun heq => hline (by simp [heq])
        simp [optional, ways, spent, atLineEnd, hd]
    · simp [optional, ways, spent, hreturn, Ne.symm hreturn, hmiddle]

theorem dropReturn_cons (c : Char) (line : List Char) :
    dropReturn (c :: line) = if spent (c :: line) then [] else c :: dropReturn line := by
  rw [dropReturn_eq, dropReturn_eq]
  cases line with
  | nil => by_cases hc : c = '\r' <;> simp [spent, hc]
  | cons d line => by_cases hlast : (d :: line).getLast? = some '\r' <;> simp [spent, hlast]

theorem find?_inits_spent (line : List Char) :
    (line.inits.find? fun start => spent (line.drop start.length)) = some (dropReturn line) := by
  induction line with
  | nil => rfl
  | cons c line ih =>
    rw [List.inits_cons, List.find?_cons, dropReturn_cons]
    by_cases hspent : spent (c :: line)
    · simp [hspent]
    · have hlater : ((fun start => spent ((c :: line).drop start.length)) ∘ (c :: ·)) =
          fun start => spent (line.drop start.length) := rfl
      simp only [List.length_nil, List.drop_zero, hspent, List.find?_map, hlater, ih,
        Option.map_some, if_false, Bool.false_eq_true]

theorem flatMap_ite {α β : Type} (l : List α) (p : α → Bool) (f : α → β) :
    (l.flatMap fun a => if p a then [f a] else []) = (l.filter p).map f := by
  induction l with
  | nil => rfl
  | cons a l ih => by_cases ha : p a <;> simp [ha, ih]

/-- Of the lazy ways to the end of a line, the first leaves out one carriage return. -/
theorem first?_restOfLine (name : String) {line after : List Char} (hline : '\n' ∉ line)
    (hafter : atLineEnd after) (prev : Option Char) :
    (restOfLine name).first? prev (line ++ after) =
      some ⟨line, [(name, dropReturn line)]⟩ := by
  have each : ∀ start ∈ line.inits,
      ((seq (optional (literal ['\r'])) lineEnd).ways (start.getLast?.or prev)
          ((line ++ after).drop start.length)).map (Match.andThen ⟨start, [(name, start)]⟩) =
        if spent (line.drop start.length) then [⟨line, [(name, start)]⟩] else [] := by
    intro start hstart
    obtain ⟨more, rfl⟩ := (List.mem_inits _ _).mp hstart
    have hmore : '\n' ∉ more := fun hmem => hline (List.mem_append_right start hmem)
    rw [List.append_assoc, List.drop_left, List.drop_left, ways_return_lineEnd hmore hafter]
    split <;> simp [Match.andThen]
  have hways : (restOfLine name).ways prev (line ++ after) =
      (line.inits.filter fun start => spent (line.drop start.length)).map
        fun start => ⟨line, [(name, start)]⟩ := by
    rw [← flatMap_ite, ← List.flatMap_congr each]
    simp only [restOfLine, all, ways, takeWhile_line hline hafter, List.map_map, List.flatMap_map,
      Function.comp_def]
  rw [first?, hways, List.head?_map, List.head?_filter, find?_inits_spent]
  rfl

theorem Takes.restOfLine {name : String} {text after : List Char}
    (h : Takes (restOfLine name) text after) : '\n' ∉ text ∧ atLineEnd after := by
  obtain ⟨start, more, rfl, hstart, hmore⟩ := h.seq
  obtain ⟨back, ending, rfl, hback, hending⟩ := hmore.seq
  obtain ⟨rfl, hafter⟩ := hending.lineEnd
  have hline : '\n' ∉ start := fun hmem => by simpa using hstart.group.lazy _ hmem
  rcases hback.alt with h | h
  · rw [h.literal]
    exact ⟨by simp [hline], hafter⟩
  · rw [h.literal]
    exact ⟨by simp [hline], hafter⟩

/-! ## Line by line -/

@[elab_as_elim]
theorem lines_induction {motive : List Char → Prop}
    (last : ∀ line, '\n' ∉ line → motive line)
    (more : ∀ line rest, '\n' ∉ line → motive rest → motive (line ++ '\n' :: rest))
    (cs : List Char) : motive cs := by
  by_cases hmem : '\n' ∈ cs
  · obtain ⟨line, rest, rfl, hline⟩ := List.eq_append_cons_of_mem hmem
    exact more line rest hline (lines_induction last more rest)
  · exact last cs hmem
termination_by cs.length

/-- A pattern that matches whole lines only, each on its own. -/
structure ByLine (e : Pattern) : Prop where
  start : ∀ {prev} cs, atLineStart prev = false → e.first? prev cs = none
  alone : ∀ {prev line after}, atLineStart prev → '\n' ∉ line → atLineEnd after →
    e.first? prev (line ++ after) = e.first? none line
  whole : ∀ {line m}, '\n' ∉ line → e.first? none line = some m → m.text = line ∧ line ≠ []

def goOn (e : Pattern) : List Char → List Match
  | [] => []
  | _ :: rest => e.scan false (some '\n') rest

variable {e : Pattern}

theorem scan_end {prev : Option Char} {after : List Char}
    (hprev : e.first? prev after = none) (hafter : atLineEnd after) (ended : Bool) :
    e.scan ended prev after = e.goOn after := by
  cases after with
  | nil => exact scan_nil_of_none hprev
  | cons c rest =>
    have hc : c = '\n' := by simpa [atLineEnd] using hafter
    rw [scan_cons_of_none hprev, hc]
    rfl

theorem ByLine.scan_inside (byLine : ByLine e) {prev : Option Char}
    (hprev : atLineStart prev = false) {line after : List Char} (hline : '\n' ∉ line)
    (hafter : atLineEnd after) (ended : Bool) :
    e.scan ended prev (line ++ after) = e.goOn after := by
  induction line generalizing prev ended with
  | nil => exact scan_end (byLine.start _ hprev) hafter ended
  | cons c line ih =>
    have hc : c ≠ '\n' := fun heq => hline (heq ▸ List.mem_cons_self)
    rw [List.cons_append, scan_cons_of_none (byLine.start _ hprev)]
    exact ih (by simp [atLineStart, hc]) (fun hmem => hline (List.mem_cons_of_mem c hmem)) false

theorem ByLine.scan_line (byLine : ByLine e) {prev : Option Char} (hprev : atLineStart prev)
    {line after : List Char} (hline : '\n' ∉ line) (hafter : atLineEnd after) :
    e.scan false prev (line ++ after) = (e.first? none line).toList ++ e.goOn after := by
  have hfirst := byLine.alone hprev hline hafter
  have hinside : ∀ c ∈ line, atLineStart (some c) = false := fun c hc => by
    have hne : c ≠ '\n' := fun heq => hline (heq ▸ hc)
    simp [atLineStart, hne]
  cases hm : e.first? none line with
  | none =>
    rw [hm] at hfirst
    cases line with
    | nil => exact scan_end hfirst hafter false
    | cons c line =>
      rw [List.cons_append] at hfirst ⊢
      rw [scan_cons_of_none hfirst]
      exact byLine.scan_inside (hinside c List.mem_cons_self)
        (fun hmem => hline (List.mem_cons_of_mem c hmem)) hafter false
  | some m =>
    obtain ⟨htext, hne⟩ := byLine.whole hline hm
    have hlast : atLineStart line.getLast? = false := by
      rw [List.getLast?_eq_some_getLast hne]
      exact hinside _ (List.getLast_mem hne)
    have hrest : e.scan true line.getLast? after = e.goOn after :=
      scan_end (byLine.start after hlast) hafter true
    obtain ⟨c, more, rfl⟩ := List.exists_cons_of_ne_nil hne
    rw [hm, List.cons_append] at hfirst
    rw [List.cons_append, scan_cons_of_some hfirst (htext ▸ hne), htext, List.length_cons,
      Nat.add_sub_cancel, List.drop_left, hrest]
    rfl

/-- A search with such a pattern goes through the lines of a text one after the other. -/
theorem ByLine.scan_eq_lines (byLine : ByLine e) {prev : Option Char} (hprev : atLineStart prev)
    (cs : List Char) :
    e.scan false prev cs = (splitLines cs).filterMap (e.first? none) := by
  have single : ∀ line, [line].filterMap (e.first? none) = (e.first? none line).toList :=
    fun line => by cases h : e.first? none line <;> simp [h]
  induction cs using lines_induction generalizing prev with
  | last line hline =>
    have hscan := byLine.scan_line hprev hline (show atLineEnd [] from rfl)
    rw [List.append_nil] at hscan
    rw [hscan, splitLines, pieces_of_notMem hline, goOn, List.append_nil, single]
  | more line rest hline ih =>
    rw [byLine.scan_line hprev hline rfl, splitLines, pieces_append, pieces_of_notMem hline,
      List.filterMap_append, goOn, ih rfl, splitLines, single]

end Pattern

end LiveSound.Text
