import LiveSound.Proofs.Compile.Traffic
import LiveSound.Proofs.Data.Keyed
import Mathlib.Algebra.Group.Nat.Defs

/-!
# Requests and replies

A call gets the first reply that is routed for it while it waits, and nothing else. The invariant
is `Exact`: for every call, what the table and its ticket say is what the replies routed since its
registration say (`Tracks`), and no two calls share an id or a ticket. So an operation on one call
leaves all others alone, and the table holds the open calls and no others.
-/

namespace LiveSound.Compile

/-! ## Replies -/

theorem repliesTo_append (id : Nat) (ms ms' : List Message) :
    repliesTo id (ms ++ ms') = repliesTo id ms ++ repliesTo id ms' :=
  List.filterMap_append

theorem repliesTo_reply (id target : Nat) (r : Result) :
    repliesTo id [.reply target r] = if target = id then [r] else [] := by
  by_cases h : target = id <;> simp [repliesTo, h]

theorem mem_repliesTo {id : Nat} {ms : List Message} {r : Result} :
    r ∈ repliesTo id ms ↔ .reply id r ∈ ms := by
  constructor
  · intro h
    obtain ⟨m, hm, hr⟩ := List.mem_filterMap.mp h
    cases m with
    | status text => cases hr
    | backend b => cases hr
    | reply target r' =>
      simp only at hr
      split at hr
      · cases hr
        subst_vars
        exact hm
      · cases hr
  · intro h
    exact List.mem_filterMap.mpr ⟨_, h, by simp⟩

theorem repliesTo_eq_nil {id : Nat} {ms : List Message}
    (others : ∀ id' r, .reply id' r ∈ ms → id' ≠ id) : repliesTo id ms = [] :=
  List.eq_nil_iff_forall_not_mem.mpr fun r hr => others id r (mem_repliesTo.mp hr) rfl

theorem Caller.heard_append (c : Caller) {routed : List Message} (le : c.since ≤ routed.length)
    (more : List Message) :
    c.heard (routed ++ more) = c.heard routed ++ repliesTo c.id more := by
  rw [Caller.heard, List.drop_append_of_le_length le, repliesTo_append, Caller.heard]

namespace Traffic

/-! ## The table and the calls -/

/-- What the table and the ticket of a call say, after these messages. -/
def Tracks (p : Pending) (routed : List Message) (c : Caller) : Prop :=
  match c.phase.ticket? with
  | none => p.ticketOf? c.id = none
  | some n =>
    match c.heard routed with
    | [] => p.ticketOf? c.id = some n ∧ p.ticket? n = some .waiting
    | r :: _ => p.ticketOf? c.id = none ∧ p.ticket? n = some (.answered r)

/-- At a moment when so many messages were routed the deadline was over and no reply had come. -/
def Overdue (s : Traffic) (c : Caller) (call : Call) (heard : Nat) : Prop :=
  heard ≤ s.routed.length ∧ c.heard (s.routed.take heard) = [] ∧
    call.started + call.deadline ≤ s.client.now

/-- The result is what the ending of a call makes it. -/
def Justified (s : Traffic) (c : Caller) (r : Result) : Ending → Prop
  | .refused => r = Client.notRunning ∧ s.client.sending = false
  | .answered heard =>
    heard ≤ s.routed.length ∧ (c.heard (s.routed.take heard)).head? = some r
  | .late call heard => r = .failure (.timeout call.deadline) ∧ s.Overdue c call heard
  | .dropped => False

def Sound (s : Traffic) (c : Caller) : Prop :=
  match c.phase with
  | .refused _ => s.client.sending = false
  | .waiting call => call.id = c.id
  | .expired call heard => call.id = c.id ∧ s.Overdue c call heard
  | .done r ending => s.Justified c r ending
  | _ => True

structure Exact (s : Traffic) : Prop where
  next : s.client.nextId = s.callers.length
  ids : ∀ (k : Nat) (c : Caller), s.callers[k]? = some c → c.id = k
  since_le : ∀ c ∈ s.callers, c.since ≤ s.routed.length
  tracks : ∀ c ∈ s.callers, Tracks s.pending s.routed c
  owned : ∀ id n, s.pending.ticketOf? id = some n →
    ∃ c ∈ s.callers, c.id = id ∧ c.phase.ticket? = some n
  apart : ∀ c ∈ s.callers, ∀ c' ∈ s.callers, ∀ n, c.phase.ticket? = some n →
    c'.phase.ticket? = some n → c.id = c'.id
  keys : s.pending.keys.Nodup
  sound : ∀ c ∈ s.callers, s.Sound c

theorem Tracks.lt {p : Pending} {routed : List Message} {c : Caller} (h : Tracks p routed c)
    {n : Nat} (hn : c.phase.ticket? = some n) : n < p.tickets.length := by
  simp only [Tracks, hn] at h
  split at h <;> exact (List.getElem?_eq_some_iff.mp h.2).1

/-- A call is not affected by what leaves its id and its ticket alone. -/
theorem Tracks.congr {p p' : Pending} {routed : List Message} {c : Caller} (h : Tracks p routed c)
    (table : p'.ticketOf? c.id = p.ticketOf? c.id)
    (ticket : ∀ n, c.phase.ticket? = some n → p'.ticket? n = p.ticket? n) :
    Tracks p' routed c := by
  unfold Tracks at h ⊢
  split
  · rename_i none
    simp only [none] at h
    rw [table, h]
  · rename_i n held
    simp only [held] at h
    rw [table, ticket n held]
    exact h

theorem Tracks.of_ticket {p : Pending} {routed : List Message} {c c' : Caller}
    (h : Tracks p routed c) (id : c'.id = c.id) (since : c'.since = c.since)
    (ticket : c'.phase.ticket? = c.phase.ticket?) : Tracks p routed c' := by
  have heard : c'.heard routed = c.heard routed := by rw [Caller.heard, id, since, Caller.heard]
  unfold Tracks at h ⊢
  rw [ticket, id, heard]
  exact h

namespace Exact

variable {s : Traffic}

theorem connect (deadline : Nat) : Exact (.connect deadline) := by
  constructor
  case next => rfl
  case ids => intro k c h; cases h
  case since_le => intro c h; cases h
  case tracks => intro c h; cases h
  case owned => intro id n h; cases h
  case apart => intro c h; cases h
  case keys => exact List.nodup_nil
  case sound => intro c h; cases h

theorem ids_nodup (h : Exact s) : (s.callers.map (·.id)).Nodup := by
  have ids : s.callers.map (·.id) = List.range s.callers.length := by
    refine List.ext_getElem (by simp) fun k hk _ => ?_
    have lt : k < s.callers.length := by simpa using hk
    rw [List.getElem_map, List.getElem_range, h.ids k _ (List.getElem?_eq_getElem lt)]
  rw [ids]
  exact List.nodup_range

theorem eq_of_id (h : Exact s) {c c' : Caller} (hc : c ∈ s.callers) (hc' : c' ∈ s.callers)
    (e : c.id = c'.id) : c = c' :=
  Keyed.eq_of_key h.ids_nodup hc hc' e

theorem mem_set (h : Exact s) {k : Nat} {c c' u : Caller} (hk : s.callers[k]? = some c)
    (hu : u ∈ s.callers.set k c') : u = c' ∨ (u ∈ s.callers ∧ u.id ≠ c.id) :=
  Keyed.mem_set h.ids_nodup hk hu

/-- Only what the state knows of a call besides the table, and that more and more is known. -/
theorem sound_mono {s s' : Traffic} {c : Caller} (h : s.Sound c)
    (closed : s.client.sending = false → s'.client.sending = false)
    (later : s.client.now ≤ s'.client.now) (routed : ∃ more, s'.routed = s.routed ++ more) :
    s'.Sound c := by
  obtain ⟨more, routed⟩ := routed
  have overdue (call : Call) (heard : Nat) (ho : s.Overdue c call heard) :
      s'.Overdue c call heard := by
    obtain ⟨le, none, late⟩ := ho
    refine ⟨?_, ?_, ?_⟩
    · rw [routed, List.length_append]
      omega
    · rwa [routed, List.take_append_of_le_length le]
    · omega
  unfold Sound at h ⊢
  split
  · rename_i hp
    simp only [hp] at h
    exact closed h
  · rename_i hp
    simp only [hp] at h
    exact h
  · rename_i hp
    simp only [hp] at h
    exact ⟨h.1, overdue _ _ h.2⟩
  · rename_i r ending hp
    simp only [hp] at h
    cases ending with
    | refused => exact ⟨h.1, closed h.2⟩
    | answered heard =>
      obtain ⟨le, first⟩ := h
      refine ⟨?_, ?_⟩
      · rw [routed, List.length_append]
        omega
      · rwa [routed, List.take_append_of_le_length le]
    | late call heard => exact ⟨h.1, overdue _ _ h.2⟩
    | dropped => exact h
  · trivial

theorem congr (h : Exact s) {s' : Traffic} (callers : s'.callers = s.callers)
    (routed : s'.routed = s.routed) (pending : s'.pending = s.pending)
    (next : s'.client.nextId = s.client.nextId)
    (closed : s.client.sending = false → s'.client.sending = false)
    (later : s.client.now ≤ s'.client.now) : Exact s' := by
  constructor
  case next => rw [next, callers, h.next]
  case ids => rw [callers]; exact h.ids
  case since_le => rw [callers, routed]; exact h.since_le
  case tracks => rw [callers, routed, pending]; exact h.tracks
  case owned => rw [callers, pending]; exact h.owned
  case apart => rw [callers]; exact h.apart
  case keys => rw [pending]; exact h.keys
  case sound =>
    intro c hc
    exact sound_mono (h.sound c (callers ▸ hc)) closed later ⟨[], by simp [routed]⟩

/-- One call changes, and with it the entry of its id and its ticket. -/
theorem replace (h : Exact s) {k : Nat} {c : Caller} (hk : s.callers[k]? = some c) (c' : Caller)
    (id : c'.id = c.id) (since : c'.since ≤ s.routed.length) {p : Pending}
    (tracks : Tracks p s.routed c')
    (others : ∀ id', id' ≠ c.id → p.ticketOf? id' = s.pending.ticketOf? id')
    (tickets : ∀ n, c.phase.ticket? ≠ some n → n < s.pending.tickets.length →
      p.ticket? n = s.pending.ticket? n)
    (held : ∀ n, c'.phase.ticket? = some n →
      c.phase.ticket? = some n ∨ s.pending.tickets.length ≤ n)
    (keys : p.keys.Nodup) (sound : s.Sound c') :
    Exact ((s.setPending p).setCaller k c') := by
  have mem : c ∈ s.callers := List.mem_of_getElem? hk
  have lt : k < s.callers.length := (List.getElem?_eq_some_iff.mp hk).1
  -- No other call holds the ticket of the call that changes, be it old or new.
  have apart' : ∀ u ∈ s.callers, u.id ≠ c.id → ∀ n, u.phase.ticket? = some n →
      c'.phase.ticket? ≠ some n := by
    intro u hu hne n hn hn'
    rcases held n hn' with old | new
    · exact hne (h.apart u hu c mem n hn old)
    · have := (h.tracks u hu).lt hn
      omega
  constructor
  case next => simpa [setCaller, setPending] using h.next
  case ids =>
    intro l u hl
    rcases (Keyed.getElem?_set_eq_some hk).mp hl with ⟨rfl, rfl⟩ | ⟨-, hl⟩
    · exact id.trans (h.ids l c hk)
    · exact h.ids l u hl
  case since_le =>
    intro u hu
    rcases h.mem_set hk hu with rfl | ⟨hu, -⟩
    · exact since
    · exact h.since_le u hu
  case tracks =>
    intro u hu
    rcases h.mem_set hk hu with rfl | ⟨hu, hne⟩
    · exact tracks
    · refine (h.tracks u hu).congr (others u.id hne) fun n hn => ?_
      exact tickets n (fun hc => hne (h.apart u hu c mem n hn hc)) ((h.tracks u hu).lt hn)
  case owned =>
    intro id' n hn
    by_cases e : id' = c.id
    · refine ⟨c', List.mem_set lt c', id.trans e.symm, ?_⟩
      have hn : p.ticketOf? c'.id = some n := by rw [id, ← e]; exact hn
      unfold Tracks at tracks
      split at tracks
      · rw [tracks] at hn
        cases hn
      · rename_i m hm
        split at tracks <;> rw [tracks.1] at hn <;> cases hn
        exact hm
    · obtain ⟨u, hu, hid, hn⟩ := h.owned id' n ((others id' e).symm.trans hn)
      have other : u.id ≠ c.id := by rwa [hid]
      exact ⟨u, Keyed.mem_set_of_ne hk hu other, hid, hn⟩
  case apart =>
    intro u hu v hv n hun hvn
    rcases h.mem_set hk hu with hu' | ⟨hu', hune⟩
    · rcases h.mem_set hk hv with hv' | ⟨hv', hvne⟩
      · rw [hu', hv']
      · exact absurd (hu' ▸ hun) (apart' v hv' hvne n hvn)
    · rcases h.mem_set hk hv with hv' | ⟨hv', -⟩
      · exact absurd (hv' ▸ hvn) (apart' u hu' hune n hun)
      · exact h.apart u hu' v hv' n hun hvn
  case keys => exact keys
  case sound =>
    have mono (u : Caller) (hu : s.Sound u) : ((s.setPending p).setCaller k c').Sound u :=
      sound_mono hu (fun closed => closed) (Nat.le_refl _) ⟨[], (List.append_nil _).symm⟩
    intro u hu
    rcases h.mem_set hk hu with rfl | ⟨hu, -⟩
    · exact mono _ sound
    · exact mono _ (h.sound u hu)

theorem moves (h : Exact s) {k : Nat} {c : Caller} (hk : s.callers[k]? = some c) {phase : Phase}
    (ticket : phase.ticket? = c.phase.ticket?) (sound : s.Sound { c with phase := phase }) :
    Exact (s.goes k c phase s.pending) := by
  have mem : c ∈ s.callers := List.mem_of_getElem? hk
  exact h.replace hk { c with phase := phase } rfl (h.since_le c mem)
    ((h.tracks c mem).of_ticket rfl rfl ticket) (fun _ _ => rfl) (fun _ _ _ => rfl)
    (fun n hn => .inl (ticket ▸ hn)) h.keys sound

theorem retires (h : Exact s) {k : Nat} {c : Caller} (hk : s.callers[k]? = some c) {r : Result}
    {ending : Ending} (justified : s.Justified c r ending) :
    Exact (s.goes k c (.done r ending) (s.pending.remove c.id).1) := by
  have mem : c ∈ s.callers := List.mem_of_getElem? hk
  refine h.replace hk { c with phase := .done r ending } rfl (h.since_le c mem) ?_ ?_ ?_ ?_ ?_
    justified
  · simp [Tracks, Phase.ticket?]
  · intro id' hne
    rw [Pending.ticketOf?_remove, if_neg hne]
  · intro n hn _
    refine Pending.ticket?_remove_of_ne fun m hm => ?_
    rintro rfl
    obtain ⟨u, hu, hid, held⟩ := h.owned c.id n hm
    rw [h.eq_of_id hu mem hid] at held
    exact hn held
  · intro n hn
    cases hn
  · exact h.keys.sublist (Pending.keys_remove _ _)

theorem answers (h : Exact s) {k : Nat} {c : Caller} (hk : s.callers[k]? = some c) {call : Call}
    (phase : c.phase = .waiting call) {p : Pending} {r : Result}
    (read : s.pending.read call.ticket = (p, .result r)) :
    Exact (s.goes k c (.done r (.answered s.routed.length)) p) := by
  have mem : c ∈ s.callers := List.mem_of_getElem? hk
  have tracks := h.tracks c mem
  simp only [Tracks, phase, Phase.ticket?] at tracks
  split at tracks
  · rw [Pending.read_of_waiting tracks.2] at read
    cases read
  · rename_i r' rest heard
    rw [Pending.read_of_answered tracks.2] at read
    cases read
    refine h.replace hk { c with phase := .done r (.answered s.routed.length) } rfl
      (h.since_le c mem) ?_ (fun _ _ => rfl) ?_ ?_ h.keys ?_
    · exact tracks.1
    · intro n hn _
      have ne : call.ticket ≠ n := fun e => hn (by rw [phase, ← e]; rfl)
      exact List.getElem?_set_ne ne
    · intro n hn
      cases hn
    · refine ⟨Nat.le_refl _, ?_⟩
      rw [List.take_length]
      show (c.heard s.routed).head? = some r
      rw [heard, List.head?_cons]

/-- A new call has an id that is not in the table. -/
theorem ticketOf?_next (h : Exact s) : s.pending.ticketOf? s.client.nextId = none := by
  cases found : s.pending.ticketOf? s.client.nextId with
  | none => rfl
  | some n =>
    obtain ⟨c, hc, hid, -⟩ := h.owned _ n found
    obtain ⟨k, hk⟩ := List.mem_iff_getElem?.mp hc
    have lt := (List.getElem?_eq_some_iff.mp hk).1
    have := h.ids k c hk
    have := h.next
    omega

theorem start (h : Exact s) (request : Request) : Exact (s.start request) := by
  have old : ∀ u ∈ (s.start request).callers,
      u ∈ s.callers ∨ u = ⟨s.client.nextId, request, 0, .numbered⟩ := by simp [Traffic.start]
  constructor
  case next => simp [Traffic.start, h.next]
  case ids =>
    intro k c hk
    rcases Keyed.getElem?_concat_eq_some.mp hk with hk | ⟨rfl, rfl⟩
    · exact h.ids k c hk
    · exact h.next
  case since_le =>
    intro u hu
    rcases old u hu with hu | rfl
    · exact h.since_le u hu
    · exact Nat.zero_le _
  case tracks =>
    intro u hu
    rcases old u hu with hu | rfl
    · exact h.tracks u hu
    · exact h.ticketOf?_next
  case owned =>
    intro id n hn
    obtain ⟨u, hu, rest⟩ := h.owned id n hn
    exact ⟨u, List.mem_append_left _ hu, rest⟩
  case apart =>
    intro u hu v hv n hun hvn
    rcases old u hu with hu | rfl
    · rcases old v hv with hv | rfl
      · exact h.apart u hu v hv n hun hvn
      · cases hvn
    · cases hun
  case keys => exact h.keys
  case sound =>
    intro u hu
    rcases old u hu with hu | rfl
    · exact sound_mono (h.sound u hu) id (Nat.le_refl _) ⟨[], (List.append_nil _).symm⟩
    · trivial

theorem register (h : Exact s) {k : Nat} {c : Caller} (hk : s.callers[k]? = some c)
    (phase : c.phase = .numbered) : Exact (s.register k c) := by
  have fresh : s.pending.ticketOf? c.id = none := by
    have tracks := h.tracks c (List.mem_of_getElem? hk)
    simpa only [Tracks, phase, Phase.ticket?] using tracks
  have ticket : (s.pending.insert c.id).2 = s.pending.tickets.length := by
    rw [Pending.insert_of_fresh fresh]
  have entry : (s.pending.insert c.id).1.ticketOf? c.id = some s.pending.tickets.length := by
    rw [Pending.ticketOf?_insert fresh, if_pos rfl]
  refine h.replace (p := (s.pending.insert c.id).1) hk
    { c with since := s.routed.length, phase := .registered (s.pending.insert c.id).2 } rfl
    (Nat.le_refl _) ?_ ?_ ?_ ?_ ?_ trivial
  · have unheard : repliesTo c.id (s.routed.drop s.routed.length) = [] := by
      rw [List.drop_length]
      rfl
    simp only [Tracks, Phase.ticket?, Caller.heard, unheard, ticket]
    exact ⟨entry, Pending.ticket?_insert_self fresh⟩
  · intro id' hne
    rw [Pending.ticketOf?_insert fresh, if_neg hne]
  · intro n _ lt
    exact Pending.ticket?_insert_of_lt fresh lt
  · intro n hn
    have same : (s.pending.insert c.id).2 = n := Option.some.inj hn
    exact .inr (by omega)
  · rw [Pending.keys_insert fresh]
    refine List.nodup_cons.mpr ⟨fun mem => ?_, h.keys⟩
    obtain ⟨n, hn⟩ := Pending.mem_keys_iff.mp mem
    rw [fresh] at hn
    cases hn

theorem tracks_of_other (h : Exact s) {c : Caller} (hc : c ∈ s.callers) {m : Message}
    (other : repliesTo c.id [m] = []) {p : Pending}
    (table : p.ticketOf? c.id = s.pending.ticketOf? c.id)
    (ticket : ∀ n, c.phase.ticket? = some n → p.ticket? n = s.pending.ticket? n) :
    Tracks p (s.routed ++ [m]) c := by
  have same : c.heard (s.routed ++ [m]) = c.heard s.routed := by
    rw [c.heard_append (h.since_le c hc), other, List.append_nil]
  have tracks := (h.tracks c hc).congr table ticket
  unfold Tracks at tracks ⊢
  rw [same]
  exact tracks

/-- A call that is not in the table takes no notice of a reply. -/
theorem tracks_of_absent (h : Exact s) {c : Caller} (hc : c ∈ s.callers)
    (absent : s.pending.ticketOf? c.id = none) (m : Message) :
    Tracks s.pending (s.routed ++ [m]) c := by
  have tracks := h.tracks c hc
  have more := c.heard_append (h.since_le c hc) [m]
  unfold Tracks at tracks ⊢
  split
  · exact absent
  · rename_i n held
    simp only [held] at tracks
    split at tracks
    · rw [absent] at tracks
      cases tracks.1
    · rename_i r rest heard
      rw [more, heard]
      exact tracks

theorem tracks_of_reply (h : Exact s) {c : Caller} (hc : c ∈ s.callers) {n : Nat}
    (entry : s.pending.ticketOf? c.id = some n) (r : Result) :
    Tracks ((s.pending.erase c.id).settle n (.answered r)) (s.routed ++ [.reply c.id r]) c := by
  have tracks := h.tracks c hc
  have more := c.heard_append (h.since_le c hc) [.reply c.id r]
  rw [repliesTo_reply, if_pos rfl] at more
  unfold Tracks at tracks ⊢
  split
  · rename_i none
    simp only [none] at tracks
    rw [tracks] at entry
    cases entry
  · rename_i m held
    simp only [held] at tracks
    split at tracks
    · rename_i heard
      rw [entry] at tracks
      cases tracks.1
      rw [more, heard]
      refine ⟨by simp, ?_⟩
      exact Pending.ticket?_settle_self (p := s.pending.erase c.id) tracks.2 _
    · rw [tracks.1] at entry
      cases entry

theorem tracks_route (h : Exact s) {c : Caller} (hc : c ∈ s.callers) (m : Message) :
    Tracks (s.route m).pending (s.route m).routed c := by
  cases m with
  | status text => exact h.tracks_of_other hc rfl rfl fun _ _ => rfl
  | backend b => exact h.tracks_of_other hc rfl rfl fun _ _ => rfl
  | reply id r =>
    show Tracks (s.pending.resolve id r).1 (s.routed ++ [.reply id r]) c
    by_cases own : id = c.id
    · subst own
      cases found : s.pending.ticketOf? c.id with
      | none =>
        rw [Pending.resolve_of_none found]
        exact h.tracks_of_absent hc found _
      | some n =>
        rw [Pending.resolve_of_some found]
        exact h.tracks_of_reply hc found r
    · have other : repliesTo c.id [.reply id r] = [] := by rw [repliesTo_reply, if_neg own]
      cases found : s.pending.ticketOf? id with
      | none =>
        rw [Pending.resolve_of_none found]
        exact h.tracks_of_other hc other rfl fun _ _ => rfl
      | some n =>
        rw [Pending.resolve_of_some found]
        refine h.tracks_of_other hc other ?_ fun m hm => ?_
        · rw [Pending.ticketOf?_settle, Pending.ticketOf?_erase, if_neg (Ne.symm own)]
        · obtain ⟨u, hu, hid, held⟩ := h.owned id n found
          have apart : m ≠ n := by
            rintro rfl
            exact own ((h.apart c hc u hu m hm held).trans hid).symm
          rw [Pending.ticket?_settle_of_ne _ apart, Pending.ticket?_erase]

theorem route (h : Exact s) (m : Message) : Exact (s.route m) := by
  have entries : ∀ id n, (s.route m).pending.ticketOf? id = some n →
      s.pending.ticketOf? id = some n := by
    intro id n hn
    cases m with
    | status text => exact hn
    | backend b => exact hn
    | reply target r =>
      change (s.pending.resolve target r).1.ticketOf? id = some n at hn
      cases found : s.pending.ticketOf? target with
      | none => rwa [Pending.resolve_of_none found] at hn
      | some k =>
        rw [Pending.resolve_of_some found, Pending.ticketOf?_settle, Pending.ticketOf?_erase] at hn
        split at hn
        · cases hn
        · exact hn
  have client : (s.route m).client.nextId = s.client.nextId ∧
      (s.route m).client.sending = s.client.sending ∧ (s.route m).client.now = s.client.now := by
    cases m <;> exact ⟨rfl, rfl, rfl⟩
  constructor
  case next => exact client.1.trans h.next
  case ids => exact h.ids
  case since_le =>
    intro c hc
    have := h.since_le c hc
    simp only [Traffic.route, List.length_append]
    omega
  case tracks => exact fun c hc => h.tracks_route hc m
  case owned => exact fun id n hn => h.owned id n (entries id n hn)
  case apart => exact h.apart
  case keys =>
    cases m with
    | status text => exact h.keys
    | backend b => exact h.keys
    | reply id r => exact h.keys.sublist (Pending.keys_resolve _ _ _)
  case sound =>
    intro c hc
    exact sound_mono (h.sound c hc) (fun closed => client.2.1.trans closed)
      (Nat.le_of_eq client.2.2.symm) ⟨[m], rfl⟩

theorem step (h : Exact s) {m : Option Message} {s' : Traffic} (hs : Step m s s') : Exact s' := by
  cases hs with
  | start request => exact h.start request
  | register caller phase => exact h.register caller phase
  | @send _ k c n caller phase sending =>
    have moved : Exact (s.goes k c (.sent n) s.pending) :=
      h.moves caller (by rw [phase]; rfl) trivial
    exact moved.congr rfl rfl rfl rfl id (Nat.le_refl _)
  | refuse caller phase closed => exact h.moves caller (by rw [phase]; rfl) closed
  | @reject _ k c n caller phase =>
    have closed := h.sound c (List.mem_of_getElem? caller)
    simp only [Sound, phase] at closed
    exact h.retires caller ⟨rfl, closed⟩
  | wait caller phase => exact h.moves caller (by rw [phase]; rfl) rfl
  | answer caller phase read => exact h.answers caller phase read
  | @drop _ k c call p caller phase read =>
    have tracks := h.tracks c (List.mem_of_getElem? caller)
    simp only [Tracks, phase, Phase.ticket?] at tracks
    split at tracks
    · rw [Pending.read_of_waiting tracks.2] at read
      cases read
    · rw [Pending.read_of_answered tracks.2] at read
      cases read
  | @expire _ k c call p caller phase read late =>
    have mem := List.mem_of_getElem? caller
    have tracks := h.tracks c mem
    have own := h.sound c mem
    simp only [Sound, phase] at own
    simp only [Tracks, phase, Phase.ticket?] at tracks
    split at tracks
    · rename_i unheard
      rw [Pending.eq_of_read_empty read]
      refine h.moves caller (by rw [phase]; rfl) ⟨own, Nat.le_refl _, ?_, late⟩
      rw [List.take_length]
      exact unheard
    · rw [Pending.read_of_answered tracks.2] at read
      cases read
  | @timeOut _ k c call heard caller phase =>
    have overdue := h.sound c (List.mem_of_getElem? caller)
    simp only [Sound, phase] at overdue
    exact h.retires caller ⟨rfl, overdue.2⟩
  | route m routing => exact h.route m
  | advance milliseconds => exact h.congr rfl rfl rfl rfl id (Nat.le_add_right _ _)
  | stopSending => exact h.congr rfl rfl rfl rfl (fun _ => rfl) (Nat.le_refl _)
  | stopRouting => exact h.congr rfl rfl rfl rfl id (Nat.le_refl _)

theorem of_steps (h : Exact s) {s' : Traffic} (hs : Steps s s') : Exact s' := by
  induction hs with
  | refl => exact h
  | tail _ hs ih => exact ih.step hs

theorem of_reachable {deadline : Nat} (h : Reachable deadline s) : Exact s :=
  (connect deadline).of_steps h

/-! ## What the table holds -/

theorem mem_keys_iff (h : Exact s) (id : Nat) :
    id ∈ s.pending.keys ↔ ∃ c ∈ s.callers, c.id = id ∧ c.Open s.routed := by
  rw [Pending.mem_keys_iff]
  constructor
  · rintro ⟨n, entry⟩
    obtain ⟨c, hc, hid, held⟩ := h.owned id n entry
    have tracks := h.tracks c hc
    simp only [Tracks, held] at tracks
    refine ⟨c, hc, hid, by simp [held], ?_⟩
    split at tracks
    · assumption
    · rw [hid, entry] at tracks
      cases tracks.1
  · rintro ⟨c, hc, rfl, holds, unheard⟩
    obtain ⟨n, held⟩ := Option.isSome_iff_exists.mp holds
    have tracks := h.tracks c hc
    simp only [Tracks, held, unheard] at tracks
    exact ⟨n, tracks.1⟩

theorem isEmpty_of_idle (h : Exact s) (idle : ∀ c ∈ s.callers, c.phase.ticket? = none) :
    s.pending.isEmpty = true := by
  have none : s.pending.keys = [] := by
    refine List.eq_nil_iff_forall_not_mem.mpr fun id mem => ?_
    obtain ⟨c, hc, -, holds, -⟩ := (h.mem_keys_iff id).mp mem
    rw [idle c hc] at holds
    cases holds
  simpa [Pending.isEmpty, Pending.keys] using none

/-- As long as there are no more calls than 64-bit words, their ids are different words. -/
theorem words_nodup (h : Exact s) (few : s.callers.length ≤ 2 ^ 64) :
    (s.callers.map fun c => UInt64.ofNat c.id).Nodup := by
  have small : ∀ c ∈ s.callers, c.id < 2 ^ 64 := by
    intro c hc
    obtain ⟨k, hk⟩ := List.mem_iff_getElem?.mp hc
    have lt := (List.getElem?_eq_some_iff.mp hk).1
    have := h.ids k c hk
    omega
  have apart : s.callers.Pairwise fun c c' => c.id ≠ c'.id := List.pairwise_map.mp h.ids_nodup
  refine List.pairwise_map.mpr (apart.imp_of_mem fun {c c'} hc hc' ne same => ne ?_)
  have same := congrArg UInt64.toNat same
  rwa [UInt64.toNat_ofNat_of_lt' (small c hc), UInt64.toNat_ofNat_of_lt' (small c' hc')] at same

end Exact

/-! ## Results stay -/

/-- A call keeps its id and its request, and when it has a result, that too. -/
theorem Step.caller {s s' : Traffic} {m : Option Message} (hs : Step m s s') {k : Nat} {c : Caller}
    (hk : s.callers[k]? = some c) :
    ∃ c', s'.callers[k]? = some c' ∧ c'.id = c.id ∧ c'.request = c.request ∧
      ∀ r ending, c.phase = .done r ending → c' = c := by
  -- A step replaces at most the caller at `l`, which has no result yet.
  have replaced {l : Nat} {d d' : Caller} (hl : s.callers[l]? = some d) (id : d'.id = d.id)
      (request : d'.request = d.request) (going : ∀ r ending, d.phase ≠ .done r ending) :
      ∃ c', (s.callers.set l d')[k]? = some c' ∧ c'.id = c.id ∧ c'.request = c.request ∧
        ∀ r ending, c.phase = .done r ending → c' = c := by
    by_cases e : l = k
    · subst e
      obtain rfl : d = c := Option.some.inj (hl.symm.trans hk)
      have lt := (List.getElem?_eq_some_iff.mp hk).1
      exact ⟨d', List.getElem?_set_self lt, id, request, fun r ending hd =>
        absurd hd (going r ending)⟩
    · exact ⟨c, (List.getElem?_set_ne e).trans hk, rfl, rfl, fun _ _ _ => rfl⟩
  have same : ∃ c', s.callers[k]? = some c' ∧ c'.id = c.id ∧ c'.request = c.request ∧
      ∀ r ending, c.phase = .done r ending → c' = c := ⟨c, hk, rfl, rfl, fun _ _ _ => rfl⟩
  cases hs with
  | start request =>
    have lt := (List.getElem?_eq_some_iff.mp hk).1
    exact ⟨c, (List.getElem?_append_left lt).trans hk, rfl, rfl, fun _ _ _ => rfl⟩
  | register caller phase => exact replaced caller rfl rfl (by simp [phase])
  | send caller phase sending => exact replaced caller rfl rfl (by simp [phase])
  | refuse caller phase closed => exact replaced caller rfl rfl (by simp [phase])
  | reject caller phase => exact replaced caller rfl rfl (by simp [phase])
  | wait caller phase => exact replaced caller rfl rfl (by simp [phase])
  | answer caller phase read => exact replaced caller rfl rfl (by simp [phase])
  | drop caller phase read => exact replaced caller rfl rfl (by simp [phase])
  | expire caller phase read late => exact replaced caller rfl rfl (by simp [phase])
  | timeOut caller phase => exact replaced caller rfl rfl (by simp [phase])
  | route m routing => exact same
  | advance milliseconds => exact same
  | stopSending => exact same
  | stopRouting => exact same

theorem Steps.caller {s s' : Traffic} (hs : Steps s s') {k : Nat} {c : Caller}
    (hk : s.callers[k]? = some c) :
    ∃ c', s'.callers[k]? = some c' ∧ c'.id = c.id ∧ c'.request = c.request ∧
      ∀ r ending, c.phase = .done r ending → c' = c := by
  induction hs with
  | refl => exact ⟨c, hk, rfl, rfl, fun _ _ _ => rfl⟩
  | tail _ hs ih =>
    obtain ⟨d, hd, id, request, kept⟩ := ih
    obtain ⟨d', hd', id', request', kept'⟩ := hs.caller hd
    refine ⟨d', hd', id'.trans id, request'.trans request, fun r ending hc => ?_⟩
    have same := kept r ending hc
    rw [kept' r ending (same ▸ hc), same]

/-! ## Correlation -/

/-- What holds of the calls of a client at every moment of every run. -/
structure Correlated (s : Traffic) : Prop where
  /-- Ids are not used twice. -/
  ids : s.callers.length ≤ 2 ^ 64 → (s.callers.map fun c => UInt64.ofNat c.id).Nodup
  /-- The first reply to a call that was routed from its registration on, before the call found
  the deadline over; a timeout, if there was none; or a refusal. -/
  result : ∀ c ∈ s.callers, ∀ r ending, c.phase = .done r ending → s.Justified c r ending
  /-- A call that has its result keeps it. -/
  once : ∀ (k : Nat) (c : Caller) r ending s', s.callers[k]? = some c →
    c.phase = .done r ending → Steps s s' → s'.callers[k]? = some c
  keys_nodup : s.pending.keys.Nodup
  /-- The table holds the open calls. -/
  keys : ∀ id, id ∈ s.pending.keys ↔ ∃ c ∈ s.callers, c.id = id ∧ c.Open s.routed
  empty : (∀ c ∈ s.callers, c.phase.ticket? = none) → s.pending.isEmpty = true

theorem correlated {deadline : Nat} {s : Traffic} (h : Reachable deadline s) : Correlated s where
  ids := (Exact.of_reachable h).words_nodup
  result c hc r ending hd := by
    have sound := (Exact.of_reachable h).sound c hc
    rwa [Sound, hd] at sound
  once k c r ending s' hk hd later := by
    obtain ⟨c', hk', -, -, kept⟩ := later.caller hk
    rw [hk', kept r ending hd]
  keys_nodup := (Exact.of_reachable h).keys
  keys := (Exact.of_reachable h).mem_keys_iff
  empty := (Exact.of_reachable h).isEmpty_of_idle

end Traffic

end LiveSound.Compile
