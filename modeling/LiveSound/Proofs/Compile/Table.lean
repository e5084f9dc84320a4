import LiveSound.Compile.Pending
import LiveSound.Proofs.Data.Keyed

/-!
# The table of outstanding requests

What each operation of `Pending` does to an id and to a ticket. An operation on one id leaves the
other ids and the tickets that are not theirs as they are.
-/

namespace LiveSound.Compile.Pending

variable {p : Pending} {id : Nat}

/-- The ids in the table. -/
def keys (p : Pending) : List Nat := p.entries.map (·.1)

theorem lookup_filter (entries : List (Nat × Nat)) (id' : Nat) :
    (entries.filter (·.1 != id)).lookup id' =
      if id' = id then none else entries.lookup id' := by
  by_cases h : id' = id
  · rw [if_pos h, h]
    exact Keyed.lookup_filter_self
  · rw [if_neg h]
    exact Keyed.lookup_filter_ne h

theorem mem_keys_iff : id ∈ p.keys ↔ ∃ n, p.ticketOf? id = some n := by
  rw [← Option.ne_none_iff_exists', ticketOf?, Ne, Keyed.lookup_eq_none_iff, Classical.not_not, keys]

/-! ## Taking ids out -/

@[simp] theorem ticketOf?_erase (p : Pending) (id id' : Nat) :
    (p.erase id).ticketOf? id' = if id' = id then none else p.ticketOf? id' :=
  lookup_filter p.entries id'

@[simp] theorem ticket?_erase (p : Pending) (id n : Nat) : (p.erase id).ticket? n = p.ticket? n :=
  rfl

theorem keys_erase (p : Pending) (id : Nat) : (p.erase id).keys = p.keys.filter (· != id) := by
  simp only [erase, keys, List.filter_map, Function.comp_def]

@[simp] theorem settle_entries (p : Pending) (n : Nat) (t : Ticket) :
    (p.settle n t).entries = p.entries := by
  unfold settle
  split <;> rfl

@[simp] theorem ticketOf?_settle (p : Pending) (n : Nat) (t : Ticket) (id : Nat) :
    (p.settle n t).ticketOf? id = p.ticketOf? id := by
  rw [ticketOf?, settle_entries, ticketOf?]

theorem keys_settle (p : Pending) (n : Nat) (t : Ticket) : (p.settle n t).keys = p.keys := by
  rw [keys, settle_entries, keys]

theorem ticket?_settle_of_ne (p : Pending) {n m : Nat} (h : m ≠ n) (t : Ticket) :
    (p.settle n t).ticket? m = p.ticket? m := by
  unfold settle
  split
  · exact List.getElem?_set_ne h.symm
  · rfl

theorem ticket?_settle_self {n : Nat} (h : p.ticket? n = some .waiting) (t : Ticket) :
    (p.settle n t).ticket? n = some t := by
  have lt : n < p.tickets.length := (List.getElem?_eq_some_iff.mp h).1
  simp only [settle, h]
  exact List.getElem?_set_self lt

/-! ## The operations -/

theorem insert_of_fresh (h : p.ticketOf? id = none) :
    p.insert id =
      (⟨(id, p.tickets.length) :: p.entries, p.tickets ++ [.waiting]⟩, p.tickets.length) := by
  simp [insert, remove, h]

theorem ticketOf?_insert (h : p.ticketOf? id = none) (id' : Nat) :
    (p.insert id).1.ticketOf? id' =
      if id' = id then some p.tickets.length else p.ticketOf? id' := by
  rw [insert_of_fresh h, ticketOf?, List.lookup_cons]
  by_cases h' : id' = id
  · simp [h']
  · have ne : (id' == id) = false := by simpa using h'
    simp [ne, h', ticketOf?]

theorem ticket?_insert_self (h : p.ticketOf? id = none) :
    (p.insert id).1.ticket? p.tickets.length = some .waiting := by
  rw [insert_of_fresh h]
  simp [ticket?]

theorem ticket?_insert_of_lt (h : p.ticketOf? id = none) {n : Nat} (lt : n < p.tickets.length) :
    (p.insert id).1.ticket? n = p.ticket? n := by
  rw [insert_of_fresh h]
  exact List.getElem?_append_left lt

theorem keys_insert (h : p.ticketOf? id = none) : (p.insert id).1.keys = id :: p.keys := by
  rw [insert_of_fresh h]
  rfl

theorem remove_of_some {n : Nat} (h : p.ticketOf? id = some n) :
    (p.remove id).1 = (p.erase id).settle n .closed := by
  simp only [remove, h]

theorem remove_of_none (h : p.ticketOf? id = none) : (p.remove id).1 = p := by
  simp only [remove, h]

@[simp] theorem ticketOf?_remove (p : Pending) (id id' : Nat) :
    (p.remove id).1.ticketOf? id' = if id' = id then none else p.ticketOf? id' := by
  cases h : p.ticketOf? id with
  | none =>
    rw [remove_of_none h]
    by_cases h' : id' = id
    · simp [h', h]
    · simp [h']
  | some n => rw [remove_of_some h, ticketOf?_settle, ticketOf?_erase]

theorem ticket?_remove_of_ne {m : Nat} (h : ∀ n, p.ticketOf? id = some n → m ≠ n) :
    (p.remove id).1.ticket? m = p.ticket? m := by
  cases found : p.ticketOf? id with
  | none => rw [remove_of_none found]
  | some n => rw [remove_of_some found, ticket?_settle_of_ne _ (h n found), ticket?_erase]

theorem keys_remove (p : Pending) (id : Nat) : (p.remove id).1.keys.Sublist p.keys := by
  cases h : p.ticketOf? id with
  | none =>
    simpa only [remove_of_none h] using List.Sublist.refl p.keys
  | some n =>
    rw [remove_of_some h, keys_settle, keys_erase]
    exact List.filter_sublist

theorem resolve_of_some {n : Nat} (h : p.ticketOf? id = some n) (r : Result) :
    (p.resolve id r).1 = (p.erase id).settle n (.answered r) := by
  simp only [resolve, h]

theorem resolve_of_none (h : p.ticketOf? id = none) (r : Result) : (p.resolve id r).1 = p := by
  simp only [resolve, h]

theorem keys_resolve (p : Pending) (id : Nat) (r : Result) :
    (p.resolve id r).1.keys.Sublist p.keys := by
  cases h : p.ticketOf? id with
  | none =>
    simpa only [resolve_of_none h] using List.Sublist.refl p.keys
  | some n =>
    rw [resolve_of_some h, keys_settle, keys_erase]
    exact List.filter_sublist

/-! ## Reading a ticket -/

theorem read_of_waiting {n : Nat} (h : p.ticket? n = some .waiting) : p.read n = (p, .empty) := by
  simp only [read, h]

theorem read_of_answered {n : Nat} {r : Result} (h : p.ticket? n = some (.answered r)) :
    p.read n = ({ p with tickets := p.tickets.set n .closed }, .result r) := by
  simp only [read, h]

/-- A ticket that nothing has come for yet is left as it is. -/
theorem eq_of_read_empty {q : Pending} {n : Nat} (h : p.read n = (q, .empty)) : q = p := by
  unfold read at h
  split at h <;> cases h
  rfl

end LiveSound.Compile.Pending
