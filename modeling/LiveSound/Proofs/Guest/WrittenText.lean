import LiveSound.Guest.WebAssembly
import LiveSound.Proofs.Guest.Posting
import LiveSound.Proofs.Wasm.HostState

/-!
# WebAssembly guests post text

Of all system calls only the one that writes to a stream posts something, and that is text. So
whatever code a module has, what is posted while it runs is text (`webAssembly_postsText`).
-/

namespace LiveSound.Guest

def Host.TextOnly (h : Host) : Prop := AllText h.posted

namespace SystemCall

theorem writtenEvents_isText (stream : UInt32) (text : Bytes) :
    AllText (writtenEvents stream text) := by
  unfold writtenEvents
  split <;> simp [AllText, Event.isText]

theorem fdWriteTo_isText {m m' : Wasm.Memory} {stream table count out : UInt32}
    {events : List Event} (h : fdWriteTo m stream table count out = .ok (m', events)) :
    AllText events := by
  unfold fdWriteTo at h
  obtain ⟨⟨text, total⟩, -, h⟩ := Wasm.exists_of_bind_ok h
  obtain ⟨m'', -, h⟩ := Wasm.exists_of_bind_ok h
  cases h
  exact writtenEvents_isText stream text

theorem run_textOnly (c : SystemCall) (args : List Wasm.Value) (memory : Option Wasm.Memory)
    {host : Host} (h : host.TextOnly) : (c.run args memory host).state.TextOnly := by
  fun_cases run
  case case3 stream table count out m m' events written =>
    have text : AllText events.reverse := fun event he =>
      fdWriteTo_isText written event (List.mem_reverse.mp he)
    exact text.append h
  all_goals exact h

end SystemCall

/-- Every function that modules can import posts at most text. -/
theorem offer_keeps (space name : String) (f : Wasm.HostFunction Host)
    (h : SystemCall.offer space name = some f) : f.Keeps Host.TextOnly := by
  unfold SystemCall.offer at h
  split at h
  · obtain ⟨c, -, rfl⟩ := Option.map_eq_some_iff.mp h
    exact fun args memory host => c.run_textOnly args memory
  · cases h

namespace Running

theorem takeEvents_isText {r : Running} (h : r.Keeps Host.TextOnly) :
    AllText r.takeEvents.1 ∧ r.takeEvents.2.Keeps Host.TextOnly :=
  ⟨fun event he => h.2 event (List.mem_reverse.mp he), h.1, .nil⟩

theorem call_isText {α : Type} {r : Running} (h : r.Keeps Host.TextOnly) (name : String)
    (result : List Wasm.Value → α) :
    AllText (r.call name result).events ∧ (r.call name result).state.Keeps Host.TextOnly := by
  unfold call
  split
  · exact ⟨.nil, h⟩
  · rename_i index _ _
    have taken := takeEvents_isText (h.invoke index [])
    simp only
    split <;> exact taken

end Running

theorem webAssembly_postsText (seed clock : UInt64) : (webAssembly seed clock).PostsText := by
  refine ⟨fun r => r.Keeps Host.TextOnly, fun program => ?_,
    fun r name h => Running.call_isText h name _, fun r name h => Running.call_isText h name _⟩
  have kept := Wasm.Instance.instantiate_keeps offer_keeps program
    (show Host.TextOnly (.fresh seed clock) from .nil)
  simp only [webAssembly]
  split <;> rename_i attempt <;> rw [attempt] at kept
  · exact ⟨fun event he => kept.1 event (List.mem_reverse.mp he), fun r hr => by cases hr⟩
  · have taken := Running.takeEvents_isText (kept.2 _ rfl)
    refine ⟨taken.1, fun r hr => ?_⟩
    cases hr
    exact taken.2

end LiveSound.Guest
