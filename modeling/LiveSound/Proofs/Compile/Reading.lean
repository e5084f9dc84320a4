import LiveSound.Compile.Service

/-!
# What is made of a service's replies

A reply is decoded and judged by what it says and by its status; bytes are taken for a module if
they begin with the header of one. A result that is known for every cause tells which one there was.
-/

namespace LiveSound

namespace Module

/-- The bytes begin as those of every module do. -/
def HasHeader (bytes : Bytes) : Prop := magic ++ version <+: bytes

theorem fault?_eq_none_iff {bytes : Bytes} : fault? bytes = none ↔ HasHeader bytes := by
  constructor
  · intro none
    unfold fault? at none
    split at none
    · cases none
    · split at none
      · cases none
      · split at none
        · cases none
        · split at none
          · cases none
          · rename_i magic version
            rw [Decidable.not_not] at magic version
            refine ⟨(bytes.drop 4).drop 4, ?_⟩
            rw [← magic, ← version, List.append_assoc, List.take_append_drop,
              List.take_append_drop]
  · rintro ⟨rest, rfl⟩
    rfl

theorem ofBytes_bytes (m : Module) : ofBytes m.bytes = .ok m := by
  unfold ofBytes
  split
  next => rfl
  next fault there => exact absurd (m.fault?_eq_none.symm.trans there) nofun

theorem ofBytes_badHeader {bytes : Bytes} (header : ¬ HasHeader bytes) :
    ∃ fault, ofBytes bytes = .error fault := by
  unfold ofBytes
  split
  next none => exact absurd (fault?_eq_none_iff.mp none) header
  next fault _ => exact ⟨fault, rfl⟩

end Module

namespace Compile.Result

variable {result : Result} {delivers : Success → Prop} {fails : FailureKind → Prop}

/-- Something was delivered or there was a cause to fail, and the result is what each of them
makes it. -/
structure CausedBy (result : Result) (delivers : Success → Prop) (fails : FailureKind → Prop) :
    Prop where
  of_delivers : ∀ x, delivers x → result = .success x
  of_fails : ∀ kind, fails kind → result.failureKind? = some kind
  settled : (∃ x, delivers x) ∨ ∃ kind, fails kind

theorem CausedBy.eq_success_iff (h : result.CausedBy delivers fails) {x : Success} :
    result = .success x ↔ delivers x := by
  refine ⟨fun success => ?_, h.of_delivers x⟩
  rcases h.settled with ⟨y, delivered⟩ | ⟨kind, cause⟩
  · cases (h.of_delivers y delivered).symm.trans success
    exact delivered
  · have failed := h.of_fails kind cause
    rw [success] at failed
    cases failed

theorem CausedBy.failureKind?_iff (h : result.CausedBy delivers fails) {kind : FailureKind} :
    result.failureKind? = some kind ↔ fails kind := by
  refine ⟨fun failed => ?_, h.of_fails kind⟩
  rcases h.settled with ⟨x, delivered⟩ | ⟨other, cause⟩
  · rw [h.of_delivers x delivered] at failed
    cases failed
  · cases (h.of_fails other cause).symm.trans failed
    exact cause

theorem CausedBy.isSuccess_iff (h : result.CausedBy delivers fails) :
    result.isSuccess = true ↔ ∃ x, delivers x := by
  refine ⟨fun success => ?_, fun ⟨x, delivered⟩ => by rw [h.of_delivers x delivered]; rfl⟩
  cases same : result with
  | success x => exact ⟨x, h.eq_success_iff.mp same⟩
  | failure f =>
    rw [same] at success
    cases success

end Compile.Result

namespace Compile.Service

variable {s : ServiceSettings} {url text : String} {r : Net.Reply} {reply : Reply}

/-! ## Replies to a compile -/

/-- All of the body came, and it is a reply. -/
def Decodes (r : Net.Reply) (reply : Reply) : Prop :=
  ∃ text, r.text = .ok text ∧ Reply.ofJson text = .ok reply

theorem text_whole (whole : r.ending = .whole) :
    r.text = .ok (Net.textOf r.contentType r.body) := by
  rw [Net.Reply.text, Net.Reply.bytes, whole]
  rfl

theorem readReply_cutShort (cut : r.ending = .cutShort) :
    ∃ message, readReply s r = .error (.plain .transport message) := by
  unfold readReply Net.Reply.text Net.Reply.bytes
  rw [cut]
  exact ⟨_, rfl⟩

theorem readReply_timedOut (waited : r.ending = .timedOut) :
    ∃ message, readReply s r = .error (.plain .timeout message) := by
  unfold readReply Net.Reply.text Net.Reply.bytes
  rw [waited]
  exact ⟨_, rfl⟩

theorem readReply_undecodable {fault : ReplyFault} (whole : r.text = .ok text)
    (faulty : Reply.ofJson text = .error fault) :
    ∃ message, readReply s r = .error (.plain .protocol message) := by
  unfold readReply
  simp only [whole, faulty]
  exact ⟨_, rfl⟩

theorem readReply_refused (decoded : Decodes r reply)
    (refusal : reply.success = false) :
    readReply s r = .error ⟨.compile, reply.error.getD "Compilation failed",
      reply.details, reply.stdout, reply.stderr⟩ := by
  obtain ⟨text, whole, read⟩ := decoded
  unfold readReply
  simp only [whole, read, refusal]
  rfl

theorem readReply_badStatus (decoded : Decodes r reply)
    (success : reply.success = true) (status : r.isSuccess = false) :
    ∃ message, readReply s r = .error (.plain .protocol message) := by
  obtain ⟨text, whole, read⟩ := decoded
  unfold readReply
  simp only [whole, read, success, status]
  exact ⟨_, rfl⟩

theorem readReply_accepted (decoded : Decodes r reply)
    (success : reply.success = true) (status : r.isSuccess = true) :
    readReply s r = .ok reply := by
  obtain ⟨text, whole, read⟩ := decoded
  unfold readReply
  simp only [whole, read, success, status]
  rfl

theorem readReply_eq_ok (read : readReply s r = .ok reply) :
    Decodes r reply ∧ reply.success = true ∧ r.isSuccess = true := by
  unfold readReply at read
  split at read
  · cases read
  · rename_i text whole
    simp only at read
    split at read
    · cases read
    · rename_i decoded
      split at read
      · cases read
      · rename_i success
        split at read
        · cases read
        · rename_i status
          cases read
          exact ⟨⟨text, whole, decoded⟩, by simpa using success, by simpa using status⟩

/-! ## Modules -/

theorem readArtifact_badStatus (status : r.isSuccess = false) :
    ∃ message, readArtifact s url r = .error (.plain .transport message) := by
  unfold readArtifact
  rw [if_neg (by simp [status])]
  exact ⟨_, rfl⟩

theorem readArtifact_broken (broken : r.ending ≠ .whole) :
    ∃ message, readArtifact s url r = .error (.plain .transport message) := by
  unfold readArtifact Net.Reply.bytes
  cases ending : r.ending with
  | whole => exact absurd ending broken
  | cutShort | timedOut => split <;> exact ⟨_, rfl⟩

theorem readArtifact_whole {bytes : Bytes} (status : r.isSuccess = true)
    (whole : r.bytes = .ok bytes) : readArtifact s url r = .ok bytes := by
  unfold readArtifact
  rw [if_pos status, whole]
  rfl

theorem conclude_of_header {x : Success} (output : x.output = reply.output.getD "")
    (warnings : x.warnings = reply.warnings) :
    conclude reply x.artifact.bytes = .success x := by
  rw [conclude, Module.ofBytes_bytes, ← output, ← warnings]

theorem conclude_badHeader {bytes : Bytes} (header : ¬ Module.HasHeader bytes) :
    ∃ message, conclude reply bytes = .failure (.plain .protocol message) := by
  obtain ⟨fault, faulty⟩ := Module.ofBytes_badHeader header
  rw [conclude, faulty]
  exact ⟨_, rfl⟩

end Compile.Service

end LiveSound
