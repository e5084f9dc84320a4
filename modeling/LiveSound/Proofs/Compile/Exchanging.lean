import LiveSound.Proofs.Compile.Reading
import LiveSound.Proofs.World.Courses

/-!
# What comes of an exchange with a compile service

A compile with a service posts the request and, if the reply brings no module, asks once more for
the module; both have one deadline. Every way in which that can go is a cause of one kind of
failure, or it delivers a module.
-/

namespace LiveSound.Compile

open Net (Heard Remote requestFor?)
open LiveSound.Module (HasHeader fault?_eq_none_iff)
open Service (text_whole readReply_cutShort readReply_timedOut readReply_undecodable
  readReply_refused readReply_badStatus readReply_accepted readReply_eq_ok readArtifact_badStatus
  readArtifact_broken readArtifact_whole conclude_of_header conclude_badHeader)

/-- A compile with a service, and the servers as it finds them. -/
structure Errand where
  settings : ServiceSettings
  request : Request
  remote : Remote

namespace Errand

variable (e : Errand)

def run : Result × Remote := Service.compile (m := StateM Remote) e.settings e.request e.remote

def body : Option String := some (Json.write e.request.toData)

def posted : Heard := e.remote.hears .post e.settings.endpoint e.body 0 e.settings.timeout

def afterPost : Remote := e.remote.sends .post e.settings.endpoint e.body

/-- What is heard of a request for the module that is sent at this moment. -/
def fetched (url : String) (moment : Nat) : Heard :=
  e.afterPost.hears .get url none moment e.settings.timeout

def afterFetch (url : String) : Remote := e.afterPost.sends .get url none

/-- A reply is heard, and its body is decoded. -/
structure Brings (r : Net.Reply) (moment : Nat) (reply : Reply) : Prop where
  heard : e.posted = .reply r moment
  decoded : Service.Decodes r reply

/-- The reply tells of a success and has a status of success. -/
structure Accepts (reply : Reply) (moment : Nat) : Prop where
  brought : ∃ r, e.Brings r moment reply ∧ r.isSuccess = true
  success : reply.success = true

/-- The module has to be fetched from this URL. -/
structure Lacks (reply : Reply) (moment : Nat) (url : String) : Prop where
  accepted : e.Accepts reply moment
  module : reply.module = none
  source : e.settings.artifactUrl = some url

/-- The bytes that come with a reply, or are fetched after it. -/
inductive Obtains (reply : Reply) (bytes : Bytes) : Prop where
  | enclosed {moment : Nat} (accepted : e.Accepts reply moment)
      (module : reply.module = some bytes)
  | fetched {moment later : Nat} {url : String} {r : Net.Reply} (lacks : e.Lacks reply moment url)
      (heard : e.fetched url moment = .reply r later) (status : r.isSuccess = true)
      (whole : r.bytes = .ok bytes)

structure Delivers (x : Success) (reply : Reply) : Prop where
  obtained : e.Obtains reply x.artifact.bytes
  output : x.output = reply.output.getD ""
  warnings : x.warnings = reply.warnings

/-- The causes of failures, and their kinds. What the system gives up waiting for is late when it
is the reply, and missing when it is the module. -/
inductive Fails : FailureKind → Prop where
  | unanswered (heard : e.posted = .nothing) : Fails .timeout
  | unsent (heard : e.posted = .trouble) : Fails .transport
  | givenUp (heard : e.posted = .givenUp) : Fails .timeout
  | cutShort {r : Net.Reply} {moment : Nat} (heard : e.posted = .reply r moment)
      (cut : r.ending = .cutShort) : Fails .transport
  | timedOut {r : Net.Reply} {moment : Nat} (heard : e.posted = .reply r moment)
      (waited : r.ending = .timedOut) : Fails .timeout
  | undecodable {r : Net.Reply} {moment : Nat} {text : String} {fault : ReplyFault}
      (heard : e.posted = .reply r moment) (whole : r.text = .ok text)
      (faulty : Reply.ofJson text = .error fault) : Fails .protocol
  | refused {r : Net.Reply} {moment : Nat} {reply : Reply} (brought : e.Brings r moment reply)
      (refusal : reply.success = false) : Fails .compile
  | badStatus {r : Net.Reply} {moment : Nat} {reply : Reply} (brought : e.Brings r moment reply)
      (success : reply.success = true) (status : r.isSuccess = false) : Fails .protocol
  | noSource {reply : Reply} {moment : Nat} (accepted : e.Accepts reply moment)
      (module : reply.module = none) (source : e.settings.artifactUrl = none) : Fails .protocol
  | moduleUnanswered {reply : Reply} {moment : Nat} {url : String}
      (lacks : e.Lacks reply moment url) (heard : e.fetched url moment = .nothing) : Fails .timeout
  | moduleUnsent {reply : Reply} {moment : Nat} {url : String}
      (lacks : e.Lacks reply moment url)
      (heard : e.fetched url moment = .trouble ∨ e.fetched url moment = .givenUp) :
      Fails .transport
  | moduleBadStatus {reply : Reply} {moment later : Nat} {url : String} {r : Net.Reply}
      (lacks : e.Lacks reply moment url) (heard : e.fetched url moment = .reply r later)
      (status : r.isSuccess = false) : Fails .transport
  | moduleBroken {reply : Reply} {moment later : Nat} {url : String} {r : Net.Reply}
      (lacks : e.Lacks reply moment url) (heard : e.fetched url moment = .reply r later)
      (broken : r.ending ≠ .whole) : Fails .transport
  | badHeader {reply : Reply} {bytes : Bytes} (obtained : e.Obtains reply bytes)
      (header : ¬ HasHeader bytes) : Fails .protocol

variable {e}

/-! ## The request to compile -/

theorem posted_run :
    ∃ outcome spent,
      Net.timedFetch (m := StateM Remote) .post e.settings.endpoint
        (some (Json.write e.request.toData)) e.settings.timeout e.remote =
          ((outcome, spent), e.afterPost) ∧
      e.posted.Tells e.settings.timeout outcome spent := by
  obtain ⟨outcome, spent, run, told⟩ := e.remote.timedFetch_run .post e.settings.endpoint e.body
    (Nat.zero_le e.settings.timeout)
  simp only [Nat.sub_zero, Nat.zero_add] at run told
  exact ⟨outcome, spent, run, told⟩

theorem run_of_nothing (heard : e.posted = .nothing) :
    e.run = (.failure (.timeout e.settings.timeout), e.afterPost) := by
  obtain ⟨outcome, spent, run, told⟩ := e.posted_run
  rw [heard] at told
  cases told
  unfold Errand.run Service.compile
  simp only [bind, StateT.bind, run]
  rfl

theorem run_of_trouble (heard : e.posted = .trouble) :
    ∃ message, e.run = (.failure (.plain .transport message), e.afterPost) := by
  obtain ⟨outcome, spent, run, told⟩ := e.posted_run
  rw [heard] at told
  obtain ⟨message, rfl⟩ := told
  unfold Errand.run Service.compile
  simp only [bind, StateT.bind, run]
  exact ⟨_, rfl⟩

theorem run_of_givenUp (heard : e.posted = .givenUp) :
    ∃ message, e.run = (.failure (.plain .timeout message), e.afterPost) := by
  obtain ⟨outcome, spent, run, told⟩ := e.posted_run
  rw [heard] at told
  obtain ⟨message, rfl⟩ := told
  unfold Errand.run Service.compile
  simp only [bind, StateT.bind, run]
  exact ⟨_, rfl⟩

theorem run_of_reply {r : Net.Reply} {moment : Nat} (heard : e.posted = .reply r moment) :
    moment ≤ e.settings.timeout ∧
      e.run =
        match Service.readReply e.settings r with
        | .error failure => (.failure failure, e.afterPost)
        | .ok reply =>
          match reply.module with
          | some bytes => (Service.conclude reply bytes, e.afterPost)
          | none =>
            match Service.fetchArtifact (m := StateM Remote) e.settings
              (e.settings.timeout - moment) e.afterPost with
            | (.error failure, w) => (.failure failure, w)
            | (.ok bytes, w) => (Service.conclude reply bytes, w) := by
  obtain ⟨outcome, spent, run, told⟩ := e.posted_run
  rw [heard] at told
  obtain ⟨rfl, rfl, inTime⟩ := told
  refine ⟨inTime, ?_⟩
  unfold Errand.run Service.compile
  simp only [bind, StateT.bind, run]
  cases Service.readReply e.settings r with
  | error failure => rfl
  | ok reply =>
    simp only
    cases reply.module with
    | some bytes => rfl
    | none =>
      simp only [StateT.bind]
      rcases Service.fetchArtifact (m := StateM Remote) e.settings _ e.afterPost with
        ⟨failure | bytes, w⟩
      · rfl
      · rfl

/-! ## Replies -/

theorem run_of_refused {r : Net.Reply} {moment : Nat} {failure : Failure}
    (heard : e.posted = .reply r moment)
    (refused : Service.readReply e.settings r = .error failure) :
    e.run = (.failure failure, e.afterPost) := by
  rw [(run_of_reply heard).2, refused]

theorem run_of_enclosed {reply : Reply} {moment : Nat} {bytes : Bytes}
    (accepted : e.Accepts reply moment) (module : reply.module = some bytes) :
    e.run = (Service.conclude reply bytes, e.afterPost) := by
  obtain ⟨r, brought, status⟩ := accepted.brought
  rw [(run_of_reply brought.heard).2,
    readReply_accepted brought.decoded accepted.success status]
  simp only [module]

/-! ## The request for the module -/

theorem run_of_missing {reply : Reply} {moment : Nat} (accepted : e.Accepts reply moment)
    (module : reply.module = none) :
    moment ≤ e.settings.timeout ∧
      e.run =
        match Service.fetchArtifact (m := StateM Remote) e.settings
          (e.settings.timeout - moment) e.afterPost with
        | (.error failure, w) => (.failure failure, w)
        | (.ok bytes, w) => (Service.conclude reply bytes, w) := by
  obtain ⟨r, brought, status⟩ := accepted.brought
  obtain ⟨inTime, run⟩ := run_of_reply brought.heard
  rw [readReply_accepted brought.decoded accepted.success status] at run
  simp only [module] at run
  exact ⟨inTime, run⟩

theorem run_of_noSource {reply : Reply} {moment : Nat} (accepted : e.Accepts reply moment)
    (module : reply.module = none) (source : e.settings.artifactUrl = none) :
    ∃ message, e.run = (.failure (.plain .protocol message), e.afterPost) := by
  rw [(run_of_missing accepted module).2]
  unfold Service.fetchArtifact
  rw [source]
  exact ⟨_, rfl⟩

/-- What is done with what is heard of the module. -/
theorem run_of_lacks {reply : Reply} {moment : Nat} {url : String}
    (lacks : e.Lacks reply moment url) :
    e.run.2 = e.afterFetch url ∧
      match e.fetched url moment with
      | .nothing => e.run.1 = .failure (.timeout e.settings.timeout)
      | .trouble | .givenUp => ∃ message, e.run.1 = .failure (.plain .transport message)
      | .reply r _ =>
        e.run.1 = match Service.readArtifact e.settings url r with
          | .error failure => .failure failure
          | .ok bytes => Service.conclude reply bytes := by
  obtain ⟨inTime, run⟩ := run_of_missing lacks.accepted lacks.module
  obtain ⟨outcome, spent, fetching, told⟩ := e.afterPost.timedFetch_run .get url none inTime
  have fetch : Service.fetchArtifact (m := StateM Remote) e.settings
      (e.settings.timeout - moment) e.afterPost =
        ((outcome.mapError (Service.fetchFailure e.settings url)).bind
          (Service.readArtifact e.settings url), e.afterFetch url) := by
    unfold Service.fetchArtifact Net.fetch
    rw [lacks.source]
    simp only [bind, StateT.bind, fetching]
    cases outcome <;> rfl
  rw [fetch] at run
  have told : (e.fetched url moment).Tells e.settings.timeout outcome (moment + spent) := told
  cases heard : e.fetched url moment with
  | nothing =>
    rw [heard] at told
    cases told
    rw [run]
    exact ⟨rfl, rfl⟩
  | trouble | givenUp =>
    rw [heard] at told
    obtain ⟨message, rfl⟩ := told
    rw [run]
    exact ⟨rfl, _, rfl⟩
  | reply r later =>
    have read : ((.ok r : Except Net.Trouble Net.Reply).mapError
        (Service.fetchFailure e.settings url)).bind (Service.readArtifact e.settings url) =
      Service.readArtifact e.settings url r := rfl
    rw [heard] at told
    rw [run, told.1, read]
    simp only
    cases Service.readArtifact e.settings url r with
    | error failure => exact ⟨rfl, rfl⟩
    | ok bytes => exact ⟨rfl, rfl⟩

/-! ## The module -/

theorem run_of_obtains {reply : Reply} {bytes : Bytes} (obtained : e.Obtains reply bytes) :
    e.run.1 = Service.conclude reply bytes := by
  cases obtained with
  | enclosed accepted module => rw [run_of_enclosed accepted module]
  | fetched lacks heard status whole =>
    have run := (run_of_lacks lacks).2
    rw [heard] at run
    rw [run, readArtifact_whole status whole]

/-! ## Causes -/

theorem run_of_delivers {x : Success} {reply : Reply} (delivers : e.Delivers x reply) :
    e.run.1 = .success x := by
  rw [run_of_obtains delivers.obtained, conclude_of_header delivers.output delivers.warnings]

theorem run_of_fails {kind : FailureKind} (fails : e.Fails kind) :
    e.run.1.failureKind? = some kind := by
  cases fails with
  | unanswered heard => rw [run_of_nothing heard]; rfl
  | unsent heard =>
    obtain ⟨message, run⟩ := run_of_trouble heard
    rw [run]; rfl
  | givenUp heard =>
    obtain ⟨message, run⟩ := run_of_givenUp heard
    rw [run]; rfl
  | cutShort heard cut =>
    obtain ⟨message, refused⟩ := readReply_cutShort cut
    rw [run_of_refused heard refused]; rfl
  | timedOut heard waited =>
    obtain ⟨message, refused⟩ := readReply_timedOut waited
    rw [run_of_refused heard refused]; rfl
  | undecodable heard whole faulty =>
    obtain ⟨message, refused⟩ := readReply_undecodable whole faulty
    rw [run_of_refused heard refused]; rfl
  | refused brought refusal =>
    rw [run_of_refused brought.heard (readReply_refused brought.decoded refusal)]; rfl
  | badStatus brought success status =>
    obtain ⟨message, refused⟩ := readReply_badStatus brought.decoded success status
    rw [run_of_refused brought.heard refused]; rfl
  | noSource accepted module source =>
    obtain ⟨message, run⟩ := run_of_noSource accepted module source
    rw [run]; rfl
  | moduleUnanswered lacks heard =>
    have run := (run_of_lacks lacks).2
    rw [heard] at run
    rw [run]; rfl
  | moduleUnsent lacks heard =>
    have run := (run_of_lacks lacks).2
    rcases heard with heard | heard
    all_goals
      rw [heard] at run
      obtain ⟨message, run⟩ := run
      rw [run]; rfl
  | moduleBadStatus lacks heard status =>
    have run := (run_of_lacks lacks).2
    obtain ⟨message, refused⟩ := readArtifact_badStatus status
    rw [heard] at run
    rw [run, refused]; rfl
  | moduleBroken lacks heard broken =>
    have run := (run_of_lacks lacks).2
    obtain ⟨message, refused⟩ := readArtifact_broken broken
    rw [heard] at run
    rw [run, refused]; rfl
  | badHeader obtained header =>
    obtain ⟨message, faulty⟩ := conclude_badHeader header
    rw [run_of_obtains obtained, faulty]; rfl

/-- A module is delivered, or there is a cause not to. -/
def Settled (e : Errand) : Prop := (∃ x reply, e.Delivers x reply) ∨ ∃ kind, e.Fails kind

theorem settled_of_obtains {reply : Reply} {bytes : Bytes} (obtained : e.Obtains reply bytes) :
    e.Settled := by
  by_cases header : HasHeader bytes
  · exact .inl ⟨⟨⟨bytes, fault?_eq_none_iff.mpr header⟩, _, _⟩, reply, obtained, rfl, rfl⟩
  · exact .inr ⟨_, .badHeader obtained header⟩

theorem settled_of_lacks {reply : Reply} {moment : Nat} {url : String}
    (lacks : e.Lacks reply moment url) : e.Settled := by
  cases heard : e.fetched url moment with
  | nothing => exact .inr ⟨_, .moduleUnanswered lacks heard⟩
  | trouble => exact .inr ⟨_, .moduleUnsent lacks (.inl heard)⟩
  | givenUp => exact .inr ⟨_, .moduleUnsent lacks (.inr heard)⟩
  | reply r later =>
    cases status : r.isSuccess with
    | false => exact .inr ⟨_, .moduleBadStatus lacks heard status⟩
    | true =>
      cases ending : r.ending with
      | cutShort | timedOut => exact .inr ⟨_, .moduleBroken lacks heard (by rw [ending]; decide)⟩
      | whole =>
        have bytes : r.bytes = .ok r.body := by rw [Net.Reply.bytes, ending]
        exact settled_of_obtains (.fetched lacks heard status bytes)

theorem settled (e : Errand) : e.Settled := by
  cases heard : e.posted with
  | nothing => exact .inr ⟨_, .unanswered heard⟩
  | trouble => exact .inr ⟨_, .unsent heard⟩
  | givenUp => exact .inr ⟨_, .givenUp heard⟩
  | reply r moment =>
    cases ending : r.ending with
    | cutShort => exact .inr ⟨_, .cutShort heard ending⟩
    | timedOut => exact .inr ⟨_, .timedOut heard ending⟩
    | whole =>
      have whole := text_whole ending
      cases read : Reply.ofJson (Net.textOf r.contentType r.body) with
      | error fault => exact .inr ⟨_, .undecodable heard whole read⟩
      | ok reply =>
        have brought : e.Brings r moment reply := ⟨heard, _, whole, read⟩
        cases success : reply.success with
        | false => exact .inr ⟨_, .refused brought success⟩
        | true =>
          cases status : r.isSuccess with
          | false => exact .inr ⟨_, .badStatus brought success status⟩
          | true =>
            have accepted : e.Accepts reply moment := ⟨⟨r, brought, status⟩, success⟩
            cases module : reply.module with
            | some bytes => exact settled_of_obtains (.enclosed accepted module)
            | none =>
              cases source : e.settings.artifactUrl with
              | none => exact .inr ⟨_, .noSource accepted module source⟩
              | some url =>
                exact settled_of_lacks (e := e) ⟨accepted, module, source⟩

/-! ## Results -/

theorem caused (e : Errand) :
    e.run.1.CausedBy (fun x => ∃ reply, e.Delivers x reply) e.Fails where
  of_delivers _ := fun ⟨_, delivers⟩ => run_of_delivers delivers
  of_fails _ := run_of_fails
  settled := e.settled

theorem isSuccess_run_iff :
    e.run.1.isSuccess = true ↔ ∃ reply bytes, e.Obtains reply bytes ∧ HasHeader bytes := by
  rw [e.caused.isSuccess_iff]
  constructor
  · rintro ⟨x, reply, delivers⟩
    exact ⟨reply, _, delivers.obtained, fault?_eq_none_iff.mp x.artifact.fault?_eq_none⟩
  · rintro ⟨reply, bytes, obtained, header⟩
    exact ⟨⟨⟨bytes, fault?_eq_none_iff.mpr header⟩, _, _⟩, reply, obtained, rfl, rfl⟩

/-! ## Requests -/

/-- A request for the module is sent if a reply lacks it, and otherwise not. -/
theorem run_sends (e : Errand) :
    (∃ reply moment url, e.Lacks reply moment url ∧ e.run.2 = e.afterFetch url) ∨
      (∀ reply moment url, ¬ e.Lacks reply moment url) ∧ e.run.2 = e.afterPost := by
  by_cases lacking : ∃ reply moment url, e.Lacks reply moment url
  · obtain ⟨reply, moment, url, lacks⟩ := lacking
    exact .inl ⟨reply, moment, url, lacks, (run_of_lacks lacks).1⟩
  · have nowhere : ∀ reply moment url, ¬ e.Lacks reply moment url := by simpa using lacking
    refine .inr ⟨nowhere, ?_⟩
    cases heard : e.posted with
    | nothing => rw [run_of_nothing heard]
    | trouble =>
      obtain ⟨message, run⟩ := run_of_trouble heard
      rw [run]
    | givenUp =>
      obtain ⟨message, run⟩ := run_of_givenUp heard
      rw [run]
    | reply r moment =>
      cases read : Service.readReply e.settings r with
      | error failure => rw [run_of_refused heard read]
      | ok reply =>
        obtain ⟨decoded, success, status⟩ := readReply_eq_ok read
        have accepted : e.Accepts reply moment := ⟨⟨r, ⟨heard, decoded⟩, status⟩, success⟩
        cases module : reply.module with
        | some bytes => rw [run_of_enclosed accepted module]
        | none =>
          cases source : e.settings.artifactUrl with
          | some url => exact (nowhere reply moment url ⟨accepted, module, source⟩).elim
          | none =>
            obtain ⟨message, run⟩ := run_of_noSource accepted module source
            rw [run]

theorem Lacks.unique {reply reply' : Reply} {moment moment' : Nat} {url url' : String}
    (lacks : e.Lacks reply moment url) (lacks' : e.Lacks reply' moment' url') : url = url' :=
  Option.some.inj (lacks.source.symm.trans lacks'.source)

/-- After the request to compile comes at most one more, for a module that a reply lacks. -/
theorem requests_run (e : Errand) :
    ∃ fetches : List Net.Request,
      e.run.2.requests = e.remote.requests ++
        (requestFor? .post e.settings.endpoint e.body).toList ++ fetches ∧
      fetches.length ≤ 1 ∧
      ∀ fetch, fetch ∈ fetches ↔
        ∃ reply moment url, e.Lacks reply moment url ∧ requestFor? .get url none = some fetch := by
  rcases e.run_sends with ⟨reply, moment, url, lacks, run⟩ | ⟨nowhere, run⟩
  · refine ⟨(requestFor? .get url none).toList, by rw [run]; rfl, ?_, fun fetch => ?_⟩
    · cases requestFor? .get url none <;> simp
    · rw [Option.mem_toList]
      refine ⟨fun sent => ⟨reply, moment, url, lacks, sent⟩, ?_⟩
      rintro ⟨_, _, other, lacks', sent⟩
      rw [lacks.unique lacks']
      exact sent
  · refine ⟨[], by rw [run, List.append_nil]; rfl, Nat.zero_le 1, fun fetch => ?_⟩
    refine ⟨fun sent => absurd sent List.not_mem_nil, ?_⟩
    rintro ⟨reply, moment, url, lacks, -⟩
    exact (nowhere reply moment url lacks).elim

/-! ## The whole exchange -/

end Errand

end LiveSound.Compile
