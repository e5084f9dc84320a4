import LiveSound.Proofs.Compile.Reading
import LiveSound.Proofs.Compile.Replies
import LiveSound.Proofs.Text.Utf8
import LiveSound.World.Model

/-!
# Results passed on by a service

A service that answers with the text of a result, and has the module of a success where modules
are fetched, passes the result on: who compiles with the service gets the result itself, and of a
failure it is only the kind that may be another one (`relayed_results_come_back`).
-/

namespace LiveSound

namespace Net

/-- A text that begins with an ASCII character is not taken for one with a byte order mark. -/
theorem textOf_encode {contentType : Option String} {text : String}
    (charset : Charset.ofContentType contentType = .utf8) {c : Char} {cs : List Char}
    (start : text.toList = c :: cs) (ascii : c.toNat < 0x80) :
    textOf contentType (Utf8.encode text) = text := by
  have bytes : Utf8.encode text = UInt8.ofNat c.toNat :: Utf8.encodeChars cs := by
    have one : String.utf8EncodeChar c = [UInt8.ofNat c.toNat] := by
      rw [String.utf8EncodeChar, if_pos (show c.val.toNat ≤ 0x7f by exact Nat.le_of_lt_succ ascii)]
      rfl
    rw [Utf8.encode, start, Utf8.encodeChars, one, List.singleton_append]
  have low : (UInt8.ofNat c.toNat).toNat = c.toNat := Utf8.toNat_ofNat (by omega)
  have decoded : (Charset.ofContentType contentType).decode (Utf8.encode text) = text := by
    rw [charset, Charset.decode, Utf8.lossy_encode]
  have plain {b : UInt8} (hb : 0x80 ≤ b.toNat) : UInt8.ofNat c.toNat ≠ b := by
    rintro rfl
    omega
  rw [bytes] at decoded ⊢
  unfold textOf
  split
  case h_1 heq => exact (plain (by decide) (List.cons.inj heq).1).elim
  case h_2 heq => exact (plain (by decide) (List.cons.inj heq).1).elim
  case h_3 heq => exact (plain (by decide) (List.cons.inj heq).1).elim
  case h_4 => exact decoded

theorem timedFetch_of_answered {w : World} {method : Method} {url : String} {u : Url}
    {body : Option String} {r : Reply} (parsed : Url.parse url = .ok u)
    (answered : w.network w.requests ⟨method, u, body⟩ = .answered r) (timeout : Nat) :
    timedFetch (m := StateM World) method url body timeout w =
      ((.ok r, 0), { w with requests := w.requests ++ [⟨method, u, body⟩] }) := by
  unfold timedFetch
  rw [parsed]
  simp only [bind, StateT.bind, Network.exchange, answered]
  rfl

theorem fetch_of_answered {w : World} {method : Method} {url : String} {u : Url}
    {body : Option String} {r : Reply} (parsed : Url.parse url = .ok u)
    (answered : w.network w.requests ⟨method, u, body⟩ = .answered r) (timeout : Nat) :
    fetch (m := StateM World) method url body timeout w =
      (.ok r, { w with requests := w.requests ++ [⟨method, u, body⟩] }) := by
  unfold fetch
  simp only [bind, StateT.bind, timedFetch_of_answered parsed answered]
  rfl

end Net

namespace Compile

/-- What comes of a result that is passed on: every failure is one of compiling. -/
def Result.relayed : Result → Result
  | .success s => .success s
  | .failure f => .failure { f with kind := .compile }

/-- The text of a result is an object, and its bytes are read as the text. -/
theorem Result.text_toReply (r : Result) (status : Nat) {contentType : Option String}
    (charset : Net.Charset.ofContentType contentType = .utf8) :
    Net.Reply.text ⟨status, contentType, Utf8.encode r.toReply.toJson, .whole⟩ =
      .ok r.toReply.toJson := by
  have start : ∃ cs, r.toReply.toJson.toList = '\x7b' :: cs := by
    rw [Reply.toJson, Reply.toData_eq, Json.write, String.toList_ofList, Json.writeChars]
    exact ⟨_, rfl⟩
  obtain ⟨cs, start⟩ := start
  rw [Service.text_whole rfl, Net.textOf_encode charset start (by decide)]

namespace Service

variable {w : World} {s : ServiceSettings} {request : Request}

/-- After these requests, the module can be fetched from where modules are. -/
def HasModule (w : World) (s : ServiceSettings) (past : List Net.Request) (m : Module) : Prop :=
  ∃ url u answer, s.artifactUrl = some url ∧ Net.Url.parse url = .ok u ∧
    w.network past ⟨.get, u, none⟩ = .answered answer ∧ answer.isSuccess = true ∧
    answer.bytes = .ok m.bytes

theorem fetchArtifact_of_hasModule {m : Module} (there : HasModule w s w.requests m)
    (left : Nat) : ∃ w', fetchArtifact (m := StateM World) s left w = (.ok m.bytes, w') := by
  obtain ⟨url, u, answer, place, parsed, answered, success, bytes⟩ := there
  have fetched := Net.fetch_of_answered parsed answered left
  have read : readArtifact s url answer = .ok m.bytes := readArtifact_whole success bytes
  unfold fetchArtifact
  rw [place]
  simp only [bind, StateT.bind, fetched, read]
  exact ⟨_, rfl⟩

theorem ofJson_toReply (r : Result) : Reply.ofJson r.toReply.toJson = .ok r.toReply := by
  generalize r.toReply = reply
  rw [Reply.ofJson, Reply.readRecord_toJson]

/-- The text of a success is taken for one, with any status of success. -/
theorem readReply_success {answer : Net.Reply} {x : Success}
    (text : answer.text = .ok (Result.success x).toReply.toJson)
    (status : answer.isSuccess = true) :
    readReply s answer = .ok (Result.success x).toReply :=
  readReply_accepted ⟨_, text, ofJson_toReply _⟩ rfl status

/-- The text of a failure is taken for a refusal, whatever the status. -/
theorem readReply_failure {answer : Net.Reply} {f : Failure}
    (text : answer.text = .ok (Result.failure f).toReply.toJson) :
    readReply s answer = .error { f with kind := .compile } :=
  readReply_refused ⟨_, text, ofJson_toReply _⟩ rfl

/-- The output and the warnings of a reply are those of the result, and so is the module. -/
theorem conclude_toReply (x : Success) :
    conclude (Result.success x).toReply x.artifact.bytes = .success x :=
  conclude_of_header rfl rfl

/-- Whoever compiles with a service that answers with the text of a result gets that result; only
the kind of a failure may be another one. A failure may come with any status. -/
theorem relayed_results_come_back {endpoint : Net.Url} {answer : Net.Reply} {r : Result}
    (parsed : Net.Url.parse s.endpoint = .ok endpoint)
    (answered : w.network w.requests ⟨.post, endpoint, some (Json.write request.toData)⟩ =
      .answered answer)
    (text : answer.text = .ok r.toReply.toJson)
    (status : r.isSuccess = true → answer.isSuccess = true)
    (artifact : ∀ x, r = .success x → HasModule w s
      (w.requests ++ [⟨.post, endpoint, some (Json.write request.toData)⟩]) x.artifact) :
    (compile (m := StateM World) s request w).1 = r.relayed := by
  have posted := Net.timedFetch_of_answered parsed answered s.timeout
  unfold compile
  cases r with
  | failure f =>
    simp only [bind, StateT.bind, posted, readReply_failure text]
    rfl
  | success x =>
    obtain ⟨w', fetched⟩ :=
      fetchArtifact_of_hasModule (w := { w with requests := _ }) (artifact x rfl) (s.timeout - 0)
    have missing : (Result.success x).toReply.module = none := rfl
    simp only [bind, StateT.bind, posted, readReply_success text (status rfl), missing, fetched,
      conclude_toReply]
    rfl

/-- A service that answers every POST with the text of one result, and has one module. -/
def relaying (r : Result) (status : Nat) (bytes : Bytes) : World where
  files := .empty
  directory := []
  cache := "/cache"
  network _ request := match request.method with
    | .post => .answered
        ⟨status, some "application/json", Utf8.encode r.toReply.toJson, .whole⟩
    | .get => .answered ⟨200, none, bytes, .whole⟩
  requests := []
  unpacker _ _ _ _ files := (false, files)
  program _ _ _ := .notStarted .notFound
  runs := []
  printed := ""
  hasDevice := false

/-- A success with status 200 and a timeout with status 504. -/
theorem relayed_success_and_timeout :
    let s : ServiceSettings := ⟨"http://a/c", some "http://a/m", 1000⟩
    let m : Module := ⟨[0x00, 0x61, 0x73, 0x6d, 0x01, 0x00, 0x00, 0x00], rfl⟩
    let x : Success := ⟨m, "done", ["unused \"x\"", ""]⟩
    let f : Failure := ⟨.timeout, "späte Antwort", ["1", ""], some "", none⟩
    (compile (m := StateM World) s ⟨"", .default⟩ (relaying (.success x) 200 m.bytes)).1 =
        .success x ∧
      (compile (m := StateM World) s ⟨"", .default⟩ (relaying (.failure f) 504 [])).1 =
        .failure { f with kind := .compile } := by
  intro s m x f
  have post : Net.Url.parse s.endpoint = .ok ⟨"http", "a", none, "/c", none, none⟩ := by decide
  have get : Net.Url.parse "http://a/m" = .ok ⟨"http", "a", none, "/m", none, none⟩ := by decide
  have charset : Net.Charset.ofContentType (some "application/json") = .utf8 := by decide
  have answered (r : Result) (status : Nat) (bytes : Bytes) (u : Net.Url) (body : String) :
      (relaying r status bytes).network [] ⟨.post, u, some body⟩ = .answered
        ⟨status, some "application/json", Utf8.encode r.toReply.toJson, .whole⟩ := rfl
  constructor
  · refine relayed_results_come_back post (answered (.success x) 200 m.bytes _ _)
      (Result.text_toReply (.success x) 200 charset) (fun _ => rfl) fun y same => ?_
    cases same
    exact ⟨_, _, _, rfl, get, rfl, rfl, rfl⟩
  · exact relayed_results_come_back post (answered (.failure f) 504 [] _ _)
      (Result.text_toReply (.failure f) 504 charset) nofun nofun

end Service

end Compile

end LiveSound
