import LiveSound.Net.Exchange

/-!
# Messages

How a request and its reply are written on a connection. Each request has a connection to itself
that is closed after the reply, so a reply is all that comes until then. It may say how long its
body is, or bring it in chunks that say so each.
-/

namespace LiveSound.Net

/-! ## Requests -/

def Request.headLines (r : Request) : List String :=
  [s!"{r.method.name} {r.url.target} HTTP/1.1", s!"Host: {r.url.authority}", "Accept: */*",
    "Connection: close"] ++
  match r.body with
  | some text => ["Content-Type: application/json", s!"Content-Length: {text.utf8ByteSize}"]
  | none => []

def Request.message (r : Request) : Bytes :=
  Utf8.encode (String.join (r.headLines.map (· ++ "\r\n")) ++ "\r\n" ++ r.body.getD "")

/-! ## Replies -/

def splitLine : Bytes → Option (Bytes × Bytes)
  | 13 :: 10 :: rest => some ([], rest)
  | b :: rest => (splitLine rest).map fun (line, rest) => (b :: line, rest)
  | [] => none

/-- The lines before the first empty line, and what follows it; `fuel` bounds their number. -/
def splitHead : Nat → Bytes → Option (List Bytes × Bytes)
  | 0, _ => none
  | fuel + 1, bytes =>
    match splitLine bytes with
    | none => none
    | some ([], rest) => some ([], rest)
    | some (line, rest) => (splitHead fuel rest).map fun (lines, rest) => (line :: lines, rest)

/-- The name of a header in lower case, and its value. -/
def header? (line : String) : Option (String × String) :=
  match line.splitOn ":" with
  | name :: value@(_ :: _) =>
    some (Text.lowerAscii name, Text.trim (String.intercalate ":" value))
  | _ => none

def status? (line : String) : Option Nat :=
  match line.splitOn " " with
  | version :: code :: _ =>
    if version.startsWith "HTTP/" ∧ code.length = 3 then code.toNat? else none
  | _ => none

/-- The length of a chunk, which may be followed by more words. -/
def chunkLength? (line : Bytes) : Option Nat :=
  match (Utf8.lossy line).toList.map hexValue? |>.takeWhile Option.isSome with
  | [] => none
  | digits => some (digits.foldl (fun n d => n * 16 + d.getD 0) 0)

/-- What the chunks hold, and whether the last one is there; `fuel` bounds their number. -/
def chunks : Nat → Bytes → Bytes × Bool
  | 0, _ => ([], false)
  | fuel + 1, bytes =>
    match splitLine bytes with
    | none => ([], false)
    | some (line, rest) =>
      match chunkLength? line with
      | none => ([], false)
      | some 0 => ([], true)
      | some n =>
        if rest.length < n then (rest, false)
        else
          let (more, complete) := chunks fuel (rest.drop (n + 2))
          (rest.take n ++ more, complete)

/-- The body in what follows the head, and whether all of it came. -/
def bodyOf (headers : List (String × String)) (bytes : Bytes) : Bytes × Bool :=
  match headers.lookup "transfer-encoding", headers.lookup "content-length" with
  | some _, _ => chunks (bytes.length + 1) bytes
  | none, some length =>
    match length.toNat? with
    | some n => (bytes.take n, n ≤ bytes.length)
    | none => (bytes, true)
  | none, none => (bytes, true)

def Reply.ofMessage? (bytes : Bytes) : Option Reply := do
  let (lines, rest) ← splitHead (bytes.length + 1) bytes
  let first :: others := lines.map Utf8.lossy | none
  let status ← status? first
  let headers := others.filterMap header?
  let (body, complete) := if hasBody status then bodyOf headers rest else ([], true)
  return ⟨status, headers.lookup "content-type", body, if complete then .whole else .cutShort⟩

end LiveSound.Net
