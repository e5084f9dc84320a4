import LiveSound.Text.Blank
import LiveSound.Text.Hex
import LiveSound.Numeric.Decimal

/-!
# URLs

Absolute URLs, read as browsers read them: the scheme and the host in any case, the port left out
when it is the usual one, dots in the path resolved, and every other character that may not stand
in a URL percent-encoded. User names are dropped.
-/

namespace LiveSound.Net

structure Url where
  scheme : String
  host : String
  /-- Absent when it is the one that goes with the scheme. -/
  port : Option Nat
  path : String
  query : Option String
  fragment : Option String
  deriving DecidableEq, Repr

/-- Why a text cannot be fetched over HTTP. -/
inductive UrlFault where
  /-- It is no absolute URL. -/
  | malformed
  /-- It is a URL of another kind. -/
  | foreign (text : String)
  deriving DecidableEq, Repr

namespace Url

/-- What is asked of the host: path and query. -/
def target (u : Url) : String :=
  u.path ++ match u.query with
    | some q => "?" ++ q
    | none => ""

/-- The host, with the port if it is given. -/
def authority (u : Url) : String :=
  u.host ++ match u.port with
    | some n => ":" ++ String.ofList (digitsOf n)
    | none => ""

def text (u : Url) : String :=
  let fragment := match u.fragment with
    | some f => "#" ++ f
    | none => ""
  u.scheme ++ "://" ++ u.authority ++ u.target ++ fragment

/-! ## Percent encoding -/

def percent (b : UInt8) : List Char :=
  let digit (n : Nat) : Char := (hexDigit n).toUpper
  ['%', digit (b.toNat / 16), digit (b.toNat % 16)]

/-- Encodes the characters of `reserved`, controls, and all that is not ASCII. -/
def encodeChars (reserved : List Char) (cs : List Char) : List Char :=
  cs.flatMap fun c =>
    if c.toNat < 0x20 ∨ 0x7F ≤ c.toNat ∨ reserved.contains c then
      (String.utf8EncodeChar c).flatMap percent
    else [c]

def inFragment : List Char := [' ', '"', '<', '>', '\x60']

def inPath : List Char := inFragment ++ ['#', '?', '\x7b', '\x7d']

def inQuery : List Char := [' ', '"', '#', '<', '>', '\'']

/-! ## Paths -/

def isSlash (c : Char) : Bool := c == '/' || c == '\\'

/-- The pieces between slashes; there is always at least one. -/
def segments : List Char → List (List Char)
  | [] => [[]]
  | c :: cs =>
    if isSlash c then [] :: segments cs
    else
      match segments cs with
      | s :: rest => (c :: s) :: rest
      | [] => [[c]]

/-- A dot, plain or encoded, is counted; anything else is no dots. -/
def dots? : List Char → Option Nat
  | [] => some 0
  | '.' :: cs => (dots? cs).map (· + 1)
  | '%' :: '2' :: 'e' :: cs => (dots? cs).map (· + 1)
  | '%' :: '2' :: 'E' :: cs => (dots? cs).map (· + 1)
  | _ :: _ => none

/-- Resolves `.` and `..`; `done` holds the segments so far, the last first. -/
def resolve : List (List Char) → List (List Char) → List (List Char)
  | done, [] => done.reverse
  | done, s :: rest =>
    let last := rest.isEmpty
    match dots? s with
    | some 1 => resolve (if last then [] :: done else done) rest
    | some 2 => resolve (if last then [] :: done.tail else done.tail) rest
    | _ => resolve (encodeChars inPath s :: done) rest

def pathText (cs : List Char) : String :=
  let relative := match cs with
    | c :: rest => if isSlash c then rest else cs
    | [] => []
  String.join ((resolve [] (segments relative)).map fun s => "/" ++ String.ofList s)

/-! ## Hosts -/

def inNoHost (c : Char) : Bool :=
  c.toNat ≤ 0x20 || c.toNat == 0x7F || "#/:<>?@[\\]^|%".toList.contains c

def host? (cs : List Char) : Option String :=
  if cs.isEmpty then none
  else if cs.head? = some '[' then
    if cs.getLast? = some ']' then some (String.ofList (cs.map Char.toLower)) else none
  else if cs.any inNoHost then none
  else some (String.ofList (cs.map Char.toLower))

def usualPort? (scheme : String) : Option Nat :=
  match scheme with
  | "http" => some 80
  | "ws" => some 80
  | "https" => some 443
  | "wss" => some 443
  | "ftp" => some 21
  | _ => none

/-- The port after the colon, if it is not the usual one. -/
def port? (scheme : String) (cs : List Char) : Option (Option Nat) :=
  if cs.isEmpty then some none
  else if cs.all Char.isDigit then
    let n := cs.foldl (fun n c => n * 10 + (c.toNat - '0'.toNat)) 0
    if 65536 ≤ n then none else some (if usualPort? scheme = some n then none else some n)
  else none

/-- Splits before the first colon outside brackets. -/
def splitPort : Bool → List Char → List Char × List Char
  | _, [] => ([], [])
  | bracket, c :: cs =>
    if c = ':' ∧ bracket = false then ([], cs)
    else
      let bracket := if c = '[' then true else if c = ']' then false else bracket
      let (host, port) := splitPort bracket cs
      (c :: host, port)

/-! ## Reading -/

def isEndOfHost (c : Char) : Bool := isSlash c || c == '?' || c == '#'

/-- What stands before and, if there is one, after the first `c`. -/
def splitAt (c : Char) (cs : List Char) : List Char × Option (List Char) :=
  match cs.dropWhile (· != c) with
  | _ :: rest => (cs.takeWhile (· != c), some rest)
  | [] => (cs, none)

/-- The rest of a URL whose scheme goes with a host. -/
def ofParts? (scheme : String) (cs : List Char) : Option Url := do
  let cs := cs.dropWhile isSlash
  let authority := cs.takeWhile (!isEndOfHost ·)
  let (hostText, portText) := splitPort false (authority.reverse.takeWhile (· != '@')).reverse
  let host ← host? hostText
  let port ← port? scheme portText
  let (cs, fragment) := splitAt '#' (cs.dropWhile (!isEndOfHost ·))
  let (path, query) := splitAt '?' cs
  return ⟨scheme, host, port, pathText path,
    query.map fun q => String.ofList (encodeChars inQuery q),
    fragment.map fun f => String.ofList (encodeChars inFragment f)⟩

def isSchemeChar (c : Char) : Bool := c.isAlphanum || c == '+' || c == '-' || c == '.'

/-- A URL that can be fetched over HTTP. -/
def parse (raw : String) : Except UrlFault Url :=
  let outer (c : Char) : Bool := c.toNat ≤ 0x20
  let cs := Text.dropWhileEnd outer (raw.toList.dropWhile outer)
  let cs := cs.filter fun c => c != '\t' && c != '\n' && c != '\r'
  let scheme := String.ofList ((cs.takeWhile isSchemeChar).map Char.toLower)
  match cs.head?, cs.dropWhile isSchemeChar with
  | some c, ':' :: rest =>
    if !c.isAlpha then .error .malformed
    else if (usualPort? scheme).isSome then
      match ofParts? scheme rest with
      | none => .error .malformed
      | some u => if scheme = "http" ∨ scheme = "https" then .ok u else .error (.foreign u.text)
    else .error (.foreign (scheme ++ ":" ++ String.ofList (encodeChars [] rest)))
  | _, _ => .error .malformed

end Url

end LiveSound.Net
