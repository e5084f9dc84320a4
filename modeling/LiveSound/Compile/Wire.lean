import LiveSound.Compile.Result
import LiveSound.Json.Record
import LiveSound.Json.Writer
import LiveSound.Text.Base64
import LiveSound.Text.Blank

/-!
# Replies of compile services

`Reply` is the body of a compile service's answer. Warnings and details may be one text or a list;
the module may be base64 text or a list of bytes. Writing leaves out what is absent or empty and
gives the module as a list of bytes.
-/

namespace LiveSound.Compile

structure Reply where
  success : Bool
  output : Option String
  warnings : List String
  module : Option Bytes
  error : Option String
  details : List String
  stdout : Option String
  stderr : Option String
  deriving DecidableEq, Repr

/-- Why a text is no reply. -/
inductive ReplyFault where
  | notTexts
  | notBytes
  | badBase64
  | byteRange
  /-- Any other fault: of the JSON text, or a value of the wrong type. -/
  | malformed
  deriving DecidableEq, Repr

def ReplyFault.message? : ReplyFault → Option String
  | .notTexts => some "expected a string or an array of strings"
  | .notBytes => some "expected a base64 string or a byte array"
  | .badBase64 => some "invalid base64 module"
  | .byteRange => some "module bytes must be 0..=255"
  | .malformed => none

namespace Reply

/-- One text or a list; what is no text in a list counts with its JSON text. An empty text is
the empty list. -/
def readTexts (d : Data) : Except ReplyFault (List String) :=
  if !d.isReadable then .error .malformed
  else
    match d with
    | .null => .ok []
    | .text s => .ok (if s.isEmpty then [] else [s])
    | .list items =>
      .ok (items.map fun item => match item with
        | .text s => s
        | other => Json.write other.sorted)
    | _ => .error .notTexts

def readByte : Data → Except ReplyFault UInt8
  | .integer n => if 0 ≤ n ∧ n ≤ 255 then .ok (UInt8.ofNat n.toNat) else .error .byteRange
  | _ => .error .byteRange

/-- Base64 text, with white space around it, or a list of bytes. -/
def readModule (d : Data) : Except ReplyFault (Option Bytes) :=
  if !d.isReadable then .error .malformed
  else
    match d with
    | .null => .ok none
    | .text s =>
      if s.isEmpty then .ok none
      else
        match Base64.decode? (Text.trim s) with
        | some bytes => .ok (some bytes)
        | none => .error .badBase64
    | .list items => (items.mapM readByte).map some
    | _ => .error .notBytes

def readOptional (d : Data) : Except ReplyFault (Option String) :=
  match d.asOptional? Data.asText? with
  | some text => .ok text
  | none => .error .malformed

/-- A reply in which `success` may not have been seen yet. -/
structure Draft where
  success : Option Bool
  reply : Reply

def Draft.empty : Draft := ⟨none, ⟨false, none, [], none, none, [], none, none⟩⟩

def put {α : Type} (read : Data → Except ReplyFault α) (set : α → Reply → Reply)
    (d : Data) (draft : Draft) : Except ReplyFault Draft :=
  (read d).map fun a => { draft with reply := set a draft.reply }

def fields : List (Field ReplyFault Draft) :=
  [⟨"success", fun d draft => match d with
      | .bool b => .ok { draft with success := some b }
      | _ => .error .malformed⟩,
   ⟨"output", put readOptional fun s r => { r with output := s }⟩,
   ⟨"warnings", put readTexts fun l r => { r with warnings := l }⟩,
   ⟨"wasm", put readModule fun b r => { r with module := b }⟩,
   ⟨"error", put readOptional fun s r => { r with error := s }⟩,
   ⟨"errorDetails", put readTexts fun l r => { r with details := l }⟩,
   ⟨"stdout", put readOptional fun s r => { r with stdout := s }⟩,
   ⟨"stderr", put readOptional fun s r => { r with stderr := s }⟩]

def ofJson (text : String) : Except ReplyFault Reply :=
  match Json.readRecord fields .malformed Draft.empty text with
  | .ok ⟨some success, reply⟩ => .ok { reply with success := success }
  | .ok ⟨none, _⟩ => .error .malformed
  | .error fault => .error fault

def optional {α : Type} (name : String) (write : α → Data) :
    Option α → List (String × Data)
  | some a => [(name, write a)]
  | none => []

def texts (name : String) : List String → List (String × Data)
  | [] => []
  | items => [(name, .list (items.map .text))]

def toData (r : Reply) : Data :=
  .record <|
    ("success", .bool r.success) :: optional "output" .text r.output ++
    texts "warnings" r.warnings ++
    optional "wasm" (fun bytes => .list (bytes.map fun b => .integer b.toNat)) r.module ++
    optional "error" .text r.error ++ texts "errorDetails" r.details ++
    optional "stdout" .text r.stdout ++ optional "stderr" .text r.stderr

def toJson (r : Reply) : String := Json.write r.toData

end Reply

def Result.toReply : Result → Reply
  | .success s => ⟨true, some s.output, s.warnings, none, none, [], none, none⟩
  | .failure f => ⟨false, none, [], none, some f.error, f.details, f.stdout, f.stderr⟩

end LiveSound.Compile
