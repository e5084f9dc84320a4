import LiveSound.Json.Record
import LiveSound.Json.Writer

/-!
# Compile requests

The options of a compile and their text form, which is the form compile services read.
-/

namespace LiveSound.Compile

structure Options where
  optimizationLevel : Nat
  sdlEnabled : Bool
  exportedFunctions : List String
  additionalFlags : List String
  deriving DecidableEq, Repr

def Options.default : Options :=
  ⟨2, false, ["hear_c_init", "hear_c_next_sample"], []⟩

instance : Inhabited Options := ⟨Options.default⟩

structure Request where
  source : String
  options : Options
  deriving DecidableEq, Repr

namespace Options

def texts (items : List String) : Data := .list (items.map .text)

/-- The members of the text form, in order. -/
def toMembers (o : Options) : List (String × Data) :=
  [("optimizationLevel", .integer o.optimizationLevel), ("sdlEnabled", .bool o.sdlEnabled),
   ("exportedFunctions", texts o.exportedFunctions),
   ("additionalFlags", texts o.additionalFlags)]

def toData (o : Options) : Data := .record o.toMembers

def put {α : Type} (read : Data → Option α) (set : α → Options → Options) (d : Data)
    (o : Options) : Except Unit Options :=
  match read d with
  | some a => .ok (set a o)
  | none => .error ()

def fields : List (Field Unit Options) :=
  [⟨"optimizationLevel", put (Data.asNat? 256) fun n o => { o with optimizationLevel := n }⟩,
   ⟨"sdlEnabled", put Data.asBool? fun b o => { o with sdlEnabled := b }⟩,
   ⟨"exportedFunctions", put Data.asTexts? fun l o => { o with exportedFunctions := l }⟩,
   ⟨"additionalFlags", put Data.asTexts? fun l o => { o with additionalFlags := l }⟩]

/-- Options that are not given have their default. -/
def ofJson? (text : String) : Option Options :=
  (Json.readRecord fields () default text).toOption

end Options

namespace Request

/-- The body that is posted to a compile service. Some services read the short names of the two
scalar options, some the long ones, so both are sent. -/
def toData (r : Request) : Data :=
  .record [("code", .text r.source),
    ("options", .record (r.options.toMembers ++
      [("optimization", .integer r.options.optimizationLevel),
       ("sdl", .bool r.options.sdlEnabled)]))]

end Request

end LiveSound.Compile
