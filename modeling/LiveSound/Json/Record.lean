import LiveSound.Data.Record
import LiveSound.Json.Reader

/-!
# Reading records from JSON text

`Json.readRecord` works through the members of a text in order, so of several faults the first
one counts: one of a field, or damage to the text, which counts where the text breaks off.
-/

namespace LiveSound.Json

def readRecord {ε σ : Type} (fields : List (Field ε σ)) (fault : ε) (start : σ) (text : String) :
    Except ε σ :=
  let finish (complete : Bool) (record : σ) : Except ε σ :=
    if complete then .ok record else .error fault
  match document text with
  | .record members complete =>
    (Field.readMembers fields fault [] start members).bind (finish complete)
  | .list items complete => (Field.readItems fault fields start items).bind (finish complete)
  | .other _ => .error fault
  | .broken => .error fault

end LiveSound.Json
