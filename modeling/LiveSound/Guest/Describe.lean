import LiveSound.Guest.Bootstrap
import LiveSound.Text.Hex

/-!
# Describing an instance

One line for developers that tells what is known of an instance.
-/

namespace LiveSound.Guest

/-- A character inside quotes: quotes, backslashes and control characters are escaped. -/
def quoteChar (c : Char) : List Char :=
  if c = '"' then ['\\', '"']
  else if c = '\\' then ['\\', '\\']
  else if c = '\n' then ['\\', 'n']
  else if c = '\r' then ['\\', 'r']
  else if c = '\t' then ['\\', 't']
  else if c = '\x00' then ['\\', '0']
  else if c < ' ' ∨ c = '\x7f' then
    ['\\', 'u', '\x7b'] ++ Nat.toDigits 16 c.toNat ++ ['\x7d']
  else [c]

def quoted (s : String) : String := String.ofList ('"' :: (s.toList.flatMap quoteChar ++ ['"']))

def Startup.name : Startup → String
  | .skipped => "Skipped"
  | .completed => "Completed"
  | .exited => "Exited"
  | .warned message => "Warned(StartupWarning \x7b message: " ++ quoted message ++ " \x7d)"

def Instance.describe {μ σ : Type} (e : Engine μ σ) (i : Instance σ) : String :=
  "ExecutionInstance \x7b generation: " ++ toString i.generation ++
    ", startup: " ++ i.startup.name ++
    ", has_sample_entry: " ++ toString i.hasSampler ++
    ", memory_len: " ++ toString (i.memorySize e) ++ " \x7d"

end LiveSound.Guest
