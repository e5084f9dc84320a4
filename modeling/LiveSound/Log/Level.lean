import LiveSound.Text.Utf8

/-!
# Log levels

Each level has a label, a symbol and a colour.
-/

namespace LiveSound.Log

inductive Level where
  | success
  | error
  | info
  | warning
  | watch
  | debug
  | print
  | action
  deriving DecidableEq, Repr

namespace Level

def label : Level → String
  | .success => "SUCCESS"
  | .error => "ERROR"
  | .info => "INFO"
  | .warning => "WARN"
  | .watch => "WATCH"
  | .debug => "DEBUG"
  | .print => "PRINT"
  | .action => "ACTION"

def symbol : Level → String
  | .success => "✅"
  | .error => "❌"
  | .info => "ℹ️ "
  | .warning => "⚠️"
  | .watch => "👀"
  | .debug => "🛠️"
  | .action => "🔊"
  | .print => ""

def sequence (codes : String) : String := "\x1b[" ++ codes ++ "m"

def rgb (red green blue : Nat) : String := sequence s!"38;2;{red};{green};{blue}"

def grey : String := sequence "38;5;7"

def bold : String := sequence "1"

def reset : String := sequence "0"

def colour : Level → String
  | .success => rgb 76 175 80
  | .error => rgb 244 67 54
  | .info => rgb 33 150 243
  | .warning => rgb 255 152 0
  | .watch => rgb 171 71 188
  | .debug => rgb 121 134 203
  | .action => rgb 0 188 212
  | .print => sequence "38;5;15"

/-- The name of the program, as it stands on every line. -/
def signature : String :=
  grey ++ "[" ++ rgb 255 112 67 ++ bold ++ "Hear-C" ++ reset ++ grey ++ "]" ++ reset

def status (level : Level) : String :=
  level.colour ++ bold ++ "[" ++ level.label ++ "]" ++ reset ++ reset

def line (level : Level) (message : String) : String :=
  level.symbol ++ " " ++ signature ++ " " ++ level.status ++ " " ++ message

def plainLine (level : Level) (message : String) : String :=
  "[Hear-C] [" ++ level.label ++ "] " ++ message

end Level

end LiveSound.Log
