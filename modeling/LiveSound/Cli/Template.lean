/-!
# The first source

What a new project plays: a soft tone.
-/

namespace LiveSound.Cli

def templateLines : List String :=
  ["#ifndef USER_H",
   "#define USER_H",
   "",
   "/*",
   "NOTE: SAMPLE_RATE, BUFFER_SIZE, and CHANNELS macros come pre-defined",
   "*/",
   "",
   "static float phase = 0.f;",
   "static float frequency = 220.f;",
   "",
   "// init function, called once before the first sample",
   "void init() \x7b",
   "  std::cout << \"Init called!\" << std::endl;",
   "\x7d",
   "",
   "// Per-sample audio callback",
   "// This function must be defined, or compilation will fail!",
   "float nextSample() \x7b",
   "  phase += frequency / SAMPLE_RATE;",
   "  if (phase >= 1.f) \x7b",
   "    phase -= 1.f;",
   "  \x7d",
   "  return 0.2f * std::sin(2.f * 3.14159265f * phase);",
   "\x7d",
   "",
   "#endif"]

def template : String := String.join (templateLines.map (· ++ "\n"))

end LiveSound.Cli
