/-!
# The harness

The source that is compiled around the user's code. It includes `user.h` and gives the module its
entry points.
-/

namespace LiveSound.Compile

def harnessLines : List String :=
  ["// Wraps the user's audio code into the module ABI the processor expects:",
   "//   _start               prints a banner, then exits",
   "//   hear_c_init()        calls the user's init() once",
   "//   hear_c_next_sample() returns one mono sample",
   "",
   "#include <cmath>",
   "#include <cstdio>",
   "#include <iostream>",
   "#include <vector>",
   "",
   "#ifndef SAMPLE_RATE",
   "#define SAMPLE_RATE 44100",
   "#endif",
   "#ifndef BUFFER_SIZE",
   "#define BUFFER_SIZE 128",
   "#endif",
   "#ifndef CHANNELS",
   "#define CHANNELS 2",
   "#endif",
   "",
   "#include \"user.h\"",
   "",
   "extern \"C\" \x7b",
   "",
   "__attribute__((export_name(\"hear_c_init\")))",
   "void hear_c_init() \x7b",
   "  init();",
   "  std::cout.flush();",
   "\x7d",
   "",
   "__attribute__((export_name(\"hear_c_next_sample\")))",
   "float hear_c_next_sample() \x7b",
   "  return nextSample();",
   "\x7d",
   "",
   "\x7d",
   "",
   "int main() \x7b",
   "  std::cout << \"Hear-C module loaded (\" << SAMPLE_RATE << \" Hz)\" << std::endl;",
   "  return 0;",
   "\x7d"]

def harness : String := String.join (harnessLines.map (· ++ "\n"))

end LiveSound.Compile
