import HashTunnel.Config.Rc

/-! # The sample settings file

A settings file to begin with. It shows every kind of instruction and sets little that does not
hold anyway.
-/

namespace HashTunnel.Rc

def sampleLines : List String :=
  ["# ppshim configuration file (.ppshimrc)",
   "# Lines starting with # or \" are comments",
   "",
   "# External preprocessor and its arguments",
   "engine = cpp",
   "engine_args = -P -C -undef -nostdinc",
   "",
   "# Macros, one per line (NAME, NAME=value or NAME(x)=body)",
   "define = DEBUG=1",
   "# define = ASSERT(c)=assert(c, #c)",
   "",
   "# Include search paths, one per line",
   "include = .",
   "",
   "# Reject input that contains the reserved markers U+FFFE and U+FFFF",
   "set strict             # (or set nostrict to pass it through unchecked)",
   "",
   "# Announce the input file name with a leading `# 1 \"name\"` line",
   "set linemarkers        # (or set nolinemarkers for engines that lack them)"]

def sample : Text :=
  sampleLines.flatMap fun line => line.toList ++ ['\n']

-- The sample adds one macro and one include path to what holds anyway.
example : load Config.default sample =
      { Config.default with defines := ["DEBUG=1".toList], includePaths := [".".toList] } := by
  decide +kernel

end HashTunnel.Rc
