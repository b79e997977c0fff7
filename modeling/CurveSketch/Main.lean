import CurveSketch.CommandLine.Commands

/-!
# CurveSketch.Main

The program. Documents go to standard output; a refusal goes to standard error and sets the exit
code: 2 where the command line is not understood, 1 where the command is refused.
-/

namespace CurveSketch
namespace CommandLine

def synopsis : String :=
  "usage: curvesketch [-h] [--lex-mode strict|lenient] compile|evaluate|sample EXPRESSION ..."

def report : Result → IO UInt32
  | .document v => do
    IO.print (Result.document v).output
    return 0
  | .help => do
    IO.println synopsis
    return 0
  | .misused message => do
    IO.eprintln synopsis
    IO.eprintln s!"curvesketch: error: {message}"
    return 2
  | .failed message => do
    IO.eprintln s!"error: {message}"
    return 1
  | .overflow message => do
    IO.eprintln message
    return 1

end CommandLine
end CurveSketch

def main (arguments : List String) : IO UInt32 :=
  CurveSketch.CommandLine.report (CurveSketch.CommandLine.run arguments)
