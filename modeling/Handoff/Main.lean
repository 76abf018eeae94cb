import Handoff.CommandLine.Process

/-!
The command. It works on a machine that no peer can reach, so a server that gets as far as waiting
for one is taken as interrupted.
-/
namespace Handoff

def helpText : String :=
  "One-shot byte-stream exchange over virtual sockets\n\n"
    ++ "Usage: handoff [-d] [--json] <COMMAND>\n\n"
    ++ "Commands:\n"
    ++ "  serve  [--cid N] [-p, --port N] [--backlog N]   accept one connection and drain it\n"
    ++ "  send   [--cid N] [-p, --port N] [--payload S]   connect and send one payload\n"
    ++ "  pair   [--cid N] [-p, --port N] [--payload S]   run both ends in one process\n"
    ++ "  help   [COMMAND]                                print this text\n"

end Handoff

open Handoff in
def main (args : List String) : IO UInt32 := do
  match CommandLine.run Kernel.Machine.standalone args with
  | .help => IO.print helpText; return 0
  | .usage => IO.eprint helpText; return CommandLine.usageStatus.toUInt32
  | .done status stdout => IO.print stdout; return status.toUInt32
  | .waiting => return failureStatus.toUInt32
