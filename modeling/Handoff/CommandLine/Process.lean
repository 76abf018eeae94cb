import Handoff.CommandLine.Arguments
import Handoff.Kernel
import Handoff.Pair

/-!
What a process does with its arguments: which exchange it runs, what it prints and how it exits.
-/
namespace Handoff.CommandLine

/-- How a command comes to an end on a machine; `none` while it waits. -/
def Command.exit? (m : Kernel.Machine) : Command → Option (Exit Outcome)
  | .serve c =>
    (Server.run Kernel.Machine.transport c m).map fun p => p.1.map (Except.map Report.server)
  | .send c =>
    (Client.run Kernel.Machine.transport c m).map fun p => .returned (p.1.map Report.client)
  | .pair cid port payload => (Pair.run cid port payload).map .returned

inductive Ending where
  /-- Help is printed. -/
  | help
  /-- The arguments are wrong. -/
  | usage
  | done (status : UInt8) (stdout : String)
  /-- The exchange waits for a peer. -/
  | waiting
  deriving DecidableEq, Repr

def usageStatus : UInt8 := 2

/-- The exit status of a process whose exchange has panicked. -/
def panicStatus : UInt8 := 1

def run (m : Kernel.Machine) (args : List String) : Ending :=
  match parse args with
  | .help => .help
  | .refused => .usage
  | .run i =>
    match i.command.exit? m with
    | none => .waiting
    | some (.returned o) => .done (exitStatus o) (if i.json then outcomeLine o else "")
    | some .panicked => .done panicStatus ""

end Handoff.CommandLine
