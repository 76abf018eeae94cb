import Handoff.Address.Fields
import Handoff.Server
import Handoff.Client

/-!
What an exchange hands to the process that asked for it: a report of either end or of both, or a
failure, as one JSON object and as an exit status.
-/
namespace Handoff

inductive Report where
  | server (r : DrainReport)
  | client (r : SendReport)
  | pair (server : DrainReport) (client : SendReport)
  deriving DecidableEq, Repr

abbrev Outcome := Except Failure Report

def DrainReport.members (r : DrainReport) : List (String × Json) :=
  [("local", r.own.toJson), ("peer", r.peer.toJson), ("bytes_received", .count r.bytesReceived.toNat),
    ("reads", .count r.reads.toNat)]

def DrainReport.toJson (r : DrainReport) : Json := .object r.members

def SendReport.members (r : SendReport) : List (String × Json) :=
  [("local", .optional Descriptor.toJson r.own), ("remote", r.remote.toJson),
    ("bytes_sent", .count r.bytesSent)]

def SendReport.toJson (r : SendReport) : Json := .object r.members

/-- The report of one end has its role among its own members. -/
def Report.toJson : Report → Json
  | server r => .object (("role", .text "server") :: r.members)
  | client r => .object (("role", .text "client") :: r.members)
  | pair s c =>
    .object [("role", .text "pair"), ("server", s.toJson), ("client", c.toJson)]

def outcomeJson : Outcome → Json
  | .ok report => .object [("ok", .bool true), ("code", .number 0), ("report", report.toJson)]
  | .error f =>
    .object [("ok", .bool false), ("code", .number f.exitCode), ("step", .text f.step.name),
      ("error", .text f.message)]

/-- The exit status of every failed exchange. -/
def failureStatus : UInt8 := 255

def exitStatus : Outcome → UInt8
  | .ok _ => 0
  | .error _ => failureStatus

/-- The line printed for an outcome: compact, with the members of every object sorted. -/
def outcomeLine (o : Outcome) : String := (outcomeJson o).sorted.compact ++ "\n"

end Handoff
