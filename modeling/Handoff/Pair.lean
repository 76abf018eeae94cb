import Handoff.Loopback.Network
import Handoff.Report

/-!
Both ends of an exchange in one network. The server listens first, so the client never comes too
early; then each end takes its steps, in any order. `Pair.run` lets the client go first.
-/
namespace Handoff.Pair

open Loopback

/-- The two ends and the network between them. -/
structure Ends where
  config : Client.Config
  server : Drain Nat
  client : Delivery Nat
  network : Network

namespace Ends

def serverStep (e : Ends) : Option Ends :=
  (e.server.step Network.transport e.network).map fun (server, network) =>
    { e with server, network }

def clientStep (e : Ends) : Option Ends :=
  (e.client.step Network.transport e.config e.network).map fun (client, network) =>
    { e with client, network }

/-- The outcome once both ends have returned. The server's failure is told before the client's. -/
def outcome? (e : Ends) : Option Outcome :=
  match e.server.exit?, e.client.outcome? with
  | some (.returned (.ok s)), some (.ok c) => some (.ok (.pair s c))
  | some (.returned (.error f)), some _ => some (.error f)
  | some (.returned (.ok _)), some (.error f) => some (.error f)
  | _, _ => none

/-- Takes all the steps that the client can take, then all of the server. -/
def settle (e : Ends) : Ends :=
  let (client, n) := e.client.advance Network.transport e.config e.network
  let (server, n) := e.server.advance Network.transport n
  { e with server, client, network := n }

end Ends

/-- The ends as they are when the server listens, or its failure. -/
def start (cid port : UInt32) (payload : List UInt8) : Option (Except Failure Ends) :=
  match Server.listen Network.transport (Server.Config.at cid port) (Network.ofCid cid) with
  | none => none
  | some (.error f, _) => some (.error f)
  | some (.ok l, n) =>
    some (.ok {
      config := { Client.Config.at cid port with payload }
      server := .accepting l
      client := .opening
      network := n })

/-- Runs both ends; `none` if one waits forever. -/
def run (cid port : UInt32) (payload : List UInt8) : Option Outcome :=
  match start cid port payload with
  | none => none
  | some (.error f) => some (.error f)
  | some (.ok e) => e.settle.outcome?

end Handoff.Pair
