import Handoff.Address.Descriptor
import Handoff.IoError
import Handoff.Stage

/-!
How an exchange fails: each step has a failure of its own, with the address it concerned and the
error of the socket layer if there was one. For the calling process all failures are one.
-/
namespace Handoff

/-- The part of an exchange that a failure is charged to. -/
inductive Step where
  | socket | bind | listen | accept | connect | send | recv | shutdown | usage
  deriving DecidableEq, Repr

def Step.name : Step → String
  | socket => "socket"
  | bind => "bind"
  | listen => "listen"
  | accept => "accept"
  | connect => "connect"
  | send => "send"
  | recv => "recv"
  | shutdown => "shutdown"
  | usage => "usage"

inductive Failure where
  | socket (cause : IoError)
  | bind (address : Descriptor) (cause : IoError)
  | listen (address : Descriptor) (backlog : UInt32) (cause : IoError)
  | accept (address : Descriptor) (cause : IoError)
  | connect (address : Descriptor) (cause : IoError)
  | send (address : Descriptor) (cause : IoError)
  | nothingSent (address : Descriptor)
  | shortSend (address : Descriptor) (sent expected : Nat)
  | recv (address : Descriptor) (cause : IoError)
  | shutdown (address : Descriptor) (cause : IoError)
  | illegalState (operation : String) (stage : Stage)
  | invalidDescriptor (reason : String)
  deriving DecidableEq, Repr

namespace Failure

def message : Failure → String
  | socket e => "Failed to create socket: " ++ e.message
  | bind a e => "Failed to bind to " ++ a.display ++ ": " ++ e.message
  | listen a n e =>
    "Failed to listen on " ++ a.display ++ " (backlog " ++ toString n.toNat ++ "): " ++ e.message
  | accept a e => "Failed to accept on " ++ a.display ++ ": " ++ e.message
  | connect a e => "Failed to connect to " ++ a.display ++ ": " ++ e.message
  | send a e => "Failed to send to " ++ a.display ++ ": " ++ e.message
  | nothingSent a => "Send to " ++ a.display ++ " transferred no bytes"
  | shortSend a sent expected =>
    "Short send to " ++ a.display ++ ": " ++ toString sent ++ " of " ++ toString expected
      ++ " bytes"
  | recv a e => "Failed to receive from " ++ a.display ++ ": " ++ e.message
  | shutdown a e => "Failed to shut down connection with " ++ a.display ++ ": " ++ e.message
  | illegalState op g => "Operation '" ++ op ++ "' is not permitted in state " ++ g.name
  | invalidDescriptor reason => "Invalid address descriptor: " ++ reason

def step : Failure → Step
  | socket _ => .socket
  | bind .. => .bind
  | listen .. => .listen
  | accept .. => .accept
  | connect .. => .connect
  | send .. | nothingSent _ | shortSend .. => .send
  | recv .. => .recv
  | shutdown .. => .shutdown
  | illegalState .. | invalidDescriptor _ => .usage

/-- The error of the socket layer behind a failure. -/
def cause? : Failure → Option IoError
  | socket e | bind _ e | listen _ _ e | accept _ e | connect _ e | send _ e | recv _ e
  | shutdown _ e => some e
  | nothingSent _ | shortSend .. | illegalState .. | invalidDescriptor _ => none

/-- The address a failure concerns. -/
def address? : Failure → Option Descriptor
  | bind a _ | listen a _ _ | accept a _ | connect a _ | send a _ | nothingSent a
  | shortSend a _ _ | recv a _ | shutdown a _ => some a
  | socket _ | illegalState .. | invalidDescriptor _ => none

/-- Whether the peer cut the connection instead of closing it. -/
def isPeerReset (f : Failure) : Bool :=
  match f.cause?.map IoError.kind with
  | some .connectionReset | some .connectionAborted => true
  | _ => false

/-- The outcome code of every failure. -/
def exitCode (_ : Failure) : Int := -1

end Failure

/-- Zero for a result, the failure's code otherwise. -/
def outcomeCode : Except Failure α → Int
  | .ok _ => 0
  | .error f => f.exitCode

end Handoff
