/-!
Failures of the socket layer. An error has a kind, and a text that depends on where it comes from:
the kind alone, a message of its own, or an error number of the system.
-/
namespace Handoff

namespace IoError

inductive Kind where
  | notFound | permissionDenied | connectionRefused | connectionReset | connectionAborted
  | notConnected | addrInUse | addrNotAvailable | brokenPipe | alreadyExists | wouldBlock
  | invalidInput | invalidData | timedOut | writeZero | interrupted | unsupported
  | unexpectedEof | outOfMemory | other
  deriving DecidableEq, Repr

namespace Kind

def name : Kind → String
  | notFound => "NotFound"
  | permissionDenied => "PermissionDenied"
  | connectionRefused => "ConnectionRefused"
  | connectionReset => "ConnectionReset"
  | connectionAborted => "ConnectionAborted"
  | notConnected => "NotConnected"
  | addrInUse => "AddrInUse"
  | addrNotAvailable => "AddrNotAvailable"
  | brokenPipe => "BrokenPipe"
  | alreadyExists => "AlreadyExists"
  | wouldBlock => "WouldBlock"
  | invalidInput => "InvalidInput"
  | invalidData => "InvalidData"
  | timedOut => "TimedOut"
  | writeZero => "WriteZero"
  | interrupted => "Interrupted"
  | unsupported => "Unsupported"
  | unexpectedEof => "UnexpectedEof"
  | outOfMemory => "OutOfMemory"
  | other => "Other"

/-- The text of an error that is nothing but its kind. -/
def text : Kind → String
  | notFound => "entity not found"
  | permissionDenied => "permission denied"
  | connectionRefused => "connection refused"
  | connectionReset => "connection reset"
  | connectionAborted => "connection aborted"
  | notConnected => "not connected"
  | addrInUse => "address in use"
  | addrNotAvailable => "address not available"
  | brokenPipe => "broken pipe"
  | alreadyExists => "entity already exists"
  | wouldBlock => "operation would block"
  | invalidInput => "invalid input parameter"
  | invalidData => "invalid data"
  | timedOut => "timed out"
  | writeZero => "write zero"
  | interrupted => "operation interrupted"
  | unsupported => "unsupported"
  | unexpectedEof => "unexpected end of file"
  | outOfMemory => "out of memory"
  | other => "other error"

def all : List Kind :=
  [notFound, permissionDenied, connectionRefused, connectionReset, connectionAborted,
    notConnected, addrInUse, addrNotAvailable, brokenPipe, alreadyExists, wouldBlock,
    invalidInput, invalidData, timedOut, writeZero, interrupted, unsupported, unexpectedEof,
    outOfMemory, other]

def ofName? (s : String) : Option Kind := all.find? fun k => k.name == s

end Kind

/-- Error numbers of the system that the socket calls meet. -/
inductive Errno where
  | perm | intr | acces | inval | pipe | addrInUse | addrNotAvail | connAborted | connReset
  | notConn | timedOut | connRefused
  deriving DecidableEq, Repr

namespace Errno

def number : Errno → Nat
  | perm => 1
  | intr => 4
  | acces => 13
  | inval => 22
  | pipe => 32
  | addrInUse => 98
  | addrNotAvail => 99
  | connAborted => 103
  | connReset => 104
  | notConn => 107
  | timedOut => 110
  | connRefused => 111

def kind : Errno → Kind
  | perm => .permissionDenied
  | intr => .interrupted
  | acces => .permissionDenied
  | inval => .invalidInput
  | pipe => .brokenPipe
  | addrInUse => .addrInUse
  | addrNotAvail => .addrNotAvailable
  | connAborted => .connectionAborted
  | connReset => .connectionReset
  | notConn => .notConnected
  | timedOut => .timedOut
  | connRefused => .connectionRefused

/-- What the system calls the error. -/
def text : Errno → String
  | perm => "Operation not permitted"
  | intr => "Interrupted system call"
  | acces => "Permission denied"
  | inval => "Invalid argument"
  | pipe => "Broken pipe"
  | addrInUse => "Address already in use"
  | addrNotAvail => "Cannot assign requested address"
  | connAborted => "Software caused connection abort"
  | connReset => "Connection reset by peer"
  | notConn => "Transport endpoint is not connected"
  | timedOut => "Connection timed out"
  | connRefused => "Connection refused"

def all : List Errno :=
  [perm, intr, acces, inval, pipe, addrInUse, addrNotAvail, connAborted, connReset, notConn,
    timedOut, connRefused]

def ofNumber? (n : Nat) : Option Errno := all.find? fun e => e.number == n

end Errno

end IoError

open IoError in
inductive IoError where
  | plain (kind : Kind)
  | custom (kind : Kind) (message : String)
  | system (errno : Errno)
  deriving DecidableEq, Repr

namespace IoError

def kind : IoError → Kind
  | plain k => k
  | custom k _ => k
  | system e => e.kind

def message : IoError → String
  | plain k => k.text
  | custom _ m => m
  | system e => e.text ++ " (os error " ++ toString e.number ++ ")"

/-- Whether the call was cut short by a signal before it did anything. -/
def isInterrupted (e : IoError) : Bool := e.kind == .interrupted

end IoError
end Handoff
