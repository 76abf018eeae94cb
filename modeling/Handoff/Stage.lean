/-!
The stages of a socket's life, as its handle sees them, and the operations that each admits.

    created → bound → listening
    created → connected → shutdown
    accepted → draining → shutdown, accepted → shutdown
-/
namespace Handoff

inductive Stage where
  | created | bound | listening | accepted | draining | connected | shutdown
  deriving DecidableEq, Repr

namespace Stage

def name : Stage → String
  | created => "created"
  | bound => "bound"
  | listening => "listening"
  | accepted => "accepted"
  | draining => "draining"
  | connected => "connected"
  | shutdown => "shutdown"

/-- The name in diagnostic text. -/
def label : Stage → String
  | created => "Created"
  | bound => "Bound"
  | listening => "Listening"
  | accepted => "Accepted"
  | draining => "Draining"
  | connected => "Connected"
  | shutdown => "Shutdown"

def all : List Stage := [created, bound, listening, accepted, draining, connected, shutdown]

def ofName? (s : String) : Option Stage := all.find? fun g => g.name == s

/-- Whether the socket carries an open connection. -/
def isConnection : Stage → Bool
  | accepted | draining | connected => true
  | created | bound | listening | shutdown => false

end Stage

/-- What a handle can be asked to do. -/
inductive Operation where
  | bind | listen | accept | connect | send | recv | shutdown
  deriving DecidableEq, Repr

namespace Operation

def name : Operation → String
  | bind => "bind"
  | listen => "listen"
  | accept => "accept"
  | connect => "connect"
  | send => "send"
  | recv => "recv"
  | shutdown => "shutdown"

/-- Whether a handle in a stage may be asked for an operation. -/
def admittedIn : Operation → Stage → Bool
  | bind, g | connect, g => g == .created
  | listen, g => g == .bound
  | accept, g => g == .listening
  | send, g => g == .connected
  | recv, g | shutdown, g => g.isConnection

end Operation
end Handoff
