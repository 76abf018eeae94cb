/-!
Addresses of virtual sockets. An endpoint is a context identifier and a port. A descriptor carries
an endpoint with the part it plays and the fields of the socket layer around it.
-/
namespace Handoff

/-- The wildcard context identifier. -/
def anyCid : UInt32 := 4294967295

def hypervisorCid : UInt32 := 0

/-- The context of the machine itself. -/
def localCid : UInt32 := 1

def hostCid : UInt32 := 2

/-- The wildcard port. -/
def anyPort : UInt32 := 4294967295

/-- The port that both ends of an exchange meet on unless told otherwise. -/
def meetingPort : UInt32 := 1234

structure Endpoint where
  cid : UInt32
  port : UInt32
  deriving DecidableEq, Repr, Inhabited

/-- What a descriptor names: the address bound to, the accepted peer, the remote end asked for, or
the local end as the transport tells it. -/
inductive Role where
  | bind | peer | remote | local
  deriving DecidableEq, Repr

namespace Role

/-- The name in JSON. -/
def name : Role → String
  | .bind => "bind"
  | .peer => "peer"
  | .remote => "remote"
  | .local => "local"

/-- The name in diagnostic text. -/
def label : Role → String
  | .bind => "Bind"
  | .peer => "Peer"
  | .remote => "Remote"
  | .local => "Local"

def ofName? (s : String) : Option Role :=
  if s = "bind" then some .bind
  else if s = "peer" then some .peer
  else if s = "remote" then some .remote
  else if s = "local" then some .local
  else none

theorem ofName?_name (r : Role) : ofName? r.name = some r := by cases r <;> decide

end Role

/-- A virtual-socket address in full. Only the constructors below and the two readers of foreign
data make descriptors, and they all keep to one family, reserved field and declared length. -/
structure Descriptor where
  family : UInt16
  reserved : UInt16
  port : UInt32
  cid : UInt32
  flags : UInt8
  length : UInt32
  role : Role
  deriving DecidableEq, Repr

namespace Descriptor

/-- The address family of virtual sockets. -/
def vsockFamily : UInt16 := 40

/-- The length declared with every descriptor, short of its encoded size. -/
def declaredLength : UInt32 := 11

/-- The descriptor of an endpoint in a given role, its flags clear. -/
def ofRole (role : Role) (cid port : UInt32) : Descriptor :=
  { family := vsockFamily, reserved := 0, port, cid, flags := 0, length := declaredLength, role }

def bind : UInt32 → UInt32 → Descriptor := ofRole .bind
def peer : UInt32 → UInt32 → Descriptor := ofRole .peer
def remote : UInt32 → UInt32 → Descriptor := ofRole .remote
def «local» : UInt32 → UInt32 → Descriptor := ofRole .local

def endpoint (d : Descriptor) : Endpoint := ⟨d.cid, d.port⟩

/-- Whether two descriptors name one endpoint, whatever their roles and flags. -/
def sameEndpoint (a b : Descriptor) : Bool := a.endpoint == b.endpoint

/-- The text that error messages show. -/
def display (d : Descriptor) : String :=
  "cid: " ++ toString d.cid.toNat ++ " port: " ++ toString d.port.toNat

/-- The display text under the role, for diagnostics. -/
def debug (d : Descriptor) : String := d.role.label ++ "(" ++ d.display ++ ")"

/-- A rule that foreign descriptor data breaks. -/
inductive Flaw where
  | size (got : Nat)
  | family (got : UInt16)
  | reserved (got : UInt16)
  | padding
  | declaredLength (got : UInt32)
  deriving DecidableEq, Repr

end Descriptor
end Handoff
