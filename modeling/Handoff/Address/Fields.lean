import Handoff.Address.Bytes
import Handoff.Json.Value

/-!
The JSON form of a descriptor, an object of seven members: how it is written, how the members of
foreign text are gathered, and the rules that the gathered values must keep.
-/
namespace Handoff

/-- The members of a descriptor that are numbers. -/
inductive NumberField where
  | family | reserved | port | cid | flags | length
  deriving DecidableEq, Repr

namespace NumberField

def name : NumberField → String
  | family => "family"
  | reserved => "reserved"
  | port => "port"
  | cid => "cid"
  | flags => "flags"
  | length => "len"

/-- The greatest value that fits the member. -/
def limit : NumberField → Nat
  | family | reserved => 65535
  | port | cid | length => 4294967295
  | flags => 255

end NumberField

inductive Field where
  | number (f : NumberField)
  | role
  deriving DecidableEq, Repr

namespace Field

def name : Field → String
  | number f => f.name
  | role => "role"

/-- The order in which the members are written, and listed in the form without names. -/
def all : List Field :=
  [number .family, number .reserved, number .port, number .cid, number .flags, number .length,
    role]

def ofName? (s : String) : Option Field := all.find? fun f => f.name == s

end Field

namespace Descriptor

def toJson (d : Descriptor) : Json :=
  .object [
    ("family", .count d.family.toNat),
    ("reserved", .count d.reserved.toNat),
    ("port", .count d.port.toNat),
    ("cid", .count d.cid.toNat),
    ("flags", .count d.flags.toNat),
    ("len", .count d.length.toNat),
    ("role", .text d.role.name)]

/-- The members met so far. -/
structure Draft where
  number : NumberField → Option Nat
  role : Option Role

namespace Draft

def empty : Draft := ⟨fun _ => none, none⟩

def has (d : Draft) : Field → Bool
  | .number f => (d.number f).isSome
  | .role => d.role.isSome

def setNumber (d : Draft) (f : NumberField) (n : Nat) : Draft :=
  { d with number := fun g => if g = f then some n else d.number g }

def setRole (d : Draft) (r : Role) : Draft := { d with role := some r }

end Draft

/-- The seven values before the rules of a descriptor are looked at. -/
structure Fields where
  family : UInt16
  reserved : UInt16
  port : UInt32
  cid : UInt32
  flags : UInt8
  length : UInt32
  role : Role
  deriving DecidableEq, Repr

/-- The values of a draft in which no member is missing. -/
def Draft.complete? (d : Draft) : Option Fields := do
  let family ← d.number .family
  let reserved ← d.number .reserved
  let port ← d.number .port
  let cid ← d.number .cid
  let flags ← d.number .flags
  let length ← d.number .length
  let role ← d.role
  some {
    family := .ofNat family, reserved := .ofNat reserved, port := .ofNat port, cid := .ofNat cid,
    flags := .ofNat flags, length := .ofNat length, role }

/-- The rules of a descriptor, looked at in the order family, reserved field, declared length. -/
def Fields.check (v : Fields) : Except Flaw Descriptor := do
  checkHeader v.family v.reserved
  if v.length ≠ declaredLength then .error (.declaredLength v.length)
  else .ok { ofRole v.role v.cid v.port with flags := v.flags }

end Descriptor
end Handoff
