import Handoff.Address.Descriptor
import Handoff.Text.Hex

/-!
The sixteen-byte form of a descriptor, little-endian: family (2), reserved (2), port (4),
cid (4), flags (1) and three bytes of padding. The role is not part of it.
-/
namespace Handoff.Descriptor

/-- The size of the encoded form. -/
def encodedSize : Nat := 16

/-- The reason an error message gives for a flaw. -/
def Flaw.reason : Flaw → String
  | .size got => "expected " ++ toString encodedSize ++ " bytes, got " ++ toString got
  | .family got => "unexpected address family " ++ toString got.toNat
  | .reserved got => "reserved field must be zero, got 0x" ++ Text.Hex.ofNat 4 got.toNat
  | .padding => "padding bytes must be zero"
  | .declaredLength got =>
    "declared length must be " ++ toString Descriptor.declaredLength.toNat ++ ", got "
      ++ toString got.toNat

def bytesOf16 (w : UInt16) : List UInt8 := [.ofNat (w.toNat % 256), .ofNat (w.toNat / 256)]

def bytesOf32 (w : UInt32) : List UInt8 :=
  [.ofNat (w.toNat % 256), .ofNat (w.toNat / 256 % 256), .ofNat (w.toNat / 65536 % 256),
    .ofNat (w.toNat / 16777216)]

def word16 (a b : UInt8) : UInt16 := .ofNat (a.toNat + 256 * b.toNat)

def word32 (a b c d : UInt8) : UInt32 :=
  .ofNat (a.toNat + 256 * b.toNat + 65536 * c.toNat + 16777216 * d.toNat)

theorem bytesOf16_word16 (a b : UInt8) : bytesOf16 (word16 a b) = [a, b] := by
  have ha := a.toNat_lt
  have hb := b.toNat_lt
  have h : (word16 a b).toNat = a.toNat + 256 * b.toNat := by
    simp [word16]; omega
  simp only [bytesOf16, h, show (a.toNat + 256 * b.toNat) % 256 = a.toNat by omega,
    show (a.toNat + 256 * b.toNat) / 256 = b.toNat by omega, UInt8.ofNat_toNat]

theorem bytesOf32_word32 (a b c d : UInt8) : bytesOf32 (word32 a b c d) = [a, b, c, d] := by
  have ha := a.toNat_lt
  have hb := b.toNat_lt
  have hc := c.toNat_lt
  have hd := d.toNat_lt
  have h : (word32 a b c d).toNat
      = a.toNat + 256 * b.toNat + 65536 * c.toNat + 16777216 * d.toNat := by
    simp [word32]; omega
  simp only [bytesOf32, h]
  generalize hn : a.toNat + 256 * b.toNat + 65536 * c.toNat + 16777216 * d.toNat = n
  rw [show n % 256 = a.toNat by omega, show n / 256 % 256 = b.toNat by omega,
    show n / 65536 % 256 = c.toNat by omega, show n / 16777216 = d.toNat by omega]
  simp

def toBytes (d : Descriptor) : List UInt8 :=
  bytesOf16 d.family ++ bytesOf16 d.reserved ++ bytesOf32 d.port ++ bytesOf32 d.cid
    ++ [d.flags, 0, 0, 0]

/-- The rules that both foreign forms share, the family first. -/
def checkHeader (family reserved : UInt16) : Except Flaw Unit :=
  if family ≠ vsockFamily then .error (.family family)
  else if reserved ≠ 0 then .error (.reserved reserved)
  else .ok ()

/-- Reads the encoded form in a given role. Size, family, reserved field and padding are checked
in this order. -/
def ofBytes (bytes : List UInt8) (role : Role) : Except Flaw Descriptor :=
  match bytes with
  | [f₀, f₁, r₀, r₁, p₀, p₁, p₂, p₃, c₀, c₁, c₂, c₃, flags, z₀, z₁, z₂] => do
    checkHeader (word16 f₀ f₁) (word16 r₀ r₁)
    if z₀ ≠ 0 ∨ z₁ ≠ 0 ∨ z₂ ≠ 0 then .error .padding
    else .ok { ofRole role (word32 c₀ c₁ c₂ c₃) (word32 p₀ p₁ p₂ p₃) with flags }
  | _ => .error (.size bytes.length)

end Handoff.Descriptor
