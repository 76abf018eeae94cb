import Handoff.Address.Reader

/-!
The encoded form of a descriptor against its layout. A byte string is decoded exactly when it keeps
all rules of the layout, and is told the first rule that it breaks otherwise; every descriptor that
there is comes back from its bytes. The main statement is `decoding_of_layout`.
-/
namespace Handoff.Descriptor

/-! ### Numbers in bytes -/

/-- The number that bytes write, the lowest byte first. -/
def littleEndian : List UInt8 → Nat
  | [] => 0
  | b :: bs => b.toNat + 256 * littleEndian bs

theorem toNat_word16 (a b : UInt8) : (word16 a b).toNat = littleEndian [a, b] := by
  have ha := a.toNat_lt
  have hb := b.toNat_lt
  simp [word16, littleEndian]
  omega

theorem toNat_word32 (a b c d : UInt8) : (word32 a b c d).toNat = littleEndian [a, b, c, d] := by
  have ha := a.toNat_lt
  have hb := b.toNat_lt
  have hc := c.toNat_lt
  have hd := d.toNat_lt
  simp [word32, littleEndian]
  omega

theorem littleEndian_bytesOf16 (w : UInt16) : littleEndian (bytesOf16 w) = w.toNat := by
  have hw := w.toNat_lt
  simp [bytesOf16, littleEndian]
  omega

theorem littleEndian_bytesOf32 (w : UInt32) : littleEndian (bytesOf32 w) = w.toNat := by
  have hw := w.toNat_lt
  simp [bytesOf32, littleEndian]
  omega

/-! ### The layout -/

/-- The bytes from one place up to another. -/
def between (first last : Nat) (b : List UInt8) : List UInt8 := (b.take last).drop first

def familyIn (b : List UInt8) : Nat := littleEndian (between 0 2 b)

def reservedIn (b : List UInt8) : Nat := littleEndian (between 2 4 b)

/-- Bytes that keep every rule of the layout. -/
structure Layout (b : List UInt8) : Prop where
  size : b.length = 16
  family : familyIn b = 40
  reserved : between 2 4 b = [0, 0]
  padding : between 13 16 b = [0, 0, 0]

/-- The first rule that bytes break, in the order size, family, reserved field, padding. -/
inductive Breaks (b : List UInt8) : Flaw → Prop where
  | size (hs : b.length ≠ 16) : Breaks b (.size b.length)
  | family {w : UInt16} (hs : b.length = 16) (hw : w.toNat = familyIn b) (hf : familyIn b ≠ 40) :
      Breaks b (.family w)
  | reserved {w : UInt16} (hs : b.length = 16) (hf : familyIn b = 40)
      (hw : w.toNat = reservedIn b) (hr : between 2 4 b ≠ [0, 0]) : Breaks b (.reserved w)
  | padding (hs : b.length = 16) (hf : familyIn b = 40) (hr : between 2 4 b = [0, 0])
      (hp : between 13 16 b ≠ [0, 0, 0]) : Breaks b .padding

/-- What all descriptors have in common. -/
structure Standard (d : Descriptor) : Prop where
  family : d.family = 40
  reserved : d.reserved = 0
  length : d.length = 11

/-- The descriptor that bytes tell of, but for its role. -/
structure Describes (b : List UInt8) (d : Descriptor) : Prop extends Standard d where
  port : d.port.toNat = littleEndian (between 4 8 b)
  cid : d.cid.toNat = littleEndian (between 8 12 b)
  flags : b[12]? = some d.flags

variable {b : List UInt8} {d d' : Descriptor} {f f' : Flaw} {r : Role}

theorem Breaks.not_layout (h : Breaks b f) : ¬Layout b := by
  intro hl
  cases h with
  | size hs => exact hs hl.size
  | family _ _ hf => exact hf hl.family
  | reserved _ _ _ hr => exact hr hl.reserved
  | padding _ _ _ hp => exact hp hl.padding

theorem Breaks.unique (h : Breaks b f) (h' : Breaks b f') : f = f' := by
  cases h with
  | size hs =>
    cases h' with
    | size => rfl
    | family hs' | reserved hs' | padding hs' => exact absurd hs' hs
  | family hs hw hf =>
    cases h' with
    | size hs' => exact absurd hs hs'
    | family _ hw' _ => rw [UInt16.toNat_inj.mp (hw.trans hw'.symm)]
    | reserved _ hf' | padding _ hf' => exact absurd hf' hf
  | reserved hs hf hw hr =>
    cases h' with
    | size hs' => exact absurd hs hs'
    | family _ _ hf' => exact absurd hf hf'
    | reserved _ _ hw' _ => rw [UInt16.toNat_inj.mp (hw.trans hw'.symm)]
    | padding _ _ hr' => exact absurd hr' hr
  | padding hs hf hr hp =>
    cases h' with
    | size hs' => exact absurd hs hs'
    | family _ _ hf' => exact absurd hf hf'
    | reserved _ _ _ hr' => exact absurd hr hr'
    | padding => rfl

theorem Describes.unique (h : Describes b d) (h' : Describes b d') (hr : d.role = d'.role) :
    d = d' := by
  have hport := UInt32.toNat_inj.mp (h.port.trans h'.port.symm)
  have hcid := UInt32.toNat_inj.mp (h.cid.trans h'.cid.symm)
  have hflags := Option.some.inj (h.flags.symm.trans h'.flags)
  have hfamily := h.family.trans h'.family.symm
  have hreserved := h.reserved.trans h'.reserved.symm
  have hlength := h.length.trans h'.length.symm
  cases d
  cases d'
  simp_all

theorem Standard.eq (h : Standard d) :
    d = { ofRole d.role d.cid d.port with flags := d.flags } := by
  have hfamily := h.family
  have hreserved := h.reserved
  have hlength := h.length
  cases d
  simp_all [ofRole, vsockFamily, declaredLength]

/-! ### Decoding -/

theorem exists_bytes (h : b.length = 16) :
    ∃ f₀ f₁ r₀ r₁ p₀ p₁ p₂ p₃ c₀ c₁ c₂ c₃ flags z₀ z₁ z₂,
      b = [f₀, f₁, r₀, r₁, p₀, p₁, p₂, p₃, c₀, c₁, c₂, c₃, flags, z₀, z₁, z₂] := by
  match b, h with
  | [_, _, _, _, _, _, _, _, _, _, _, _, _, _, _, _], _ =>
    exact ⟨_, _, _, _, _, _, _, _, _, _, _, _, _, _, _, _, rfl⟩

theorem ofBytes_of_size (h : b.length ≠ 16) (r : Role) : ofBytes b r = .error (.size b.length) := by
  unfold ofBytes
  split
  · exact absurd rfl h
  · rfl

theorem checkHeader_of_family {family : UInt16} (h : family ≠ 40) (reserved : UInt16) :
    checkHeader family reserved = .error (.family family) := if_pos h

theorem checkHeader_of_reserved {reserved : UInt16} (h : reserved ≠ 0) :
    checkHeader 40 reserved = .error (.reserved reserved) := by
  rw [checkHeader, if_neg (fun hn => hn rfl), if_pos h]

theorem checkHeader_standard : checkHeader 40 0 = .ok () := rfl

theorem word16_eq_zero {a b : UInt8} : word16 a b = 0 ↔ [a, b] = [0, 0] := by
  constructor
  · intro h
    rw [← bytesOf16_word16, h]
    rfl
  · intro h
    cases h
    rfl

/-- Bytes are told the first rule that they break, or decoded to what they tell of and encoded
again. -/
theorem ofBytes_cases (b : List UInt8) (r : Role) :
    (∃ f, Breaks b f ∧ ofBytes b r = .error f) ∨
      ∃ d, Layout b ∧ Describes b d ∧ d.role = r ∧ ofBytes b r = .ok d ∧ d.toBytes = b := by
  by_cases hs : b.length = 16
  · obtain ⟨f₀, f₁, r₀, r₁, p₀, p₁, p₂, p₃, c₀, c₁, c₂, c₃, flags, z₀, z₁, z₂, rfl⟩ :=
      exists_bytes hs
    have hfamily := toNat_word16 f₀ f₁
    by_cases hf : word16 f₀ f₁ = 40
    · rw [hf] at hfamily
      by_cases hr : word16 r₀ r₁ = 0
      · have hreserved := word16_eq_zero.mp hr
        by_cases hp : [z₀, z₁, z₂] = [0, 0, 0]
        · cases hp
          refine .inr ⟨{ ofRole r (word32 c₀ c₁ c₂ c₃) (word32 p₀ p₁ p₂ p₃) with flags },
            ⟨hs, hfamily.symm, hreserved, rfl⟩,
            ⟨⟨rfl, rfl, rfl⟩, toNat_word32 .., toNat_word32 .., rfl⟩, rfl, ?_, ?_⟩
          · rw [ofBytes, hf, hr, checkHeader_standard]
            rfl
          · change bytesOf16 40 ++ bytesOf16 0 ++ bytesOf32 (word32 p₀ p₁ p₂ p₃) ++
              bytesOf32 (word32 c₀ c₁ c₂ c₃) ++ [flags, 0, 0, 0] = _
            rw [← hf, ← hr, bytesOf16_word16, bytesOf16_word16, bytesOf32_word32, bytesOf32_word32]
            rfl
        · refine .inl ⟨_, .padding hs hfamily.symm hreserved hp, ?_⟩
          rw [ofBytes, hf, hr, checkHeader_standard]
          exact if_pos (by grind)
      · refine .inl ⟨_, .reserved hs hfamily.symm (toNat_word16 r₀ r₁)
          (mt word16_eq_zero.mpr hr), ?_⟩
        rw [ofBytes, hf, checkHeader_of_reserved hr]
        rfl
    · refine .inl ⟨_, .family hs hfamily fun h => hf (UInt16.toNat_inj.mp (hfamily.trans h)), ?_⟩
      rw [ofBytes, checkHeader_of_family hf]
      rfl
  · exact .inl ⟨_, .size hs, ofBytes_of_size hs r⟩

theorem ofBytes_eq_error_iff : ofBytes b r = .error f ↔ Breaks b f := by
  rcases ofBytes_cases b r with ⟨f', hf', he⟩ | ⟨d, hl, -, -, he, -⟩
  · constructor
    · intro h
      cases he.symm.trans h
      exact hf'
    · intro h
      rw [he, h.unique hf']
  · constructor
    · intro h
      cases he.symm.trans h
    · intro h
      exact absurd hl h.not_layout

theorem ofBytes_eq_ok_iff : ofBytes b r = .ok d ↔ Layout b ∧ Describes b d ∧ d.role = r := by
  rcases ofBytes_cases b r with ⟨f, hf, he⟩ | ⟨d', hl, hd', hr', he, -⟩
  · constructor
    · intro h
      cases he.symm.trans h
    · intro h
      exact absurd h.1 hf.not_layout
  · constructor
    · intro h
      cases he.symm.trans h
      exact ⟨hl, hd', hr'⟩
    · rintro ⟨-, hd, hr⟩
      rw [he, hd'.unique hd (hr'.trans hr.symm)]

theorem toBytes_of_ofBytes (h : ofBytes b r = .ok d) : d.toBytes = b := by
  rcases ofBytes_cases b r with ⟨f, -, he⟩ | ⟨d', -, -, -, he, hb⟩
  · cases he.symm.trans h
  · cases he.symm.trans h
    exact hb

theorem exists_ofBytes_iff : (∃ d, ofBytes b r = .ok d) ↔ Layout b := by
  constructor
  · rintro ⟨d, h⟩
    exact (ofBytes_eq_ok_iff.mp h).1
  · intro hl
    rcases ofBytes_cases b r with ⟨f, hf, -⟩ | ⟨d, -, -, -, he, -⟩
    · exact absurd hl hf.not_layout
    · exact ⟨d, he⟩

/-! ### Encoding -/

theorem layout_toBytes (h : Standard d) : Layout d.toBytes where
  size := rfl
  family := by
    change littleEndian (bytesOf16 d.family) = 40
    rw [littleEndian_bytesOf16, h.family]
    rfl
  reserved := by
    change bytesOf16 d.reserved = [0, 0]
    rw [h.reserved]
    rfl
  padding := rfl

theorem describes_toBytes (h : Standard d) (r : Role) :
    Describes d.toBytes { d with role := r } where
  toStandard := ⟨h.family, h.reserved, h.length⟩
  port := (littleEndian_bytesOf32 d.port).symm
  cid := (littleEndian_bytesOf32 d.cid).symm
  flags := rfl

/-- A descriptor comes back from its bytes in whatever role they are decoded. -/
theorem ofBytes_toBytes (h : Standard d) (r : Role) :
    ofBytes d.toBytes r = .ok { d with role := r } :=
  ofBytes_eq_ok_iff.mpr ⟨layout_toBytes h, describes_toBytes h r, rfl⟩

/-! ### Where descriptors come from -/

/-- The descriptors that there are: those that are made for an endpoint and those that are read. -/
inductive Obtainable : Descriptor → Prop where
  | bind (cid port : UInt32) : Obtainable (Descriptor.bind cid port)
  | peer (cid port : UInt32) : Obtainable (Descriptor.peer cid port)
  | remote (cid port : UInt32) : Obtainable (Descriptor.remote cid port)
  | «local» (cid port : UInt32) : Obtainable (Descriptor.local cid port)
  | decoded {b : List UInt8} {r : Role} {d : Descriptor} (h : ofBytes b r = .ok d) : Obtainable d
  | parsed {text : List Char} {d : Descriptor} (h : parse text = .ok d) : Obtainable d

theorem Fields.check_eq (v : Fields) :
    v.check =
      if v.family ≠ 40 then .error (.family v.family)
      else if v.reserved ≠ 0 then .error (.reserved v.reserved)
      else if v.length ≠ 11 then .error (.declaredLength v.length)
      else .ok ⟨40, 0, v.port, v.cid, v.flags, 11, v.role⟩ := by
  rw [Fields.check]
  by_cases hf : v.family = 40
  · rw [if_neg (not_not_intro hf), hf]
    by_cases hr : v.reserved = 0
    · rw [if_neg (not_not_intro hr), hr]
      rfl
    · rw [if_pos hr, checkHeader_of_reserved hr]
      rfl
  · rw [if_pos hf, checkHeader_of_family hf]
    rfl

theorem Fields.standard_of_check {v : Fields} (h : v.check = .ok d) : Standard d := by
  rw [Fields.check_eq] at h
  split at h
  · cases h
  split at h
  · cases h
  split at h
  · cases h
  · cases h
    exact ⟨rfl, rfl, rfl⟩

theorem of_parse {text : List Char} (h : parse text = .ok d) : ∃ v : Fields, v.check = .ok d := by
  unfold parse at h
  split at h
  · cases h
  split at h
  · cases h
  rename_i d' hv
  split at h
  · cases h
    exact ⟨_, hv⟩
  · cases h

theorem Obtainable.standard (h : Obtainable d) : Standard d := by
  cases h with
  | bind | peer | remote | «local» => exact ⟨rfl, rfl, rfl⟩
  | decoded h => exact (ofBytes_eq_ok_iff.mp h).2.1.toStandard
  | parsed h =>
    obtain ⟨v, hv⟩ := of_parse h
    exact Fields.standard_of_check hv

/-- Bytes are decoded exactly when they keep the layout, to the one descriptor that they tell of,
which is encoded as they are; other bytes are told the first rule that they break. Every descriptor
that there is comes back from its bytes, and in another role differs by the role alone. -/
theorem decoding_of_layout :
    (∀ b r, (∃ d, ofBytes b r = .ok d) ↔ Layout b) ∧
    (∀ b r d, ofBytes b r = .ok d ↔ Layout b ∧ Describes b d ∧ d.role = r) ∧
    (∀ b r d, ofBytes b r = .ok d → d.toBytes = b) ∧
    (∀ b r f, ofBytes b r = .error f ↔ Breaks b f) ∧
    ∀ d, Obtainable d → ofBytes d.toBytes d.role = .ok d ∧
      ∀ r, ofBytes d.toBytes r = .ok { d with role := r } := by
  refine ⟨fun _ _ => exists_ofBytes_iff, fun _ _ _ => ofBytes_eq_ok_iff,
    fun _ _ _ => toBytes_of_ofBytes, fun _ _ _ => ofBytes_eq_error_iff, ?_⟩
  intro d hd
  exact ⟨ofBytes_toBytes hd.standard d.role, ofBytes_toBytes hd.standard⟩

/-- Sixteen bytes with flags are decoded and encoded again, and the address of a server comes back
as that of a peer. -/
theorem decoding_of_peer :
    (∃ d, ofBytes [40, 0, 0, 0, 210, 4, 0, 0, 33, 0, 0, 0, 9, 0, 0, 0] .peer = .ok d ∧
      d.toBytes = [40, 0, 0, 0, 210, 4, 0, 0, 33, 0, 0, 0, 9, 0, 0, 0]) ∧
    ofBytes (Descriptor.bind 33 1234).toBytes .peer = .ok (Descriptor.peer 33 1234) := by
  obtain ⟨-, -, hback, -, hall⟩ := decoding_of_layout
  exact ⟨⟨_, rfl, hback _ .peer _ rfl⟩, (hall _ (.bind 33 1234)).2 .peer⟩

end Handoff.Descriptor
