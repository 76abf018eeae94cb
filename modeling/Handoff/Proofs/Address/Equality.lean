import Handoff.Proofs.Address.Forms

/-!
When two descriptors are one. Both readers of foreign data give the same descriptors, each comes
back from its compact text, and equality can be told from the text, from the bytes with the role, or
from the endpoint with the flags and the role. The main statement is `equality_of_forms`.
-/
namespace Handoff.Descriptor

open Json

variable {a b d : Descriptor}

/-! ### What both readers give -/

theorem exists_ofBytes_iff_standard : (∃ b r, ofBytes b r = .ok d) ↔ Standard d := by
  constructor
  · rintro ⟨b, r, h⟩
    exact (Obtainable.decoded h).standard
  · intro h
    exact ⟨d.toBytes, d.role, ofBytes_toBytes h d.role⟩

/-- The seven values of a descriptor. -/
def fields (d : Descriptor) : Fields :=
  ⟨d.family, d.reserved, d.port, d.cid, d.flags, d.length, d.role⟩

theorem toJson_eq (d : Descriptor) : d.toJson = .object (d.fields.settings.map Setting.member) :=
  rfl

/-- An object without blanks that has the members of a descriptor, in any order, writes its
values. -/
theorem writes_object {xs : List Setting} (h : xs.Perm d.fields.settings) :
    d.fields.Writes (Json.object (xs.map Setting.member)).compact.toList := by
  have hne : xs ≠ [] := by
    intro hx
    rw [hx] at h
    simpa [Fields.settings, Field.all] using h.length_eq
  rw [compact, String.toList_ofList, write]
  exact .object h (.members blank_nil (members_write xs hne) blank_nil)

/-- The compact text of a descriptor writes its values. -/
theorem writes_compact (d : Descriptor) : d.fields.Writes d.toJson.compact.toList := by
  rw [toJson_eq]
  exact writes_object (.refl _)

theorem Standard.verdict_fields (h : Standard d) : d.fields.verdict = .ok d := by
  simp only [Fields.verdict, fields, h.family, h.reserved, h.length, ne_eq, not_true_eq_false,
    if_false]
  exact congrArg Except.ok h.eq.symm

/-- A descriptor comes back from every text that writes its values. -/
theorem Standard.parse_of_writes (h : Standard d) {text : List Char} (hw : d.fields.Writes text) :
    parse text = .ok d := by
  obtain ⟨r, hr, hread⟩ := hw.readFields_eq
  rw [parse_of_readFields hread hr, h.verdict_fields]

/-- A descriptor comes back from its compact text. -/
theorem parse_compact (h : Standard d) : parse d.toJson.compact.toList = .ok d :=
  h.parse_of_writes d.writes_compact

theorem exists_parse_iff_standard : (∃ text, parse text = .ok d) ↔ Standard d := by
  constructor
  · rintro ⟨text, h⟩
    exact (Obtainable.parsed h).standard
  · intro h
    exact ⟨_, parse_compact h⟩

/-! ### Equality -/

theorem Standard.eq_iff_compact (ha : Standard a) (hb : Standard b) :
    a = b ↔ a.toJson.compact = b.toJson.compact := by
  constructor
  · intro h
    rw [h]
  · intro h
    have hparse : (.ok a : Except ReadError Descriptor) = .ok b :=
      calc .ok a
          = parse a.toJson.compact.toList := (parse_compact ha).symm
        _ = parse b.toJson.compact.toList := by rw [h]
        _ = .ok b := parse_compact hb
    exact Except.ok.inj hparse

theorem Standard.eq_iff_toBytes (ha : Standard a) (hb : Standard b) :
    a = b ↔ a.toBytes = b.toBytes ∧ a.role = b.role := by
  constructor
  · intro h
    exact ⟨congrArg toBytes h, congrArg role h⟩
  · rintro ⟨hbytes, hrole⟩
    have hdecode : (.ok a : Except Flaw Descriptor) = .ok b :=
      calc .ok a
          = ofBytes a.toBytes a.role := (ofBytes_toBytes ha a.role).symm
        _ = ofBytes b.toBytes b.role := by rw [hbytes, hrole]
        _ = .ok b := ofBytes_toBytes hb b.role
    exact Except.ok.inj hdecode

theorem sameEndpoint_iff : a.sameEndpoint b ↔ a.cid = b.cid ∧ a.port = b.port := by
  simp [sameEndpoint, endpoint]

theorem Standard.eq_iff_sameEndpoint (ha : Standard a) (hb : Standard b) :
    a = b ↔ a.sameEndpoint b ∧ a.flags = b.flags ∧ a.role = b.role := by
  rw [sameEndpoint_iff]
  constructor
  · rintro rfl
    exact ⟨⟨rfl, rfl⟩, rfl, rfl⟩
  · rintro ⟨⟨hcid, hport⟩, hflags, hrole⟩
    rw [ha.eq, hb.eq, hcid, hport, hflags, hrole]

theorem sameEndpoint_equivalence : Equivalence fun a b => sameEndpoint a b = true where
  refl a := sameEndpoint_iff.mpr ⟨rfl, rfl⟩
  symm h := by
    rw [sameEndpoint_iff] at h ⊢
    exact ⟨h.1.symm, h.2.symm⟩
  trans h h' := by
    rw [sameEndpoint_iff] at h h' ⊢
    exact ⟨h.1.trans h'.1, h.2.trans h'.2⟩

/-- All descriptors keep to one family, reserved field and length, the bytes and the texts give the
same ones, each comes back from its compact text, and two are equal exactly when their texts are,
when their bytes and roles are, and when their endpoints, flags and roles are. To name the same
endpoint is an equivalence that equality refines, strictly. -/
theorem equality_of_forms :
    (∀ d, Obtainable d → d.family = 40 ∧ d.reserved = 0 ∧ d.length = 11) ∧
    (∀ d, (∃ b r, ofBytes b r = .ok d) ↔ ∃ text, parse text = .ok d) ∧
    (∀ d, Obtainable d → parse d.toJson.compact.toList = .ok d) ∧
    (∀ a b, Obtainable a → Obtainable b →
      (a = b ↔ a.toJson.compact = b.toJson.compact) ∧
      (a = b ↔ a.toBytes = b.toBytes ∧ a.role = b.role) ∧
      (a = b ↔ a.sameEndpoint b ∧ a.flags = b.flags ∧ a.role = b.role)) ∧
    (Equivalence fun a b => sameEndpoint a b = true) ∧
    (∀ a b : Descriptor, a = b → a.sameEndpoint b) ∧
    ∃ a b, Obtainable a ∧ Obtainable b ∧ a.sameEndpoint b ∧ a ≠ b := by
  refine ⟨?_, ?_, ?_, ?_, sameEndpoint_equivalence, ?_, ?_⟩
  · intro d hd
    exact ⟨hd.standard.family, hd.standard.reserved, hd.standard.length⟩
  · intro d
    rw [exists_ofBytes_iff_standard, exists_parse_iff_standard]
  · intro d hd
    exact parse_compact hd.standard
  · intro a b ha hb
    exact ⟨ha.standard.eq_iff_compact hb.standard, ha.standard.eq_iff_toBytes hb.standard,
      ha.standard.eq_iff_sameEndpoint hb.standard⟩
  · rintro a - rfl
    exact sameEndpoint_equivalence.refl a
  · exact ⟨Descriptor.bind 2 1234, Descriptor.peer 2 1234, .bind 2 1234, .peer 2 1234, by decide,
      by decide⟩

/-- The address that a server is bound to comes back from its text, and the same endpoint as that of
a peer has another text. -/
theorem equality_of_bind_and_peer :
    parse (Descriptor.bind 2 1234).toJson.compact.toList = .ok (Descriptor.bind 2 1234) ∧
    (Descriptor.bind 2 1234).toJson.compact ≠ (Descriptor.peer 2 1234).toJson.compact := by
  obtain ⟨-, -, hparse, heq, -⟩ := equality_of_forms
  refine ⟨hparse _ (.bind 2 1234), fun h => ?_⟩
  have hsame := (heq _ _ (.bind 2 1234) (.peer 2 1234)).1.mpr h
  exact absurd hsame (by decide)

end Handoff.Descriptor
