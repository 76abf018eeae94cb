import Handoff.Proofs.Address.Equality

/-!
Texts of descriptors that are cut short or go on. A cut may leave digits that are another number,
but then nothing is left behind them, where the object still had to be closed: every reader of a
part ends with the text, in a fault or right behind a value (`Exhausted`). The main statement is
`truncation_of_compact`.
-/
namespace Handoff

namespace Json

/-- The text ended while it was read, or together with what was read. -/
def Exhausted {α : Type} (x : Reading α) : Prop := x = .error .ended ∨ ∃ a, x = .ok (a, [])

variable {p s t : List Char}

theorem prefix_append_cases (h : p <+: s ++ t) : p <+: s ∨ ∃ u, p = s ++ u ∧ u <+: t := by
  obtain ⟨r, hr⟩ := h
  rcases List.append_eq_append_iff.mp hr with ⟨u, hs, -⟩ | ⟨u, hp, ht⟩
  · exact .inl ⟨u, hs.symm⟩
  · exact .inr ⟨u, hp, ⟨r, ht.symm⟩⟩

/-! ### Strings and numbers -/

theorem readChars_of_plain (h : ∀ c ∈ p, Plain c) (done : List Char) :
    readChars done p = .error .ended := by
  induction p generalizing done with
  | nil => rw [readChars]
  | cons c p ih =>
    rw [List.forall_mem_cons] at h
    obtain ⟨⟨h1, h2, h3⟩, hp⟩ := h
    rw [readChars, if_neg (Char.not_lt.mpr h3), ih hp]
    all_goals simp_all

/-- A string without its closing quote has ended. -/
theorem readString_of_cut (hs : ∀ c ∈ s, Plain c) (hp : p <+: s) :
    readString p = .error .ended := by
  rw [readString, readChars_of_plain fun c hc => hs c (hp.subset hc)]

theorem Whole.of_cut (hs : Whole s) (hp : p <+: s) (hne : p ≠ []) : Whole p := by
  rcases hs with rfl | ⟨hs, hz⟩
  · rcases List.prefix_cons_iff.mp hp with rfl | ⟨q, rfl, hq⟩
    · exact absurd rfl hne
    · rw [List.prefix_nil.mp hq]
      exact .inl rfl
  · refine .inr ⟨⟨hne, fun c hc => hs.2 c (hp.subset hc)⟩, ?_⟩
    obtain ⟨c, q, rfl⟩ := List.exists_cons_of_ne_nil hne
    obtain ⟨r, rfl⟩ := hp
    exact hz

/-- A number that is cut is nothing yet, or a smaller one. -/
theorem readNat_of_cut {limit n : Nat} (hn : n ≤ limit) (hlimit : limit < wordBound)
    (hp : p <+: Nat.toDigits 10 n) : Exhausted (readNat limit p) := by
  by_cases hne : p = []
  · subst hne
    exact .inl rfl
  · have hwhole := (whole_toDigits n).of_cut hp hne
    obtain ⟨c, q, rfl, hc⟩ := hwhole.exists_cons
    let m := Nat.ofDigitChars 10 (c :: q) 0
    have hle : m ≤ n := by
      obtain ⟨r, hr⟩ := hp
      calc m ≤ Nat.ofDigitChars 10 r m := le_ofDigitChars r m
        _ = Nat.ofDigitChars 10 (Nat.toDigits 10 n) 0 := by rw [← hr, Nat.ofDigitChars_append]
        _ = n := Nat.ofDigitChars_ten_toDigits
    have hscan := scanNumber_whole (f := .ended) (r := []) hwhole (by simp [Stops])
    have hnatural : Numeral.natural? ⟨false, c :: q, none, none⟩ = some m := by
      have hpush : pushDigits 0 (c :: q) = (m, []) := pushDigits_eq (by omega)
      simp [Numeral.natural?, hpush]
    rw [List.append_nil] at hscan
    refine .inr ⟨m, ?_⟩
    rw [readNat, skipBlanks_cons (isBlank_of_isDigit hc)]
    simp only [hc, or_true, if_true, readNumber, hscan, hnatural]
    rw [if_pos (by omega)]

end Json

namespace Descriptor

open Json

variable {d : Draft} {x : Setting} {xs : List Setting} {p : List Char}

/-! ### Members -/

theorem readRole_of_cut (role : Role) (hp : p <+: quote role.name) :
    Exhausted (readRole p) := by
  have hplain := plain_roleName role
  rw [quote_of_plain hplain, ← List.cons_append, List.prefix_concat_iff] at hp
  rcases hp with rfl | hp
  · have hread := readRole_append (r := []) blank_nil (.name (spells_self hplain))
    exact .inr ⟨role, by simpa using hread⟩
  · rcases List.prefix_cons_iff.mp hp with rfl | ⟨q, rfl, hq⟩
    · exact .inl rfl
    · refine .inl ?_
      have hread := readString_of_cut hplain hq
      rw [readRole, skipBlanks_cons rfl]
      simp only [hread]

theorem readField_of_cut (d : Draft) (x : Setting) (hp : p <+: x.member.2.write) :
    Exhausted (readField x.field d p) := by
  cases x with
  | number f n fits =>
    have hlimit : f.limit < wordBound := by cases f <;> decide
    rcases readNat_of_cut fits hlimit hp with hread | ⟨m, hread⟩
    · exact .inl (by simp only [Setting.field, readField, hread])
    · exact .inr ⟨_, by simp only [Setting.field, readField, hread]; rfl⟩
  | role r =>
    rcases readRole_of_cut r hp with hread | ⟨role, hread⟩
    · exact .inl (by simp only [Setting.field, readField, hread])
    · exact .inr ⟨_, by simp only [Setting.field, readField, hread]; rfl⟩

/-- A member whose name is behind it is read on from the colon. -/
theorem readMember_colon (hd : ¬d.has x.field) (v : List Char) :
    readMember d (x.field.name.toList ++ '"' :: ':' :: v) = readField x.field d v := by
  have hcolon : skipColon (':' :: v) = .ok v := rfl
  rw [readMember, readString_append (spells_self (plain_fieldName x.field))]
  simp only [String.ofList_toList, ofName?_fieldName, if_neg hd, hcolon]

/-- A member that is cut behind the quote that opens its name. -/
theorem readMember_of_cut (hd : ¬d.has x.field)
    (hp : p <+: x.field.name.toList ++ '"' :: ':' :: x.member.2.write) :
    Exhausted (readMember d p) := by
  have hplain := plain_fieldName x.field
  rcases prefix_append_cases hp with hp | ⟨q, rfl, hq⟩
  · exact .inl (by rw [readMember, readString_of_cut hplain hp])
  rcases List.prefix_cons_iff.mp hq with rfl | ⟨r, rfl, hr⟩
  · rw [List.append_nil]
    exact .inl (by rw [readMember, readString_of_cut hplain (List.prefix_refl _)])
  rcases List.prefix_cons_iff.mp hr with rfl | ⟨v, rfl, hv⟩
  · have hcolon : skipColon [] = .error .ended := rfl
    refine .inl ?_
    rw [readMember, readString_append (spells_self hplain)]
    simp only [String.ofList_toList, ofName?_fieldName, if_neg hd, hcolon]
  · rw [readMember_colon hd]
    exact readField_of_cut d x hv

theorem writeMembers_one (x : Setting) :
    writeMembers ([x].map Setting.member) =
      '"' :: (x.field.name.toList ++ '"' :: ':' :: x.member.2.write) := by
  have htext : writeMembers ([x].map Setting.member) =
      quote x.member.1 ++ ':' :: x.member.2.write := rfl
  rw [htext, x.member_fst, quote_of_plain (plain_fieldName _)]
  simp

theorem fromName_of_cut_one (hd : ¬d.has x.field)
    (hp : p <+: writeMembers ([x].map Setting.member)) : fromName d p = .error .ended := by
  rw [writeMembers_one] at hp
  rcases List.prefix_cons_iff.mp hp with rfl | ⟨q, rfl, hq⟩
  · rfl
  · have hread : fromName d ('"' :: q) = readMembers d q := rfl
    rw [hread, readMembers_of_readMember]
    rcases readMember_of_cut hd hq with hmember | ⟨d', hmember⟩
    · rw [hmember]
    · rw [hmember]
      rfl

theorem fromName_one (hd : ¬d.has x.field) (r : List Char) :
    fromName d (writeMembers ([x].map Setting.member) ++ ',' :: r) = fromName (d.put x) r := by
  rw [fromName_members (members_write [x] (by simp)) d (stops_comma r), Draft.enter?, if_neg hd]
  exact afterwards_comma r

/-- Members of different fields that are cut end too early. -/
theorem fromName_of_cut (hnodup : (xs.map Setting.field).Nodup)
    (hd : ∀ f ∈ xs.map Setting.field, ¬d.has f)
    (hp : p <+: writeMembers (xs.map Setting.member)) : fromName d p = .error .ended := by
  induction xs generalizing d p with
  | nil =>
    rw [List.prefix_nil.mp hp]
    rfl
  | cons x xs ih =>
    rw [List.map_cons, List.nodup_cons] at hnodup
    rw [List.map_cons, List.forall_mem_cons] at hd
    cases xs with
    | nil => exact fromName_of_cut_one hd.1 hp
    | cons y ys =>
      have htext : writeMembers ((x :: y :: ys).map Setting.member) =
          writeMembers ([x].map Setting.member) ++
            ',' :: writeMembers ((y :: ys).map Setting.member) := by
        simp [writeMembers]
      rw [htext] at hp
      rcases prefix_append_cases hp with hp | ⟨q, rfl, hq⟩
      · exact fromName_of_cut_one hd.1 hp
      rcases List.prefix_cons_iff.mp hq with rfl | ⟨r, rfl, hr⟩
      · rw [List.append_nil]
        exact fromName_of_cut_one hd.1 (List.prefix_refl _)
      · rw [fromName_one hd.1]
        refine ih hnodup.2 (fun f hf => ?_) hr
        -- the members behind it are of other fields
        rw [Draft.has_put, not_or]
        exact ⟨hd.2 f hf, fun he => hnodup.1 (he ▸ hf)⟩

/-! ### Whole texts -/

theorem toList_compact (a : Descriptor) :
    a.toJson.compact.toList =
      '\x7b' :: (writeMembers (a.fields.settings.map Setting.member) ++ ['\x7d']) := by
  rw [compact, String.toList_ofList, toJson_eq, write, List.cons_append]

theorem readFields_of_ended (h : fromName .empty p = .error .ended) :
    readFields ('\x7b' :: p) = .error .ended := by
  rw [readFields, skipBlanks_cons rfl]
  unfold fromName at h
  split at h
  · rename_i hp
    simp only [hp]
  · rename_i r hp
    simp only [hp, h]
  · simp at h

/-- A text that is cut ends too early. -/
theorem parse_of_cut (a : Descriptor) (hp : p <+: a.toJson.compact.toList)
    (hne : p ≠ a.toJson.compact.toList) : parse p = .error (.text .ended) := by
  rw [toList_compact] at hp hne
  rcases List.prefix_cons_iff.mp hp with rfl | ⟨q, rfl, hq⟩
  · rfl
  rcases List.prefix_concat_iff.mp hq with rfl | hq
  · exact absurd rfl hne
  have hnodup : (a.fields.settings.map Setting.field).Nodup := by
    rw [a.fields.fields_settings]
    decide
  have hread := fromName_of_cut hnodup (fun f _ => Draft.not_has_empty f) hq
  rw [parse, readFields_of_ended hread]

theorem readFields_append (a : Descriptor) (r : List Char) :
    readFields (a.toJson.compact.toList ++ r) = .ok (a.fields, r) := by
  have hmembers := members_write a.fields.settings (by simp [Fields.settings, Field.all])
  have hread := readFields_members (a := []) blank_nil hmembers r
  rw [Draft.enter?_perm (.refl _)] at hread
  rw [toList_compact]
  simpa [granted] using hread

theorem check_fields {a : Descriptor} (h : Standard a) : a.fields.check = .ok a := by
  simp only [Fields.check_eq, fields, h.family, h.reserved, h.length, ne_eq, not_true_eq_false,
    if_false]
  exact congrArg Except.ok h.eq.symm

/-- The rules of a descriptor are looked at before what follows its text. -/
theorem parse_append {a : Descriptor} (h : Standard a) (r : List Char) :
    parse (a.toJson.compact.toList ++ r) =
      match expectEnd r with
      | .ok () => .ok a
      | .error e => .error (.text e) := by
  rw [parse, readFields_append]
  cases he : expectEnd r <;> simp only [check_fields h, he]

theorem expectEnd_behind {b : List Char} {c : Char} (hb : Blank b) (hc : isBlank c = false)
    (r : List Char) : expectEnd (b ++ c :: r) = .error .malformed := by
  rw [expectEnd, skipBlanks_behind hb hc, if_neg (List.cons_ne_nil c r)]

/-- The compact text of a descriptor is read as a whole. Whatever is cut from its end, it has ended
too early; blanks behind it do not matter, and anything else behind them is malformed. -/
theorem truncation_of_compact {a : Descriptor} (h : Obtainable a) :
    (∀ p, p <+: a.toJson.compact.toList → p ≠ a.toJson.compact.toList →
      parse p = .error (.text .ended)) ∧
    (∀ b c r, Blank b → c ∉ [' ', '\n', '\t', '\r'] →
      parse (a.toJson.compact.toList ++ (b ++ c :: r)) = .error (.text .malformed)) ∧
    ∀ b, Blank b → parse (a.toJson.compact.toList ++ b) = .ok a := by
  refine ⟨fun p => parse_of_cut a, ?_, ?_⟩
  · intro b c r hb hc
    have hc : isBlank c = false := by
      rw [← Bool.not_eq_true, isBlank_iff]
      exact hc
    rw [parse_append h.standard, expectEnd_behind hb hc]
  · intro b hb
    rw [parse_append h.standard, expectEnd_blank hb]

/-- The text of a peer's address with a digit of its family left is cut, although the digit is a
number, and its text with a second closing brace behind a blank is malformed. -/
theorem truncation_of_peer :
    parse "\x7b\"family\":4".toList = .error (.text .ended) ∧
    parse ((Descriptor.peer 33 1234).toJson.compact.toList ++ " \x7d".toList) =
      .error (.text .malformed) := by
  obtain ⟨hcut, hbehind, -⟩ := truncation_of_compact (.peer 33 1234)
  have hblank : Blank [' '] := by simp [Blank]
  refine ⟨hcut _ ?_ ?_, hbehind [' '] '\x7d' [] hblank (by decide)⟩
  · decide
  · decide

end Descriptor
end Handoff
