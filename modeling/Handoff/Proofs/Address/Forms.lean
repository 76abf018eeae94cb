import Handoff.Proofs.Address.Codec
import Handoff.Proofs.Json.Passing
import Mathlib.Data.List.Nodup

/-!
The JSON forms of a descriptor. Its seven values may be listed, or be members of an object in any
order among unknown ones, with any blanks between: all such texts are read as the same values, and
only the rules of a descriptor decide then. A known member that is missing or comes twice makes an
object a misfit. The induction is on how the members are written, and carries what the settings read
so far have made of the draft (`fromName_members`). The main statement is `parse_forms`.
-/
namespace Handoff.Descriptor

open Json

/-! ### Settings -/

/-- A known member with a value that fits it. -/
inductive Setting where
  | number (f : NumberField) (n : Nat) (fits : n ≤ f.limit)
  | role (r : Role)

def Setting.field : Setting → Field
  | .number f _ _ => .number f
  | .role _ => .role

def Draft.put (d : Draft) : Setting → Draft
  | .number f n _ => d.setNumber f n
  | .role r => d.setRole r

namespace Fields

def number (v : Fields) : NumberField → Nat
  | .family => v.family.toNat
  | .reserved => v.reserved.toNat
  | .port => v.port.toNat
  | .cid => v.cid.toNat
  | .flags => v.flags.toNat
  | .length => v.length.toNat

theorem number_le (v : Fields) (f : NumberField) : v.number f ≤ f.limit := by
  cases f with
  | family => exact Nat.le_of_lt_succ v.family.toNat_lt
  | reserved => exact Nat.le_of_lt_succ v.reserved.toNat_lt
  | port => exact Nat.le_of_lt_succ v.port.toNat_lt
  | cid => exact Nat.le_of_lt_succ v.cid.toNat_lt
  | flags => exact Nat.le_of_lt_succ v.flags.toNat_lt
  | length => exact Nat.le_of_lt_succ v.length.toNat_lt

def setting (v : Fields) : Field → Setting
  | .number f => .number f (v.number f) (v.number_le f)
  | .role => .role v.role

/-- The seven settings in the order of the members. -/
def settings (v : Fields) : List Setting := Field.all.map v.setting

theorem field_setting (v : Fields) (f : Field) : (v.setting f).field = f := by cases f <;> rfl

theorem fields_settings (v : Fields) : v.settings.map Setting.field = Field.all := by
  simp [settings, Function.comp_def, field_setting]

/-- What the seven values are answered: the first rule that they break, in the order family,
reserved field, declared length, or the descriptor that the others make. -/
def verdict (v : Fields) : Except ReadError Descriptor :=
  if v.family ≠ 40 then .error (.flaw (.family v.family))
  else if v.reserved ≠ 0 then .error (.flaw (.reserved v.reserved))
  else if v.length ≠ 11 then .error (.flaw (.declaredLength v.length))
  else .ok ⟨40, 0, v.port, v.cid, v.flags, 11, v.role⟩

end Fields

namespace Draft

variable {d d' : Draft} {x y : Setting} {xs ys : List Setting}

theorem has_put (d : Draft) (x : Setting) (f : Field) :
    (d.put x).has f = true ↔ d.has f = true ∨ f = x.field := by
  cases x with
  | number g n fits =>
    cases f with
    | number f => by_cases h : f = g <;> simp [put, has, setNumber, Setting.field, h]
    | role => simp [put, has, setNumber, Setting.field]
  | role r => cases f <;> simp [put, has, setRole, Setting.field]

theorem not_has_empty (f : Field) : ¬empty.has f := by
  cases f <;> exact Bool.false_ne_true

/-- Settings of different members do not stand in each other's way. -/
theorem put_comm (d : Draft) (h : x.field ≠ y.field) : (d.put x).put y = (d.put y).put x := by
  cases x with
  | number f m hm =>
    cases y with
    | number g n hn =>
      have hne : f ≠ g := fun he => h (congrArg Field.number he)
      simp only [put, setNumber, mk.injEq, and_true]
      funext k
      by_cases hf : k = f <;> by_cases hg : k = g <;> simp_all
    | role s => rfl
  | role r =>
    cases y with
    | number g n hn => rfl
    | role s => exact absurd rfl h

/-- The draft that settings make, if none of them is there already. -/
def enter? (d : Draft) : List Setting → Option Draft
  | [] => some d
  | x :: xs => if d.has x.field then none else (d.put x).enter? xs

theorem enter?_append (d : Draft) (xs ys : List Setting) :
    d.enter? (xs ++ ys) = (d.enter? xs).bind fun d => d.enter? ys := by
  induction xs generalizing d with
  | nil => rfl
  | cons x xs ih =>
    rw [List.cons_append, enter?, enter?]
    by_cases h : d.has x.field = true
    · rw [if_pos h, if_pos h]
      rfl
    · rw [if_neg h, if_neg h, ih]

theorem has_of_enter? (h : d.enter? xs = some d') (f : Field) :
    d'.has f = true ↔ d.has f = true ∨ f ∈ xs.map Setting.field := by
  induction xs generalizing d with
  | nil =>
    cases h
    simp
  | cons x xs ih =>
    rw [enter?] at h
    split at h
    · cases h
    · rw [ih h, has_put, List.map_cons, List.mem_cons, or_assoc]

/-- Settings are entered exactly when each is of another member and none is there already. -/
theorem enter?_eq_some_iff :
    d.enter? xs = some d' ↔ (xs.map Setting.field).Nodup ∧
      (∀ f ∈ xs.map Setting.field, ¬d.has f) ∧ xs.foldl put d = d' := by
  induction xs generalizing d with
  | nil => simp [enter?]
  | cons x xs ih =>
    have hput : (∀ f ∈ xs.map Setting.field, ¬(d.put x).has f) ↔
        x.field ∉ xs.map Setting.field ∧ ∀ f ∈ xs.map Setting.field, ¬d.has f := by
      simp only [has_put, not_or]
      constructor
      · intro h
        exact ⟨fun hx => (h _ hx).2 rfl, fun f hf => (h f hf).1⟩
      · rintro ⟨hx, h⟩ f hf
        exact ⟨h f hf, fun he => hx (he ▸ hf)⟩
    rw [enter?, List.map_cons, List.nodup_cons, List.forall_mem_cons, List.foldl_cons]
    by_cases hx : d.has x.field
    · rw [if_pos hx]
      constructor
      · intro h
        cases h
      · rintro ⟨-, ⟨hnot, -⟩, -⟩
        exact absurd hx hnot
    · rw [if_neg hx, ih, hput]
      constructor
      · rintro ⟨hnodup, ⟨hnot, h⟩, hfold⟩
        exact ⟨⟨hnot, hnodup⟩, ⟨hx, h⟩, hfold⟩
      · rintro ⟨⟨hnot, hnodup⟩, ⟨-, h⟩, hfold⟩
        exact ⟨hnodup, ⟨hnot, h⟩, hfold⟩

theorem has_of_complete? {v : Fields} (h : d.complete? = some v) (f : Field) : d.has f = true := by
  simp only [complete?, Option.bind_eq_bind, Option.bind_eq_some_iff] at h
  obtain ⟨_, h1, _, h2, _, h3, _, h4, _, h5, _, h6, _, h7, -⟩ := h
  cases f with
  | number f => cases f <;> simp [has, *]
  | role => simp [has, *]

theorem complete?_settings (v : Fields) : (v.settings.foldl put empty).complete? = some v := by
  simp [Fields.settings, Field.all, Fields.setting, put, setNumber, setRole, empty, complete?,
    Fields.number]

/-- The order of the seven settings does not matter. -/
theorem enter?_perm {v : Fields} (h : xs.Perm v.settings) :
    (empty.enter? xs).bind complete? = some v := by
  have hnodup : (xs.map Setting.field).Nodup := by
    rw [(h.map Setting.field).nodup_iff, v.fields_settings]
    decide
  have hfold : xs.foldl put empty = v.settings.foldl put empty := by
    refine h.foldl_eq' (fun x hx y hy d => ?_) empty
    by_cases hxy : x = y
    · rw [hxy]
    · exact put_comm d fun he => hxy (List.inj_on_of_nodup_map hnodup hx hy he)
  have henter : empty.enter? xs = some (v.settings.foldl put empty) :=
    enter?_eq_some_iff.mpr ⟨hnodup, fun f _ => not_has_empty f, hfold⟩
  rw [henter]
  exact complete?_settings v

/-- Settings that miss a member, or have one twice, make no whole draft. -/
theorem enter?_of_count {f : Field} (h : (xs.map Setting.field).count f ≠ 1) :
    (empty.enter? xs).bind complete? = none := by
  rw [Option.bind_eq_none_iff]
  intro d hd
  rw [← Option.not_isSome_iff_eq_none, Option.isSome_iff_exists]
  rintro ⟨v, hv⟩
  have hnodup := (enter?_eq_some_iff.mp hd).1
  have hmem : f ∈ xs.map Setting.field := by
    rcases (has_of_enter? hd f).mp (has_of_complete? hv f) with hf | hf
    · exact absurd hf (not_has_empty f)
    · exact hf
  exact h (List.count_eq_one_of_mem hnodup hmem)

end Draft

/-! ### The texts -/

/-- The texts of a value: the decimal digits of a number, the name of a role, or the name of a role
as the one member of an object. -/
inductive Setting.Writes : Setting → List Char → Prop where
  | number {f : NumberField} {n : Nat} (fits : n ≤ f.limit) :
      Writes (.number f n fits) (Nat.toDigits 10 n)
  | name {r : Role} {s : List Char} (hs : Spells s r.name.toList) :
      Writes (.role r) ('"' :: (s ++ ['"']))
  | tagged {r : Role} {k s : List Char} (hk : Spells k r.name.toList)
      (hs : Entry k ['n', 'u', 'l', 'l'] s) : Writes (.role r) ('\x7b' :: (s ++ ['\x7d']))

/-- The members of an object, one at least, with the settings that the known ones among them make.
An unknown member has any value. -/
inductive Members : List Setting → List Char → Prop where
  | known {x : Setting} {k v s : List Char} (hk : Spells k x.field.name.toList) (hv : x.Writes v)
      (hs : Entry k v s) : Members [x] s
  | unknown {name k v s : List Char} (hk : Spells k name)
      (hname : ∀ f : Field, f.name.toList ≠ name) (hv : Written .value v) (hs : Entry k v s) :
      Members [] s
  | append {xs ys : List Setting} {s t : List Char} (hs : Members xs s) (ht : Members ys t) :
      Members (xs ++ ys) (s ++ ',' :: t)

/-- The items of a list, one at least. -/
inductive Items : List Setting → List Char → Prop where
  | one {x : Setting} {a v : List Char} (ha : Blank a) (hv : x.Writes v) : Items [x] (a ++ v)
  | cons {x : Setting} {xs : List Setting} {a v b s : List Char} (ha : Blank a) (hv : x.Writes v)
      (hb : Blank b) (hs : Items xs s) : Items (x :: xs) (a ++ (v ++ (b ++ ',' :: s)))

/-- Texts that are an object, with the settings that it makes. -/
inductive ObjectText : List Setting → List Char → Prop where
  | empty {a b c : List Char} (ha : Blank a) (hb : Blank b) (hc : Blank c) :
      ObjectText [] (a ++ '\x7b' :: (b ++ '\x7d' :: c))
  | members {xs : List Setting} {a s c : List Char} (ha : Blank a) (hs : Members xs s)
      (hc : Blank c) : ObjectText xs (a ++ '\x7b' :: (s ++ '\x7d' :: c))

/-- The texts that write seven values: as an object that has each known member once, in any order,
or as a list in the order of the members. -/
inductive Fields.Writes (v : Fields) : List Char → Prop where
  | object {xs : List Setting} {text : List Char} (hxs : xs.Perm v.settings)
      (ht : ObjectText xs text) : Writes v text
  | list {a s b c : List Char} (ha : Blank a) (hs : Items v.settings s) (hb : Blank b)
      (hc : Blank c) : Writes v (a ++ '[' :: (s ++ (b ++ ']' :: c)))

/-! ### Reading a value -/

variable {d : Draft} {x : Setting} {xs : List Setting} {a b k s t v r text : List Char}

theorem readRole_append {role : Role} (ha : Blank a) (hv : (Setting.role role).Writes v) :
    readRole (a ++ (v ++ r)) = .ok (role, r) := by
  cases hv with
  | name hs =>
    rw [readRole, List.cons_append, List.append_assoc, skipBlanks_behind ha rfl]
    simp [readString_append hs, Role.ofName?_name]
  | tagged hk hs =>
    cases hs with
    | mk h1 h2 h3 h4 =>
      simp only [List.append_assoc, List.cons_append, List.nil_append]
      rw [readRole, skipBlanks_behind ha rfl]
      simp [readName_append h1 hk, Role.ofName?_name, skipColon_append h2, readNull_append h3,
        skipBlanks_behind h4 (c := '\x7d') rfl]

theorem readField_append (ha : Blank a) (hv : x.Writes v) (hr : Stops r) :
    readField x.field d (a ++ (v ++ r)) = .ok (d.put x, r) := by
  cases x with
  | number f n fits =>
    have hlimit : f.limit < wordBound := by cases f <;> decide
    cases hv
    simp [Setting.field, readField, readNat_append ha fits hlimit hr, Draft.put]
  | role role => simp [Setting.field, readField, readRole_append ha hv, Draft.put]

theorem Setting.Writes.exists_cons (hv : x.Writes v) :
    ∃ c t, v = c :: t ∧ isBlank c = false ∧ c ≠ ']' := by
  cases hv with
  | @number f n fits =>
    obtain ⟨c, t, ht, hc⟩ := (whole_toDigits n).exists_cons
    obtain ⟨hb, hne⟩ := ne_of_number (.inr hc)
    exact ⟨c, t, ht, hb, by rintro rfl; exact hne (by decide)⟩
  | name | tagged => exact ⟨_, _, rfl, rfl, by decide⟩

/-! ### Reading an object -/

theorem ofName?_fieldName (f : Field) : Field.ofName? f.name = some f := by
  cases f with
  | number f => cases f <;> decide
  | role => decide

theorem ofName?_eq_none {name : List Char} (h : ∀ f : Field, f.name.toList ≠ name) :
    Field.ofName? (String.ofList name) = none := by
  rw [Field.ofName?, List.find?_eq_none]
  intro f _ hf
  apply h f
  rw [eq_of_beq hf, String.toList_ofList]

/-- The reader of members in front of a name that is not opened yet. -/
def fromName (d : Draft) (s : List Char) : Reading Draft :=
  match skipBlanks s with
  | [] => .error .ended
  | '"' :: r => readMembers d r
  | _ => .error .malformed

/-- The reader of members behind one. -/
def afterwards (d : Draft) (s : List Char) : Reading Draft :=
  match afterMember s with
  | .error e => .error e
  | .ok (false, r) => .ok (d, r)
  | .ok (true, r) => readMembers d r

theorem afterwards_blank (ha : Blank a) (s : List Char) :
    afterwards d (a ++ s) = afterwards d s := by
  rw [afterwards, afterwards, afterMember, afterMember, skipBlanks_append ha]

theorem afterwards_comma (s : List Char) : afterwards d (',' :: s) = fromName d s := by
  have hcomma : afterMember (',' :: s) =
      match skipBlanks s with
      | [] => .error .ended
      | '"' :: r => .ok (true, r)
      | _ => .error .malformed := rfl
  rw [afterwards, hcomma, fromName]
  cases skipBlanks s with
  | nil => rfl
  | cons c s =>
    by_cases hc : c = '"'
    · simp only [hc]
    · simp [hc]

theorem afterwards_closing (s : List Char) : afterwards d ('\x7d' :: s) = .ok (d, s) := rfl

theorem readMembers_of_readMember (d : Draft) (s : List Char) :
    readMembers d s =
      match readMember d s with
      | .error e => .error e
      | .ok (d, r) => afterwards d r := by
  rw [readMembers_eq]
  cases readMember d s <;> rfl

/-- What has been read, and what is left of the text. What is not there is a misfit. -/
def granted {α : Type} (x : Option α) (r : List Char) : Reading α :=
  match x with
  | some x => .ok (x, r)
  | none => .error .misfit

/-- The reader of members behind some that have been entered, or at one that is there already. -/
def behind (d : Option Draft) (s : List Char) : Reading Draft :=
  match d with
  | some d => afterwards d s
  | none => .error .misfit

theorem readMember_known (hk : Spells k x.field.name.toList) (hb : Blank b) (ha : Blank a)
    (hv : x.Writes v) (hr : Stops r) :
    readMember d (k ++ '"' :: (b ++ ':' :: (a ++ (v ++ r)))) = granted (d.enter? [x]) r := by
  rw [readMember, readString_append hk]
  simp only [String.ofList_toList, ofName?_fieldName, skipColon_append hb,
    readField_append ha hv hr, Draft.enter?]
  by_cases hx : d.has x.field
  · rw [if_pos hx, if_pos hx]
    rfl
  · rw [if_neg hx, if_neg hx]
    rfl

theorem readMember_unknown {name : List Char} (hk : Spells k name)
    (hname : ∀ f : Field, f.name.toList ≠ name) (hb : Blank b) (ha : Blank a)
    (hv : Written .value v) (hr : Stops r) :
    readMember d (k ++ '"' :: (b ++ ':' :: (a ++ (v ++ r)))) = granted (some d) r := by
  rw [readMember, readString_append hk]
  simp only [ofName?_eq_none hname, skipColon_append hb, skipValue_append ha hv hr]
  rfl

theorem fromName_entry {d' : Option Draft} (hs : Entry k v s) (hr : Stops r)
    (hread : ∀ b a r, Blank b → Blank a → Stops r →
      readMember d (k ++ '"' :: (b ++ ':' :: (a ++ (v ++ r)))) = granted d' r) :
    fromName d (s ++ r) = behind d' r := by
  cases hs with
  | @mk a b c e ha hb hc he =>
    simp only [List.append_assoc, List.cons_append]
    simp only [fromName, skipBlanks_behind ha (c := '"') rfl]
    rw [readMembers_of_readMember, hread b c (e ++ r) hb hc (he.stops hr)]
    cases d' with
    | none => rfl
    | some d' => exact afterwards_blank he r

/-- Members are read up to where they end, with their settings entered. -/
theorem fromName_members (h : Members xs s) (d : Draft) (hr : Stops r) :
    fromName d (s ++ r) = behind (d.enter? xs) r := by
  induction h generalizing d r with
  | known hk hv hs =>
    exact fromName_entry hs hr fun _ _ _ hb ha hr => readMember_known hk hb ha hv hr
  | unknown hk hname hv hs =>
    exact fromName_entry hs hr fun _ _ _ hb ha hr => readMember_unknown hk hname hb ha hv hr
  | append _ _ ihs iht =>
    -- what stands behind the comma is read on from what has been entered in front of it
    rw [List.append_assoc, List.cons_append, ihs d (stops_comma _), Draft.enter?_append]
    cases d.enter? _ with
    | none => rfl
    | some d => exact (afterwards_comma _).trans (iht d hr)

theorem Members.exists_cons (h : Members xs s) (r : List Char) :
    ∃ t, skipBlanks (s ++ r) = '"' :: t := by
  induction h generalizing r with
  | known _ _ hs => exact hs.exists_cons r
  | unknown _ _ _ hs => exact hs.exists_cons r
  | append _ _ ihs _ =>
    rw [List.append_assoc]
    exact ihs _

/-- An object is read up to its closing brace, whatever follows it. -/
theorem readFields_members (ha : Blank a) (hs : Members xs s) (r : List Char) :
    readFields (a ++ '\x7b' :: (s ++ '\x7d' :: r)) =
      granted ((Draft.empty.enter? xs).bind Draft.complete?) r := by
  have hread := fromName_members hs .empty (stops_of_mem (c := '\x7d') (by decide) r)
  obtain ⟨t, ht⟩ := hs.exists_cons ('\x7d' :: r)
  simp only [fromName, ht] at hread
  simp only [readFields, skipBlanks_behind ha (c := '\x7b') rfl, ht, hread]
  cases Draft.empty.enter? xs with
  | none => rfl
  | some d =>
    simp only [behind, afterwards_closing, Option.bind_some]
    cases d.complete? <;> rfl

theorem readFields_object (h : ObjectText xs s) :
    ∃ r, Blank r ∧ readFields s = granted ((Draft.empty.enter? xs).bind Draft.complete?) r := by
  cases h with
  | @empty a b c ha hb hc =>
    refine ⟨c, hc, ?_⟩
    simp only [readFields, skipBlanks_behind ha (c := '\x7b') rfl,
      skipBlanks_behind hb (c := '\x7d') rfl]
    rfl
  | members ha hs hc => exact ⟨_, hc, readFields_members ha hs _⟩

/-! ### Reading a list -/

/-- What stands in front of an item: nothing, or a comma behind the item before. -/
inductive Front : Bool → List Char → Prop where
  | first : Front true []
  | next {b : List Char} (hb : Blank b) : Front false (b ++ [','])

theorem readListed_cons {first : Bool} {p : List Char} (hp : Front first p) (ha : Blank a)
    (hv : x.Writes v) (fs : List Field) (d : Draft) (hr : Stops r) :
    readListed first (x.field :: fs) d (p ++ (a ++ (v ++ r))) =
      readListed false fs (d.put x) r := by
  have hread := readField_append (a := []) (d := d) blank_nil hv hr
  obtain ⟨c, t, rfl, hc, hne⟩ := hv.exists_cons
  rw [List.nil_append, List.cons_append] at hread
  rw [List.cons_append]
  cases hp with
  | first =>
    rw [List.nil_append, readListed, skipBlanks_behind ha hc]
    simp [hread]
  | next hb =>
    simp only [List.append_assoc, List.cons_append, List.nil_append]
    rw [readListed, skipBlanks_behind hb rfl]
    simp [skipBlanks_behind ha hc, hne, hread]

/-- All items of a list are read, their settings put into the draft. -/
theorem readListed_items (h : Items xs s) {first : Bool} {p : List Char} (hp : Front first p)
    (d : Draft) (hr : Stops r) :
    readListed first (xs.map Setting.field) d (p ++ (s ++ r)) = .ok (xs.foldl Draft.put d, r) := by
  induction h generalizing first p d with
  | one ha hv =>
    rw [List.append_assoc]
    exact readListed_cons hp ha hv [] d hr
  | @cons x xs a v b s ha hv hb hs ih =>
    have hstop : Stops (b ++ ',' :: (s ++ r)) := hb.stops (stops_comma _)
    simp only [List.append_assoc, List.cons_append]
    rw [List.map_cons, readListed_cons hp ha hv _ d hstop, List.foldl_cons, ← ih (.next hb)]
    simp

theorem readFields_list {v : Fields} {c : List Char} (ha : Blank a) (hs : Items v.settings s)
    (hb : Blank b) :
    readFields (a ++ '[' :: (s ++ (b ++ ']' :: c))) = .ok (v, c) := by
  have hstop : Stops (b ++ ']' :: c) := hb.stops (stops_of_mem (by decide) c)
  have hread := readListed_items hs .first .empty hstop
  rw [v.fields_settings, List.nil_append] at hread
  simp only [readFields, skipBlanks_behind ha (c := '[') rfl, hread, closeList,
    skipBlanks_behind hb (c := ']') rfl, Draft.complete?_settings]

/-! ### Whole texts -/

theorem Fields.Writes.readFields_eq {v : Fields} (h : v.Writes text) :
    ∃ r, Blank r ∧ readFields text = .ok (v, r) := by
  cases h with
  | object hxs ht =>
    obtain ⟨r, hr, hread⟩ := readFields_object ht
    rw [Draft.enter?_perm hxs] at hread
    exact ⟨r, hr, hread⟩
  | list ha hs hb hc => exact ⟨_, hc, readFields_list ha hs hb⟩

theorem expectEnd_blank (ha : Blank a) : expectEnd a = .ok () := by
  have h : skipBlanks a = [] := by
    rw [← List.append_nil a, skipBlanks_append ha]
    rfl
  rw [expectEnd, if_pos h]

theorem parse_of_readFields {v : Fields} (h : readFields text = .ok (v, r)) (hr : Blank r) :
    parse text = v.verdict := by
  simp only [parse, h, Fields.check_eq, Fields.verdict]
  split_ifs <;> simp [expectEnd_blank hr]

theorem Fields.verdict_eq_ok_iff {v : Fields} :
    (∃ d, v.verdict = .ok d) ↔ v.family = 40 ∧ v.reserved = 0 ∧ v.length = 11 := by
  rw [verdict]
  split_ifs <;> simp_all

/-! ### Compact texts -/

/-- A setting as a member with its name. -/
def Setting.member : Setting → String × Json
  | .number f n _ => (f.name, .count n)
  | .role r => (Field.role.name, .text r.name)

theorem Setting.member_fst (x : Setting) : x.member.1 = x.field.name := by cases x <;> rfl

theorem plain_fieldName (f : Field) : ∀ c ∈ f.name.toList, Plain c :=
  plain_of_all (by
    cases f with
    | number f => cases f <;> decide
    | role => decide)

theorem plain_roleName (r : Role) : ∀ c ∈ r.name.toList, Plain c :=
  plain_of_all (by cases r <;> decide)

theorem Setting.writes_member (x : Setting) : x.Writes x.member.2.write := by
  cases x with
  | number f n fits => exact .number fits
  | role r =>
    have h : (Setting.role r).member.2.write = '"' :: (r.name.toList ++ ['"']) :=
      quote_of_plain (plain_roleName r)
    rw [h]
    exact .name (spells_self (plain_roleName r))

/-- Members that are written without blanks. -/
theorem members_write (xs : List Setting) (h : xs ≠ []) :
    Members xs (writeMembers (xs.map Setting.member)) := by
  have hone : ∀ x : Setting, Members [x] (quote x.member.1 ++ ':' :: x.member.2.write) := by
    intro x
    have hname := plain_fieldName x.field
    rw [x.member_fst, quote_of_plain hname]
    exact .known (spells_self hname) x.writes_member (entry_compact _ _)
  induction xs with
  | nil => exact absurd rfl h
  | cons x xs ih =>
    cases xs with
    | nil => exact hone x
    | cons y ys =>
      have htext : writeMembers ((x :: y :: ys).map Setting.member) =
          quote x.member.1 ++ ':' :: x.member.2.write ++
            ',' :: writeMembers ((y :: ys).map Setting.member) := by
        simp [writeMembers]
      rw [htext]
      exact (hone x).append (ih (List.cons_ne_nil y ys))

/-- All texts that write the same seven values are answered alike: they are accepted exactly when
the values keep the rules of a descriptor, and are told the first rule broken otherwise. An object
that misses a known member, or has one twice, is a misfit before any rule is looked at. -/
theorem parse_forms :
    (∀ v : Fields, ∀ text, v.Writes text → parse text = v.verdict) ∧
    (∀ v : Fields, ∀ text, v.Writes text →
      ((∃ d, parse text = .ok d) ↔ v.family = 40 ∧ v.reserved = 0 ∧ v.length = 11)) ∧
    ∀ xs text, ObjectText xs text → (∃ f, (xs.map Setting.field).count f ≠ 1) →
      parse text = .error (.text .misfit) := by
  have hverdict : ∀ v : Fields, ∀ text, v.Writes text → parse text = v.verdict := by
    intro v text h
    obtain ⟨r, hr, hread⟩ := h.readFields_eq
    exact parse_of_readFields hread hr
  refine ⟨hverdict, ?_, ?_⟩
  · intro v text h
    rw [hverdict v text h]
    exact Fields.verdict_eq_ok_iff
  · rintro xs text h ⟨f, hf⟩
    obtain ⟨r, -, hread⟩ := readFields_object h
    rw [Draft.enter?_of_count hf] at hread
    simp only [parse, hread, granted]

/-- Members in the opposite order behind an unknown one make the address of a peer, and an object
with two ports is a misfit. -/
theorem parse_peer_members :
    parse ("\x7b \"x\": [\x7b\"y\": null\x7d],\"role\":\"peer\",\"len\":11,\"flags\":9," ++
      "\"cid\":33,\"port\":1234,\"reserved\":0,\"family\":40\x7d\n").toList =
        .ok { Descriptor.peer 33 1234 with flags := 9 } ∧
    parse "\x7b\"port\":1,\"port\":2\x7d".toList = .error (.text .misfit) := by
  obtain ⟨hforms, -, hmisfit⟩ := parse_forms
  have hblank : Blank [' '] := by simp [Blank]
  have hline : Blank ['\n'] := by simp [Blank]
  constructor
  · let v : Fields := ⟨40, 0, 1234, 33, 9, 11, .peer⟩
    have hnull : Written .value ['n', 'u', 'l', 'l'] := .word (by decide)
    have hvalue : Written .value "[\x7b\"y\": null\x7d]".toList :=
      .list (.item blank_nil (.object (.member (.plain (by decide) .nil) hnull
        (.mk blank_nil blank_nil hblank blank_nil))) blank_nil)
    have hname : Spells ['x'] ['x'] := .plain (by decide) .nil
    have hunknown : Members [] " \"x\": [\x7b\"y\": null\x7d]".toList :=
      .unknown hname
        (fun f => by cases f with | number f => cases f <;> decide | role => decide) hvalue
        (.mk hblank blank_nil hblank blank_nil)
    have hmembers := hunknown.append (members_write v.settings.reverse (by decide))
    have hobject := ObjectText.members blank_nil hmembers hline
    refine (congrArg parse ?_).trans (hforms v _ (.object (List.reverse_perm _) hobject))
    decide
  · let ports : List Setting := [.number .port 1 (by decide), .number .port 2 (by decide)]
    have hmembers := members_write ports (by decide)
    refine (congrArg parse ?_).trans
      (hmisfit _ _ (.members blank_nil hmembers blank_nil) ⟨.number .port, by decide⟩)
    decide

end Handoff.Descriptor
