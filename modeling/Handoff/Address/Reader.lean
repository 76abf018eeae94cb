import Handoff.Address.Fields
import Handoff.Json.Skip
import Handoff.Json.Reader

/-!
Reading descriptors and roles from JSON text. A descriptor is an object that holds the seven members
in any order among unknown ones, or a list of the seven values in their order.
-/
namespace Handoff

namespace Descriptor

open Json

/-- A role: its name, or an object whose one member has that name and is null. -/
def readRole (s : List Char) : Reading Role :=
  match skipBlanks s with
  | [] => .error .ended
  | '"' :: r =>
    match readString r with
    | .error e => .error e
    | .ok (name, r) =>
      match Role.ofName? name with
      | none => .error .misfit
      | some role => .ok (role, r)
  | '\x7b' :: r =>
    match readName r with
    | .error e => .error e
    | .ok (name, r) =>
      match Role.ofName? name with
      | none => .error .misfit
      | some role =>
        match skipColon r with
        | .error e => .error e
        | .ok r =>
          match readNull r with
          | .error e => .error e
          | .ok r =>
            match skipBlanks r with
            | [] => .error .ended
            | '\x7d' :: r => .ok (role, r)
            | _ => .error .malformed
  | _ => .error .malformed

/-- Reads the value of a member into a draft. -/
def readField (f : Field) (d : Draft) (s : List Char) : Reading Draft :=
  match f with
  | .number f =>
    match readNat f.limit s with
    | .ok (n, r) => .ok (d.setNumber f n, r)
    | .error e => .error e
  | .role =>
    match readRole s with
    | .ok (role, r) => .ok (d.setRole role, r)
    | .error e => .error e

/-- Reads a member whose name has been opened: a known one at its first appearance, or any other,
which is passed over. -/
def readMember (d : Draft) (s : List Char) : Reading Draft :=
  match readString s with
  | .error e => .error e
  | .ok (name, r) =>
    match Field.ofName? name with
    | none =>
      match skipColon r with
      | .error e => .error e
      | .ok r =>
        match skipValue r with
        | .ok r => .ok (d, r)
        | .error e => .error e
    | some f =>
      if d.has f then .error .misfit
      else
        match skipColon r with
        | .ok r => readField f d r
        | .error e => .error e

theorem length_lt_of_readRole {s r : List Char} {role : Role} (h : readRole s = .ok (role, r)) :
    r.length < s.length := by
  unfold readRole at h
  have hb := length_skipBlanks_le s
  split at h
  · simp at h
  · rename_i t ht
    rw [ht] at hb
    split at h
    · simp at h
    rename_i hs
    split at h
    · simp at h
    simp at h
    have := length_lt_of_readString hs
    simp at hb; rw [← h.2]; omega
  · rename_i t ht
    rw [ht] at hb
    split at h
    · simp at h
    rename_i hs
    have := length_lt_of_readName hs
    split at h
    · simp at h
    split at h
    · simp at h
    rename_i hc
    split at h
    · simp at h
    rename_i u hn
    have := length_lt_of_skipColon hc
    have := length_lt_of_readNull hn
    have hb₂ := length_skipBlanks_le u
    split at h
    · simp at h
    · rename_i hu
      rw [hu] at hb₂
      simp at h hb hb₂; rw [← h.2]; omega
    · simp at h
  · simp at h

theorem length_lt_of_readField {f : Field} {d d' : Draft} {s r : List Char}
    (h : readField f d s = .ok (d', r)) : r.length < s.length := by
  unfold readField at h
  split at h
  · split at h
    · rename_i hn
      simp at h; rw [← h.2]; exact length_lt_of_readNat hn
    · simp at h
  · split at h
    · rename_i hr
      simp at h; rw [← h.2]; exact length_lt_of_readRole hr
    · simp at h

theorem length_lt_of_readMember {d d' : Draft} {s r : List Char}
    (h : readMember d s = .ok (d', r)) : r.length < s.length := by
  unfold readMember at h
  split at h
  · simp at h
  rename_i hs
  have := length_lt_of_readString hs
  split at h
  · split at h
    · simp at h
    rename_i hc
    split at h
    · rename_i hv
      have := length_lt_of_skipColon hc
      have := length_lt_of_skipValue hv
      simp at h; rw [← h.2]; omega
    · simp at h
  · split at h
    · simp at h
    split at h
    · rename_i hc
      have := length_lt_of_skipColon hc
      have := length_lt_of_readField h
      omega
    · simp at h

/-- What may stand behind a member: the end of the object, or the opened name of the next. -/
def afterMember (s : List Char) : Reading Bool :=
  match skipBlanks s with
  | [] => .error .ended
  | '\x7d' :: r => .ok (false, r)
  | ',' :: r =>
    match skipBlanks r with
    | [] => .error .ended
    | '"' :: r => .ok (true, r)
    | _ => .error .malformed
  | _ => .error .malformed

theorem length_lt_of_afterMember {s r : List Char} {more : Bool}
    (h : afterMember s = .ok (more, r)) : r.length < s.length := by
  unfold afterMember at h
  have hb := length_skipBlanks_le s
  split at h
  · simp at h
  · rename_i hs
    rw [hs] at hb
    simp at h hb; rw [← h.2]; omega
  · rename_i t ht
    rw [ht] at hb
    have hb₂ := length_skipBlanks_le t
    split at h
    · simp at h
    · rename_i hs
      rw [hs] at hb₂
      simp at h hb hb₂; rw [← h.2]; omega
    · simp at h
  · simp at h

/-- Reads the members of an object from the opened name of one to the closing brace. -/
def readMembers (d : Draft) (s : List Char) : Reading Draft :=
  match hm : readMember d s with
  | .error e => .error e
  | .ok (d, r) =>
    match ha : afterMember r with
    | .error e => .error e
    | .ok (false, r) => .ok (d, r)
    | .ok (true, r) =>
      have := length_lt_of_readMember hm
      have := length_lt_of_afterMember ha
      readMembers d r
termination_by s.length

theorem readMembers_eq (d : Draft) (s : List Char) :
    readMembers d s =
      match readMember d s with
      | .error e => .error e
      | .ok (d, r) =>
        match afterMember r with
        | .error e => .error e
        | .ok (false, r) => .ok (d, r)
        | .ok (true, r) => readMembers d r := by
  rw [readMembers]
  split
  · simp_all
  · split <;> simp_all

/-- Reads listed values, each but the first of all behind a comma. A list that closes early is of
the wrong shape. -/
def readListed (first : Bool) : List Field → Draft → List Char → Reading Draft
  | [], d, s => .ok (d, s)
  | f :: fs, d, s =>
    match skipBlanks s with
    | [] => .error .ended
    | ']' :: _ => .error .misfit
    | c :: r =>
      if first then
        match readField f d (c :: r) with
        | .ok (d, r) => readListed false fs d r
        | .error e => .error e
      else if c = ',' then
        match skipBlanks r with
        | [] => .error .ended
        | ']' :: _ => .error .malformed
        | r =>
          match readField f d r with
          | .ok (d, r) => readListed false fs d r
          | .error e => .error e
      else .error .malformed

/-- The bracket that ends a list with all its values. -/
def closeList (s : List Char) : Except Fault (List Char) :=
  match skipBlanks s with
  | [] => .error .ended
  | ']' :: r => .ok r
  | _ => .error .malformed

/-- Reads the seven values from an object or a list. -/
def readFields (s : List Char) : Reading Fields :=
  let finish : Draft × List Char → Reading Fields
    | (d, r) =>
      match d.complete? with
      | some v => .ok (v, r)
      | none => .error .misfit
  match skipBlanks s with
  | [] => .error .ended
  | '\x7b' :: r =>
    match skipBlanks r with
    | [] => .error .ended
    | '\x7d' :: r => finish (.empty, r)
    | '"' :: r =>
      match readMembers .empty r with
      | .ok p => finish p
      | .error e => .error e
    | _ => .error .malformed
  | '[' :: r =>
    match readListed true Field.all .empty r with
    | .error e => .error e
    | .ok (d, r) =>
      match closeList r with
      | .ok r => finish (d, r)
      | .error e => .error e
  | s => .error (misfitAt s)

/-- Why text is no descriptor: a fault of the text, or a flaw of the values in it. -/
inductive ReadError where
  | text (fault : Fault)
  | flaw (flaw : Flaw)
  deriving DecidableEq, Repr

/-- Reads a whole text. The rules of a descriptor are looked at when its value ends, before what
follows it. -/
def parse (text : List Char) : Except ReadError Descriptor :=
  match readFields text with
  | .error e => .error (.text e)
  | .ok (v, r) =>
    match v.check with
    | .error e => .error (.flaw e)
    | .ok d =>
      match expectEnd r with
      | .ok () => .ok d
      | .error e => .error (.text e)

end Descriptor

/-- Reads a whole text that is a role. -/
def Role.parse (text : List Char) : Except Json.Fault Role :=
  match Descriptor.readRole text with
  | .error e => .error e
  | .ok (role, r) =>
    match Json.expectEnd r with
    | .ok () => .ok role
    | .error e => .error e

end Handoff
