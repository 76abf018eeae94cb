import Handoff.Json.Numeral

/-!
Passing over a value of any kind. The brackets that are open are kept in a list, the innermost
first, so depth has no limit; `length_lt_of_skipStep` is why the walk ends.
-/
namespace Handoff.Json

inductive Bracket where
  | square | curly
  deriving DecidableEq, Repr

def Bracket.closing : Bracket → Char
  | .square => ']'
  | .curly => '\x7d'

/-- Passes over a value that is neither list nor object. -/
def skipScalar (s : List Char) : Except Fault (List Char) :=
  match s with
  | [] => .error .ended
  | 'n' :: r => skipWord ['u', 'l', 'l'] r
  | 't' :: r => skipWord ['r', 'u', 'e'] r
  | 'f' :: r => skipWord ['a', 'l', 's', 'e'] r
  | '"' :: r => skipString r
  | c :: _ =>
    if c = '-' ∨ isDigit c then
      match scanNumber .malformed s with
      | .ok (_, r) => .ok r
      | .error e => .error e
    else .error .malformed

theorem length_lt_of_skipScalar {s r : List Char} (h : skipScalar s = .ok r) :
    r.length < s.length := by
  unfold skipScalar at h
  split at h
  · simp at h
  · have := length_le_of_skipWord h; simp; omega
  · have := length_le_of_skipWord h; simp; omega
  · have := length_le_of_skipWord h; simp; omega
  · have := length_lt_of_skipString h; simp; omega
  · split at h
    · split at h
      · rename_i hn
        simp at h
        rw [← h]; exact length_lt_of_scanNumber hn
      · simp at h
    · simp at h

/-- The colon between a name and its value. -/
def skipColon (s : List Char) : Except Fault (List Char) :=
  match skipBlanks s with
  | [] => .error .ended
  | ':' :: r => .ok r
  | _ => .error .malformed

theorem length_lt_of_skipColon {s r : List Char} (h : skipColon s = .ok r) :
    r.length < s.length := by
  unfold skipColon at h
  have hb := length_skipBlanks_le s
  split at h
  · simp at h
  · rename_i hs
    rw [hs] at hb
    simp at h hb; rw [← h]; omega
  · simp at h

/-- Passes over the name of a member and its colon. -/
def skipName (s : List Char) : Except Fault (List Char) :=
  match skipBlanks s with
  | [] => .error .ended
  | '"' :: r => skipString r >>= skipColon
  | _ => .error .malformed

theorem length_lt_of_skipName {s r : List Char} (h : skipName s = .ok r) : r.length < s.length := by
  unfold skipName at h
  have hb := length_skipBlanks_le s
  split at h
  · simp at h
  · rename_i t ht
    cases hs : skipString t with
    | error e => simp [hs, bind, Except.bind] at h
    | ok u =>
      simp [hs, bind, Except.bind] at h
      have := length_lt_of_skipString hs
      have := length_lt_of_skipColon h
      simp [ht] at hb; omega
  · simp at h

/-- What stands behind a value: the brackets that close there, then a comma if a bracket is still
open, and up to the next value. The brackets left open are given back. -/
def skipClosings : List Bracket → List Char → Reading (List Bracket)
  | [], s => .ok ([], s)
  | b :: outer, s =>
    match skipBlanks s with
    | [] => .error .ended
    | c :: r =>
      if c = b.closing then skipClosings outer r
      else if c = ',' then
        match b with
        | .square => .ok (b :: outer, r)
        | .curly =>
          match skipName r with
          | .ok r => .ok (b :: outer, r)
          | .error e => .error e
      else .error .malformed

theorem length_le_of_skipClosings {bs os : List Bracket} {s r : List Char}
    (h : skipClosings bs s = .ok (os, r)) : r.length ≤ s.length := by
  induction bs generalizing s with
  | nil => simp [skipClosings] at h; simp [h]
  | cons b outer ih =>
    have hb := length_skipBlanks_le s
    unfold skipClosings at h
    split at h
    · simp at h
    · rename_i c t ht
      simp [ht] at hb
      split at h
      · have := ih h; omega
      split at h
      · split at h
        · simp at h; obtain ⟨-, rfl⟩ := h; omega
        · split at h
          · rename_i hn
            simp at h; obtain ⟨-, rfl⟩ := h
            have := length_lt_of_skipName hn; omega
          · simp at h
      · simp at h

/-- One opening bracket or one whole scalar, and what stands behind it up to the next value.
Nothing is left open when the outermost value is complete. -/
def skipStep (outer : List Bracket) (s : List Char) : Reading (List Bracket) :=
  match skipBlanks s with
  | '[' :: r =>
    match skipBlanks r with
    | [] => .error .ended
    | ']' :: r => skipClosings outer r
    | _ => .ok (.square :: outer, r)
  | '\x7b' :: r =>
    match skipBlanks r with
    | [] => .error .ended
    | '\x7d' :: r => skipClosings outer r
    | _ =>
      match skipName r with
      | .ok r => .ok (.curly :: outer, r)
      | .error e => .error e
  | s =>
    match skipScalar s with
    | .ok r => skipClosings outer r
    | .error e => .error e

theorem length_lt_of_skipStep {outer os : List Bracket} {s r : List Char}
    (h : skipStep outer s = .ok (os, r)) : r.length < s.length := by
  unfold skipStep at h
  have hb := length_skipBlanks_le s
  split at h
  · rename_i t ht
    simp [ht] at hb
    have ht' := length_skipBlanks_le t
    split at h
    · simp at h
    · rename_i u hu
      simp [hu] at ht'
      have := length_le_of_skipClosings h; omega
    · simp at h; obtain ⟨-, rfl⟩ := h; omega
  · rename_i t ht
    simp [ht] at hb
    have ht' := length_skipBlanks_le t
    split at h
    · simp at h
    · rename_i u hu
      simp [hu] at ht'
      have := length_le_of_skipClosings h; omega
    · split at h
      · rename_i hn
        simp at h; obtain ⟨-, rfl⟩ := h
        have := length_lt_of_skipName hn; omega
      · simp at h
  · split at h
    · rename_i hs
      have := length_le_of_skipClosings h
      have := length_lt_of_skipScalar hs
      omega
    · simp at h

/-- Passes over the rest of a value inside which some brackets are open. -/
def skipOpen (outer : List Bracket) (s : List Char) : Except Fault (List Char) :=
  match h : skipStep outer s with
  | .error e => .error e
  | .ok ([], r) => .ok r
  | .ok (b :: outer, r) =>
    have := length_lt_of_skipStep h
    skipOpen (b :: outer) r
termination_by s.length

theorem skipOpen_eq (outer : List Bracket) (s : List Char) :
    skipOpen outer s =
      match skipStep outer s with
      | .error e => .error e
      | .ok ([], r) => .ok r
      | .ok (b :: outer, r) => skipOpen (b :: outer) r := by
  rw [skipOpen]
  split <;> simp_all

/-- Passes over any value, however deep. -/
def skipValue (s : List Char) : Except Fault (List Char) := skipOpen [] s

theorem length_lt_of_skipOpen {outer : List Bracket} {s r : List Char}
    (h : skipOpen outer s = .ok r) : r.length < s.length := by
  fun_induction skipOpen outer s with
  | case1 => simp at h
  | case2 outer s r' hs => simp at h; rw [← h]; exact length_lt_of_skipStep hs
  | case3 outer s b os r' _ hs ih => have := ih h; omega

theorem length_lt_of_skipValue {s r : List Char} (h : skipValue s = .ok r) : r.length < s.length :=
  length_lt_of_skipOpen h

end Handoff.Json
