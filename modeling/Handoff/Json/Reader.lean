import Handoff.Json.Numeral

/-!
Values of a wanted kind: natural numbers up to a limit and the word `null`. Any other value is a
misfit, unless its own text has a fault that comes first. The name of a member is no value: what is
no string there is no JSON.
-/
namespace Handoff.Json

/-- The fault of a value that is not of the wanted kind: words, numbers and strings are read first
and may have a fault of their own, lists and objects are not entered. -/
def misfitAt (s : List Char) : Fault :=
  let after {α : Type} : Except Fault α → Fault
    | .ok _ => .misfit
    | .error e => e
  match s with
  | [] => .ended
  | 'n' :: r => after (skipWord ['u', 'l', 'l'] r)
  | 't' :: r => after (skipWord ['r', 'u', 'e'] r)
  | 'f' :: r => after (skipWord ['a', 'l', 's', 'e'] r)
  | '"' :: r => after (readString r)
  | '[' :: _ => .misfit
  | '\x7b' :: _ => .misfit
  | c :: _ => if c = '-' ∨ isDigit c then after (readNumber s) else .malformed

/-- A natural number up to `limit`. -/
def readNat (limit : Nat) (s : List Char) : Reading Nat :=
  match skipBlanks s with
  | [] => .error .ended
  | c :: r =>
    if c = '-' ∨ isDigit c then
      match readNumber (c :: r) with
      | .error e => .error e
      | .ok (none, _) => .error .misfit
      | .ok (some n, r) => if n ≤ limit then .ok (n, r) else .error .misfit
    else .error (misfitAt (c :: r))

/-- The name of a member. No value of another kind can stand in its place. -/
def readName (s : List Char) : Reading String :=
  match skipBlanks s with
  | [] => .error .ended
  | '"' :: r => readString r
  | _ => .error .malformed

/-- The word `null`. -/
def readNull (s : List Char) : Except Fault (List Char) :=
  match skipBlanks s with
  | [] => .error .ended
  | 'n' :: r => skipWord ['u', 'l', 'l'] r
  | s => .error (misfitAt s)

/-- Nothing but blanks may follow a complete text. -/
def expectEnd (s : List Char) : Except Fault Unit :=
  if skipBlanks s = [] then .ok () else .error .malformed

theorem length_lt_of_readNumber {s r : List Char} {n : Option Nat} (h : readNumber s = .ok (n, r)) :
    r.length < s.length := by
  unfold readNumber at h
  split at h
  · simp at h
  · rename_i hn
    have hl := length_lt_of_scanNumber hn
    split at h
    · simp at h; rw [← h.2]; exact hl
    split at h
    · simp at h
    · simp at h; rw [← h.2]; exact hl

theorem length_lt_of_readNat {limit n : Nat} {s r : List Char} (h : readNat limit s = .ok (n, r)) :
    r.length < s.length := by
  unfold readNat at h
  have hb := length_skipBlanks_le s
  split at h
  · simp at h
  · rename_i c t ht
    rw [ht] at hb
    split at h
    · split at h
      · simp at h
      · simp at h
      · rename_i hn
        split at h
        · simp at h; have := length_lt_of_readNumber hn; rw [← h.2]; omega
        · simp at h
    · simp at h

theorem length_lt_of_readName {s r : List Char} {t : String} (h : readName s = .ok (t, r)) :
    r.length < s.length := by
  unfold readName at h
  have hb := length_skipBlanks_le s
  split at h
  · simp at h
  · rename_i u hu
    rw [hu] at hb
    have := length_lt_of_readString h
    simp at hb; omega
  · simp at h

theorem length_lt_of_readNull {s r : List Char} (h : readNull s = .ok r) : r.length < s.length := by
  unfold readNull at h
  have hb := length_skipBlanks_le s
  split at h
  · simp at h
  · rename_i u hu
    rw [hu] at hb
    have := length_le_of_skipWord h
    simp at hb; omega
  · simp at h

end Handoff.Json
