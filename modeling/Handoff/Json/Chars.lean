import Handoff.Text.Hex

/-!
Reading JSON text from left to right: blanks, words and strings. Every reader takes the characters
that are left and gives back what it read with the rest, or the first fault met. A string that is
only passed over is checked more leniently than one that is wanted, so there are two readers.
-/
namespace Handoff.Json

/-- Why text is refused: it ends too early, it is no JSON, or it is JSON of another shape than the
wanted one. -/
inductive Fault where
  | ended | malformed | misfit
  deriving DecidableEq, Repr

abbrev Reading (α : Type) := Except Fault (α × List Char)

def isBlank (c : Char) : Bool := c == ' ' || c == '\n' || c == '\t' || c == '\r'

def skipBlanks (s : List Char) : List Char := s.dropWhile isBlank

theorem length_skipBlanks_le (s : List Char) : (skipBlanks s).length ≤ s.length :=
  (List.dropWhile_sublist _).length_le

def isDigit (c : Char) : Bool := '0' ≤ c && c ≤ '9'

def startsWithDigit : List Char → Bool
  | [] => false
  | c :: _ => isDigit c

/-- The rest of a word whose first letter has been read. -/
def skipWord : List Char → List Char → Except Fault (List Char)
  | [], s => .ok s
  | _ :: _, [] => .error .ended
  | w :: ws, c :: s => if c = w then skipWord ws s else .error .malformed

theorem length_le_of_skipWord {ws s r : List Char} (h : skipWord ws s = .ok r) :
    r.length ≤ s.length := by
  fun_induction skipWord ws s with
  | case1 => simp_all
  | case2 => simp at h
  | case3 w ws s ih => have := ih h; simp; omega
  | case4 => simp at h

/-- The number of bytes that characters take up in UTF-8. -/
def byteLength : List Char → Nat
  | [] => 0
  | c :: s => c.utf8Size + byteLength s

/-- The value of four hexadecimal digits. Text with fewer than four bytes left has ended. -/
def hexUnit (s : List Char) : Except Fault Nat :=
  match s with
  | a :: b :: c :: d :: _ =>
    match Text.Hex.value? a, Text.Hex.value? b, Text.Hex.value? c, Text.Hex.value? d with
    | some w, some x, some y, some z => .ok (((w * 16 + x) * 16 + y) * 16 + z)
    | _, _, _, _ => .error .malformed
  | s => .error (if 4 ≤ byteLength s then .malformed else .ended)

/-- The character that a letter after a backslash stands for. -/
def unescape? (c : Char) : Option Char :=
  match c with
  | '"' => some '"'
  | '\\' => some '\\'
  | '/' => some '/'
  | 'b' => some '\x08'
  | 'f' => some '\x0c'
  | 'n' => some '\n'
  | 'r' => some '\r'
  | 't' => some '\t'
  | _ => none

/-- Passes over the rest of a string. Surrogates need not pair up, and the digits of an escape,
once checked, pass as ordinary characters. -/
def skipString : List Char → Except Fault (List Char)
  | [] => .error .ended
  | '"' :: s => .ok s
  | '\\' :: [] => .error .ended
  | '\\' :: 'u' :: s =>
    match hexUnit s with
    | .ok _ => skipString s
    | .error e => .error e
  | '\\' :: c :: s => if (unescape? c).isSome then skipString s else .error .malformed
  | c :: s => if c < ' ' then .error .malformed else skipString s

theorem length_lt_of_skipString {s r : List Char} (h : skipString s = .ok r) :
    r.length < s.length := by
  fun_induction skipString s with
  | case1 => simp at h
  | case2 s => simp_all
  | case3 => simp at h
  | case4 s n hn ih => have := ih h; simp; omega
  | case5 s e he => simp at h
  | case6 c s h₁ h₂ ih => have := ih h; simp; omega
  | case7 => simp at h
  | case8 => simp at h
  | case9 c s _ _ _ _ _ ih => have := ih h; simp; omega

def isLeadUnit (n : Nat) : Bool := 0xD800 ≤ n && n ≤ 0xDBFF
def isTrailUnit (n : Nat) : Bool := 0xDC00 ≤ n && n ≤ 0xDFFF

/-- The character of a surrogate pair. -/
def joinUnits (lead trail : Nat) : Char :=
  Char.ofNat ((lead - 0xD800) * 0x400 + (trail - 0xDC00) + 0x10000)

/-- The character after a backslash and a `u`. A leading surrogate needs its trailing one, written
the same way right behind it. -/
def readUnit (s : List Char) : Reading Char :=
  match hexUnit s with
  | .error e => .error e
  | .ok n =>
    if isTrailUnit n then .error .malformed
    else if isLeadUnit n then
      match s.drop 4 with
      | [] => .error .ended
      | ['\\'] => .error .ended
      | '\\' :: 'u' :: s =>
        match hexUnit s with
        | .error e => .error e
        | .ok m => if isTrailUnit m then .ok (joinUnits n m, s.drop 4) else .error .malformed
      | _ => .error .malformed
    else .ok (Char.ofNat n, s.drop 4)

theorem length_le_of_readUnit {s r : List Char} {c : Char} (h : readUnit s = .ok (c, r)) :
    r.length ≤ s.length := by
  unfold readUnit at h
  split at h
  · simp at h
  split at h
  · simp at h
  split at h
  · split at h
    · simp at h
    · simp at h
    · rename_i t ht
      have hl := congrArg List.length ht
      simp at hl
      split at h
      · simp at h
      split at h
      · simp at h; obtain ⟨-, rfl⟩ := h; simp; omega
      · simp at h
    · simp at h
  · simp at h; obtain ⟨-, rfl⟩ := h; simp

/-- The rest of a string whose opening quote, and the characters `done` in reverse, have been
read. -/
def readChars (done : List Char) (s : List Char) : Reading (List Char) :=
  match s with
  | [] => .error .ended
  | '"' :: s => .ok (done.reverse, s)
  | '\\' :: [] => .error .ended
  | '\\' :: 'u' :: s =>
    match h : readUnit s with
    | .ok (c, r) =>
      have := length_le_of_readUnit h
      readChars (c :: done) r
    | .error e => .error e
  | '\\' :: c :: s =>
    match unescape? c with
    | some c => readChars (c :: done) s
    | none => .error .malformed
  | c :: s => if c < ' ' then .error .malformed else readChars (c :: done) s
termination_by s.length

theorem length_lt_of_readChars {done s : List Char} {t r : List Char}
    (h : readChars done s = .ok (t, r)) : r.length < s.length := by
  fun_induction readChars done s with
  | case1 => simp at h
  | case2 => simp_all
  | case3 => simp at h
  | case4 done s c r' _ hu ih => have := ih h; simp; omega
  | case5 => simp at h
  | case6 done s c' _ c hc ih => have := ih h; simp; omega
  | case7 => simp at h
  | case8 => simp at h
  | case9 done c s _ _ _ _ _ ih => have := ih h; simp; omega

/-- The rest of a wanted string, its opening quote read. -/
def readString (s : List Char) : Reading String :=
  match readChars [] s with
  | .ok (t, r) => .ok (String.ofList t, r)
  | .error e => .error e

theorem length_lt_of_readString {s r : List Char} {t : String} (h : readString s = .ok (t, r)) :
    r.length < s.length := by
  unfold readString at h
  split at h
  · rename_i hc
    simp at h
    obtain ⟨-, rfl⟩ := h
    exact length_lt_of_readChars hc
  · simp at h

end Handoff.Json
