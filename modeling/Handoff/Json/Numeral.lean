import Handoff.Json.Chars

/-!
Numbers in JSON text. A numeral keeps the digits as they are written; what number it is, and
whether it is too large to be one, is decided from them.
-/
namespace Handoff.Json

/-- A number as it is written: the digits of its parts, and the sign and digits of its exponent. -/
structure Numeral where
  negative : Bool
  whole : List Char
  fraction : Option (List Char)
  exponent : Option (Bool × List Char)
  deriving DecidableEq, Repr

/-- At least one digit and all that follow it. Where the text ends instead, the fault is `atEnd`. -/
def scanDigits (atEnd : Fault) (s : List Char) : Reading (List Char) :=
  match s with
  | [] => .error atEnd
  | c :: _ =>
    if isDigit c then .ok (s.takeWhile isDigit, s.dropWhile isDigit) else .error .malformed

/-- The whole part: a zero stands alone. -/
def scanWhole (atEnd : Fault) (s : List Char) : Reading (List Char) :=
  match s with
  | '0' :: r => if startsWithDigit r then .error .malformed else .ok (['0'], r)
  | s => scanDigits atEnd s

def scanFraction (atEnd : Fault) (s : List Char) : Reading (Option (List Char)) :=
  match s with
  | '.' :: r =>
    match scanDigits atEnd r with
    | .ok (ds, r) => .ok (some ds, r)
    | .error e => .error e
  | s => .ok (none, s)

/-- The sign of an exponent, `true` for a minus. -/
def scanSign : List Char → Bool × List Char
  | '+' :: r => (false, r)
  | '-' :: r => (true, r)
  | s => (false, s)

def scanExponent (atEnd : Fault) (s : List Char) : Reading (Option (Bool × List Char)) :=
  match s with
  | c :: r =>
    if c = 'e' ∨ c = 'E' then
      match scanDigits atEnd (scanSign r).2 with
      | .ok (ds, r') => .ok (some ((scanSign r).1, ds), r')
      | .error e => .error e
    else .ok (none, s)
  | [] => .ok (none, [])

/-- The minus in front of a number. -/
def scanMinus : List Char → Bool × List Char
  | '-' :: r => (true, r)
  | s => (false, s)

/-- A number, at its sign or first digit. -/
def scanNumber (atEnd : Fault) (s : List Char) : Reading Numeral :=
  match scanWhole atEnd (scanMinus s).2 with
  | .error e => .error e
  | .ok (whole, r) =>
    match scanFraction atEnd r with
    | .error e => .error e
    | .ok (fraction, r) =>
      match scanExponent atEnd r with
      | .error e => .error e
      | .ok (exponent, r) => .ok (⟨(scanMinus s).1, whole, fraction, exponent⟩, r)

theorem length_lt_of_scanDigits {f : Fault} {s t r : List Char} (h : scanDigits f s = .ok (t, r)) :
    r.length < s.length := by
  unfold scanDigits at h
  split at h
  · simp at h
  split at h
  · rename_i c s hc
    simp at h
    obtain ⟨-, rfl⟩ := h
    have := (List.dropWhile_sublist isDigit (l := s)).length_le
    simp [hc]; omega
  · simp at h

theorem length_lt_of_scanWhole {f : Fault} {s t r : List Char} (h : scanWhole f s = .ok (t, r)) :
    r.length < s.length := by
  unfold scanWhole at h
  split at h
  · split at h <;> simp at h
    obtain ⟨-, rfl⟩ := h
    simp
  · exact length_lt_of_scanDigits h

theorem length_le_of_scanFraction {f : Fault} {s r : List Char} {t : Option (List Char)}
    (h : scanFraction f s = .ok (t, r)) : r.length ≤ s.length := by
  unfold scanFraction at h
  split at h
  · split at h
    · rename_i hd
      simp at h
      obtain ⟨-, rfl⟩ := h
      have := length_lt_of_scanDigits hd
      simp; omega
    · simp at h
  · simp at h; simp [h]

theorem length_scanSign_le (s : List Char) : (scanSign s).2.length ≤ s.length := by
  unfold scanSign
  split <;> simp

theorem length_le_of_scanExponent {f : Fault} {s r : List Char} {t : Option (Bool × List Char)}
    (h : scanExponent f s = .ok (t, r)) : r.length ≤ s.length := by
  unfold scanExponent at h
  split at h
  · rename_i c s'
    split at h
    · split at h
      · rename_i hd
        simp at h
        obtain ⟨-, rfl⟩ := h
        have := length_lt_of_scanDigits hd
        have := length_scanSign_le s'
        simp; omega
      · simp at h
    · simp at h; simp [← h.2]
  · simp at h; simp [h]

theorem length_scanMinus_le (s : List Char) : (scanMinus s).2.length ≤ s.length := by
  unfold scanMinus
  split <;> simp

theorem length_lt_of_scanNumber {f : Fault} {s r : List Char} {t : Numeral}
    (h : scanNumber f s = .ok (t, r)) : r.length < s.length := by
  unfold scanNumber at h
  split at h
  · simp at h
  rename_i hw
  split at h
  · simp at h
  rename_i hf
  split at h
  · simp at h
  rename_i he
  simp at h
  have := length_scanMinus_le s
  have := length_lt_of_scanWhole hw
  have := length_le_of_scanFraction hf
  have := length_le_of_scanExponent he
  rw [← h.2]; omega

/-- One more than the greatest number of 64 bits. -/
def wordBound : Nat := 18446744073709551616

/-- Takes digits in for as long as the number fits 64 bits; gives the number and the digits
left. -/
def pushDigits (n : Nat) : List Char → Nat × List Char
  | [] => (n, [])
  | c :: cs =>
    let m := n * 10 + (c.toNat - 48)
    if m < wordBound then pushDigits m cs else (n, c :: cs)

/-- A whole number rounded to 53 significant bits, a half going to the even neighbour. -/
def roundDouble (n : Nat) : Nat :=
  let shift := n.log2 + 1 - 53
  let unit := 1 <<< shift
  let q := n / unit
  let r := n % unit
  if 2 * r > unit ∨ (2 * r = unit ∧ q % 2 = 1) then (q + 1) * unit else q * unit

/-- The least product of doubles that is no double, halfway from the greatest double to the next
power of two. -/
def doubleBound : Nat := 18014398509481983 <<< 970

/-- Whether a significand scaled by a power of ten, each rounded to a double, leaves the range of
doubles when multiplied. -/
def exceedsDouble (significand : Nat) (exponent : Int) : Bool :=
  significand ≠ 0 &&
    match exponent with
    | .ofNat e =>
      308 < e || doubleBound ≤ roundDouble significand * roundDouble (Nat.pow 10 e)
    | .negSucc _ => false

namespace Numeral

/-- The leading digits that fit 64 bits, and the power of ten they are scaled by. Whole digits
beyond them count for their place only, further decimals not at all. -/
def decimal (n : Numeral) : Nat × Int :=
  let (m, left) := pushDigits 0 n.whole
  let decimals := n.fraction.getD []
  let (k, unused) := pushDigits m decimals
  (k, (left.length : Int) - ((decimals.length - unused.length : Nat) : Int))

/-- A number too large for a double is no number. An exponent past 31 bits decides alone. -/
def overflows (n : Numeral) : Bool :=
  let (m, place) := n.decimal
  match n.exponent with
  | none => exceedsDouble m place
  | some (down, ds) =>
    let e : Nat := ds.foldl (fun e c => e * 10 + (c.toNat - 48)) 0
    if e < 2147483648 then exceedsDouble m (if down then place - (e : Int) else place + (e : Int))
    else m ≠ 0 && !down

/-- The natural number written, if it is written as one and fits 64 bits. -/
def natural? (n : Numeral) : Option Nat :=
  if n.negative || n.fraction.isSome || n.exponent.isSome then none
  else
    match pushDigits 0 n.whole with
    | (m, []) => some m
    | (_, _ :: _) => none

end Numeral

/-- A wanted number: the natural number it is, or nothing for any other. -/
def readNumber (s : List Char) : Reading (Option Nat) :=
  match scanNumber .ended s with
  | .error e => .error e
  | .ok (n, r) =>
    match n.natural? with
    | some m => .ok (some m, r)
    | none => if n.overflows then .error .malformed else .ok (none, r)

end Handoff.Json
