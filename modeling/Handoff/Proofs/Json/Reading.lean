import Handoff.Json.Reader
import Handoff.Proofs.Json.Grammar

/-!
What the readers of words, strings and numbers make of text of the grammar: they take all of it and
leave what follows. A number is the one thing that what follows could go on with.
-/
namespace Handoff.Json

/-! ### Blanks -/

theorem isBlank_iff {c : Char} : isBlank c = true ↔ c ∈ [' ', '\n', '\t', '\r'] := by
  simp [isBlank, or_assoc]

theorem skipBlanks_append {a : List Char} (h : Blank a) (s : List Char) :
    skipBlanks (a ++ s) = skipBlanks s :=
  List.dropWhile_append_of_pos fun c hc => isBlank_iff.mpr (h c hc)

theorem skipBlanks_cons {c : Char} (h : isBlank c = false) (s : List Char) :
    skipBlanks (c :: s) = c :: s := List.dropWhile_cons_of_neg (by simp [h])

/-- Blanks in front of anything else are passed over, and no more than they. -/
theorem skipBlanks_behind {a : List Char} {c : Char} (ha : Blank a) (hc : isBlank c = false)
    (s : List Char) : skipBlanks (a ++ c :: s) = c :: s := by
  rw [skipBlanks_append ha, skipBlanks_cons hc]

/-! ### What ends a number -/

/-- Text that does not go on with a number. -/
def Stops (s : List Char) : Prop :=
  ∀ c ∈ s.head?, isDigit c = false ∧ c ≠ '.' ∧ c ≠ 'e' ∧ c ≠ 'E'

theorem stops_of_mem {c : Char} (h : c ∈ [',', ']', '\x7d', ' ', '\n', '\t', '\r'])
    (s : List Char) : Stops (c :: s) := by
  have hall : ∀ c ∈ [',', ']', '\x7d', ' ', '\n', '\t', '\r'],
      isDigit c = false ∧ c ≠ '.' ∧ c ≠ 'e' ∧ c ≠ 'E' := by simp [isDigit]
  intro d hd
  obtain rfl : c = d := by simpa using hd
  exact hall c h

theorem Blank.stops {a s : List Char} (h : Blank a) (hs : Stops s) : Stops (a ++ s) := by
  cases a with
  | nil => exact hs
  | cons c a => exact stops_of_mem (List.mem_append_right [',', ']', '\x7d'] (h c (by simp))) _

/-! ### Numbers -/

theorem isDigit_iff {c : Char} : isDigit c = true ↔ '0' ≤ c ∧ c ≤ '9' := by
  simp [isDigit]

theorem Digits.isDigit {ds : List Char} (h : Digits ds) : ∀ c ∈ ds, isDigit c = true :=
  fun c hc => isDigit_iff.mpr (h.2 c hc)

theorem isBlank_of_isDigit {c : Char} (h : isDigit c = true) : isBlank c = false := by
  rw [← Bool.not_eq_true, isBlank_iff]
  have hall : ∀ c ∈ [' ', '\n', '\t', '\r'], isDigit c ≠ true := by simp [isDigit]
  exact fun hc => hall c hc h

/-- What does not begin with a digit may be empty. -/
theorem startsWithDigit_eq_false {s : List Char} :
    startsWithDigit s = false ↔ ∀ c ∈ s.head?, isDigit c = false := by
  cases s <;> simp [startsWithDigit]

theorem Stops.startsWithDigit {s : List Char} (h : Stops s) : startsWithDigit s = false :=
  startsWithDigit_eq_false.mpr fun c hc => (h c hc).1

variable {f : Fault} {s r : List Char}

theorem scanDigits_append (hs : Digits s) (hr : startsWithDigit r = false) :
    scanDigits f (s ++ r) = .ok (s, r) := by
  have hall := hs.isDigit
  have htake : r.takeWhile isDigit = [] ∧ r.dropWhile isDigit = r := by
    cases r with
    | nil => simp
    | cons c r =>
      rw [startsWithDigit] at hr
      simp [hr]
  cases s with
  | nil => exact absurd rfl hs.1
  | cons c s =>
    have hc := hall c List.mem_cons_self
    rw [List.cons_append, scanDigits, if_pos hc, ← List.cons_append,
      List.takeWhile_append_of_pos hall, List.dropWhile_append_of_pos hall, htake.1, htake.2,
      List.append_nil]

/-- A zero stands alone, so what follows it must not be a digit either. -/
theorem scanWhole_append (hs : Whole s) (hr : startsWithDigit r = false) :
    scanWhole f (s ++ r) = .ok (s, r) := by
  rcases hs with rfl | ⟨hs, hz⟩
  · simp [scanWhole, hr]
  · rw [scanWhole]
    · exact scanDigits_append hs hr
    · intro t ht
      cases s with
      | nil => exact hs.1 rfl
      | cons c s => simp_all

/-- Digits never stand where a fraction or an exponent may begin. -/
theorem Fraction.startsWithDigit (hs : Fraction s) (hr : startsWithDigit r = false) :
    startsWithDigit (s ++ r) = false := by
  cases hs with
  | none => exact hr
  | digits => rfl

theorem Exponent.startsWithDigit (hs : Exponent s) (hr : startsWithDigit r = false) :
    startsWithDigit (s ++ r) = false := by
  cases hs with
  | none => exact hr
  | digits he => rcases he with rfl | rfl <;> rfl

theorem Exponent.head (hs : Exponent s) (hr : ∀ c ∈ r.head?, c ≠ '.') :
    ∀ c ∈ (s ++ r).head?, c ≠ '.' := by
  cases hs with
  | none => exact hr
  | digits he => rcases he with rfl | rfl <;> simp

/-- Without a point there is no fraction. -/
theorem scanFraction_none (hd : ∀ c ∈ r.head?, c ≠ '.') : scanFraction f r = .ok (none, r) := by
  rw [scanFraction]
  rintro t rfl
  exact hd '.' rfl rfl

theorem scanFraction_append (hs : Fraction s) (hr : startsWithDigit r = false)
    (hd : ∀ c ∈ r.head?, c ≠ '.') : ∃ ds, scanFraction f (s ++ r) = .ok (ds, r) := by
  cases hs with
  | none => exact ⟨none, scanFraction_none hd⟩
  | @digits ds hds =>
    refine ⟨some ds, ?_⟩
    rw [List.cons_append, scanFraction, scanDigits_append hds hr]

theorem scanSign_append {sign : List Char} (h : sign ∈ [[], ['+'], ['-']]) (hs : Digits s) :
    ∃ down, scanSign (sign ++ (s ++ r)) = (down, s ++ r) := by
  simp only [List.mem_cons, List.not_mem_nil, or_false] at h
  rcases h with rfl | rfl | rfl
  · refine ⟨false, ?_⟩
    cases s with
    | nil => exact absurd rfl hs.1
    | cons c s =>
      have hc := hs.isDigit c List.mem_cons_self
      rw [List.nil_append, List.cons_append, scanSign]
      · intro t ht
        simp_all [isDigit]
      · intro t ht
        simp_all [isDigit]
  · exact ⟨false, rfl⟩
  · exact ⟨true, rfl⟩

theorem scanExponent_none (hr : Stops r) : scanExponent f r = .ok (none, r) := by
  cases r with
  | nil => rfl
  | cons c r =>
    obtain ⟨-, -, h1, h2⟩ := hr c rfl
    simp [scanExponent, h1, h2]

/-- An exponent is scanned with its sign. -/
theorem scanExponent_append (hs : Exponent s) (hr : Stops r) :
    ∃ e, scanExponent f (s ++ r) = .ok (e, r) := by
  cases hs with
  | none => exact ⟨none, scanExponent_none hr⟩
  | @digits e sign ds he hsign hds =>
    obtain ⟨down, hdown⟩ := scanSign_append (r := r) hsign hds
    refine ⟨some (down, ds), ?_⟩
    rw [List.cons_append, List.append_assoc, scanExponent, if_pos he, hdown,
      scanDigits_append hds hr.startsWithDigit]

theorem Whole.exists_cons (hs : Whole s) : ∃ c t, s = c :: t ∧ isDigit c = true := by
  rcases hs with rfl | ⟨hs, -⟩
  · exact ⟨'0', [], rfl, rfl⟩
  · cases s with
    | nil => exact absurd rfl hs.1
    | cons c t => exact ⟨c, t, rfl, hs.isDigit c List.mem_cons_self⟩

theorem scanMinus_append (hs : Whole s) : scanMinus (s ++ r) = (false, s ++ r) := by
  obtain ⟨c, t, rfl, hc⟩ := hs.exists_cons
  rw [List.cons_append, scanMinus]
  intro t' ht
  simp_all [isDigit]

/-- A number is scanned to its end. -/
theorem scanNumber_append (hs : Numeric s) (hr : Stops r) :
    ∃ n, scanNumber f (s ++ r) = .ok (n, r) := by
  cases hs with
  | @mk minus whole fraction exponent hm hw hf he =>
    have hre := he.startsWithDigit hr.startsWithDigit
    obtain ⟨ds, hfraction⟩ := scanFraction_append (f := f) hf hre
      (he.head fun c hc => (hr c hc).2.1)
    obtain ⟨e, hexponent⟩ := scanExponent_append (f := f) he hr
    have hminus : ∃ b, scanMinus (minus ++ (whole ++ (fraction ++ (exponent ++ r)))) =
        (b, whole ++ (fraction ++ (exponent ++ r))) := by
      rcases hm with rfl | rfl
      · exact ⟨false, by rw [List.nil_append, scanMinus_append hw]⟩
      · exact ⟨true, rfl⟩
    obtain ⟨b, hminus⟩ := hminus
    refine ⟨⟨b, whole, ds, e⟩, ?_⟩
    simp only [List.append_assoc, scanNumber, hminus,
      scanWhole_append hw (hf.startsWithDigit hre), hfraction, hexponent]

/-- A whole number without a sign is scanned as its digits. -/
theorem scanNumber_whole (hs : Whole s) (hr : Stops r) :
    scanNumber f (s ++ r) = .ok (⟨false, s, none, none⟩, r) := by
  have hfraction := scanFraction_none (f := f) fun c hc => (hr c hc).2.1
  simp only [scanNumber, scanMinus_append hs, scanWhole_append hs hr.startsWithDigit, hfraction,
    scanExponent_none hr]

/-! ### Natural numbers -/

theorem digits_toDigits (n : Nat) : Digits (Nat.toDigits 10 n) := by
  refine ⟨Nat.toDigits_ne_nil, fun c hc => ?_⟩
  have h := Nat.isDigit_of_mem_toDigits (by decide) (by decide) hc
  simpa [Char.isDigit, Char.le_def] using h

theorem head?_toDigits {n : Nat} (h : 0 < n) : (Nat.toDigits 10 n).head? ≠ some '0' := by
  induction n using Nat.strongRecOn with
  | ind n ih =>
    rw [Nat.toDigits_eq_if (by decide)]
    split
    · rename_i hn
      have hall : ∀ m < 10, 0 < m → Nat.digitChar m ≠ '0' := by decide
      simpa using hall n hn h
    · have hfront := ih (n / 10) (by omega) (by omega)
      obtain ⟨c, t, ht⟩ := List.exists_cons_of_ne_nil (Nat.toDigits_ne_nil (n := n / 10) (b := 10))
      rw [ht] at hfront ⊢
      exact hfront

/-- The decimal digits of a number have no zero in front. -/
theorem whole_toDigits (n : Nat) : Whole (Nat.toDigits 10 n) := by
  cases n with
  | zero => exact .inl (Nat.toDigits_zero 10)
  | succ n => exact .inr ⟨digits_toDigits _, head?_toDigits (Nat.succ_pos n)⟩

theorem le_ofDigitChars (ds : List Char) (n : Nat) : n ≤ Nat.ofDigitChars 10 ds n := by
  induction ds generalizing n with
  | nil => exact Nat.le_refl n
  | cons c ds ih =>
    have h := ih (10 * n + (c.toNat - '0'.toNat))
    rw [Nat.ofDigitChars_cons]
    omega

/-- Digits are all taken in if the number that they write fits. -/
theorem pushDigits_eq {n : Nat} {ds : List Char} (h : Nat.ofDigitChars 10 ds n < wordBound) :
    pushDigits n ds = (Nat.ofDigitChars 10 ds n, []) := by
  induction ds generalizing n with
  | nil => rfl
  | cons c ds ih =>
    rw [Nat.ofDigitChars_cons] at h ⊢
    have hle := le_ofDigitChars ds (10 * n + (c.toNat - '0'.toNat))
    have hfits : n * 10 + (c.toNat - 48) < wordBound := by
      rw [Nat.mul_comm]
      exact Nat.lt_of_le_of_lt hle h
    rw [pushDigits, if_pos hfits, Nat.mul_comm n]
    exact ih h

/-- A number below the bound of a word is the number that its digits write. -/
theorem natural?_toDigits {n : Nat} (h : n < wordBound) :
    Numeral.natural? ⟨false, Nat.toDigits 10 n, none, none⟩ = some n := by
  have hn : Nat.ofDigitChars 10 (Nat.toDigits 10 n) 0 = n := Nat.ofDigitChars_ten_toDigits
  simp [Numeral.natural?, pushDigits_eq (hn.symm ▸ h), hn]

/-- A decimal number is read as the number that it is, if it is not above the limit. -/
theorem readNat_append {limit n : Nat} {a : List Char} (ha : Blank a) (hn : n ≤ limit)
    (hlimit : limit < wordBound) (hr : Stops r) :
    readNat limit (a ++ (Nat.toDigits 10 n ++ r)) = .ok (n, r) := by
  obtain ⟨c, t, ht, hc⟩ := (whole_toDigits n).exists_cons
  have hscan := scanNumber_whole (f := .ended) (whole_toDigits n) hr
  have hb : isBlank c = false := isBlank_of_isDigit hc
  rw [ht, List.cons_append] at hscan ⊢
  rw [readNat, skipBlanks_behind ha hb]
  simp only [hc, or_true, if_true, readNumber, hscan]
  rw [← ht, natural?_toDigits (by omega)]
  simp [hn]

/-! ### Strings -/

theorem hexUnit_append {u : List Char} {n : Nat} (hu : Quad u n) (s : List Char) :
    hexUnit (u ++ s) = .ok n ∧ (u ++ s).drop 4 = s := by
  cases hu with
  | mk ha hb hc hd => exact ⟨by simp [hexUnit, ha, hb, hc, hd], rfl⟩

theorem unescape?_of_mem {l c : Char} (h : (l, c) ∈ letters) : unescape? l = some c ∧ l ≠ 'u' := by
  have hall : ∀ x ∈ letters, unescape? x.1 = some x.2 ∧ x.1 ≠ 'u' := by decide
  exact hall (l, c) h

/-- Hexadecimal digits need no escape, so inside a string they are passed over as they are. -/
theorem plain_of_value? {c : Char} {n : Nat} (h : Text.Hex.value? c = some n) : Plain c := by
  refine ⟨?_, ?_, ?_⟩
  · rintro rfl
    simp [Text.Hex.value?] at h
  · rintro rfl
    simp [Text.Hex.value?] at h
  · -- the digits and the letters of either case all come after the blank
    unfold Text.Hex.value? at h
    split at h
    · rename_i hc
      exact Char.le_trans (by decide) hc.1
    split at h
    · rename_i hc
      exact Char.le_trans (by decide) hc.1
    split at h
    · rename_i hc
      exact Char.le_trans (by decide) hc.1
    · cases h

theorem skipString_plain {c : Char} (hc : Plain c) (s : List Char) :
    skipString (c :: s) = skipString s := by
  obtain ⟨h1, h2, h3⟩ := hc
  rw [skipString, if_neg (Char.not_lt.mpr h3)]
  all_goals simp_all

/-- A string that is only passed over may have an escape that denotes no character. -/
theorem skipString_unit {u : List Char} {n : Nat} (hu : Quad u n) (s : List Char) :
    skipString ('\\' :: 'u' :: (u ++ s)) = skipString s := by
  rw [skipString, (hexUnit_append hu s).1]
  cases hu with
  | mk ha hb hc hd =>
    -- the digits, once checked, are passed over like any other character
    simp only [List.cons_append, List.nil_append, skipString_plain (plain_of_value? ha),
      skipString_plain (plain_of_value? hb), skipString_plain (plain_of_value? hc),
      skipString_plain (plain_of_value? hd)]

/-- A string is passed over up to its closing quote. -/
theorem skipString_append (hs : Inside s) : skipString (s ++ '"' :: r) = .ok r := by
  induction hs with
  | nil => rw [List.nil_append, skipString]
  | plain hc _ ih => rw [List.cons_append, skipString_plain hc, ih]
  | letter hl _ ih =>
    obtain ⟨hletter, hu⟩ := unescape?_of_mem hl
    rw [List.cons_append, List.cons_append, skipString, hletter]
    · exact ih
    · simpa using hu
  | unit hu _ ih =>
    rw [List.cons_append, List.cons_append, List.append_assoc, skipString_unit hu, ih]

theorem readUnit_append {u : List Char} {n : Nat} (hu : Quad u n) (hl : ¬Leading n)
    (ht : ¬Trailing n) (s : List Char) : readUnit (u ++ s) = .ok (Char.ofNat n, s) := by
  obtain ⟨hunit, hdrop⟩ := hexUnit_append hu s
  simp only [Leading, Trailing] at hl ht
  simp [readUnit, hunit, hdrop, isLeadUnit, isTrailUnit, hl, ht]

/-- Two units that make a pair are read as one character beyond the first plane. -/
theorem readUnit_pair {u v : List Char} {m n : Nat} (hu : Quad u m) (hl : Leading m)
    (hv : Quad v n) (ht : Trailing n) (s : List Char) :
    readUnit (u ++ '\\' :: 'u' :: (v ++ s)) =
      .ok (Char.ofNat (0x10000 + (m - 0xD800) * 0x400 + (n - 0xDC00)), s) := by
  obtain ⟨hunit, hdrop⟩ := hexUnit_append hu ('\\' :: 'u' :: (v ++ s))
  obtain ⟨hunit', hdrop'⟩ := hexUnit_append hv s
  have hjoin : joinUnits m n = Char.ofNat (0x10000 + (m - 0xD800) * 0x400 + (n - 0xDC00)) :=
    congrArg Char.ofNat (by omega)
  have hlead : isLeadUnit m = true := by simpa [isLeadUnit, Leading] using hl
  have hnot : isTrailUnit m = false := by
    have := hl.2
    simp [isTrailUnit]
    omega
  have htrail : isTrailUnit n = true := by simpa [isTrailUnit, Trailing] using ht
  simp [readUnit, hunit, hdrop, hunit', hdrop', hlead, hnot, htrail, hjoin]

/-- A unit that is read is pushed in front of the characters that are done. -/
theorem readChars_unit {c : Char} {s r : List Char} (h : readUnit s = .ok (c, r))
    (done : List Char) : readChars done ('\\' :: 'u' :: s) = readChars (c :: done) r := by
  rw [readChars]
  split
  · rename_i h'
    cases h.symm.trans h'
    rfl
  · rename_i h'
    cases h.symm.trans h'

/-- A string is read as the characters that it denotes. -/
theorem readChars_append {t : List Char} (hs : Spells s t) (done : List Char) :
    readChars done (s ++ '"' :: r) = .ok (done.reverse ++ t, r) := by
  induction hs generalizing done with
  | nil => rw [List.nil_append, readChars, List.append_nil]
  | @plain c s t hc _ ih =>
    obtain ⟨h1, h2, h3⟩ := hc
    rw [List.cons_append, readChars, if_neg (Char.not_lt.mpr h3), ih]
    · simp
    all_goals simp_all
  | @letter l c s t hl _ ih =>
    obtain ⟨hletter, hu⟩ := unescape?_of_mem hl
    rw [List.cons_append, List.cons_append, readChars, hletter]
    · simp [ih]
    · simpa using hu
  | unit hu hl ht _ ih =>
    rw [List.cons_append, List.cons_append, List.append_assoc,
      readChars_unit (readUnit_append hu hl ht _), ih]
    simp
  | @pair u v s t m n hu hl hv ht _ ih =>
    have hshape : '\\' :: 'u' :: (u ++ '\\' :: 'u' :: (v ++ s)) ++ '"' :: r =
        '\\' :: 'u' :: (u ++ '\\' :: 'u' :: (v ++ (s ++ '"' :: r))) := by simp
    rw [hshape, readChars_unit (readUnit_pair hu hl hv ht _), ih]
    simp

theorem readString_append {t : List Char} (hs : Spells s t) :
    readString (s ++ '"' :: r) = .ok (String.ofList t, r) := by
  rw [readString, readChars_append hs]
  rfl

/-- A name is a string behind blanks. -/
theorem readName_append {a k t : List Char} (ha : Blank a) (hk : Spells k t) :
    readName (a ++ '"' :: (k ++ '"' :: r)) = .ok (String.ofList t, r) := by
  rw [readName, skipBlanks_behind ha rfl]
  exact readString_append hk

/-! ### Words -/

theorem skipWord_append (w r : List Char) : skipWord w (w ++ r) = .ok r := by
  induction w with
  | nil => rfl
  | cons c w ih => rw [List.cons_append, skipWord, if_pos rfl, ih]

theorem readNull_append {a : List Char} (ha : Blank a) :
    readNull (a ++ 'n' :: 'u' :: 'l' :: 'l' :: r) = .ok r := by
  rw [readNull, skipBlanks_behind ha rfl]
  exact skipWord_append ['u', 'l', 'l'] r

end Handoff.Json
