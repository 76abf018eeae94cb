import Handoff.Json.Value

/-!
The texts of JSON: blanks, the insides of strings, numbers and values of any depth, each as a set of
lists of characters. Nothing here refers to the readers.
-/
namespace Handoff.Json

/-- Blanks alone. -/
def Blank (s : List Char) : Prop := ∀ c ∈ s, c ∈ [' ', '\n', '\t', '\r']

theorem blank_nil : Blank [] := by simp [Blank]

/-! ### Strings -/

/-- The letters that may stand behind a backslash, with what they denote. -/
def letters : List (Char × Char) :=
  [('"', '"'), ('\\', '\\'), ('/', '/'), ('b', '\x08'), ('f', '\x0c'), ('n', '\n'), ('r', '\r'),
    ('t', '\t')]

/-- A character that stands in a string for itself. -/
def Plain (c : Char) : Prop := c ≠ '"' ∧ c ≠ '\\' ∧ ' ' ≤ c

instance (c : Char) : Decidable (Plain c) := inferInstanceAs (Decidable (_ ∧ _ ∧ _))

/-- Four hexadecimal digits with the number that they write. -/
inductive Quad : List Char → Nat → Prop where
  | mk {a b c d : Char} {w x y z : Nat} (ha : Text.Hex.value? a = some w)
      (hb : Text.Hex.value? b = some x) (hc : Text.Hex.value? c = some y)
      (hd : Text.Hex.value? d = some z) : Quad [a, b, c, d] (((w * 16 + x) * 16 + y) * 16 + z)

/-- Whether a number of 16 bits is the first half of a pair that denotes one character. -/
def Leading (n : Nat) : Prop := 0xD800 ≤ n ∧ n ≤ 0xDBFF

/-- Whether a number of 16 bits is the second half of a pair that denotes one character. -/
def Trailing (n : Nat) : Prop := 0xDC00 ≤ n ∧ n ≤ 0xDFFF

/-- What stands between the quotes of a string. -/
inductive Inside : List Char → Prop where
  | nil : Inside []
  | plain {c : Char} {s : List Char} (hc : Plain c) (hs : Inside s) : Inside (c :: s)
  | letter {l c : Char} {s : List Char} (hl : (l, c) ∈ letters) (hs : Inside s) :
      Inside ('\\' :: l :: s)
  | unit {u s : List Char} {n : Nat} (hu : Quad u n) (hs : Inside s) :
      Inside ('\\' :: 'u' :: (u ++ s))

/-- What stands between the quotes of a string, with the characters that it denotes. Half a pair
denotes none. -/
inductive Spells : List Char → List Char → Prop where
  | nil : Spells [] []
  | plain {c : Char} {s t : List Char} (hc : Plain c) (hs : Spells s t) : Spells (c :: s) (c :: t)
  | letter {l c : Char} {s t : List Char} (hl : (l, c) ∈ letters) (hs : Spells s t) :
      Spells ('\\' :: l :: s) (c :: t)
  | unit {u s t : List Char} {n : Nat} (hu : Quad u n) (hl : ¬Leading n) (ht : ¬Trailing n)
      (hs : Spells s t) : Spells ('\\' :: 'u' :: (u ++ s)) (Char.ofNat n :: t)
  | pair {u v s t : List Char} {m n : Nat} (hu : Quad u m) (hl : Leading m) (hv : Quad v n)
      (ht : Trailing n) (hs : Spells s t) :
      Spells ('\\' :: 'u' :: (u ++ '\\' :: 'u' :: (v ++ s)))
        (Char.ofNat (0x10000 + (m - 0xD800) * 0x400 + (n - 0xDC00)) :: t)

/-! ### Numbers -/

/-- One digit or more. -/
def Digits (s : List Char) : Prop := s ≠ [] ∧ ∀ c ∈ s, '0' ≤ c ∧ c ≤ '9'

/-- The digits of a natural number, without zeros in front. -/
def Whole (s : List Char) : Prop := s = ['0'] ∨ Digits s ∧ s.head? ≠ some '0'

inductive Fraction : List Char → Prop where
  | none : Fraction []
  | digits {s : List Char} (hs : Digits s) : Fraction ('.' :: s)

inductive Exponent : List Char → Prop where
  | none : Exponent []
  | digits {e : Char} {sign s : List Char} (he : e = 'e' ∨ e = 'E')
      (hsign : sign ∈ [[], ['+'], ['-']]) (hs : Digits s) : Exponent (e :: (sign ++ s))

/-- A number: a whole part, perhaps negative, perhaps with a fraction and an exponent. -/
inductive Numeric : List Char → Prop where
  | mk {minus whole fraction exponent : List Char} (hm : minus = [] ∨ minus = ['-'])
      (hw : Whole whole) (hf : Fraction fraction) (he : Exponent exponent) :
      Numeric (minus ++ (whole ++ (fraction ++ exponent)))

/-! ### Values -/

/-- The kinds of text that values are made of: a value, and what stands between the brackets of a
list or an object that is not empty. -/
inductive Phrase where
  | value | items | members

def words : List (List Char) :=
  [['n', 'u', 'l', 'l'], ['t', 'r', 'u', 'e'], ['f', 'a', 'l', 's', 'e']]

/-- A member: a name between quotes, a colon and the text of a value, with blanks around each. -/
inductive Entry (k v : List Char) : List Char → Prop where
  | mk {a b c d : List Char} (ha : Blank a) (hb : Blank b) (hc : Blank c) (hd : Blank d) :
      Entry k v (a ++ '"' :: (k ++ '"' :: (b ++ ':' :: (c ++ (v ++ d)))))

/-- The texts of each kind. -/
inductive Written : Phrase → List Char → Prop where
  | word {w : List Char} (hw : w ∈ words) : Written .value w
  | number {s : List Char} (hs : Numeric s) : Written .value s
  | text {s : List Char} (hs : Inside s) : Written .value ('"' :: (s ++ ['"']))
  | emptyList {a : List Char} (ha : Blank a) : Written .value ('[' :: (a ++ [']']))
  | list {s : List Char} (hs : Written .items s) : Written .value ('[' :: (s ++ [']']))
  | emptyObject {a : List Char} (ha : Blank a) : Written .value ('\x7b' :: (a ++ ['\x7d']))
  | object {s : List Char} (hs : Written .members s) : Written .value ('\x7b' :: (s ++ ['\x7d']))
  | item {a v b : List Char} (ha : Blank a) (hv : Written .value v) (hb : Blank b) :
      Written .items (a ++ (v ++ b))
  | items {s t : List Char} (hs : Written .items s) (ht : Written .items t) :
      Written .items (s ++ ',' :: t)
  | member {k v s : List Char} (hk : Inside k) (hv : Written .value v) (hs : Entry k v s) :
      Written .members s
  | members {s t : List Char} (hs : Written .members s) (ht : Written .members t) :
      Written .members (s ++ ',' :: t)

/-! ### Texts without blanks and escapes -/

theorem entry_compact (k v : List Char) : Entry k v ('"' :: (k ++ ['"']) ++ ':' :: v) := by
  simpa using Entry.mk (k := k) (v := v) blank_nil blank_nil blank_nil blank_nil

theorem plain_of_all {s : List Char} (h : (s.all fun c => decide (Plain c)) = true) :
    ∀ c ∈ s, Plain c := by
  simpa using h

theorem spells_self {s : List Char} (h : ∀ c ∈ s, Plain c) : Spells s s := by
  induction s with
  | nil => exact .nil
  | cons c s ih =>
    rw [List.forall_mem_cons] at h
    exact .plain h.1 (ih h.2)

theorem escape_of_plain {c : Char} (h : Plain c) : escape c = [c] := by
  unfold escape
  split
  iterate 7 exact absurd h (by decide)
  rw [if_neg (Char.not_lt.mpr h.2.2)]

theorem flatMap_escape {s : List Char} (h : ∀ c ∈ s, Plain c) : s.flatMap escape = s := by
  induction s with
  | nil => rfl
  | cons c s ih =>
    rw [List.forall_mem_cons] at h
    rw [List.flatMap_cons, escape_of_plain h.1, ih h.2]
    rfl

/-- Nothing is escaped in a string of plain characters. -/
theorem quote_of_plain {s : String} (h : ∀ c ∈ s.toList, Plain c) :
    quote s = '"' :: (s.toList ++ ['"']) := by
  rw [quote, flatMap_escape h, List.cons_append]

end Handoff.Json
