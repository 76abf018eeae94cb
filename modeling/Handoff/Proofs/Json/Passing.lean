import Handoff.Json.Skip
import Handoff.Proofs.Json.Reading

/-!
Values are passed over whole. The induction is on how a value is written. At every phrase the walk
comes to where the phrase ends with the brackets open that were open where it began, and goes on as
it would from there (`goOn`). The main statement is `skipValue_append`.
-/
namespace Handoff.Json

/-- How the walk goes on behind a value, some brackets being open. -/
def goOn (bs : List Bracket) (s : List Char) : Except Fault (List Char) :=
  match skipClosings bs s with
  | .error e => .error e
  | .ok ([], r) => .ok r
  | .ok (b :: bs, r) => skipOpen (b :: bs) r

variable {bs : List Bracket} {a s t r : List Char}

/-- A step that ends a value comes to where the walk goes on behind it. -/
theorem skipOpen_of_step (h : skipStep bs s = skipClosings bs r) : skipOpen bs s = goOn bs r := by
  rw [skipOpen_eq, h]
  unfold goOn
  rcases skipClosings bs r with _ | ⟨_ | _, _⟩ <;> rfl

theorem goOn_nil (s : List Char) : goOn [] s = .ok s := rfl

theorem goOn_blank {b : Bracket} (ha : Blank a) (s : List Char) :
    goOn (b :: bs) (a ++ s) = goOn (b :: bs) s := by
  rw [goOn, goOn, skipClosings, skipClosings, skipBlanks_append ha]

/-- A closing bracket is taken off those that are open. -/
theorem goOn_closing (b : Bracket) (s : List Char) :
    goOn (b :: bs) (b.closing :: s) = goOn bs s := by
  have hb : isBlank b.closing = false := by cases b <;> rfl
  rw [goOn, skipClosings, skipBlanks_cons hb]
  simp only [if_true]
  rw [goOn]

theorem goOn_item (s : List Char) : goOn (.square :: bs) (',' :: s) = skipOpen (.square :: bs) s :=
  rfl

/-- The walk inside an object, in front of a name. -/
def skipMembers (bs : List Bracket) (s : List Char) : Except Fault (List Char) :=
  match skipName s with
  | .error e => .error e
  | .ok r => skipOpen (.curly :: bs) r

theorem goOn_member (s : List Char) : goOn (.curly :: bs) (',' :: s) = skipMembers bs s := by
  rw [goOn, skipClosings, skipBlanks_cons rfl, skipMembers]
  cases h : skipName s <;> simp [Bracket.closing, h]

/-! ### Scalars -/

theorem Numeric.exists_cons (hs : Numeric s) :
    ∃ c t, s = c :: t ∧ (c = '-' ∨ isDigit c = true) := by
  cases hs with
  | @mk minus whole fraction exponent hm hw _ _ =>
    rcases hm with rfl | rfl
    · obtain ⟨c, t, rfl, hc⟩ := hw.exists_cons
      exact ⟨c, _, rfl, .inr hc⟩
    · exact ⟨'-', _, rfl, .inl rfl⟩

/-- The characters that numbers begin with begin nothing else. -/
theorem ne_of_number {c : Char} (h : c = '-' ∨ isDigit c = true) :
    isBlank c = false ∧ c ∉ ['n', 't', 'f', '"', '[', ']', '\x7b', '\x7d'] := by
  have hall : ∀ c ∈ ['n', 't', 'f', '"', '[', ']', '\x7b', '\x7d'],
      c ≠ '-' ∧ isDigit c ≠ true := by simp [isDigit]
  constructor
  · rcases h with rfl | h
    · rfl
    · exact isBlank_of_isDigit h
  · intro hc
    obtain ⟨h1, h2⟩ := hall c hc
    exact h.elim h1 h2

theorem exists_cons_of_word {w : List Char} (hw : w ∈ words) :
    ∃ c t, w = c :: t ∧ isBlank c = false ∧ c ≠ ']' ∧ c ≠ '[' ∧ c ≠ '\x7b' := by
  simp only [words, List.mem_cons, List.not_mem_nil, or_false] at hw
  rcases hw with rfl | rfl | rfl <;> exact ⟨_, _, rfl, by decide⟩

theorem skipScalar_word {w : List Char} (hw : w ∈ words) : skipScalar (w ++ r) = .ok r := by
  simp only [words, List.mem_cons, List.not_mem_nil, or_false] at hw
  rcases hw with rfl | rfl | rfl <;> exact skipWord_append _ r

theorem skipScalar_number (hs : Numeric s) (hr : Stops r) : skipScalar (s ++ r) = .ok r := by
  obtain ⟨n, hscan⟩ := scanNumber_append (f := .malformed) hs hr
  obtain ⟨c, t, rfl, hc⟩ := hs.exists_cons
  have hne := (ne_of_number hc).2
  rw [List.cons_append] at hscan ⊢
  rw [skipScalar, if_pos hc, hscan]
  all_goals simp_all

/-- A string is a scalar, quotes and all. -/
theorem skipScalar_text (hs : Inside s) : skipScalar ('"' :: (s ++ ['"']) ++ r) = .ok r := by
  rw [List.cons_append, List.append_assoc]
  exact skipString_append hs

/-- A scalar is one step of the walk. -/
theorem skipOpen_scalar {c : Char} (hc : isBlank c = false) (h1 : c ≠ '[') (h2 : c ≠ '\x7b')
    (h : skipScalar (c :: s) = .ok r) : skipOpen bs (c :: s) = goOn bs r := by
  apply skipOpen_of_step
  rw [skipStep, skipBlanks_cons hc]
  split
  · simp_all
  · simp_all
  · rw [h]

theorem skipOpen_blank (ha : Blank a) (s : List Char) : skipOpen bs (a ++ s) = skipOpen bs s := by
  rw [skipOpen_eq, skipOpen_eq bs s, skipStep, skipStep, skipBlanks_append ha]

theorem skipOpen_emptyList (ha : Blank a) : skipOpen bs ('[' :: (a ++ ']' :: r)) = goOn bs r := by
  apply skipOpen_of_step
  rw [skipStep, skipBlanks_cons rfl]
  simp only [skipBlanks_behind ha (c := ']') rfl]

/-- A list that is not empty is gone into. -/
theorem skipOpen_list {c : Char} (h : skipBlanks s = c :: t) (hc : c ≠ ']') :
    skipOpen bs ('[' :: s) = skipOpen (.square :: bs) s := by
  have hstep : skipStep bs ('[' :: s) = .ok (.square :: bs, s) := by
    rw [skipStep, skipBlanks_cons rfl]
    split <;> simp_all
  rw [skipOpen_eq, hstep]

theorem skipOpen_emptyObject (ha : Blank a) :
    skipOpen bs ('\x7b' :: (a ++ '\x7d' :: r)) = goOn bs r := by
  apply skipOpen_of_step
  rw [skipStep, skipBlanks_cons rfl]
  simp only [skipBlanks_behind ha (c := '\x7d') rfl]

/-- An object that is not empty is gone into, up to its first name. -/
theorem skipOpen_object {c : Char} (h : skipBlanks s = c :: t) (hc : c ≠ '\x7d') :
    skipOpen bs ('\x7b' :: s) = skipMembers bs s := by
  rw [skipOpen_eq, skipStep, skipBlanks_cons rfl, skipMembers]
  simp only [h]
  cases skipName s <;> simp [hc]

theorem skipColon_append {b : List Char} (hb : Blank b) : skipColon (b ++ ':' :: r) = .ok r := by
  simp only [skipColon, skipBlanks_behind hb (c := ':') rfl]

theorem skipName_append {k b : List Char} (ha : Blank a) (hk : Inside k) (hb : Blank b) :
    skipName (a ++ '"' :: (k ++ '"' :: (b ++ ':' :: r))) = .ok r := by
  rw [skipName, skipBlanks_behind ha rfl]
  simp only [skipString_append hk, bind, Except.bind, skipColon_append hb]

/-! ### Phrases -/

/-- The first character of a value is no blank and closes nothing. -/
theorem Written.exists_cons (h : Written .value s) :
    ∃ c t, s = c :: t ∧ isBlank c = false ∧ c ≠ ']' := by
  generalize hp : Phrase.value = p at h
  cases h with
  | number hs =>
    obtain ⟨c, t, rfl, hc⟩ := hs.exists_cons
    obtain ⟨hb, hne⟩ := ne_of_number hc
    exact ⟨c, t, rfl, hb, by rintro rfl; exact hne (by decide)⟩
  | word hw =>
    obtain ⟨c, t, rfl, hc, hne, -⟩ := exists_cons_of_word hw
    exact ⟨c, t, rfl, hc, hne⟩
  | text | emptyList | list | emptyObject | object => exact ⟨_, _, rfl, rfl, by decide⟩
  | item | items | member | members => cases hp

/-- Items begin with a value, which does not close the list. -/
theorem Written.items_exists_cons (h : Written .items s) (r : List Char) :
    ∃ c t, skipBlanks (s ++ r) = c :: t ∧ c ≠ ']' := by
  generalize hp : Phrase.items = p at h
  induction h generalizing r with
  | @item a v b ha hv hb =>
    obtain ⟨c, t, rfl, hblank, hc⟩ := hv.exists_cons
    refine ⟨c, t ++ b ++ r, ?_, hc⟩
    rw [List.append_assoc]
    exact skipBlanks_behind ha hblank _
  | items hs ht ihs iht =>
    rw [List.append_assoc]
    exact ihs _ hp
  | word | number | text | emptyList | list | emptyObject | object | member
  | members => cases hp

theorem Entry.exists_cons {k v : List Char} (h : Entry k v s) (r : List Char) :
    ∃ t, skipBlanks (s ++ r) = '"' :: t := by
  cases h with
  | mk ha =>
    rw [List.append_assoc]
    exact ⟨_, skipBlanks_behind ha rfl _⟩

/-- Members begin with the quote of a name, which does not close the object. -/
theorem Written.members_exists_cons (h : Written .members s) (r : List Char) :
    ∃ t, skipBlanks (s ++ r) = '"' :: t := by
  generalize hp : Phrase.members = p at h
  induction h generalizing r with
  | member _ _ hs => exact hs.exists_cons r
  | members hs ht ihs iht =>
    rw [List.append_assoc]
    exact ihs _ hp
  | word | number | text | emptyList | list | emptyObject | object | item
  | items => cases hp

/-- That the walk passes over a phrase: over a value with any brackets open, over items inside a
list and over members inside an object. -/
def Passed : Phrase → List Char → Prop
  | .value, s => ∀ bs r, Stops r → skipOpen bs (s ++ r) = goOn bs r
  | .items, s => ∀ bs r, Stops r → skipOpen (.square :: bs) (s ++ r) = goOn (.square :: bs) r
  | .members, s => ∀ bs r, Stops r → skipMembers bs (s ++ r) = goOn (.curly :: bs) r

theorem stops_comma (s : List Char) : Stops (',' :: s) := stops_of_mem (by decide) s

/-- The walk passes over every phrase, by how it is written. -/
theorem passed_of_written {p : Phrase} (h : Written p s) : Passed p s := by
  induction h with
  | word hw =>
    intro bs r _
    have hskip := skipScalar_word (r := r) hw
    obtain ⟨c, t, rfl, hc, -, h1, h2⟩ := exists_cons_of_word hw
    exact skipOpen_scalar hc h1 h2 hskip
  | number hs =>
    intro bs r hr
    have hskip := skipScalar_number hs hr
    obtain ⟨c, t, rfl, hc⟩ := hs.exists_cons
    obtain ⟨hb, hne⟩ := ne_of_number hc
    exact skipOpen_scalar hb (by rintro rfl; exact hne (by decide))
      (by rintro rfl; exact hne (by decide)) hskip
  | text hs =>
    intro bs r _
    exact skipOpen_scalar rfl (by decide) (by decide) (skipScalar_text hs)
  | emptyList ha =>
    intro bs r _
    rw [List.cons_append, List.append_assoc]
    exact skipOpen_emptyList ha
  | @list s hs ih =>
    intro bs r _
    obtain ⟨c, t, hc, hne⟩ := hs.items_exists_cons (']' :: r)
    rw [List.cons_append, List.append_assoc]
    calc skipOpen bs ('[' :: (s ++ ']' :: r))
        = skipOpen (.square :: bs) (s ++ ']' :: r) := skipOpen_list hc hne
      _ = goOn (.square :: bs) (']' :: r) := ih bs _ (stops_of_mem (by decide) r)
      _ = goOn bs r := goOn_closing .square r
  | emptyObject ha =>
    intro bs r _
    rw [List.cons_append, List.append_assoc]
    exact skipOpen_emptyObject ha
  | @object s hs ih =>
    intro bs r _
    obtain ⟨t, ht⟩ := hs.members_exists_cons ('\x7d' :: r)
    rw [List.cons_append, List.append_assoc]
    calc skipOpen bs ('\x7b' :: (s ++ '\x7d' :: r))
        = skipMembers bs (s ++ '\x7d' :: r) := skipOpen_object ht (by decide)
      _ = goOn (.curly :: bs) ('\x7d' :: r) := ih bs _ (stops_of_mem (by decide) r)
      _ = goOn bs r := goOn_closing .curly r
  | item ha hv hb ih =>
    intro bs r hr
    rw [List.append_assoc, List.append_assoc, skipOpen_blank ha, ih _ _ (hb.stops hr),
      goOn_blank hb]
  | items hs ht ihs iht =>
    intro bs r hr
    rw [List.append_assoc, List.cons_append, ihs _ _ (stops_comma _), goOn_item, iht _ _ hr]
  | member hk _ hs ih =>
    intro bs r hr
    cases hs with
    | mk ha hb hc hd =>
      simp only [List.append_assoc, List.cons_append]
      rw [skipMembers, skipName_append ha hk hb]
      dsimp only
      rw [skipOpen_blank hc, ih _ _ (hd.stops hr), goOn_blank hd]
  | members hs ht ihs iht =>
    intro bs r hr
    rw [List.append_assoc, List.cons_append, ihs _ _ (stops_comma _), goOn_member, iht _ _ hr]

/-- Any value is passed over, however deep, and what follows is left. -/
theorem skipValue_append (ha : Blank a) (hs : Written .value s) (hr : Stops r) :
    skipValue (a ++ (s ++ r)) = .ok r := by
  rw [skipValue, skipOpen_blank ha, passed_of_written hs [] r hr, goOn_nil]

end Handoff.Json
