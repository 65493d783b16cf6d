/-
  CronSupervisor.Proofs.Cron.Whole — words that hold together.

  Whatever a reader takes off a text without blanks is a whole piece: it neither begins nor ends
  with a joint, and where two of its characters meet, one of them is a joint, or both are digits, or
  both are letters.  And a reader stops only where it must: at the end, before a joint that nothing
  takes, or before a character that does not hold together with the piece.  So of a word that holds
  together a reader takes all, or it leaves a joint in front, which no further field begins with.

  Main statements:
    * `takes_field?` — a field takes a whole piece and stops where it must.
    * `FieldKind.Reads.isWhole` — a complete field holds together.
    * `reads_of_ofChars?` — of words that hold together, each is a complete field if all are read in
      a row.
-/
import CronSupervisor.Proofs.Cron.Field
import Mathlib.Data.List.Chain
import Mathlib.Data.List.TakeWhile

namespace CronSupervisor.Cron

open Text

/-! ## §1. Holding together -/

/-- What two neighbours in one piece are: two digits, two letters, or a joint and anything. -/
def Bonds (c d : Char) : Prop :=
  isJoint c = true ∨ isJoint d = true ∨ (isDigit c = true ∧ isDigit d = true) ∨
    (isLetter c = true ∧ isLetter d = true)

instance : DecidableRel Bonds := fun _ _ => inferInstanceAs (Decidable (_ ∨ _))

/-- The word has no joint on its ends, and each two neighbours hold together. -/
structure IsWhole (word : List Char) : Prop where
  head : ∀ c ∈ word.head?, isJoint c = false
  last : ∀ c ∈ word.getLast?, isJoint c = false
  bonds : word.IsChain Bonds

theorem isWhole_iff (word : List Char) : word.head?.all (!isJoint ·) = true ∧
    word.getLast?.all (!isJoint ·) = true ∧ word.IsChain Bonds ↔ IsWhole word := by
  simp only [Option.all_eq_true, Bool.not_eq_true']
  exact ⟨fun h => ⟨h.1, h.2.1, h.2.2⟩, fun h => ⟨h.head, h.last, h.bonds⟩⟩

instance (word : List Char) : Decidable (IsWhole word) := decidable_of_iff _ (isWhole_iff word)

/-- No character is a blank. -/
def Compact (cs : List Char) : Prop := ∀ c ∈ cs, isFieldBlank c = false

theorem compact_iff (cs : List Char) : cs.all (!isFieldBlank ·) = true ↔ Compact cs := by
  simp only [List.all_eq_true, Bool.not_eq_true']
  exact Iff.rfl

instance (cs : List Char) : Decidable (Compact cs) := decidable_of_iff _ (compact_iff cs)

theorem Compact.suffix {cs r : List Char} (h : Compact cs) (hr : r <:+ cs) : Compact r :=
  fun c hc => h c (hr.mem hc)

theorem Compact.skipBlanks_eq {cs : List Char} (h : Compact cs) : skipBlanks cs = cs := by
  cases cs with
  | nil => rfl
  | cons c cs =>
    have hc := h c List.mem_cons_self
    unfold skipBlanks
    rw [List.dropWhile_cons_of_neg (by rw [hc]; decide)]

/-- Two whole pieces with a joint between them are one. -/
theorem IsWhole.join {u v : List Char} (hu : IsWhole u) (hv : IsWhole v) (hune : u ≠ [])
    (hvne : v ≠ []) {j : Char} (hj : isJoint j = true) : IsWhole (u ++ j :: v) where
  head := by
    rw [List.head?_append_of_ne_nil _ hune]
    exact hu.head
  last := by
    rw [List.getLast?_append_of_ne_nil _ (List.cons_ne_nil j v), List.getLast?_cons_of_ne_nil hvne]
    exact hv.last
  bonds := by
    rw [List.isChain_append]
    refine ⟨hu.bonds, ?_, fun c _ d hd => ?_⟩
    · exact List.isChain_cons.mpr ⟨fun d _ => .inl hj, hv.bonds⟩
    · cases hd
      exact .inr (.inl hj)

/-! ## §2. What readers take -/

/-- The reader took a whole piece off the text, and stopped where it had to. -/
def Takes (cs r : List Char) : Prop :=
  ∃ used, cs = used ++ r ∧ used ≠ [] ∧ IsWhole used ∧
    ∀ c ∈ used.getLast?, ∀ d ∈ r.head?, isJoint d = true ∨ ¬ Bonds c d

namespace Takes

variable {cs q r : List Char}

theorem suffix (h : Takes cs r) : r <:+ cs := by
  obtain ⟨used, rfl, -⟩ := h
  exact List.suffix_append used r

/-- Something is taken. -/
theorem ne_nil (h : Takes cs r) : cs ≠ [] := by
  obtain ⟨used, rfl, hne, -⟩ := h
  exact List.append_ne_nil_of_left_ne_nil hne r

/-- A joint and what is taken behind it belong to the piece before it. -/
theorem join {j : Char} (h : Takes cs (j :: q)) (hj : isJoint j = true) (hq : Takes q r) :
    Takes cs r := by
  obtain ⟨u, rfl, hune, hu, -⟩ := h
  obtain ⟨v, rfl, hvne, hv, hstop⟩ := hq
  -- where it stops depends on the last character alone, which is that of the second piece
  refine ⟨u ++ j :: v, by simp, by simp, hu.join hv hune hvne hj, ?_⟩
  rw [List.getLast?_append_of_ne_nil _ (List.cons_ne_nil j v), List.getLast?_cons_of_ne_nil hvne]
  exact hstop

/-- Of a word that holds together nothing is left, or a joint in front. -/
theorem of_bonds (h : Takes cs r) (bonds : cs.IsChain Bonds) :
    ∀ c q, r = c :: q → isJoint c = true := by
  intro c q heq
  obtain ⟨used, rfl, hne, -, hstop⟩ := h
  subst heq
  have hlast := List.getLast?_eq_some_getLast hne
  rcases hstop _ hlast c rfl with hc | hbreak
  · exact hc
  -- the word would fall apart where the reader stopped
  · exact absurd ((List.isChain_append.mp bonds).2.2 _ hlast c rfl) hbreak

/-- What is taken to the end is whole. -/
theorem isWhole (h : Takes cs []) : IsWhole cs := by
  obtain ⟨used, rfl, -, hwhole, -⟩ := h
  rw [List.append_nil]
  exact hwhole

end Takes

/-- A class of characters that tokens consist of. -/
structure IsClass (p : Char → Bool) : Prop where
  bonds : ∀ {c d}, p c = true → p d = true → Bonds c d
  no_joint : ∀ {c}, p c = true → isJoint c = false
  /-- Outside the class nothing but a joint is bonded to it. -/
  outside : ∀ {c d}, p c = true → p d = false → Bonds c d → isJoint d = true

theorem not_isLetter_of_isDigit {c : Char} (h : isDigit c = true) : isLetter c = false := by
  unfold isDigit at h
  unfold isLetter
  simp only [Bool.and_eq_true, decide_eq_true_eq, Bool.or_eq_false_iff, Bool.and_eq_false_iff,
    decide_eq_false_iff_not] at h ⊢
  have hlower : ¬ 'a' ≤ '9' := by decide
  have hupper : ¬ 'A' ≤ '9' := by decide
  exact ⟨.inl fun hc => hlower (Char.le_trans hc h.2), .inl fun hc => hupper (Char.le_trans hc h.2)⟩

theorem not_isJoint_of_class {p : Char → Bool} (h : p ',' = false ∧ p '-' = false ∧ p '/' = false)
    {c : Char} (hc : p c = true) : isJoint c = false := by
  unfold isJoint
  simp only [Bool.or_eq_false_iff, beq_eq_false_iff_ne, ne_eq]
  refine ⟨⟨?_, ?_⟩, ?_⟩
  · rintro rfl
    rw [h.1] at hc
    cases hc
  · rintro rfl
    rw [h.2.1] at hc
    cases hc
  · rintro rfl
    rw [h.2.2] at hc
    cases hc

theorem isClass_digit : IsClass isDigit where
  bonds hc hd := .inr (.inr (.inl ⟨hc, hd⟩))
  no_joint := not_isJoint_of_class (by decide)
  outside := by
    intro c d hc hd hbonds
    rcases hbonds with hj | hj | ⟨-, hd'⟩ | ⟨hc', -⟩
    · rw [not_isJoint_of_class (by decide) hc] at hj
      cases hj
    · exact hj
    · rw [hd] at hd'
      cases hd'
    · rw [not_isLetter_of_isDigit hc] at hc'
      cases hc'

theorem isClass_letter : IsClass isLetter where
  bonds hc hd := .inr (.inr (.inr ⟨hc, hd⟩))
  no_joint := not_isJoint_of_class (by decide)
  outside := by
    intro c d hc hd hbonds
    rcases hbonds with hj | hj | ⟨hc', -⟩ | ⟨-, hd'⟩
    · rw [not_isJoint_of_class (by decide) hc] at hj
      cases hj
    · exact hj
    · rw [not_isLetter_of_isDigit hc'] at hc
      cases hc
    · rw [hd] at hd'
      cases hd'

theorem IsClass.isWhole {p : Char → Bool} (hp : IsClass p) {token : List Char}
    (h : ∀ c ∈ token, p c = true) : IsWhole token where
  head c hc := hp.no_joint (h c (List.mem_of_mem_head? hc))
  last c hc := hp.no_joint (h c (List.mem_of_mem_getLast? hc))
  bonds := (List.pairwise_of_forall_mem_list fun c hc d hd => hp.bonds (h c hc) (h d hd)).isChain

section Readers

variable {cs r : List Char} (compact : Compact cs)

include compact in
theorem takes_spaced? {p : Char → Bool} (hp : IsClass p) {token : List Char}
    (h : spaced? p cs = some (token, r)) : Takes cs r := by
  unfold spaced? at h
  simp only at h
  rw [compact.skipBlanks_eq] at h
  split at h
  next => cases h
  next hsome =>
    have hrest := (compact.suffix (List.dropWhile_suffix p)).skipBlanks_eq
    rw [hrest] at h
    cases h
    have hall : ∀ c ∈ cs.takeWhile p, p c = true := fun c hc => List.mem_takeWhile_imp hc
    refine ⟨cs.takeWhile p, (List.takeWhile_append_dropWhile).symm, ?_, hp.isWhole hall, ?_⟩
    · intro hnil
      rw [hnil] at hsome
      exact hsome rfl
    · intro c hc d hd
      -- the class ends where the token ends
      have hpc := hall c (List.mem_of_mem_getLast? hc)
      have hpd : p d = false := by
        have hhead := List.head?_dropWhile_not p cs
        rw [hd] at hhead
        simpa using hhead
      by_cases hbonds : Bonds c d
      · exact .inl (hp.outside hpc hpd hbonds)
      · exact .inr hbonds

include compact in
theorem takes_ordinal? {n : Nat} (h : ordinal? cs = some (n, r)) : Takes cs r := by
  unfold ordinal? at h
  split at h
  next digits q hdigits =>
    split at h
    next =>
      cases h
      exact takes_spaced? compact isClass_digit hdigits
    next => cases h
  next => cases h

include compact in
theorem takes_name? {n : List Char} (h : name? cs = some (n, r)) : Takes cs r :=
  takes_spaced? compact isClass_letter h

/-- What stands behind the first character of a rest. -/
theorem compact_tail {c : Char} {q : List Char} (h : Compact cs) (hq : Takes cs (c :: q)) :
    Compact q :=
  h.suffix ((List.suffix_cons c q).trans hq.suffix)

include compact in
theorem takes_pointOrRange? {s : Specifier} (h : pointOrRange? cs = some (s, r)) :
    Takes cs r := by
  unfold pointOrRange? at h
  split at h
  next a q ha =>
    have hfirst := takes_ordinal? compact ha
    split at h
    next b q' hb =>
      cases h
      exact hfirst.join (by decide) (takes_ordinal? (compact_tail compact hfirst) hb)
    next =>
      cases h
      exact hfirst
  next a q _ ha =>
    cases h
    exact takes_ordinal? compact ha
  next => cases h

include compact in
theorem takes_namedRange? {s : Specifier} (h : namedRange? cs = some (s, r)) : Takes cs r := by
  unfold namedRange? at h
  split at h
  next a q ha =>
    obtain ⟨⟨b, q'⟩, hb, heq⟩ := Option.map_eq_some_iff.mp h
    cases heq
    have hfirst := takes_name? compact ha
    exact hfirst.join (by decide) (takes_name? (compact_tail compact hfirst) hb)
  next => cases h

/-- A mark stands for itself; nothing but a joint holds together with it. -/
theorem takes_mark {c : Char} (hc : c = '*' ∨ c = '?') (r : List Char) : Takes (c :: r) r := by
  have hwhole : IsWhole [c] := by rcases hc with rfl | rfl <;> decide
  have hmark : isJoint c = false ∧ isDigit c = false ∧ isLetter c = false := by
    rcases hc with rfl | rfl <;> decide
  refine ⟨[c], rfl, by simp, hwhole, ?_⟩
  intro c' hc' d _
  cases hc'
  by_cases hd : isJoint d = true
  · exact .inl hd
  · refine .inr ?_
    show ¬ Bonds c d
    unfold Bonds
    rw [hmark.1, hmark.2.1, hmark.2.2]
    simp [hd]

include compact in
theorem takes_specifier? {k : FieldKind} {s : Specifier} (h : specifier? k cs = some (s, r)) :
    Takes cs r := by
  unfold specifier? at h
  split at h
  next =>
    cases h
    exact takes_mark (.inl rfl) r
  next =>
    split at h
    next =>
      cases h
      exact takes_mark (.inr rfl) r
    next => cases h
  next =>
    rcases Option.or_eq_some_iff.mp h with hpoint | ⟨-, hrange⟩
    · exact takes_pointOrRange? compact hpoint
    · exact takes_namedRange? compact hrange

include compact in
theorem takes_root? {k : FieldKind} {x : Root} (h : root? k cs = some (x, r)) : Takes cs r := by
  unfold root? at h
  split at h
  next s q hs =>
    have hfirst := takes_specifier? compact hs
    split at h
    next n q' hn =>
      cases h
      exact hfirst.join (by decide) (takes_ordinal? (compact_tail compact hfirst) hn)
    next =>
      cases h
      exact hfirst
  next s q _ hs =>
    cases h
    exact takes_specifier? compact hs
  next =>
    obtain ⟨⟨n, q⟩, hn, heq⟩ := Option.map_eq_some_iff.mp h
    cases heq
    exact takes_name? compact hn

include compact in
/-- Further roots are taken together with what was taken before. -/
theorem takes_moreRoots {k : FieldKind} {fuel : Nat} {q : List Char} {rs : List Root}
    (hq : Takes cs q) (h : moreRoots k fuel q = (rs, r)) : Takes cs r := by
  induction fuel generalizing q rs with
  | zero =>
    cases h
    exact hq
  | succ fuel ih =>
    by_cases hcomma : ∃ q', q = ',' :: q'
    · obtain ⟨q', rfl⟩ := hcomma
      rw [moreRoots_comma] at h
      cases hx : root? k q' with
      | none =>
        rw [hx] at h
        cases h
        exact hq
      | some p =>
        obtain ⟨x, r1⟩ := p
        rw [hx] at h
        obtain ⟨-, hrest⟩ := Prod.mk.inj h
        have hroot := takes_root? (compact_tail compact hq) hx
        exact ih (hq.join (by decide) hroot) (Prod.ext rfl hrest)
    · rw [moreRoots_of_ne k _ (fun q' heq => hcomma ⟨q', heq⟩)] at h
      cases h
      exact hq

include compact in
/-- **A field takes a whole piece and stops where it must.** -/
theorem takes_field? {k : FieldKind} {vs : List Nat} (h : field? k cs = some (vs, r)) :
    Takes cs r := by
  unfold field? at h
  split at h
  next rs r' hrs =>
    obtain ⟨ws, -, heq⟩ := Option.map_eq_some_iff.mp h
    cases heq
    unfold roots? at hrs
    rw [compact.skipBlanks_eq] at hrs
    split at hrs
    next x r1 hx =>
      simp only [Option.some.injEq, Prod.mk.injEq] at hrs
      have htakes := takes_moreRoots compact (takes_root? compact hx)
        (Prod.ext rfl rfl : moreRoots k r1.length r1 = (_, (moreRoots k r1.length r1).2))
      rw [(compact.suffix htakes.suffix).skipBlanks_eq] at hrs
      rw [← hrs.2]
      exact htakes
    next => cases hrs
  next => cases h

end Readers

/-- **A complete field holds together.** -/
theorem FieldKind.Reads.isWhole {k : FieldKind} {word : List Char} {vs : List Nat}
    (h : k.Reads word vs) (compact : Compact word) : IsWhole word :=
  (takes_field? compact h).isWhole

/-! ## §3. Whole words in a row -/

/-- A text that is read as a field does not begin with a joint. -/
theorem head_of_field? {k : FieldKind} {cs : List Char} {p : List Nat × List Char}
    (h : field? k cs = some p) : ∀ c q, cs = c :: q → isJoint c = false := by
  intro c q heq
  subst heq
  by_contra hc
  have hjoint : isJoint c = true := by simpa using hc
  have hnone : roots? k (c :: q) = none := by
    unfold roots?
    rw [skipBlanks_joint hjoint, FieldKind.Reads.root?_joint k hjoint]
  unfold field? at h
  rw [hnone] at h
  cases h

/-- A word of a text: not empty, and without blanks. -/
structure IsWord (word : List Char) : Prop where
  ne_nil : word ≠ []
  compact : Compact word

namespace IsWord

variable {word : List Char}

theorem skipBlanks_ne_nil (h : IsWord word) : skipBlanks word ≠ [] := by
  rw [h.compact.skipBlanks_eq]
  exact h.ne_nil

theorem opens (h : IsWord word) (head : ∀ c ∈ word.head?, isJoint c = false) : Opens word := by
  obtain ⟨c, q, rfl⟩ := List.exists_cons_of_ne_nil h.ne_nil
  exact ⟨c, q, h.compact.skipBlanks_eq, head c rfl⟩

/-- A joint that is left of a word is not at the end of it. -/
theorem backed (h : IsWord word) (last : ∀ c ∈ word.getLast?, isJoint c = false) {r : List Char}
    (hr : r <:+ word) : ∀ c, isJoint c = true → Backed c r := by
  intro c hc q heq
  subst heq
  have hq : Compact q := h.compact.suffix ((List.suffix_cons c q).trans hr)
  rw [hq.skipBlanks_eq]
  intro hnil
  subst hnil
  obtain ⟨used, rfl⟩ := hr
  have hlast := last c (by simp)
  rw [hc] at hlast
  cases hlast

/-- **A whole word in front of other text is read as a complete field**, if what is left does not
begin with a joint. -/
theorem reads_of_field? (h : IsWord word) (whole : IsWhole word) {rest : List Char}
    (hrest : Opens rest) {k : FieldKind} {vs : List Nat} {r : List Char}
    (hfield : field? k (word ++ ' ' :: rest) = some (vs, r))
    (next : ∀ c q, r = c :: q → isJoint c = false) :
    k.Reads word vs ∧ r = skipBlanks rest := by
  cases halone : field? k word with
  | none =>
    -- a word that is no field by itself would not be one here
    have hnone : field? k (word ++ ' ' :: rest) = none := by
      refine field?_append_none hrest h.skipBlanks_ne_nil halone ?_
      intro rs r' hrs
      refine h.backed whole.last ?_
      unfold roots? at hrs
      split at hrs
      next x r1 hx =>
        simp only [Option.some.injEq, Prod.mk.injEq] at hrs
        rw [h.compact.skipBlanks_eq] at hx
        rw [← hrs.2]
        exact (skipBlanks_suffix _).trans
          (takes_moreRoots h.compact (takes_root? h.compact hx) (Prod.ext rfl rfl)).suffix
      next => cases hrs
    rw [hnone] at hfield
    cases hfield
  | some p =>
    obtain ⟨vs', r'⟩ := p
    have htakes := takes_field? h.compact halone
    rw [field?_append hrest halone (h.backed whole.last htakes.suffix)] at hfield
    cases hfield
    cases hr : r' with
    | nil =>
      rw [hr] at halone
      exact ⟨halone, rfl⟩
    | cons c q =>
      -- the joint that is left would begin the next field
      have hc := htakes.of_bonds whole.bonds c q hr
      have hc' := next c (q ++ ' ' :: rest) (by rw [hr]; rfl)
      rw [hc] at hc'
      cases hc'

end IsWord

section Layout

variable {minute hour day month weekday : List Char}

/-- **Of words that hold together, each is a complete field if all are read in a row.**  The last
word may end in a joint for this, but does not. -/
theorem reads_of_ofChars? (hminute : IsWord minute) (hhour : IsWord hour) (hday : IsWord day)
    (hmonth : IsWord month) (hweekday : IsWord weekday) (wminute : IsWhole minute)
    (whour : IsWhole hour) (wday : IsWhole day) (wmonth : IsWhole month)
    (head : ∀ c ∈ weekday.head?, isJoint c = false) (bonds : weekday.IsChain Bonds)
    {t : Timetable}
    (h : Timetable.ofChars? (Schedule.layout minute hour day month weekday) = some t) :
    ∃ minutes hours days months weekdays, FieldKind.minute.Reads minute minutes ∧
      FieldKind.hour.Reads hour hours ∧ FieldKind.dayOfMonth.Reads day days ∧
      FieldKind.month.Reads month months ∧ FieldKind.dayOfWeek.Reads weekday weekdays := by
  have hsecond : FieldKind.second.Reads ['0'] [0] := rfl
  have o5 := hweekday.opens head
  have o4 := (hmonth.opens wmonth.head).append weekday
  have o3 := (hday.opens wday.head).append (month ++ ' ' :: weekday)
  have o2 := (hhour.opens whour.head).append (day ++ ' ' :: (month ++ ' ' :: weekday))
  have o1 := (hminute.opens wminute.head).append
    (hour ++ ' ' :: (day ++ ' ' :: (month ++ ' ' :: weekday)))
  have hlayout : Schedule.layout minute hour day month weekday = ['0'] ++ ' ' ::
      (minute ++ ' ' :: (hour ++ ' ' :: (day ++ ' ' :: (month ++ ' ' :: weekday)))) := rfl
  unfold Timetable.ofChars? at h
  rw [hlayout, ← field?_skipBlanks, hsecond.append o1] at h
  simp only [Option.bind_eq_bind, Option.bind_some, field?_skipBlanks] at h
  -- each field that follows shows that the word before it was taken as a whole
  simp only [Option.bind_eq_some_iff] at h
  obtain ⟨⟨minutes, c2⟩, hm, ⟨hours, c3⟩, hh, ⟨days, c4⟩, hd, ⟨months, c5⟩, hmo,
    ⟨weekdays, c6⟩, hw, h⟩ := h
  obtain ⟨rm, rfl⟩ := hminute.reads_of_field? wminute o2 hm (head_of_field? hh)
  rw [field?_skipBlanks] at hh
  obtain ⟨rh, rfl⟩ := hhour.reads_of_field? whour o3 hh (head_of_field? hd)
  rw [field?_skipBlanks] at hd
  obtain ⟨rd, rfl⟩ := hday.reads_of_field? wday o4 hd (head_of_field? hmo)
  rw [field?_skipBlanks] at hmo
  obtain ⟨rmo, rfl⟩ := hmonth.reads_of_field? wmonth o5 hmo (head_of_field? hw)
  rw [field?_skipBlanks] at hw
  refine ⟨minutes, hours, days, months, weekdays, rm, rh, rd, rmo, ?_⟩
  cases hr : c6 with
  | nil =>
    rw [hr] at hw
    exact hw
  | cons c q =>
    -- no year begins with the joint that is left, so the text would not be read to its end
    have hc := (takes_field? hweekday.compact hw).of_bonds bonds c q hr
    have hyear : field? .year (c :: q) = none := by
      cases hyear : field? .year (c :: q) with
      | none => rfl
      | some p =>
        have hc' := head_of_field? hyear c q rfl
        rw [hc] at hc'
        cases hc'
    rw [hr] at h
    simp only [hyear] at h
    cases h

end Layout

end CronSupervisor.Cron
