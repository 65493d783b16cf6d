/-
  CronSupervisor.Proofs.Cron.Field — fields read alone and fields read in a row.

  The grammar knows no words: the fields stand in one text, and where one of them ends is decided by
  what it meets.  A word that is a complete field by itself still ends where it ended when a blank
  and more text follow, unless that text goes on with one of the characters that hold a field
  together.  No complete field begins with such a character, so words that are fields one by one are
  read as just these fields in a row.  The lemmas on readers cover texts of which something is left,
  too, as long as what is left is not such a character with nothing behind it.

  Main statements:
    * `field?_sublist` — the values of a field are ascending and within its bounds.
    * `field?_append`, `field?_append_none` — a field is read in front of other text as it is alone.
    * `ofChars?_layout` — the timetable of words that are complete fields.
-/
import CronSupervisor.Cron.Schedule
import CronSupervisor.Proofs.Cron.Search

namespace CronSupervisor.Cron

open Calendar Text

/-! ## §1. Values -/

/-- The values of a field are ascending and within its bounds. -/
theorem field?_sublist {k : FieldKind} {cs rest : List Char} {vs : List Nat}
    (h : field? k cs = some (vs, rest)) : vs.Sublist k.all := by
  unfold field? at h
  split at h
  next rs _ _ =>
    obtain ⟨ws, hws, heq⟩ := Option.map_eq_some_iff.mp h
    cases heq
    obtain ⟨sets, -, rfl⟩ := Option.map_eq_some_iff.mp hws
    exact List.filter_sublist
  next => cases h

theorem mem_all_iff {k : FieldKind} {v : Nat} : v ∈ k.all ↔ k.low ≤ v ∧ v ≤ k.high := by
  unfold FieldKind.all
  rw [List.mem_range'_1]
  omega

theorem pairwise_all (k : FieldKind) : k.all.Pairwise (· < ·) := List.pairwise_lt_range'

/-- A timetable that was read is ascending and within a day. -/
theorem ordered_of_ofChars? {cs : List Char} {t : Timetable} (h : Timetable.ofChars? cs = some t) :
    t.Ordered := by
  unfold Timetable.ofChars? at h
  simp only [Option.bind_eq_bind, Option.bind_eq_some_iff] at h
  obtain ⟨⟨ss, c1⟩, hs, ⟨ms, c2⟩, hm, ⟨hs', c3⟩, hh, ⟨ds, c4⟩, -, ⟨mos, c5⟩, -, ⟨ws, c6⟩, -, h⟩ := h
  have hsub := field?_sublist hs
  have msub := field?_sublist hm
  have hsub' := field?_sublist hh
  have key : ∀ years, Timetable.Ordered ⟨ss, ms, hs', ds, mos, ws, years⟩ := fun years =>
    { seconds := (pairwise_all _).sublist hsub
      minutes := (pairwise_all _).sublist msub
      hours := (pairwise_all _).sublist hsub'
      second_le := fun s hs => (mem_all_iff.mp (hsub.subset hs)).2
      minute_le := fun m hm => (mem_all_iff.mp (msub.subset hm)).2
      hour_le := fun h hh => (mem_all_iff.mp (hsub'.subset hh)).2 }
  -- a seventh field may be there or not
  split at h <;> split at h <;> cases h
  · exact key _
  · exact key none

/-! ## §2. Blanks -/

theorem skipBlanks_idem (cs : List Char) : skipBlanks (skipBlanks cs) = skipBlanks cs := by
  induction cs with
  | nil => rfl
  | cons c cs ih =>
    unfold skipBlanks at *
    by_cases hc : isFieldBlank c = true
    · rw [List.dropWhile_cons_of_pos hc]
      exact ih
    · rw [List.dropWhile_cons_of_neg hc, List.dropWhile_cons_of_neg hc]

theorem skipBlanks_append (cs rest : List Char) : skipBlanks (cs ++ ' ' :: rest)
    = if skipBlanks cs = [] then skipBlanks rest else skipBlanks cs ++ ' ' :: rest := by
  induction cs with
  | nil => rfl
  | cons c cs ih =>
    unfold skipBlanks at *
    by_cases hc : isFieldBlank c = true
    · rw [List.cons_append, List.dropWhile_cons_of_pos hc, List.dropWhile_cons_of_pos hc]
      exact ih
    · rw [List.cons_append, List.dropWhile_cons_of_neg hc, List.dropWhile_cons_of_neg hc,
        if_neg (List.cons_ne_nil _ _)]
      rfl

theorem takeWhile_append {p : Char → Bool} {e : Char} (he : p e = false) (cs rest : List Char) :
    (cs ++ e :: rest).takeWhile p = cs.takeWhile p := by
  induction cs with
  | nil => simp [he]
  | cons c cs ih =>
    by_cases hc : p c = true
    · rw [List.cons_append, List.takeWhile_cons_of_pos hc, List.takeWhile_cons_of_pos hc, ih]
    · rw [List.cons_append, List.takeWhile_cons_of_neg hc, List.takeWhile_cons_of_neg hc]

theorem dropWhile_append {p : Char → Bool} {e : Char} (he : p e = false) (cs rest : List Char) :
    (cs ++ e :: rest).dropWhile p = cs.dropWhile p ++ e :: rest := by
  induction cs with
  | nil => simp [he]
  | cons c cs ih =>
    by_cases hc : p c = true
    · rw [List.cons_append, List.dropWhile_cons_of_pos hc, List.dropWhile_cons_of_pos hc, ih]
    · rw [List.cons_append, List.dropWhile_cons_of_neg hc, List.dropWhile_cons_of_neg hc]
      rfl

/-! ## §3. What readers read and leave -/

theorem pointOrRange?_dash {cs r : List Char} {a : Nat} (h : ordinal? cs = some (a, '-' :: r)) :
    pointOrRange? cs = match ordinal? r with
      | some (b, r) => some (.range a b, r)
      | none => some (.point a, '-' :: r) := by
  unfold pointOrRange?
  rw [h]
  rfl

/-- A number that no dash follows is a point. -/
theorem pointOrRange?_point {cs r : List Char} {a : Nat} (h : ordinal? cs = some (a, r))
    (hr : ∀ r', r ≠ '-' :: r') : pointOrRange? cs = some (.point a, r) := by
  unfold pointOrRange?
  rw [h]
  split
  next heq =>
    cases heq
    exact absurd rfl (hr _)
  next heq => cases heq; rfl
  next heq => cases heq

theorem namedRange?_dash {cs a r : List Char} (h : name? cs = some (a, '-' :: r)) :
    namedRange? cs = (name? r).map fun (b, r) => (.namedRange a b, r) := by
  unfold namedRange?
  rw [h]
  rfl

/-- A name that no dash follows begins no range. -/
theorem namedRange?_name {cs n r : List Char} (h : name? cs = some (n, r))
    (hr : ∀ r', r ≠ '-' :: r') : namedRange? cs = none := by
  unfold namedRange?
  rw [h]
  split
  next heq =>
    cases heq
    exact absurd rfl (hr _)
  next => rfl

theorem root?_slash {k : FieldKind} {cs r : List Char} {s : Specifier}
    (h : specifier? k cs = some (s, '/' :: r)) :
    root? k cs = match ordinal? r with
      | some (n, r) => some (.stepped s n, r)
      | none => some (.plain s, '/' :: r) := by
  unfold root?
  rw [h]
  rfl

/-- A specifier that no slash follows is a root. -/
theorem root?_plain {k : FieldKind} {cs r : List Char} {s : Specifier}
    (h : specifier? k cs = some (s, r)) (hr : ∀ r', r ≠ '/' :: r') :
    root? k cs = some (.plain s, r) := by
  unfold root?
  rw [h]
  split
  next heq =>
    cases heq
    exact absurd rfl (hr _)
  next heq => cases heq; rfl
  next heq => cases heq

theorem skipBlanks_suffix (cs : List Char) : skipBlanks cs <:+ cs := List.dropWhile_suffix _

theorem spaced?_suffix {p : Char → Bool} {cs token r : List Char}
    (h : spaced? p cs = some (token, r)) : r <:+ cs := by
  unfold spaced? at h
  simp only at h
  split at h
  next => cases h
  next =>
    cases h
    exact ((skipBlanks_suffix _).trans (List.dropWhile_suffix p)).trans (skipBlanks_suffix cs)

theorem ordinal?_suffix {cs r : List Char} {n : Nat} (h : ordinal? cs = some (n, r)) :
    r <:+ cs := by
  unfold ordinal? at h
  split at h
  next digits q hdigits =>
    split at h
    next =>
      cases h
      exact spaced?_suffix hdigits
    next => cases h
  next => cases h

theorem pointOrRange?_suffix {cs r : List Char} {s : Specifier}
    (h : pointOrRange? cs = some (s, r)) : r <:+ cs := by
  unfold pointOrRange? at h
  split at h
  next a q ha =>
    split at h
    next b q' hb =>
      cases h
      exact ((ordinal?_suffix hb).trans (List.suffix_cons '-' q)).trans (ordinal?_suffix ha)
    next =>
      cases h
      exact ordinal?_suffix ha
  next a q _ ha =>
    cases h
    exact ordinal?_suffix ha
  next => cases h

theorem namedRange?_suffix {cs r : List Char} {s : Specifier}
    (h : namedRange? cs = some (s, r)) : r <:+ cs := by
  unfold namedRange? at h
  split at h
  next a q ha =>
    obtain ⟨⟨b, q'⟩, hb, heq⟩ := Option.map_eq_some_iff.mp h
    cases heq
    exact ((spaced?_suffix hb).trans (List.suffix_cons '-' q)).trans (spaced?_suffix ha)
  next => cases h

theorem specifier?_suffix {k : FieldKind} {cs r : List Char} {s : Specifier}
    (h : specifier? k cs = some (s, r)) : r <:+ cs := by
  unfold specifier? at h
  split at h
  next =>
    cases h
    exact List.suffix_cons _ _
  next =>
    split at h
    next =>
      cases h
      exact List.suffix_cons _ _
    next => cases h
  next =>
    rcases Option.or_eq_some_iff.mp h with hpoint | ⟨-, hrange⟩
    · exact pointOrRange?_suffix hpoint
    · exact namedRange?_suffix hrange

theorem root?_suffix {k : FieldKind} {cs r : List Char} {x : Root}
    (h : root? k cs = some (x, r)) : r <:+ cs := by
  unfold root? at h
  split at h
  next s q hs =>
    split at h
    next n q' hn =>
      cases h
      exact ((ordinal?_suffix hn).trans (List.suffix_cons '/' q)).trans (specifier?_suffix hs)
    next =>
      cases h
      exact specifier?_suffix hs
  next s q _ hs =>
    cases h
    exact specifier?_suffix hs
  next =>
    obtain ⟨⟨n, q⟩, hn, heq⟩ := Option.map_eq_some_iff.mp h
    cases heq
    exact spaced?_suffix hn

/-! ## §4. Readers in front of other text -/

/-- The characters that hold a field together. -/
def isJoint (c : Char) : Bool := c == ',' || c == '-' || c == '/'

/-- The text goes on with something, but not with a character that holds a field together. -/
def Opens (cs : List Char) : Prop := ∃ c q, skipBlanks cs = c :: q ∧ isJoint c = false

/-- If the text begins with `c`, then something other than blanks stands behind it. -/
def Backed (c : Char) (r : List Char) : Prop := ∀ q, r = c :: q → skipBlanks q ≠ []

theorem backed_nil (c : Char) : Backed c [] := nofun

/-- What a reader left of a text, and what it leaves when a blank and `rest` follow the text: the
blank may have been skipped together with those at the end of the text. -/
def Continues (rest r r' : List Char) : Prop :=
  r' = r ++ ' ' :: rest ∨ r = [] ∧ r' = skipBlanks rest

section Readers

variable {rest : List Char} (hrest : Opens rest)

theorem continues_skipBlanks (rest cs : List Char) :
    Continues rest (skipBlanks cs) (skipBlanks (cs ++ ' ' :: rest)) := by
  rw [skipBlanks_append]
  by_cases h : skipBlanks cs = []
  · rw [if_pos h]
    exact .inr ⟨h, rfl⟩
  · rw [if_neg h]
    exact .inl rfl

theorem Continues.cons {rest q r' : List Char} {c : Char} (h : Continues rest (c :: q) r') :
    r' = c :: (q ++ ' ' :: rest) := by
  rcases h with h | ⟨h, -⟩
  · exact h
  · cases h

include hrest in
/-- No joint appears where there was none. -/
theorem Continues.head_ne {r r' : List Char} (h : Continues rest r r') {c : Char}
    (hc : isJoint c = true) (hr : ∀ q, r ≠ c :: q) : ∀ q, r' ≠ c :: q := by
  intro q heq
  obtain ⟨d, q', hopens, hd⟩ := hrest
  have hne : d ≠ c := by
    intro heq
    subst heq
    rw [hd] at hc
    cases hc
  rcases h with h | ⟨-, h⟩
  · -- an empty rest is followed by the blank, any other keeps its first character
    cases r with
    | nil =>
      rw [h] at heq
      cases heq
      cases hc
    | cons e r =>
      rw [h] at heq
      cases heq
      exact hr r rfl
  · rw [h, hopens] at heq
    cases heq
    exact hne rfl

theorem spaced?_append {p : Char → Bool} (hp : p ' ' = false) {cs token r : List Char}
    (h : spaced? p cs = some (token, r)) (rest : List Char) :
    ∃ r', spaced? p (cs ++ ' ' :: rest) = some (token, r') ∧ Continues rest r r' := by
  unfold spaced? at h ⊢
  simp only at h ⊢
  have hne : skipBlanks cs ≠ [] := by
    intro hnil
    rw [hnil] at h
    cases h
  -- the token ends at the blank at the latest
  rw [skipBlanks_append, if_neg hne, takeWhile_append hp, dropWhile_append hp]
  split at h
  next => cases h
  next hsome =>
    cases h
    rw [if_neg hsome]
    exact ⟨_, rfl, continues_skipBlanks _ _⟩

theorem spaced?_append_none {p : Char → Bool} (hp : p ' ' = false) {cs : List Char}
    (hne : skipBlanks cs ≠ []) (h : spaced? p cs = none) (rest : List Char) :
    spaced? p (cs ++ ' ' :: rest) = none := by
  unfold spaced? at h ⊢
  simp only at h ⊢
  rw [skipBlanks_append, if_neg hne, takeWhile_append hp]
  split at h
  next hnone => rw [if_pos hnone]
  next => cases h

theorem ordinal?_append {cs r : List Char} {n : Nat} (h : ordinal? cs = some (n, r))
    (rest : List Char) :
    ∃ r', ordinal? (cs ++ ' ' :: rest) = some (n, r') ∧ Continues rest r r' := by
  unfold ordinal? at h ⊢
  split at h
  next digits q hdigits =>
    obtain ⟨r', hr', hcont⟩ := spaced?_append (by decide) hdigits rest
    rw [hr']
    simp only
    split at h
    next hle =>
      cases h
      exact ⟨r', if_pos hle, hcont⟩
    next => cases h
  next => cases h

theorem ordinal?_append_none {cs : List Char} (hne : skipBlanks cs ≠ []) (h : ordinal? cs = none)
    (rest : List Char) : ordinal? (cs ++ ' ' :: rest) = none := by
  unfold ordinal? at h ⊢
  cases hs : spaced? isDigit cs with
  | none => rw [spaced?_append_none (by decide) hne hs rest]
  | some p =>
    obtain ⟨digits, q⟩ := p
    obtain ⟨r', hr', -⟩ := spaced?_append (by decide) hs rest
    rw [hs] at h
    rw [hr']
    simp only at h ⊢
    split at h
    next => cases h
    next hlarge => rw [if_neg hlarge]

theorem name?_append {cs n r : List Char} (h : name? cs = some (n, r)) (rest : List Char) :
    ∃ r', name? (cs ++ ' ' :: rest) = some (n, r') ∧ Continues rest r r' :=
  spaced?_append (by decide) h rest

theorem name?_append_none {cs : List Char} (hne : skipBlanks cs ≠ []) (h : name? cs = none)
    (rest : List Char) : name? (cs ++ ' ' :: rest) = none :=
  spaced?_append_none (by decide) hne h rest

include hrest in
theorem pointOrRange?_append {cs r : List Char} {s : Specifier}
    (h : pointOrRange? cs = some (s, r)) (hr : Backed '-' r) :
    ∃ r', pointOrRange? (cs ++ ' ' :: rest) = some (s, r') ∧ Continues rest r r' := by
  unfold pointOrRange? at h
  split at h
  next a q ha =>
    obtain ⟨r1, hr1, hcont1⟩ := ordinal?_append ha rest
    rw [hcont1.cons] at hr1
    rw [pointOrRange?_dash hr1]
    split at h
    next b q' hb =>
      cases h
      obtain ⟨r2, hr2, hcont2⟩ := ordinal?_append hb rest
      rw [hr2]
      exact ⟨r2, rfl, hcont2⟩
    next hb =>
      -- what stands behind the dash is no number, and is none in the longer text
      cases h
      rw [ordinal?_append_none (hr q rfl) hb rest]
      exact ⟨_, rfl, .inl rfl⟩
  next a q hdash ha =>
    cases h
    obtain ⟨r1, hr1, hcont1⟩ := ordinal?_append ha rest
    exact ⟨r1, pointOrRange?_point hr1 (hcont1.head_ne hrest (by decide) hdash), hcont1⟩
  next => cases h

theorem pointOrRange?_append_none {cs : List Char} (hne : skipBlanks cs ≠ [])
    (h : pointOrRange? cs = none) (rest : List Char) :
    pointOrRange? (cs ++ ' ' :: rest) = none := by
  unfold pointOrRange? at h ⊢
  cases ho : ordinal? cs with
  | none => rw [ordinal?_append_none hne ho rest]
  | some p =>
    rw [ho] at h
    split at h
    next => split at h <;> cases h
    next => cases h
    next heq => cases heq

theorem namedRange?_append {cs r : List Char} {s : Specifier}
    (h : namedRange? cs = some (s, r)) (rest : List Char) :
    ∃ r', namedRange? (cs ++ ' ' :: rest) = some (s, r') ∧ Continues rest r r' := by
  unfold namedRange? at h ⊢
  split at h
  next a q ha =>
    obtain ⟨⟨b, q'⟩, hb, heq⟩ := Option.map_eq_some_iff.mp h
    cases heq
    obtain ⟨r1, hr1, hcont1⟩ := name?_append ha rest
    obtain ⟨r2, hr2, hcont2⟩ := name?_append hb rest
    rw [hr1, hcont1.cons]
    simp only [hr2, Option.map_some]
    exact ⟨r2, rfl, hcont2⟩
  next => cases h

include hrest in
theorem namedRange?_append_none {cs : List Char} (hne : skipBlanks cs ≠ [])
    (h : namedRange? cs = none) (hr : ∀ n r, name? cs = some (n, r) → Backed '-' r) :
    namedRange? (cs ++ ' ' :: rest) = none := by
  cases hn : name? cs with
  | none =>
    unfold namedRange?
    rw [name?_append_none hne hn rest]
  | some p =>
    obtain ⟨n, r⟩ := p
    obtain ⟨r1, hr1, hcont1⟩ := name?_append hn rest
    by_cases hdash : ∃ q, r = '-' :: q
    · -- no name stands behind the dash, here and there
      obtain ⟨q, rfl⟩ := hdash
      rw [hcont1.cons] at hr1
      rw [namedRange?_dash hn, Option.map_eq_none_iff] at h
      rw [namedRange?_dash hr1, Option.map_eq_none_iff]
      exact name?_append_none (hr _ _ hn q rfl) h rest
    · exact namedRange?_name hr1
        (hcont1.head_ne hrest (by decide) fun q hq => hdash ⟨q, hq⟩)

theorem skipBlanks_ne_nil_of_name? {cs n r : List Char} (h : name? cs = some (n, r)) :
    skipBlanks cs ≠ [] := by
  intro hnil
  unfold name? spaced? at h
  simp only at h
  rw [hnil] at h
  cases h

theorem specifier?_eq_or (k : FieldKind) {cs : List Char} (hstar : ∀ q, cs ≠ '*' :: q)
    (hmark : ∀ q, cs ≠ '?' :: q) :
    specifier? k cs = (pointOrRange? cs).or (namedRange? cs) := by
  unfold specifier?
  split
  next q => exact absurd rfl (hstar q)
  next q => exact absurd rfl (hmark q)
  next => rfl

/-- What follows a text does not change its first character. -/
theorem append_head_ne {cs : List Char} (hne : cs ≠ []) {c : Char} (h : ∀ q, cs ≠ c :: q)
    (more : List Char) : ∀ q, cs ++ more ≠ c :: q := by
  intro q heq
  cases cs with
  | nil => exact hne rfl
  | cons d cs =>
    cases heq
    exact h cs rfl

theorem ne_nil_of_pointOrRange? {cs : List Char} {p : Specifier × List Char}
    (h : pointOrRange? cs = some p) : cs ≠ [] := by
  intro heq
  subst heq
  cases h

theorem ne_nil_of_skipBlanks {cs : List Char} (h : skipBlanks cs ≠ []) : cs ≠ [] := by
  intro heq
  subst heq
  exact h rfl

include hrest in
theorem specifier?_append {k : FieldKind} {cs r : List Char} {s : Specifier}
    (h : specifier? k cs = some (s, r)) (hr : Backed '-' r) :
    ∃ r', specifier? k (cs ++ ' ' :: rest) = some (s, r') ∧ Continues rest r r' := by
  unfold specifier? at h
  split at h
  next q =>
    cases h
    exact ⟨r ++ ' ' :: rest, rfl, .inl rfl⟩
  next q =>
    split at h
    next hmark =>
      cases h
      refine ⟨r ++ ' ' :: rest, ?_, .inl rfl⟩
      show (if k.allowsQuestionMark then _ else _) = _
      rw [if_pos hmark]
      rfl
    next => cases h
  next hstar hmark =>
    cases hp : pointOrRange? cs with
    | some p =>
      rw [hp] at h
      cases h
      have hne := ne_nil_of_pointOrRange? hp
      rw [specifier?_eq_or k (append_head_ne hne hstar _) (append_head_ne hne hmark _)]
      obtain ⟨r', hr', hcont⟩ := pointOrRange?_append hrest hp hr
      rw [hr']
      exact ⟨r', rfl, hcont⟩
    | none =>
      rw [hp, Option.none_or] at h
      have hblank : skipBlanks cs ≠ [] := by
        unfold namedRange? at h
        split at h
        next _ _ ha => exact skipBlanks_ne_nil_of_name? ha
        next => cases h
      have hne := ne_nil_of_skipBlanks hblank
      rw [specifier?_eq_or k (append_head_ne hne hstar _) (append_head_ne hne hmark _),
        pointOrRange?_append_none hblank hp rest, Option.none_or]
      exact namedRange?_append h rest

include hrest in
theorem specifier?_append_none {k : FieldKind} {cs : List Char} (hne : skipBlanks cs ≠ [])
    (h : specifier? k cs = none) (hr : ∀ n r, name? cs = some (n, r) → Backed '-' r) :
    specifier? k (cs ++ ' ' :: rest) = none := by
  unfold specifier? at h
  split at h
  next => cases h
  next q =>
    split at h
    next => cases h
    next hmark =>
      show (if k.allowsQuestionMark then _ else _) = _
      rw [if_neg hmark]
  next hstar hmark =>
    obtain ⟨hpoint, hrange⟩ := Option.or_eq_none_iff.mp h
    have hcs := ne_nil_of_skipBlanks hne
    rw [specifier?_eq_or k (append_head_ne hcs hstar _) (append_head_ne hcs hmark _),
      pointOrRange?_append_none hne hpoint rest, Option.none_or]
    exact namedRange?_append_none hrest hne hrange hr

include hrest in
theorem root?_append {k : FieldKind} {cs r : List Char} {x : Root}
    (h : root? k cs = some (x, r)) (hdash : Backed '-' r) (hslash : Backed '/' r) :
    ∃ r', root? k (cs ++ ' ' :: rest) = some (x, r') ∧ Continues rest r r' := by
  unfold root? at h
  split at h
  next s q hs =>
    obtain ⟨r1, hr1, hcont1⟩ := specifier?_append hrest hs nofun
    rw [hcont1.cons] at hr1
    rw [root?_slash hr1]
    split at h
    next n q' hn =>
      cases h
      obtain ⟨r2, hr2, hcont2⟩ := ordinal?_append hn rest
      rw [hr2]
      exact ⟨r2, rfl, hcont2⟩
    next hn =>
      -- what stands behind the slash is no number, and is none in the longer text
      cases h
      rw [ordinal?_append_none (hslash q rfl) hn rest]
      exact ⟨_, rfl, .inl rfl⟩
  next s q hnone hs =>
    cases h
    obtain ⟨r1, hr1, hcont1⟩ := specifier?_append hrest hs hdash
    exact ⟨r1, root?_plain hr1 (hcont1.head_ne hrest (by decide) hnone), hcont1⟩
  next hs =>
    obtain ⟨⟨n, q⟩, hn, heq⟩ := Option.map_eq_some_iff.mp h
    cases heq
    -- a name is no specifier in the longer text either
    obtain ⟨r1, hr1, hcont1⟩ := name?_append hn rest
    have hnone : specifier? k (cs ++ ' ' :: rest) = none := by
      refine specifier?_append_none hrest (skipBlanks_ne_nil_of_name? hn) hs ?_
      intro n' r' hn'
      rw [hn] at hn'
      cases hn'
      exact hdash
    unfold root?
    rw [hnone, hr1]
    exact ⟨r1, rfl, hcont1⟩

include hrest in
theorem root?_append_none {k : FieldKind} {cs : List Char} (hne : skipBlanks cs ≠ [])
    (h : root? k cs = none) : root? k (cs ++ ' ' :: rest) = none := by
  unfold root? at h ⊢
  split at h
  next => split at h <;> cases h
  next => cases h
  next hs =>
    have hn : name? cs = none := Option.map_eq_none_iff.mp h
    have hnone : specifier? k (cs ++ ' ' :: rest) = none := by
      refine specifier?_append_none hrest hne hs ?_
      intro n r hn'
      rw [hn] at hn'
      cases hn'
    rw [hnone, name?_append_none hne hn rest, Option.map_none]

/-- A joint is no blank. -/
theorem skipBlanks_joint {c : Char} (hc : isJoint c = true) (q : List Char) :
    skipBlanks (c :: q) = c :: q := by
  have hblank : isFieldBlank c = false := by
    unfold isJoint at hc
    simp only [Bool.or_eq_true, beq_iff_eq] at hc
    rcases hc with (rfl | rfl) | rfl <;> decide
  unfold skipBlanks
  rw [List.dropWhile_cons_of_neg (by rw [hblank]; decide)]

theorem moreRoots_of_ne (k : FieldKind) (fuel : Nat) {cs : List Char} (h : ∀ q, cs ≠ ',' :: q) :
    moreRoots k fuel cs = ([], cs) := by
  unfold moreRoots
  split
  next _ q => exact absurd rfl (h q)
  next => rfl

/-- What is left before other roots are looked for is left in the end if no comma begins it. -/
theorem backed_of_moreRoots {k : FieldKind} {fuel : Nat} {cs r : List Char} {rs : List Root}
    (h : moreRoots k fuel cs = (rs, r)) {c : Char} (hcomma : c ≠ ',') (hr : Backed c r) :
    Backed c cs := by
  intro q heq
  subst heq
  have hne : ∀ q', c :: q ≠ ',' :: q' := by
    intro q' heq
    cases heq
    exact hcomma rfl
  rw [moreRoots_of_ne k fuel hne] at h
  cases h
  exact hr q rfl

theorem moreRoots_comma (k : FieldKind) (fuel : Nat) (q : List Char) :
    moreRoots k (fuel + 1) (',' :: q) = match root? k q with
      | some (x, r) => (x :: (moreRoots k fuel r).1, (moreRoots k fuel r).2)
      | none => ([], ',' :: q) := rfl

include hrest in
theorem moreRoots_append_of_ne {k : FieldKind} {fuel : Nat} {cs r : List Char} {rs : List Root}
    (h : moreRoots k fuel cs = (rs, r)) (hne : ∀ q, cs ≠ ',' :: q) (fuel' : Nat)
    {cs' : List Char} (hcont : Continues rest cs cs') :
    ∃ r', moreRoots k fuel' cs' = (rs, r') ∧ Continues rest r r' := by
  rw [moreRoots_of_ne k fuel hne] at h
  cases h
  exact ⟨cs', moreRoots_of_ne k fuel' (hcont.head_ne hrest (by decide) hne), hcont⟩

include hrest in
/-- The same roots are read again, with any fuel that is enough. -/
theorem moreRoots_append {k : FieldKind} {fuel : Nat} {cs r : List Char} {rs : List Root}
    (h : moreRoots k fuel cs = (rs, r)) (hlength : cs.length ≤ fuel)
    (hr : ∀ c, isJoint c = true → Backed c r) {fuel' : Nat} (hfuel : fuel ≤ fuel')
    {cs' : List Char} (hcont : Continues rest cs cs') :
    ∃ r', moreRoots k fuel' cs' = (rs, r') ∧ Continues rest r r' := by
  induction fuel generalizing cs rs fuel' cs' with
  | zero =>
    have hnil := List.eq_nil_of_length_eq_zero (Nat.le_zero.mp hlength)
    subst hnil
    exact moreRoots_append_of_ne hrest h nofun fuel' hcont
  | succ fuel ih =>
    by_cases hcomma : ∃ q, cs = ',' :: q
    · obtain ⟨q, rfl⟩ := hcomma
      obtain ⟨fuel', rfl⟩ : ∃ n, fuel' = n + 1 := ⟨fuel' - 1, by omega⟩
      rw [moreRoots_comma] at h
      rw [hcont.cons, moreRoots_comma]
      cases hx : root? k q with
      | none =>
        -- the comma that no root follows is left
        rw [hx] at h
        cases h
        rw [root?_append_none hrest (hr ',' (by decide) q rfl) hx]
        exact ⟨_, rfl, .inl rfl⟩
      | some p =>
        obtain ⟨x, r1⟩ := p
        rw [hx] at h
        obtain ⟨hrs, hrest'⟩ := Prod.mk.inj h
        have hmore : moreRoots k fuel r1 = ((moreRoots k fuel r1).1, r) := Prod.ext rfl hrest'
        have hshort : r1.length ≤ fuel :=
          Nat.le_trans (root?_suffix hx).length_le (Nat.le_of_succ_le_succ hlength)
        obtain ⟨r1', hr1', hcont1⟩ := root?_append hrest hx
          (backed_of_moreRoots hmore (by decide) (hr '-' (by decide)))
          (backed_of_moreRoots hmore (by decide) (hr '/' (by decide)))
        obtain ⟨r2', hr2', hcont2⟩ := ih hmore hshort (Nat.le_of_succ_le_succ hfuel) hcont1
        rw [hr1']
        simp only
        rw [hr2', hrs]
        exact ⟨r2', rfl, hcont2⟩
    · exact moreRoots_append_of_ne hrest h (fun q hq => hcomma ⟨q, hq⟩) fuel' hcont

/-- What a whole field leaves when a blank and `rest` follow the text. -/
def followed (rest r : List Char) : List Char :=
  if r = [] then skipBlanks rest else r ++ ' ' :: rest

/-- Blanks at the end of a field are skipped together with those that follow it. -/
theorem Continues.skipBlanks_eq {rest r r' : List Char} (h : Continues rest r r') :
    skipBlanks r' = followed rest (skipBlanks r) := by
  unfold followed
  rcases h with rfl | ⟨rfl, rfl⟩
  · exact skipBlanks_append r rest
  · exact skipBlanks_idem rest

theorem Continues.length_le {rest r r' : List Char} (h : Continues rest r r') :
    r.length ≤ r'.length := by
  rcases h with rfl | ⟨rfl, -⟩
  · simp
  · simp

theorem backed_of_skipBlanks {r : List Char} {c : Char} (hc : isJoint c = true)
    (h : Backed c (skipBlanks r)) : Backed c r := by
  intro q heq
  subst heq
  exact h q (skipBlanks_joint hc q)

include hrest in
theorem roots?_append {k : FieldKind} {cs r : List Char} {rs : List Root}
    (h : roots? k cs = some (rs, r)) (hr : ∀ c, isJoint c = true → Backed c r) :
    roots? k (cs ++ ' ' :: rest) = some (rs, followed rest r) := by
  unfold roots? at h ⊢
  cases hx : root? k (skipBlanks cs) with
  | none =>
    rw [hx] at h
    cases h
  | some p =>
    obtain ⟨x, r1⟩ := p
    rw [hx] at h
    simp only [Option.some.injEq, Prod.mk.injEq] at h
    obtain ⟨hrs, hend⟩ := h
    subst hend
    have hmore : moreRoots k r1.length r1
        = ((moreRoots k r1.length r1).1, (moreRoots k r1.length r1).2) := rfl
    have hback : ∀ c, isJoint c = true → Backed c (moreRoots k r1.length r1).2 :=
      fun c hc => backed_of_skipBlanks hc (hr c hc)
    obtain ⟨r1', hr1', hcont1⟩ := root?_append hrest hx
      (backed_of_moreRoots hmore (by decide) (hback '-' (by decide)))
      (backed_of_moreRoots hmore (by decide) (hback '/' (by decide)))
    -- the longer text has fuel enough for the same roots
    obtain ⟨r2', hr2', hcont2⟩ :=
      moreRoots_append hrest hmore Nat.le.refl hback hcont1.length_le hcont1
    have hne : skipBlanks cs ≠ [] := by
      intro hnil
      rw [hnil] at hx
      cases hx
    rw [skipBlanks_append, if_neg hne, hr1']
    simp only
    rw [hr2', hcont2.skipBlanks_eq, ← hrs]

include hrest in
theorem roots?_append_none {k : FieldKind} {cs : List Char} (hne : skipBlanks cs ≠ [])
    (h : roots? k cs = none) : roots? k (cs ++ ' ' :: rest) = none := by
  unfold roots? at h ⊢
  cases hx : root? k (skipBlanks cs) with
  | none =>
    have hne' : skipBlanks (skipBlanks cs) ≠ [] := by
      rw [skipBlanks_idem]
      exact hne
    rw [skipBlanks_append, if_neg hne, root?_append_none hrest hne' hx]
  | some p =>
    rw [hx] at h
    cases h

include hrest in
/-- **A field is read in front of other text as it is alone**, when no joint is left at the end. -/
theorem field?_append {k : FieldKind} {cs r : List Char} {vs : List Nat}
    (h : field? k cs = some (vs, r)) (hr : ∀ c, isJoint c = true → Backed c r) :
    field? k (cs ++ ' ' :: rest) = some (vs, followed rest r) := by
  unfold field? at h ⊢
  split at h
  next rs r' hrs =>
    obtain ⟨ws, hws, heq⟩ := Option.map_eq_some_iff.mp h
    cases heq
    rw [roots?_append hrest hrs hr]
    simp only [hws, Option.map_some]
  next => cases h

include hrest in
/-- **What is no field alone is none in front of other text**, when no joint is left at the end. -/
theorem field?_append_none {k : FieldKind} {cs : List Char} (hne : skipBlanks cs ≠ [])
    (h : field? k cs = none)
    (hr : ∀ rs r, roots? k cs = some (rs, r) → ∀ c, isJoint c = true → Backed c r) :
    field? k (cs ++ ' ' :: rest) = none := by
  unfold field? at h ⊢
  split at h
  next rs r hrs =>
    rw [roots?_append hrest hrs (hr rs r hrs)]
    simp only [Option.map_eq_none_iff] at h ⊢
    exact h
  next hrs => rw [roots?_append_none hrest hne hrs]

end Readers

/-! ## §5. Words that are fields -/

/-- The word is a complete field of these values. -/
def FieldKind.Reads (k : FieldKind) (word : List Char) (vs : List Nat) : Prop :=
  field? k word = some (vs, [])

theorem field?_skipBlanks (k : FieldKind) (cs : List Char) :
    field? k (skipBlanks cs) = field? k cs := by
  unfold field? roots?
  rw [skipBlanks_idem]

namespace FieldKind.Reads

variable {k : FieldKind} {word : List Char} {vs : List Nat}

theorem roots (h : k.Reads word vs) :
    ∃ rs, roots? k word = some (rs, []) ∧ rootsValues? k rs = some vs := by
  unfold Reads field? at h
  split at h
  next rs r hrs =>
    obtain ⟨ws, hws, heq⟩ := Option.map_eq_some_iff.mp h
    cases heq
    exact ⟨rs, hrs, hws⟩
  next => cases h

/-- No root begins with a character that holds a field together. -/
theorem root?_joint (k : FieldKind) {c : Char} (hc : isJoint c = true) (q : List Char) :
    root? k (c :: q) = none := by
  unfold isJoint at hc
  simp only [Bool.or_eq_true, beq_iff_eq] at hc
  rcases hc with (rfl | rfl) | rfl <;> rfl

/-- A complete field begins with something, but not with a joint. -/
theorem opens (h : k.Reads word vs) : Opens word := by
  obtain ⟨rs, hrs, -⟩ := h.roots
  unfold roots? at hrs
  cases hw : skipBlanks word with
  | nil =>
    rw [hw] at hrs
    cases hrs
  | cons c q =>
    refine ⟨c, q, hw, ?_⟩
    cases hc : isJoint c with
    | false => rfl
    | true =>
      rw [hw, root?_joint k hc] at hrs
      cases hrs

/-- **A complete field is read in front of other text.** -/
theorem append (h : k.Reads word vs) {rest : List Char} (hrest : Opens rest) :
    field? k (skipBlanks (word ++ ' ' :: rest)) = some (vs, skipBlanks rest) := by
  rw [field?_skipBlanks]
  exact field?_append hrest h fun c _ => backed_nil c

end FieldKind.Reads

theorem Opens.append {word : List Char} (h : Opens word) (more : List Char) :
    Opens (word ++ ' ' :: more) := by
  obtain ⟨c, q, hw, hc⟩ := h
  refine ⟨c, q ++ ' ' :: more, ?_, hc⟩
  rw [skipBlanks_append, hw, if_neg (List.cons_ne_nil c q)]
  rfl

section Layout

variable {minute hour day month weekday : List Char} {minutes hours days months weekdays : List Nat}

/-- **The timetable of words that are complete fields.** -/
theorem ofChars?_layout (hminute : FieldKind.minute.Reads minute minutes)
    (hhour : FieldKind.hour.Reads hour hours) (hday : FieldKind.dayOfMonth.Reads day days)
    (hmonth : FieldKind.month.Reads month months)
    (hweekday : FieldKind.dayOfWeek.Reads weekday weekdays) :
    Timetable.ofChars? (Schedule.layout minute hour day month weekday) = some
      { seconds := [0], minutes, hours, days, months, weekdays, years := none } := by
  have hsecond : FieldKind.second.Reads ['0'] [0] := rfl
  have o5 := hweekday.opens
  have o4 := hmonth.opens.append weekday
  have o3 := hday.opens.append (month ++ ' ' :: weekday)
  have o2 := hhour.opens.append (day ++ ' ' :: (month ++ ' ' :: weekday))
  have o1 := hminute.opens.append (hour ++ ' ' :: (day ++ ' ' :: (month ++ ' ' :: weekday)))
  have hlayout : Schedule.layout minute hour day month weekday = ['0'] ++ ' ' ::
      (minute ++ ' ' :: (hour ++ ' ' :: (day ++ ' ' :: (month ++ ' ' :: weekday)))) := rfl
  have hlast : field? .dayOfWeek (skipBlanks weekday) = some (weekdays, []) := by
    rw [field?_skipBlanks]
    exact hweekday
  have hnone : field? .year [] = none := rfl
  -- each word is read off the front, and the next one opens what is left
  unfold Timetable.ofChars?
  rw [hlayout, ← field?_skipBlanks, hsecond.append o1]
  simp only [Option.bind_eq_bind, Option.bind_some]
  rw [hminute.append o2]
  simp only [Option.bind_some]
  rw [hhour.append o3]
  simp only [Option.bind_some]
  rw [hday.append o4]
  simp only [Option.bind_some]
  rw [hmonth.append o5]
  simp only [Option.bind_some]
  rw [hlast]
  simp only [Option.bind_some, hnone, List.isEmpty_nil, if_true]

/-- The timetables of five words: when both day words restrict the day, each has one of its own. -/
theorem timetables?_of_reads {renumbered : List Char}
    (hminute : FieldKind.minute.Reads minute minutes) (hhour : FieldKind.hour.Reads hour hours)
    (hday : FieldKind.dayOfMonth.Reads day days) (hmonth : FieldKind.month.Reads month months)
    (hweekday : FieldKind.dayOfWeek.Reads renumbered weekdays) :
    Schedule.timetables? minute hour day month weekday renumbered = some
      (if Schedule.isRestricted day && Schedule.isRestricted weekday then
        [{ seconds := [0], minutes, hours, days, months, weekdays := FieldKind.dayOfWeek.all,
           years := none },
         { seconds := [0], minutes, hours, days := FieldKind.dayOfMonth.all, months, weekdays,
           years := none }]
      else [{ seconds := [0], minutes, hours, days, months, weekdays, years := none }]) := by
  have hanyDay : FieldKind.dayOfMonth.Reads ['*'] FieldKind.dayOfMonth.all := rfl
  have hanyWeekday : FieldKind.dayOfWeek.Reads ['*'] FieldKind.dayOfWeek.all := rfl
  unfold Schedule.timetables?
  simp only
  split
  next =>
    simp only [List.mapM_cons, List.mapM_nil, ofChars?_layout hminute hhour hday hmonth hanyWeekday,
      ofChars?_layout hminute hhour hanyDay hmonth hweekday]
    rfl
  next =>
    simp only [List.mapM_cons, List.mapM_nil, ofChars?_layout hminute hhour hday hmonth hweekday]
    rfl

end Layout

end CronSupervisor.Cron
