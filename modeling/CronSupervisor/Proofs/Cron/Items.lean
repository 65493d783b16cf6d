/-
  CronSupervisor.Proofs.Cron.Items — fields as lists of items.

  No reader of a root looks beyond a comma.  So a text without blanks is a complete field exactly if
  each piece between its commas is a complete root, and what a text says that was joined from pieces
  is what the pieces say one after the other.

  Main statements:
    * `root?_comma` — a root is read the same whatever stands behind a comma.
    * `lists_of_roots?` — a complete field is a list of complete roots.
    * `roots?_eq_some_iff` — and the other way round.
    * `lists_joinWith_iff` — pieces that were joined are read one by one.
-/
import CronSupervisor.Proofs.Cron.Whole

namespace CronSupervisor.Cron

open Text

/-! ## §1. Readers in front of a comma -/

section Comma

variable (cs q : List Char)

theorem skipBlanks_comma : skipBlanks (cs ++ ',' :: q) = skipBlanks cs ++ ',' :: q :=
  dropWhile_append (by decide) cs q

theorem spaced?_comma {p : Char → Bool} (hp : p ',' = false) :
    spaced? p (cs ++ ',' :: q) = (spaced? p cs).map fun (t, r) => (t, r ++ ',' :: q) := by
  unfold spaced?
  simp only
  rw [skipBlanks_comma, takeWhile_append hp, dropWhile_append hp, skipBlanks_comma]
  split <;> rfl

theorem ordinal?_comma :
    ordinal? (cs ++ ',' :: q) = (ordinal? cs).map fun (n, r) => (n, r ++ ',' :: q) := by
  unfold ordinal?
  rw [spaced?_comma cs q (by decide)]
  cases spaced? isDigit cs with
  | none => rfl
  | some p =>
    simp only [Option.map_some]
    split <;> rfl

theorem name?_comma :
    name? (cs ++ ',' :: q) = (name? cs).map fun (n, r) => (n, r ++ ',' :: q) :=
  spaced?_comma cs q (by decide)

/-- A text behind which a comma was put begins with `c` if it did before. -/
theorem append_comma_ne {r : List Char} {c : Char} (hc : c ≠ ',') (h : ∀ r', r ≠ c :: r')
    (q : List Char) : ∀ r', r ++ ',' :: q ≠ c :: r' := by
  intro r' heq
  cases r with
  | nil =>
    cases heq
    exact hc rfl
  | cons d r =>
    cases heq
    exact h r rfl

theorem pointOrRange?_comma :
    pointOrRange? (cs ++ ',' :: q) = (pointOrRange? cs).map fun (s, r) => (s, r ++ ',' :: q) := by
  have hcomma := ordinal?_comma cs q
  cases ha : ordinal? cs with
  | none =>
    rw [ha] at hcomma
    unfold pointOrRange?
    rw [hcomma, ha]
    rfl
  | some p =>
    obtain ⟨a, r⟩ := p
    rw [ha] at hcomma
    by_cases hdash : ∃ r', r = '-' :: r'
    · -- the end of the range stands in front of the comma, too
      obtain ⟨r', rfl⟩ := hdash
      rw [pointOrRange?_dash ha, pointOrRange?_dash hcomma, List.append_eq, ordinal?_comma]
      cases ordinal? r' <;> rfl
    · have hr : ∀ r', r ≠ '-' :: r' := fun r' heq => hdash ⟨r', heq⟩
      rw [pointOrRange?_point ha hr, pointOrRange?_point hcomma (append_comma_ne (by decide) hr q)]
      rfl

theorem namedRange?_comma :
    namedRange? (cs ++ ',' :: q) = (namedRange? cs).map fun (s, r) => (s, r ++ ',' :: q) := by
  have hcomma := name?_comma cs q
  cases ha : name? cs with
  | none =>
    rw [ha] at hcomma
    unfold namedRange?
    rw [hcomma, ha]
    rfl
  | some p =>
    obtain ⟨a, r⟩ := p
    rw [ha] at hcomma
    by_cases hdash : ∃ r', r = '-' :: r'
    · obtain ⟨r', rfl⟩ := hdash
      rw [namedRange?_dash ha, namedRange?_dash hcomma, List.append_eq, name?_comma]
      cases name? r' <;> rfl
    · have hr : ∀ r', r ≠ '-' :: r' := fun r' heq => hdash ⟨r', heq⟩
      rw [namedRange?_name ha hr, namedRange?_name hcomma (append_comma_ne (by decide) hr q)]
      rfl

theorem specifier?_comma (k : FieldKind) :
    specifier? k (cs ++ ',' :: q) = (specifier? k cs).map fun (s, r) => (s, r ++ ',' :: q) := by
  by_cases hstar : ∃ r, cs = '*' :: r
  · obtain ⟨r, rfl⟩ := hstar
    rfl
  by_cases hmark : ∃ r, cs = '?' :: r
  · obtain ⟨r, rfl⟩ := hmark
    show (if k.allowsQuestionMark then _ else _) =
      Option.map _ (if k.allowsQuestionMark then _ else _)
    split <;> rfl
  have hstar' : ∀ r, cs ≠ '*' :: r := fun r heq => hstar ⟨r, heq⟩
  have hmark' : ∀ r, cs ≠ '?' :: r := fun r heq => hmark ⟨r, heq⟩
  rw [specifier?_eq_or k hstar' hmark', specifier?_eq_or k (append_comma_ne (by decide) hstar' q)
    (append_comma_ne (by decide) hmark' q), pointOrRange?_comma, namedRange?_comma]
  cases pointOrRange? cs <;> rfl

/-- **A root is read the same whatever stands behind a comma.** -/
theorem root?_comma (k : FieldKind) :
    root? k (cs ++ ',' :: q) = (root? k cs).map fun (x, r) => (x, r ++ ',' :: q) := by
  have hcomma := specifier?_comma cs q k
  cases hs : specifier? k cs with
  | none =>
    rw [hs] at hcomma
    unfold root?
    rw [hcomma, hs]
    show (name? (cs ++ ',' :: q)).map _ = Option.map _ ((name? cs).map _)
    rw [name?_comma]
    cases name? cs <;> rfl
  | some p =>
    obtain ⟨s, r⟩ := p
    rw [hs] at hcomma
    by_cases hslash : ∃ r', r = '/' :: r'
    · obtain ⟨r', rfl⟩ := hslash
      rw [root?_slash hs, root?_slash hcomma, List.append_eq, ordinal?_comma]
      cases ordinal? r' <;> rfl
    · have hr : ∀ r', r ≠ '/' :: r' := fun r' heq => hslash ⟨r', heq⟩
      rw [root?_plain hs hr, root?_plain hcomma (append_comma_ne (by decide) hr q)]
      rfl

end Comma

/-! ## §2. Lists of roots -/

/-- The text is a list of roots and of nothing else. -/
inductive Lists (k : FieldKind) : List Char → List Root → Prop where
  | one {cs : List Char} {x : Root} : root? k cs = some (x, []) → Lists k cs [x]
  | more {cs q : List Char} {x : Root} {xs : List Root} :
      root? k cs = some (x, ',' :: q) → Lists k q xs → Lists k cs (x :: xs)

theorem lists_of_moreRoots {k : FieldKind} {fuel : Nat} {cs r : List Char} {x : Root}
    {rs : List Root} (hx : root? k cs = some (x, r)) (h : moreRoots k fuel r = (rs, [])) :
    Lists k cs (x :: rs) := by
  induction fuel generalizing cs r x rs with
  | zero =>
    cases h
    exact .one hx
  | succ fuel ih =>
    by_cases hcomma : ∃ q, r = ',' :: q
    · obtain ⟨q, rfl⟩ := hcomma
      rw [moreRoots_comma] at h
      cases hy : root? k q with
      | none =>
        rw [hy] at h
        cases h
      | some p =>
        obtain ⟨y, r'⟩ := p
        rw [hy] at h
        obtain ⟨rfl, hr⟩ := Prod.mk.inj h
        exact .more hx (ih hy (Prod.ext rfl hr))
    · rw [moreRoots_of_ne k _ (fun q heq => hcomma ⟨q, heq⟩)] at h
      cases h
      exact .one hx

/-- **A complete field is a list of complete roots.** -/
theorem lists_of_roots? {k : FieldKind} {cs : List Char} {xs : List Root} (compact : Compact cs)
    (h : roots? k cs = some (xs, [])) : Lists k cs xs := by
  unfold roots? at h
  rw [compact.skipBlanks_eq] at h
  split at h
  next x r hx =>
    simp only [Option.some.injEq, Prod.mk.injEq] at h
    obtain ⟨rfl, hr⟩ := h
    have htakes := takes_moreRoots compact (takes_root? compact hx)
      (Prod.ext rfl rfl : moreRoots k r.length r = (_, (moreRoots k r.length r).2))
    rw [(compact.suffix htakes.suffix).skipBlanks_eq] at hr
    exact lists_of_moreRoots hx (Prod.ext rfl hr)
  next => cases h

/-- Roots behind commas are read as long as the fuel lasts. -/
theorem moreRoots_of_lists {k : FieldKind} {q : List Char} {xs : List Root} (h : Lists k q xs)
    {fuel : Nat} (hfuel : q.length < fuel) : moreRoots k fuel (',' :: q) = (xs, []) := by
  induction h generalizing fuel with
  | one hx =>
    obtain ⟨fuel, rfl⟩ := Nat.exists_eq_succ_of_ne_zero (Nat.ne_zero_of_lt hfuel)
    rw [moreRoots_comma, hx]
    simp only
    rw [moreRoots_of_ne k fuel (fun q h => List.cons_ne_nil _ _ h.symm)]
  | more hx _ ih =>
    obtain ⟨fuel, rfl⟩ := Nat.exists_eq_succ_of_ne_zero (Nat.ne_zero_of_lt hfuel)
    have hlength := (root?_suffix hx).length_le
    rw [List.length_cons] at hlength
    rw [moreRoots_comma, hx]
    simp only
    rw [ih (by omega)]

/-- **A text without blanks is a complete field if it is a list of roots.** -/
theorem roots?_eq_some_iff {k : FieldKind} {cs : List Char} (compact : Compact cs)
    {xs : List Root} : roots? k cs = some (xs, []) ↔ Lists k cs xs := by
  refine ⟨lists_of_roots? compact, fun h => ?_⟩
  unfold roots?
  rw [compact.skipBlanks_eq]
  cases h with
  | one hx =>
    rw [hx]
    rfl
  | more hx hrest =>
    rw [hx]
    simp only
    rw [moreRoots_of_lists hrest (show _ < (',' :: _).length from Nat.lt_succ_self _)]
    rfl

namespace Lists

variable {k : FieldKind} {cs : List Char} {xs : List Root}

/-- A text without commas is a single root. -/
theorem single (h : Lists k cs xs) (hcs : ',' ∉ cs) :
    ∃ x, xs = [x] ∧ root? k cs = some (x, []) := by
  cases h with
  | one hx => exact ⟨_, rfl, hx⟩
  | more hx _ => exact absurd ((root?_suffix hx).mem List.mem_cons_self) hcs

/-- What stands before a comma and what stands behind it are lists of their own. -/
theorem of_append {p q : List Char} {zs : List Root} (h : Lists k (p ++ ',' :: q) zs) :
    ∃ xs ys, zs = xs ++ ys ∧ Lists k p xs ∧ Lists k q ys := by
  generalize hcs : p ++ ',' :: q = cs at h
  induction h generalizing p with
  | one hx =>
    -- the comma would be left
    rw [← hcs, root?_comma] at hx
    obtain ⟨⟨y, r⟩, -, heq⟩ := Option.map_eq_some_iff.mp hx
    simp at heq
  | more hx hrest ih =>
    rw [← hcs, root?_comma] at hx
    obtain ⟨⟨y, r⟩, hy, heq⟩ := Option.map_eq_some_iff.mp hx
    obtain ⟨rfl, hr⟩ := Prod.mk.inj heq
    -- the comma behind the root is the one between the two texts, or one of the first
    cases r with
    | nil =>
      cases hr
      exact ⟨_, _, rfl, .one hy, hrest⟩
    | cons c r =>
      cases hr
      obtain ⟨xs, ys, rfl, hxs, hys⟩ := ih rfl
      exact ⟨_, _, rfl, .more hy hxs, hys⟩

theorem of_joinWith {pieces : List (List Char)} (hne : pieces ≠ []) {zs : List Root}
    (h : Lists k (joinWith ',' pieces) zs) :
    ∃ groups : List (List Root), zs = groups.flatten ∧ List.Forall₂ (Lists k) pieces groups := by
  induction pieces generalizing zs with
  | nil => exact absurd rfl hne
  | cons p pieces ih =>
    cases pieces with
    | nil => exact ⟨[zs], by simp, .cons h .nil⟩
    | cons p' pieces =>
      obtain ⟨xs, ys, rfl, hxs, hys⟩ := of_append h
      obtain ⟨groups, rfl, hgroups⟩ := ih (List.cons_ne_nil p' pieces) hys
      exact ⟨xs :: groups, rfl, .cons hxs hgroups⟩

/-- What is listed before a comma and behind it is listed in a row. -/
theorem append {p q : List Char} {xs ys : List Root} (hp : Lists k p xs) (hq : Lists k q ys) :
    Lists k (p ++ ',' :: q) (xs ++ ys) := by
  induction hp with
  | one hx =>
    refine .more ?_ hq
    rw [root?_comma, hx]
    rfl
  | more hx _ ih =>
    refine .more ?_ ih
    rw [root?_comma, hx]
    rfl

theorem joinWith {pieces : List (List Char)} (hne : pieces ≠ []) {groups : List (List Root)}
    (h : List.Forall₂ (Lists k) pieces groups) : Lists k (joinWith ',' pieces) groups.flatten := by
  induction h with
  | nil => exact absurd rfl hne
  | @cons p xs pieces groups hp hrest ih =>
    cases hrest with
    | nil =>
      rw [List.flatten_cons, List.flatten_nil, List.append_nil]
      exact hp
    | cons hq hrest => exact hp.append (ih (List.cons_ne_nil _ _))

end Lists

/-- **Pieces that were joined are read one by one.** -/
theorem lists_joinWith_iff {k : FieldKind} {pieces : List (List Char)} (hne : pieces ≠ [])
    {zs : List Root} : Lists k (joinWith ',' pieces) zs ↔
      ∃ groups : List (List Root), zs = groups.flatten ∧ List.Forall₂ (Lists k) pieces groups := by
  refine ⟨Lists.of_joinWith hne, ?_⟩
  rintro ⟨groups, rfl, h⟩
  exact .joinWith hne h

end CronSupervisor.Cron
