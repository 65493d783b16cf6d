/-
  CronSupervisor.Proofs.Cron.Renumbering — renumbered weekday words.

  The word is renumbered item by item.  An item keeps its text or gets a whole piece in place of its
  base, so the renumbered word holds together if the word did.  And when the renumbered word is a
  complete field, every item is a root, and its days are read as the weekdays that they stand for.

  Main statements:
    * `isWhole_renumbered` — renumbering does not break what holds together.
    * `renders_of_renumberWeekdays` — a word that is read in the end is renumbered throughout.
    * `isWhole_of_renders` — a word whose items are roots holds together.
-/
import CronSupervisor.Proofs.Cron.Weekday

namespace CronSupervisor.Cron

open Text

/-! ## §1. From items to words -/

theorem forall₂_of_mapM {ε α β : Type} {f : α → Except ε β} {xs : List α} {ys : List β}
    (h : xs.mapM f = .ok ys) : List.Forall₂ (fun x y => f x = .ok y) xs ys := by
  induction xs generalizing ys with
  | nil =>
    cases h
    exact .nil
  | cons x xs ih =>
    rw [List.mapM_cons] at h
    cases hx : f x with
    | error e =>
      rw [hx] at h
      cases h
    | ok y =>
      cases hxs : xs.mapM f with
      | error e =>
        rw [hx, hxs] at h
        cases h
      | ok zs =>
        rw [hx, hxs] at h
        cases h
        exact .cons hx (ih hxs)

theorem exists_of_mem_forall₂ {α β : Type} {R : α → β → Prop} {xs : List α} {ys : List β}
    (h : List.Forall₂ R xs ys) : ∀ y ∈ ys, ∃ x ∈ xs, R x y := by
  induction h with
  | nil => exact nofun
  | cons hxy _ ih =>
    intro y hy
    rcases List.mem_cons.mp hy with rfl | hy
    · exact ⟨_, List.mem_cons_self, hxy⟩
    · obtain ⟨x, hx, hxy⟩ := ih y hy
      exact ⟨x, List.mem_cons_of_mem _ hx, hxy⟩

theorem renumberWeekdays_eq_ok {word renumbered : List Char}
    (h : renumberWeekdays word = .ok renumbered) :
    ∃ outs, renumbered = joinWith ',' outs ∧
      List.Forall₂ (fun item out => renumberItem item = .ok out) (splitOn ',' word) outs := by
  unfold renumberWeekdays at h
  cases hm : (splitOn ',' word).mapM renumberItem with
  | error e =>
    rw [hm] at h
    cases h
  | ok outs =>
    rw [hm] at h
    cases h
    exact ⟨outs, rfl, forall₂_of_mapM hm⟩

/-- Pieces are in a chain exactly if the text that they are joined to is: a comma is a joint. -/
theorem isChain_joinWith_iff (pieces : List (List Char)) :
    (joinWith ',' pieces).IsChain Bonds ↔ ∀ p ∈ pieces, p.IsChain Bonds := by
  have hcomma : isJoint ',' = true := by decide
  induction pieces with
  | nil => simp [joinWith]
  | cons p pieces ih =>
    cases pieces with
    | nil => simp [joinWith]
    | cons q pieces =>
      show (p ++ ',' :: joinWith ',' (q :: pieces)).IsChain Bonds ↔ _
      rw [List.isChain_append, List.isChain_cons, List.forall_mem_cons]
      constructor
      · intro hchain
        exact ⟨hchain.1, ih.mp hchain.2.1.2⟩
      · intro hchain
        refine ⟨hchain.1, ⟨fun d _ => .inl hcomma, ih.mpr hchain.2⟩, fun c _ d hd => ?_⟩
        cases hd
        exact .inr (.inl hcomma)

/-- Whole pieces that are joined by commas are whole. -/
theorem isWhole_joinWith {pieces : List (List Char)} (hne : pieces ≠ [])
    (h : ∀ p ∈ pieces, IsWhole p ∧ p ≠ []) :
    IsWhole (joinWith ',' pieces) ∧ joinWith ',' pieces ≠ [] := by
  induction pieces with
  | nil => exact absurd rfl hne
  | cons p pieces ih =>
    obtain ⟨hp, hrest⟩ := List.forall_mem_cons.mp h
    cases pieces with
    | nil => exact hp
    | cons q pieces =>
      obtain ⟨hwhole, hrest⟩ := ih (List.cons_ne_nil q pieces) hrest
      exact ⟨hp.1.join hwhole hp.2 hrest (by decide), List.append_ne_nil_of_left_ne_nil hp.2 _⟩

theorem ne_nil_of_joinWith {p word : List Char} {pieces : List (List Char)}
    (hjoin : joinWith ',' (p :: pieces) = word) (hne : word ≠ [])
    (head : ∀ c ∈ word.head?, isJoint c = false) : p ≠ [] := by
  intro hnil
  subst hnil
  cases pieces with
  | nil => exact hne hjoin.symm
  | cons q pieces =>
    subst hjoin
    have hcomma := head ',' rfl
    revert hcomma
    decide

/-! ## §2. The shape of renumbered items -/

/-- What stands in place of a base: a whole text. -/
structure IsCore (core : List Char) : Prop where
  ne_nil : core ≠ []
  whole : IsWhole core
  compact : Compact core

theorem isCore_digits : ∀ a ≤ 8, ∀ b ≤ 8, IsCore [digitChar a] ∧
    IsCore [digitChar a, '-', digitChar b] ∧ IsCore [digitChar a, '-', '7', ',', '1'] := by
  have hall : ∀ a ≤ 8, ∀ b ≤ 8,
      (IsWhole [digitChar a] ∧ Compact [digitChar a]) ∧
      (IsWhole [digitChar a, '-', digitChar b] ∧ Compact [digitChar a, '-', digitChar b]) ∧
      (IsWhole [digitChar a, '-', '7', ',', '1'] ∧
        Compact [digitChar a, '-', '7', ',', '1']) := by decide
  intro a ha b hb
  obtain ⟨h1, h2, h3⟩ := hall a ha b hb
  exact ⟨⟨List.cons_ne_nil _ _, h1.1, h1.2⟩, ⟨List.cons_ne_nil _ _, h2.1, h2.2⟩,
    ⟨List.cons_ne_nil _ _, h3.1, h3.2⟩⟩

theorem renumberRange_shape {item step out : List Char} {a b : Nat} (ha : a ≤ 7) (hb : b ≤ 7)
    (h : renumberRange item step a b = .ok out) : ∃ core, out = core ++ step ∧ IsCore core := by
  rcases renumberRange_cases h with ⟨-, -, rfl⟩ | ⟨-, -, rfl⟩ | ⟨-, -, rfl, rfl⟩ |
    ⟨-, -, h7, -, rfl, rfl⟩ | ⟨h7, rfl⟩
  · exact ⟨['*'], rfl, by simp, by decide, by decide⟩
  · exact ⟨[digitChar 1], rfl, (isCore_digits 1 (by decide) 1 (by decide)).1⟩
  · exact ⟨['7', ',', '1'], rfl, by simp, by decide, by decide⟩
  · exact ⟨_, (List.append_nil _).symm, (isCore_digits (a + 1) (by omega) 1 (by decide)).2.2⟩
  · exact ⟨_, rfl, (isCore_digits (a + 1) (by omega) (b + 1) (by omega)).2.1⟩

/-- **An item stays as it is, or its base is replaced by a whole text.** -/
theorem renumberItem_shape {item out : List Char} (h : renumberItem item = .ok out) :
    out = item ∨ ∃ base core step, item = base ++ step ∧ out = core ++ step ∧ IsStep step ∧
      IsCore core := by
  obtain ⟨base, step, hitem, -, hstep, hcases⟩ := renumberItem_cases h
  rcases hcases with ⟨hout, -⟩ | ⟨n, -, -, hout⟩ | ⟨-, -, a, b, -, -, -, ha, hb, hout⟩
  · exact .inl hout
  · have hday : n % 7 + 1 ≤ 8 := by omega
    exact .inr ⟨base, [digitChar (n % 7 + 1)], step, hitem, hout, hstep,
      (isCore_digits _ hday 1 (by decide)).1⟩
  · obtain ⟨core, hout, hcore⟩ := renumberRange_shape ha hb hout
    exact .inr ⟨base, core, step, hitem, hout, hstep, hcore⟩

section Shape

variable {item out : List Char} (h : renumberItem item = .ok out)

include h in
theorem compact_renumberItem (compact : Compact item) : Compact out := by
  rcases renumberItem_shape h with rfl | ⟨base, core, step, rfl, rfl, -, hcore⟩
  · exact compact
  · intro c hc
    rcases List.mem_append.mp hc with hc | hc
    · exact hcore.compact c hc
    · exact compact c (List.mem_append_right base hc)

include h in
theorem bonds_renumberItem (bonds : item.IsChain Bonds) : out.IsChain Bonds := by
  rcases renumberItem_shape h with rfl | ⟨base, core, step, rfl, rfl, hstep, hcore⟩
  · exact bonds
  · refine List.isChain_append.mpr
      ⟨hcore.whole.bonds, (List.isChain_append.mp bonds).2.1, fun c _ d hd => ?_⟩
    -- base and step meet at a slash, which is a joint
    rcases hstep with rfl | ⟨st, rfl⟩
    · cases hd
    · cases hd
      exact .inr (.inl (by decide))

include h in
theorem head_renumberItem (hne : item ≠ []) (head : ∀ c ∈ item.head?, isJoint c = false) :
    out ≠ [] ∧ ∀ c ∈ out.head?, isJoint c = false := by
  rcases renumberItem_shape h with rfl | ⟨base, core, step, rfl, rfl, -, hcore⟩
  · exact ⟨hne, head⟩
  · refine ⟨List.append_ne_nil_of_left_ne_nil hcore.ne_nil step, ?_⟩
    rw [List.head?_append_of_ne_nil _ hcore.ne_nil]
    exact hcore.whole.head

end Shape

/-! ## §3. Renumbered words -/

section Word

variable {word renumbered : List Char} (h : renumberWeekdays word = .ok renumbered)

include h in
theorem compact_renumbered (compact : Compact word) : Compact renumbered := by
  obtain ⟨outs, rfl, houts⟩ := renumberWeekdays_eq_ok h
  intro c hc
  rcases mem_joinWith hc with rfl | ⟨out, hout, hc⟩
  · decide
  · obtain ⟨item, hitem, hrenumber⟩ := exists_of_mem_forall₂ houts out hout
    exact compact_renumberItem hrenumber
      (fun d hd => compact d (mem_of_mem_splitOn hitem hd)) c hc

include h in
/-- **Renumbering does not break what holds together.** -/
theorem isWhole_renumbered (hword : IsWord word) (whole : IsWhole word) :
    IsWord renumbered ∧ (∀ c ∈ renumbered.head?, isJoint c = false) ∧
      renumbered.IsChain Bonds := by
  have compact := compact_renumbered h hword.compact
  obtain ⟨outs, rfl, houts⟩ := renumberWeekdays_eq_ok h
  have hbonds : ∀ out ∈ outs, out.IsChain Bonds := by
    intro out hout
    obtain ⟨item, hitem, hrenumber⟩ := exists_of_mem_forall₂ houts out hout
    have hall := (isChain_joinWith_iff (splitOn ',' word)).mp
    rw [joinWith_splitOn] at hall
    exact bonds_renumberItem hrenumber (hall whole.bonds item hitem)
  obtain ⟨first, items, hitems⟩ := List.exists_cons_of_ne_nil (splitOn_ne_nil ',' word)
  have hjoin := joinWith_splitOn ',' word
  rw [hitems] at houts hjoin
  cases houts with
  | @cons _ out _ outs hfirst _ =>
    -- the first item is not empty, or else the word would begin with a comma
    have hne := ne_nil_of_joinWith hjoin hword.ne_nil whole.head
    have hhead : ∀ c ∈ first.head?, isJoint c = false := by
      rw [← head?_joinWith ',' hne items, hjoin]
      exact whole.head
    obtain ⟨hout, hhead'⟩ := head_renumberItem hfirst hne hhead
    have hsame := head?_joinWith ',' hout outs
    refine ⟨⟨?_, compact⟩, hsame ▸ hhead', (isChain_joinWith_iff _).mpr hbonds⟩
    intro hnil
    rw [hnil] at hsame
    exact hout (List.head?_eq_none_iff.mp hsame.symm)

/-- The item is a complete root as it was written, and `ys` are the roots that stand for it. -/
def Renders (item : List Char) (ys : List Root) : Prop :=
  ∃ x, root? .writtenWeekday item = some (x, []) ∧ Renumbers x ys

theorem renders_items {items outs : List (List Char)} {groups : List (List Root)}
    (hitems : ∀ item ∈ items, Compact item ∧ ',' ∉ item)
    (houts : List.Forall₂ (fun item out => renumberItem item = .ok out) items outs)
    (hgroups : List.Forall₂ (Lists .dayOfWeek) outs groups) :
    List.Forall₂ Renders items groups := by
  induction houts generalizing groups with
  | nil =>
    cases hgroups
    exact .nil
  | cons hout _ ih =>
    cases hgroups with
    | cons hys hrest =>
      obtain ⟨hitem, hitems⟩ := List.forall_mem_cons.mp hitems
      exact .cons (renumbers_of_renumberItem hitem.1 hitem.2 hout hys) (ih hitems hrest)

include h in
/-- **A word that is read in the end is renumbered throughout**, item by item. -/
theorem renders_of_renumberWeekdays (compact : Compact word) {zs : List Root}
    (hzs : roots? .dayOfWeek renumbered = some (zs, [])) :
    ∃ groups : List (List Root), zs = groups.flatten ∧
      List.Forall₂ Renders (splitOn ',' word) groups := by
  have hlists := lists_of_roots? (compact_renumbered h compact) hzs
  obtain ⟨outs, rfl, houts⟩ := renumberWeekdays_eq_ok h
  have hne : outs ≠ [] := by
    intro hnil
    subst hnil
    exact splitOn_ne_nil ',' word (List.forall₂_nil_right_iff.mp houts)
  obtain ⟨groups, hflat, hgroups⟩ := hlists.of_joinWith hne
  refine ⟨groups, hflat, renders_items ?_ houts hgroups⟩
  intro item hitem
  exact ⟨fun c hc => compact c (mem_of_mem_splitOn hitem hc), not_mem_of_mem_splitOn hitem⟩

end Word

/-- A word whose items are complete roots holds together. -/
theorem isWhole_of_renders {word : List Char} (compact : Compact word)
    {groups : List (List Root)} (h : List.Forall₂ Renders (splitOn ',' word) groups) :
    IsWhole word := by
  have hitems : ∀ item ∈ splitOn ',' word, IsWhole item ∧ item ≠ [] := by
    intro item hitem
    obtain ⟨ys, -, x, hx, -⟩ := exists_of_mem_forall₂ h.flip item hitem
    have htakes := takes_root? (fun c hc => compact c (mem_of_mem_splitOn hitem hc)) hx
    exact ⟨htakes.isWhole, htakes.ne_nil⟩
  have hjoin := isWhole_joinWith (splitOn_ne_nil ',' word) hitems
  rw [joinWith_splitOn] at hjoin
  exact hjoin.1

end CronSupervisor.Cron
