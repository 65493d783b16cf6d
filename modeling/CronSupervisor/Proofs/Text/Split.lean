/-
  CronSupervisor.Proofs.Text.Split — what the pieces of a text are made of.

  Cutting at a separator gives pieces without it; cutting at blanks gives words that are not empty
  and have no blank.  No piece has a character that the text does not have.

  Main statements:
    * `not_mem_of_mem_splitOn`, `mem_of_mem_splitOn` — the pieces between separators.
    * `splitOn_joinWith` — pieces that were joined are found again.
    * `splitOnce_append` — the first separator is where a text without it ends.
    * `of_mem_words` — the words of a text.
-/
import CronSupervisor.Text.Blank
import CronSupervisor.Text.Split
import Mathlib.Data.List.Basic

namespace CronSupervisor.Text

/-! ## §1. Separators -/

theorem splitOn_cons_of_ne {sep c : Char} (hc : c ≠ sep) (cs : List Char) :
    ∃ p ps, splitOn sep cs = p :: ps ∧ splitOn sep (c :: cs) = (c :: p) :: ps := by
  obtain ⟨p, ps, hps⟩ := List.exists_cons_of_ne_nil (splitOn_ne_nil sep cs)
  refine ⟨p, ps, hps, ?_⟩
  show (if c = sep then _ else _) = _
  rw [if_neg hc, hps]

/-- The pieces have no separator. -/
theorem not_mem_of_mem_splitOn {sep : Char} {cs p : List Char} (hp : p ∈ splitOn sep cs) :
    sep ∉ p := by
  induction cs generalizing p with
  | nil =>
    rw [List.mem_singleton.mp hp]
    exact List.not_mem_nil
  | cons c cs ih =>
    by_cases hc : c = sep
    · have hcons : splitOn sep (c :: cs) = [] :: splitOn sep cs := if_pos hc
      rw [hcons] at hp
      rcases List.mem_cons.mp hp with rfl | hp
      · exact List.not_mem_nil
      · exact ih hp
    · obtain ⟨q, qs, hq, hcons⟩ := splitOn_cons_of_ne hc cs
      rw [hcons] at hp
      rw [hq] at ih
      rcases List.mem_cons.mp hp with rfl | hp
      · intro hsep
        rcases List.mem_cons.mp hsep with hsep | hsep
        · exact hc hsep.symm
        · exact ih List.mem_cons_self hsep
      · exact ih (List.mem_cons_of_mem q hp)

/-- The pieces have no characters of their own. -/
theorem mem_of_mem_splitOn {sep : Char} {cs p : List Char} (hp : p ∈ splitOn sep cs) {d : Char}
    (hd : d ∈ p) : d ∈ cs := by
  induction cs generalizing p with
  | nil =>
    rw [List.mem_singleton.mp hp] at hd
    exact hd
  | cons c cs ih =>
    by_cases hc : c = sep
    · have hcons : splitOn sep (c :: cs) = [] :: splitOn sep cs := if_pos hc
      rw [hcons] at hp
      rcases List.mem_cons.mp hp with rfl | hp
      · cases hd
      · exact List.mem_cons_of_mem c (ih hp hd)
    · obtain ⟨q, qs, hq, hcons⟩ := splitOn_cons_of_ne hc cs
      rw [hcons] at hp
      rw [hq] at ih
      rcases List.mem_cons.mp hp with rfl | hp
      · rcases List.mem_cons.mp hd with rfl | hd
        · exact List.mem_cons_self
        · exact List.mem_cons_of_mem c (ih List.mem_cons_self hd)
      · exact List.mem_cons_of_mem c (ih (List.mem_cons_of_mem q hp) hd)

/-- The first piece is what comes before the first separator. -/
theorem splitOn_append {sep : Char} {a : List Char} (ha : sep ∉ a) (b : List Char) :
    splitOn sep (a ++ sep :: b) = a :: splitOn sep b := by
  induction a with
  | nil => exact if_pos rfl
  | cons c a ih =>
    have hc : c ≠ sep := fun h => ha (h ▸ List.mem_cons_self)
    obtain ⟨p, ps, hps, hcons⟩ := splitOn_cons_of_ne hc (a ++ sep :: b)
    rw [ih fun h => ha (List.mem_cons_of_mem c h)] at hps
    cases hps
    exact hcons

/-- A text without separators is one piece. -/
theorem splitOn_of_not_mem {sep : Char} {a : List Char} (ha : sep ∉ a) : splitOn sep a = [a] := by
  induction a with
  | nil => rfl
  | cons c a ih =>
    have hc : c ≠ sep := fun h => ha (h ▸ List.mem_cons_self)
    obtain ⟨p, ps, hps, hcons⟩ := splitOn_cons_of_ne hc a
    rw [ih fun h => ha (List.mem_cons_of_mem c h)] at hps
    cases hps
    exact hcons

/-- Pieces without separators are found again when they are joined. -/
theorem splitOn_joinWith {sep : Char} {pieces : List (List Char)} (hne : pieces ≠ [])
    (h : ∀ p ∈ pieces, sep ∉ p) : splitOn sep (joinWith sep pieces) = pieces := by
  induction pieces with
  | nil => exact absurd rfl hne
  | cons p pieces ih =>
    cases pieces with
    | nil => exact splitOn_of_not_mem (h p List.mem_cons_self)
    | cons q pieces =>
      refine (splitOn_append (h p List.mem_cons_self) _).trans (congrArg (p :: ·) ?_)
      exact ih (List.cons_ne_nil q pieces) fun r hr => h r (List.mem_cons_of_mem p hr)

theorem intercalate_eq_joinWith (sep : Char) (pieces : List (List Char)) :
    [sep].intercalate pieces = joinWith sep pieces := by
  induction pieces with
  | nil => rfl
  | cons p pieces ih =>
    cases pieces with
    | nil => exact List.append_nil p
    | cons q pieces =>
      rw [List.intercalate_cons_cons, ih]
      exact List.append_assoc p [sep] _

theorem splitOnce_eq_none {sep : Char} {cs : List Char} (h : splitOnce sep cs = none) :
    sep ∉ cs := by
  induction cs with
  | nil => exact List.not_mem_nil
  | cons c cs ih =>
    unfold splitOnce at h
    split at h
    next => cases h
    next hc =>
      intro hsep
      rcases List.mem_cons.mp hsep with hsep | hsep
      · exact hc hsep.symm
      · exact ih (Option.map_eq_none_iff.mp h) hsep

/-- The first separator is where a text without it ends. -/
theorem splitOnce_append {sep : Char} {a : List Char} (ha : sep ∉ a) (b : List Char) :
    splitOnce sep (a ++ sep :: b) = some (a, b) := by
  induction a with
  | nil => exact if_pos rfl
  | cons c a ih =>
    have hc : c ≠ sep := fun h => ha (h ▸ List.mem_cons_self)
    show (if c = sep then _ else _) = _
    rw [if_neg hc, List.append_eq, ih fun h => ha (List.mem_cons_of_mem c h)]
    rfl

theorem splitOnce_not_mem {sep : Char} {cs a b : List Char} (h : splitOnce sep cs = some (a, b)) :
    sep ∉ a := by
  induction cs generalizing a with
  | nil => cases h
  | cons c cs ih =>
    unfold splitOnce at h
    split at h
    next =>
      cases h
      exact List.not_mem_nil
    next hc =>
      obtain ⟨⟨x, y⟩, hxy, heq⟩ := Option.map_eq_some_iff.mp h
      cases heq
      intro hsep
      rcases List.mem_cons.mp hsep with hsep | hsep
      · exact hc hsep.symm
      · exact ih hxy hsep

theorem mem_joinWith {sep c : Char} {pieces : List (List Char)} (h : c ∈ joinWith sep pieces) :
    c = sep ∨ ∃ p ∈ pieces, c ∈ p := by
  induction pieces with
  | nil => cases h
  | cons p pieces ih =>
    cases pieces with
    | nil => exact .inr ⟨p, List.mem_cons_self, h⟩
    | cons q pieces =>
      rcases List.mem_append.mp h with h | h
      · exact .inr ⟨p, List.mem_cons_self, h⟩
      · rcases List.mem_cons.mp h with h | h
        · exact .inl h
        · exact (ih h).imp_right fun ⟨p', hp', hc⟩ => ⟨p', List.mem_cons_of_mem p hp', hc⟩

theorem head?_joinWith (sep : Char) {p : List Char} (hp : p ≠ []) (pieces : List (List Char)) :
    (joinWith sep (p :: pieces)).head? = p.head? := by
  cases pieces with
  | nil => rfl
  | cons q pieces => exact List.head?_append_of_ne_nil _ hp

/-! ## §2. Words -/

theorem of_mem_close {p : List Char × List (List Char)} {P : List Char → Prop}
    (hhead : p.1 ≠ [] → P p.1) (htail : ∀ w ∈ p.2, P w) : ∀ w ∈ words.close p, P w := by
  obtain ⟨w, ws⟩ := p
  cases w with
  | nil => exact htail
  | cons c w =>
    intro v hv
    rcases List.mem_cons.mp hv with rfl | hv
    · exact hhead (List.cons_ne_nil c w)
    · exact htail v hv

/-- The word in the making has no blank, and the finished ones are as they should be. -/
theorem blankless_go (cs : List Char) : (∀ c ∈ (words.go cs).1, isBlank c = false) ∧
    ∀ w ∈ (words.go cs).2, w ≠ [] ∧ ∀ c ∈ w, isBlank c = false := by
  induction cs with
  | nil => exact ⟨nofun, nofun⟩
  | cons c cs ih =>
    unfold words.go
    split
    next => exact ⟨nofun, of_mem_close (fun hne => ⟨hne, ih.1⟩) ih.2⟩
    next hc =>
      refine ⟨?_, ih.2⟩
      intro d hd
      rcases List.mem_cons.mp hd with rfl | hd
      · exact Bool.eq_false_iff.mpr hc
      · exact ih.1 d hd

/-- The words of a text are not empty and have no blanks. -/
theorem of_mem_words {cs w : List Char} (hw : w ∈ words cs) :
    w ≠ [] ∧ ∀ c ∈ w, isBlank c = false :=
  of_mem_close (fun hne => ⟨hne, (blankless_go cs).1⟩) (blankless_go cs).2 w hw

end CronSupervisor.Text
