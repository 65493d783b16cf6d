/-
  CronSupervisor.Proofs.Pattern.Masking — what is left of a masked text.

  A masked text is made of the characters that were kept and of masks.  Where the pattern has no
  conditions, a text may be masked in pieces, cut at the characters that the pattern does not take.
  So two patterns that never take the same character mask different pieces, and it does not matter
  which of them goes first.  Masks must not get in the way, though: neither pattern may match the
  empty text or take a character of the mask.

  Main statements:
    * `masked_mask` — kept characters and masks.
    * `mask_append_cons` — a text is masked in pieces.
    * `Indifferent.mask_mask` — two patterns in either order.
-/
import CronSupervisor.Proofs.Pattern.Search
import Mathlib.Data.List.TakeWhile

namespace CronSupervisor.Pattern

variable {mask : List Char}

/-! ## §1. Kept characters and masks -/

/-- A text is another one with masks in place of some of its parts. -/
inductive Masked (mask : List Char) : List Char → List Char → Prop
  | nil : Masked mask [] []
  | keep (c : Char) {text text' : List Char} :
      Masked mask text text' → Masked mask (c :: text) (c :: text')
  | hide (u : List Char) {text text' : List Char} :
      Masked mask text text' → Masked mask (u ++ text) (mask ++ text')

namespace Masked

variable {text text' : List Char}

theorem keepAll (u : List Char) (h : Masked mask text text') :
    Masked mask (u ++ text) (u ++ text') := by
  induction u with
  | nil => exact h
  | cons c u ih => exact .keep c ih

theorem refl (text : List Char) : Masked mask text text := by
  induction text with
  | nil => exact .nil
  | cons c text ih => exact .keep c ih

theorem mem (h : Masked mask text text') {c : Char} (hc : c ∈ text') : c ∈ text ∨ c ∈ mask := by
  induction h with
  | nil => exact .inl hc
  | keep d _ ih =>
    rcases List.mem_cons.mp hc with rfl | hc
    · exact .inl List.mem_cons_self
    · exact (ih hc).imp_left (List.mem_cons_of_mem d)
  | hide u _ ih =>
    rcases List.mem_append.mp hc with hc | hc
    · exact .inr hc
    · exact (ih hc).imp_left (List.mem_append_right u)

/-- A masked text begins as the text does, or with a mask. -/
theorem head (hmask : mask ≠ []) (h : Masked mask text text') {c : Char}
    (hc : text'.head? = some c) : text.head? = some c ∨ c ∈ mask := by
  cases h with
  | nil => exact .inl hc
  | keep d _ => exact .inl hc
  | hide u _ =>
    obtain ⟨d, ds, rfl⟩ := List.exists_cons_of_ne_nil hmask
    cases hc
    exact .inr List.mem_cons_self

end Masked

theorem masked_maskWith (program : Array Instr) (before : Option Char) (afterMatch : Bool)
    (text : List Char) : Masked mask text (maskWith program mask before afterMatch text) := by
  fun_induction maskWith program mask before afterMatch text
  case case1 | case3 | case5 => exact .refl _
  case case2 ih => exact .hide [] ih
  case case4 ih => exact .keep _ ih
  case case6 text start stop hfound _ _ _ ih =>
    have hbounds := search_bounds hfound
    have hparts : text
        = text.take start ++ ((text.take stop).drop start ++ text.drop stop) := by
      have htake : (text.take stop).take start = text.take start := by
        rw [List.take_take, Nat.min_eq_left hbounds.1]
      rw [← List.append_assoc, ← htake, List.take_append_drop, List.take_append_drop]
    have hmasked := Masked.keepAll (text.take start) (.hide ((text.take stop).drop start) ih)
    rw [← hparts, ← List.append_assoc] at hmasked
    exact hmasked

/-- **A masked text is made of what was kept and of masks.** -/
theorem masked_mask (p : Pattern) (text : List Char) : Masked mask text (p.mask mask text) :=
  masked_maskWith p.program none false text

/-! ## §2. Pieces -/

variable {program : Array Instr} {c : Char}

/-- What stands before a text makes no difference to how it is masked. -/
theorem maskWith_eq_maskWith (hh : Heedless program) (before before' : Option Char)
    (afterMatch : Bool) (text : List Char) :
    maskWith program mask before' afterMatch text
      = maskWith program mask before afterMatch text := by
  have hsearch := search_eq_search hh before before' text
  fun_induction maskWith program mask before afterMatch text generalizing before'
  case case1 hfound => rw [maskWith.eq_def, hsearch, hfound]
  -- only the text behind an empty match keeps what stood before it
  case case2 hfound ih =>
    rw [maskWith.eq_def, hsearch, hfound]
    exact congrArg _ (ih before' hsearch)
  case case3 hfound | case4 hfound _ =>
    rw [maskWith.eq_def, hsearch, hfound]
    rfl
  case case5 hstop hfound =>
    rw [maskWith.eq_def, hsearch, hfound]
    exact (dif_neg hstop).trans (dif_pos rfl)
  case case6 hfound hstop htext _ _ =>
    rw [maskWith.eq_def, hsearch, hfound]
    exact (dif_neg hstop).trans (dif_neg htext)

/-- A match is masked, and the text behind it on its own; only an empty match directly behind
another one is not masked. -/
theorem maskWith_of_search {before : Option Char} {afterMatch : Bool} {text : List Char}
    {start stop : Nat} (hh : Heedless program)
    (hfound : search program before text = some (start, stop))
    (hmatch : stop = 0 → afterMatch = false) :
    maskWith program mask before afterMatch text =
      text.take start ++ mask ++ maskWith program mask none true (text.drop stop) := by
  have hbounds := search_bounds hfound
  rw [maskWith.eq_def, hfound]
  dsimp only
  by_cases hstop : stop = 0
  · obtain rfl : start = 0 := by omega
    rw [dif_pos hstop, hmatch hstop, hstop]
    exact congrArg _ (maskWith_eq_maskWith hh none before true text)
  · have htext : text ≠ [] := by
      rintro rfl
      exact hstop (Nat.le_zero.mp hbounds.2)
    rw [dif_neg hstop, dif_neg htext, maskWith_eq_maskWith hh none]

/-- Where nothing is found in front of a character that is not taken, the text behind it is masked
as if it stood alone. -/
theorem maskWith_append_cons_of_none {before : Option Char} {u : List Char} (hh : Heedless program)
    (hc : Refuses program c) (hu : search program before u = none) (afterMatch : Bool)
    (v : List Char) :
    maskWith program mask before afterMatch (u ++ c :: v)
      = u ++ c :: maskWith program mask none false v := by
  have hsearch := search_append_cons hh hc before u v
  rw [hu, Option.none_or] at hsearch
  cases hv : search program none v with
  | none =>
    rw [hv] at hsearch
    rw [maskWith.eq_def, hsearch, maskWith.eq_def, hv]
    rfl
  | some m =>
    obtain ⟨start, stop⟩ := m
    rw [hv] at hsearch
    have hpiece : u ++ c :: v = (u ++ [c]) ++ v := List.append_cons u c v
    have hstart : start + (u.length + 1) = (u ++ [c]).length + start := by simp; omega
    have hstop : stop + (u.length + 1) = (u ++ [c]).length + stop := by simp; omega
    rw [maskWith_of_search hh hsearch (fun h => by cases h),
      maskWith_of_search hh hv (fun _ => rfl), hpiece, hstart, hstop,
      List.take_length_add_append, List.drop_length_add_append]
    simp

theorem maskWith_append_cons (hh : Heedless program) (hc : Refuses program c)
    (before : Option Char) (afterMatch : Bool) (u v : List Char) :
    maskWith program mask before afterMatch (u ++ c :: v)
      = maskWith program mask before afterMatch u ++ c :: maskWith program mask none false v := by
  have hsearch := search_append_cons hh hc before u v
  fun_induction maskWith program mask before afterMatch u
  case case1 before afterMatch u hu =>
    exact maskWith_append_cons_of_none hh hc hu afterMatch v
  case case2 before start u hu ih =>
    obtain rfl : start = 0 := Nat.le_zero.mp (search_bounds hu).1
    rw [hu, Option.some_or] at hsearch
    rw [maskWith_of_search hh hsearch (fun _ => rfl), maskWith_eq_maskWith hh before,
      List.drop_zero, ih (search_append_cons hh hc before u v)]
    simp
  case case3 before start hu =>
    -- an empty match at the end of the piece does not count, and the character is stepped over
    rw [hu, Option.some_or] at hsearch
    rw [List.nil_append, maskWith.eq_def, ← List.nil_append (c :: v), hsearch]
    exact congrArg _ (maskWith_eq_maskWith hh none (some c) false v)
  case case4 before start d u hu ih =>
    rw [hu, Option.some_or] at hsearch
    rw [maskWith.eq_def, hsearch]
    exact congrArg _ (ih (search_append_cons hh hc (some d) u v))
  case case5 before afterMatch start stop hstop hu =>
    -- a match in nothing is empty
    exact absurd (Nat.le_zero.mp (search_bounds hu).2) hstop
  case case6 before afterMatch u start stop hu hstop hne _ ih =>
    -- the match ends in the piece, so the cut is behind it
    have hbounds := search_bounds hu
    rw [hu, Option.some_or] at hsearch
    rw [maskWith_of_search hh hsearch (fun h => absurd h hstop),
      List.take_append_of_le_length (by omega), List.drop_append_of_le_length hbounds.2,
      maskWith_eq_maskWith hh (u.take stop).getLast?, ih (search_append_cons hh hc _ _ v)]
    simp

/-- **A text is masked in pieces**, cut at a character that the pattern does not take. -/
theorem mask_append_cons {p : Pattern} (hp : p.anchors = []) (hc : p.takes c = false)
    (u v : List Char) : p.mask mask (u ++ c :: v) = p.mask mask u ++ c :: p.mask mask v :=
  maskWith_append_cons (heedless_program hp) (refuses_program hc) none false u v

/-! ## §3. Two patterns -/

/-- A pattern without conditions that does not match the empty text, and takes no character of the
mask. -/
structure Solid (mask : List Char) (p : Pattern) : Prop where
  anchors_eq : p.anchors = []
  search_nil : search p.program none [] = none
  untaken : ∀ c ∈ mask, p.takes c = false

/-- Whether a pattern is solid can be computed. -/
theorem solid_iff {p : Pattern} : Solid mask p ↔
    p.anchors = [] ∧ search p.program none [] = none ∧ mask.all (fun c => !p.takes c) = true := by
  constructor
  · intro h
    exact ⟨h.anchors_eq, h.search_nil, by simpa using h.untaken⟩
  · rintro ⟨hanchors, hsearch, hall⟩
    exact ⟨hanchors, hsearch, by simpa using hall⟩

namespace Solid

variable {p q : Pattern} {u v text : List Char}

theorem mask_nil (hp : Solid mask p) : p.mask mask [] = [] := by
  rw [Pattern.mask, maskWith.eq_def, hp.search_nil]

/-- What the pattern does not take is kept. -/
theorem mask_append_of_untaken (hp : Solid mask p) (hu : ∀ c ∈ u, p.takes c = false) :
    p.mask mask (u ++ v) = u ++ p.mask mask v := by
  induction u with
  | nil => rfl
  | cons c u ih =>
    have hc : p.takes c = false := hu c List.mem_cons_self
    have hcut : p.mask mask ([] ++ c :: (u ++ v)) = p.mask mask [] ++ c :: p.mask mask (u ++ v) :=
      mask_append_cons hp.anchors_eq hc [] (u ++ v)
    rw [List.nil_append, hp.mask_nil, List.nil_append] at hcut
    rw [List.cons_append, hcut, ih fun d hd => hu d (List.mem_cons_of_mem c hd)]
    rfl

/-- A text is cut in front of a character that the pattern does not take. -/
theorem mask_append (hp : Solid mask p) (hv : ∀ c, v.head? = some c → p.takes c = false) :
    p.mask mask (u ++ v) = p.mask mask u ++ p.mask mask v := by
  cases v with
  | nil => rw [hp.mask_nil, List.append_nil, List.append_nil]
  | cons c v =>
    have hc : p.takes c = false := hv c rfl
    have hcons := hp.mask_append_of_untaken (u := [c]) (v := v)
      (fun d hd => by rw [List.mem_singleton.mp hd]; exact hc)
    rw [mask_append_cons hp.anchors_eq hc]
    exact congrArg _ hcons.symm

/-- Two patterns that may go in either order on a text may also do so with a piece in front of it
that only one of them takes from. -/
theorem mask_mask_append (hmask : mask ≠ []) (hp : Solid mask p) (hq : Solid mask q)
    (hu : ∀ c ∈ u, q.takes c = false) (hv : ∀ c, v.head? = some c → p.takes c = false)
    (hrest : p.mask mask (q.mask mask v) = q.mask mask (p.mask mask v)) :
    p.mask mask (q.mask mask (u ++ v)) = q.mask mask (p.mask mask (u ++ v)) := by
  -- masking leaves nothing in the piece that the other pattern takes
  have hmasked : ∀ c ∈ p.mask mask u, q.takes c = false := by
    intro c hc
    rcases (masked_mask p u).mem hc with hc | hc
    · exact hu c hc
    · exact hq.untaken c hc
  -- and the cut behind the piece stays one
  have hhead : ∀ c, (q.mask mask v).head? = some c → p.takes c = false := by
    intro c hc
    rcases (masked_mask q v).head hmask hc with hc | hc
    · exact hv c hc
    · exact hp.untaken c hc
  calc p.mask mask (q.mask mask (u ++ v))
      = p.mask mask (u ++ q.mask mask v) := by rw [hq.mask_append_of_untaken hu]
    _ = p.mask mask u ++ p.mask mask (q.mask mask v) := hp.mask_append hhead
    _ = p.mask mask u ++ q.mask mask (p.mask mask v) := by rw [hrest]
    _ = q.mask mask (p.mask mask u ++ p.mask mask v) :=
      (hq.mask_append_of_untaken hmasked).symm
    _ = q.mask mask (p.mask mask (u ++ v)) := by rw [hp.mask_append hv]

end Solid

/-- Two solid patterns that never take the same character of a text. -/
structure Indifferent (mask : List Char) (p q : Pattern) (text : List Char) : Prop where
  left : Solid mask p
  right : Solid mask q
  apart : ∀ c ∈ text, p.takes c = false ∨ q.takes c = false

/-- Whether a text has a character that two patterns take can be computed. -/
theorem indifferent_iff {p q : Pattern} {text : List Char} : Indifferent mask p q text ↔
    Solid mask p ∧ Solid mask q ∧ text.all (fun c => !p.takes c || !q.takes c) = true := by
  constructor
  · intro h
    exact ⟨h.left, h.right, by simpa using h.apart⟩
  · rintro ⟨hleft, hright, hall⟩
    exact ⟨hleft, hright, by simpa using hall⟩

namespace Indifferent

variable {p q : Pattern} {text : List Char}

theorem symm (h : Indifferent mask p q text) : Indifferent mask q p text :=
  ⟨h.right, h.left, fun c hc => (h.apart c hc).symm⟩

/-- A text of characters of another text, or of the mask. -/
theorem of_subset (h : Indifferent mask p q text) {text' : List Char}
    (hsubset : ∀ c ∈ text', c ∈ text ∨ c ∈ mask) : Indifferent mask p q text' := by
  refine ⟨h.left, h.right, ?_⟩
  intro c hc
  rcases hsubset c hc with hc | hc
  · exact h.apart c hc
  · exact .inl (h.left.untaken c hc)

/-- Where one pattern takes characters, the other one keeps its piece of the text. -/
theorem mask_mask_cons (hmask : mask ≠ []) {c : Char} (h : Indifferent mask p q (c :: text))
    (hc : p.takes c = true)
    (hrest : p.mask mask (q.mask mask (text.dropWhile p.takes))
      = q.mask mask (p.mask mask (text.dropWhile p.takes))) :
    p.mask mask (q.mask mask (c :: text)) = q.mask mask (p.mask mask (c :: text)) := by
  have hpieces : c :: text = (c :: text.takeWhile p.takes) ++ text.dropWhile p.takes := by
    rw [List.cons_append, List.takeWhile_append_dropWhile]
  have htaken : ∀ d ∈ c :: text.takeWhile p.takes, p.takes d = true := by
    intro d hd
    rcases List.mem_cons.mp hd with rfl | hd
    · exact hc
    · exact List.mem_takeWhile_imp hd
  have hu : ∀ d ∈ c :: text.takeWhile p.takes, q.takes d = false := by
    intro d hd
    have hmem : d ∈ c :: text := hpieces ▸ List.mem_append_left _ hd
    refine (h.apart d hmem).resolve_left ?_
    rw [htaken d hd]
    exact nofun
  have hv : ∀ d, (text.dropWhile p.takes).head? = some d → p.takes d = false := by
    intro d hd
    have hhead := List.head?_dropWhile_not p.takes text
    rw [hd] at hhead
    exact hhead
  rw [hpieces]
  exact h.left.mask_mask_append hmask h.right hu hv hrest

/-- **Two solid patterns that never take the same character may go in either order.** -/
theorem mask_mask (hmask : mask ≠ []) (h : Indifferent mask p q text) :
    p.mask mask (q.mask mask text) = q.mask mask (p.mask mask text) := by
  -- on the length, since a step takes a whole piece
  induction hn : text.length using Nat.strong_induction_on generalizing text with
  | _ n ih =>
    cases text with
    | nil => rw [h.left.mask_nil, h.right.mask_nil, h.left.mask_nil]
    | cons c text =>
      have hshort : ∀ v : List Char, v.Sublist text →
          p.mask mask (q.mask mask v) = q.mask mask (p.mask mask v) := by
        intro v hv
        have hlength : v.length < n := by
          have := hv.length_le
          rw [← hn, List.length_cons]
          omega
        refine ih v.length hlength ?_ rfl
        exact h.of_subset fun d hd => .inl (List.mem_cons_of_mem c (hv.subset hd))
      by_cases hpc : p.takes c
      · exact h.mask_mask_cons hmask hpc (hshort _ (List.dropWhile_sublist _))
      · by_cases hqc : q.takes c
        · have hswap := h.symm.mask_mask_cons hmask hqc
            (hshort _ (List.dropWhile_sublist _)).symm
          exact hswap.symm
        · -- both patterns keep the first character
          have hp : ∀ d ∈ [c], p.takes d = false := by simpa using hpc
          have hq : ∀ d ∈ [c], q.takes d = false := by simpa using hqc
          have hrest := hshort text (List.Sublist.refl text)
          rw [← List.singleton_append, h.left.mask_append_of_untaken hp,
            h.right.mask_append_of_untaken hq, h.left.mask_append_of_untaken hp,
            h.right.mask_append_of_untaken hq, hrest]

end Indifferent

end CronSupervisor.Pattern
