/-
  CronSupervisor.Proofs.Text.Utf8 — decoding bytes and cutting them at line feeds.

  A line feed is a byte of its own: it follows no other byte within a character, and no character
  that is encoded in several bytes is a line feed.  So whatever stands before a line feed, a flaw
  that it breaks off included, is decoded as if the bytes ended there, and what comes after it as if
  they began there.  Decoding may then be done line by line.

  Main statements:
    * `utf8Lossy_append_lineFeed` — decoding starts afresh after a line feed.
    * `not_mem_utf8Lossy` — bytes without a line feed are a text without one.
    * `map_utf8Lossy_cutAfter` — decoding the lines is cutting the text.
-/
import CronSupervisor.Text.Utf8
import Mathlib.Data.List.Basic

namespace CronSupervisor.Text

/-! ## §1. Lines -/

section Lines

variable {α : Type} [DecidableEq α] {sep : α} {as : List α}

/-- A list cut after every occurrence of a separator; what is left at the end is a piece too. -/
def cutAfter (sep : α) : List α → List (List α)
  | [] => []
  | a :: as =>
    if a = sep then [a] :: cutAfter sep as
    else match cutAfter sep as with
      | [] => [[a]]
      | p :: ps => (a :: p) :: ps

/-- The pieces are the whole list. -/
theorem flatten_cutAfter (sep : α) (as : List α) : (cutAfter sep as).flatten = as := by
  induction as with
  | nil => rfl
  | cons a as ih =>
    unfold cutAfter
    split
    · exact congrArg (a :: ·) ih
    · cases h : cutAfter sep as with
      | nil =>
        rw [h] at ih
        exact congrArg (a :: ·) ih
      | cons p ps =>
        rw [h] at ih
        exact congrArg (a :: ·) ih

/-- **The first piece ends with the first separator.** -/
theorem cutAfter_append_cons (h : sep ∉ as) (bs : List α) :
    cutAfter sep (as ++ sep :: bs) = (as ++ [sep]) :: cutAfter sep bs := by
  induction as with
  | nil => exact if_pos rfl
  | cons a as ih =>
    have ha := List.ne_of_not_mem_cons h
    have has := List.not_mem_of_not_mem_cons h
    rw [List.cons_append, cutAfter, if_neg (Ne.symm ha), ih has]
    rfl

/-- **A list without a separator is one piece**, unless there is nothing in it. -/
theorem cutAfter_of_not_mem (h : sep ∉ as) (hne : as ≠ []) : cutAfter sep as = [as] := by
  induction as with
  | nil => exact absurd rfl hne
  | cons a as ih =>
    have ha := List.ne_of_not_mem_cons h
    have has := List.not_mem_of_not_mem_cons h
    rw [cutAfter, if_neg (Ne.symm ha)]
    cases as with
    | nil => rfl
    | cons b bs => rw [ih has (List.cons_ne_nil b bs)]

end Lines

/-! ## §2. Where a character ends -/

variable {b : UInt8} {bs : List UInt8}

/-- What a first byte announces: itself, or a character of several bytes, none of which is a byte of
a one-byte character.  The bits at hand may all be zero, but then the bounds of the next byte see to
it that the character could not be encoded in fewer bytes. -/
theorem utf8Lead?_eq_some {n : Nat} {lead : Utf8Lead} (h : utf8Lead? n = some lead) :
    0x80 ≤ lead.low ∧ lead.high ≤ 0xBF ∧
    (lead.following = 0 ∧ lead.bits = n ∨
      1 ≤ lead.following ∧ (1 ≤ lead.bits ∨ 0x80 < lead.low ∧ 2 ≤ lead.following)) := by
  unfold utf8Lead? at h
  split_ifs at h <;> obtain rfl := Option.some.inj h <;> dsimp only <;> omega

/-- A line feed completes nothing: it is left to what comes next. -/
theorem utf8Complete_append (bits n : Nat) {low high : Nat} (hlow : 10 < low) (bs cs : List UInt8) :
    utf8Complete bits low high n (bs ++ 10 :: cs) =
      ((utf8Complete bits low high n bs).1, (utf8Complete bits low high n bs).2 ++ 10 :: cs) := by
  fun_induction utf8Complete bits low high n bs with
  | case1 bits low high bs => rfl
  | case2 bits low high n =>
    have hno : ¬ (low ≤ (10 : UInt8).toNat ∧ (10 : UInt8).toNat ≤ high) := by
      rintro ⟨h, -⟩
      exact absurd h (by simpa using hlow)
    exact if_neg hno
  | case3 bits low high n b bs hb ih =>
    rw [List.cons_append, utf8Complete, if_pos hb]
    exact ih (by decide)
  | case4 bits low high n b bs hb =>
    rw [List.cons_append, utf8Complete, if_neg hb]

theorem utf8Unit_lineFeed (bs : List UInt8) : utf8Unit 10 bs = (some '\n', bs) := by
  have hlead : utf8Lead? (10 : UInt8).toNat = some { bits := 10, following := 0 } :=
    if_pos (by decide)
  unfold utf8Unit
  rw [hlead]
  rfl

theorem utf8Unit_append (b : UInt8) (bs cs : List UInt8) :
    utf8Unit b (bs ++ 10 :: cs) = ((utf8Unit b bs).1, (utf8Unit b bs).2 ++ 10 :: cs) := by
  unfold utf8Unit
  cases h : utf8Lead? b.toNat with
  | none => rfl
  | some lead =>
    have hlow := (utf8Lead?_eq_some h).1
    exact utf8Complete_append lead.bits lead.following (by omega) bs cs

/-- **Decoding starts afresh at a line feed.** -/
theorem utf8Units_append_lineFeed (bs cs : List UInt8) :
    utf8Units (bs ++ 10 :: cs) = utf8Units bs ++ some '\n' :: utf8Units cs := by
  induction bs using utf8Units.induct with
  | case1 =>
    rw [List.nil_append, utf8Units, utf8Units, utf8Unit_lineFeed]
    rfl
  | case2 b bs _ ih =>
    rw [List.cons_append, utf8Units, utf8Unit_append, ih]
    conv => rhs; rw [utf8Units]
    rfl

theorem utf8Lossy_append_lineFeed (bs cs : List UInt8) :
    utf8Lossy (bs ++ 10 :: cs) = utf8Lossy bs ++ '\n' :: utf8Lossy cs := by
  unfold utf8Lossy
  rw [utf8Units_append_lineFeed, List.map_append]
  rfl

/-! ## §3. Where a line feed comes from -/

theorem ofNat_ne_lineFeed {n : Nat} (h : n ≠ 10) : Char.ofNat n ≠ '\n' := by
  intro heq
  have hnat : (Char.ofNat n).toNat = 10 := congrArg Char.toNat heq
  unfold Char.ofNat at hnat
  by_cases hvalid : n.isValidChar
  · rw [dif_pos hvalid] at hnat
    exact h hnat
  · rw [dif_neg hvalid] at hnat
    exact absurd hnat (by decide)

/-- No line feed is completed, since there are no encodings that are too long: the bits at hand are
too many, or they will be with the next byte, or the next byte is bound to be large. -/
theorem utf8Complete_ne_lineFeed {bits low high n : Nat} (bs : List UInt8)
    (h : 64 ≤ bits ∨ 1 ≤ bits ∧ 1 ≤ n ∨ 0x80 < low ∧ high ≤ 0xBF ∧ 2 ≤ n) :
    (utf8Complete bits low high n bs).1 ≠ some '\n' := by
  fun_induction utf8Complete bits low high n bs with
  | case1 bits low high bs =>
    intro heq
    exact ofNat_ne_lineFeed (by omega) (Option.some.inj heq)
  | case2 => exact (Option.some_ne_none _).symm
  | case3 bits low high n b bs hb ih => exact ih (by omega)
  | case4 => exact (Option.some_ne_none _).symm

/-- **Only a line feed is decoded as one.** -/
theorem utf8Unit_ne_lineFeed (hb : b ≠ 10) (bs : List UInt8) :
    (utf8Unit b bs).1 ≠ some '\n' := by
  unfold utf8Unit
  cases h : utf8Lead? b.toNat with
  | none => exact (Option.some_ne_none _).symm
  | some lead =>
    obtain ⟨hlow, hhigh, ⟨hfollowing, hbits⟩ | hlong⟩ := utf8Lead?_eq_some h
    · -- a byte that stands for itself
      have hten : b.toNat ≠ 10 := fun h => hb (UInt8.toNat_inj.mp h)
      intro heq
      dsimp only at heq
      rw [hfollowing, hbits] at heq
      exact ofNat_ne_lineFeed hten (Option.some.inj heq)
    · exact utf8Complete_ne_lineFeed bs (by omega)

theorem utf8Complete_suffix (bits low high n : Nat) (bs : List UInt8) :
    (utf8Complete bits low high n bs).2 <:+ bs := by
  fun_induction utf8Complete bits low high n bs with
  | case1 => exact List.suffix_rfl
  | case2 => exact List.suffix_rfl
  | case3 _ _ _ _ b _ _ ih => exact ih.trans (List.suffix_cons b _)
  | case4 => exact List.suffix_rfl

theorem utf8Unit_suffix (b : UInt8) (bs : List UInt8) : (utf8Unit b bs).2 <:+ bs := by
  unfold utf8Unit
  split
  · exact utf8Complete_suffix ..
  · exact List.suffix_rfl

theorem not_mem_utf8Lossy (h : 10 ∉ bs) : '\n' ∉ utf8Lossy bs := by
  unfold utf8Lossy
  induction bs using utf8Units.induct with
  | case1 => rw [utf8Units]; exact List.not_mem_nil
  | case2 b bs _ ih =>
    have hb := List.ne_of_not_mem_cons h
    have hbs := List.not_mem_of_not_mem_cons h
    rw [utf8Units, List.map_cons, List.mem_cons, not_or]
    refine ⟨?_, ih fun hmem => hbs ((utf8Unit_suffix b bs).subset hmem)⟩
    have hunit := utf8Unit_ne_lineFeed (Ne.symm hb) bs
    cases hfirst : (utf8Unit b bs).1 with
    | none => decide
    | some c =>
      rw [hfirst] at hunit
      exact fun heq => hunit (congrArg some heq.symm)

/-! ## §4. Decoding line by line -/

theorem utf8Lossy_nil : utf8Lossy [] = [] := by
  unfold utf8Lossy
  rw [utf8Units]
  rfl

theorem utf8Lossy_ne_nil (h : bs ≠ []) : utf8Lossy bs ≠ [] := by
  obtain ⟨b, bs, rfl⟩ := List.exists_cons_of_ne_nil h
  unfold utf8Lossy
  rw [utf8Units]
  exact List.cons_ne_nil _ _

/-- **Decoding the lines is cutting the text into lines.** -/
theorem map_utf8Lossy_cutAfter (bs : List UInt8) :
    (cutAfter 10 bs).map utf8Lossy = cutAfter '\n' (utf8Lossy bs) := by
  by_cases hmem : 10 ∈ bs
  · obtain ⟨as, cs, rfl, has⟩ := List.eq_append_cons_of_mem hmem
    have hshort : cs.length < (as ++ 10 :: cs).length := by simp; omega
    have hpiece : utf8Lossy (as ++ [10]) = utf8Lossy as ++ ['\n'] := by
      rw [utf8Lossy_append_lineFeed, utf8Lossy_nil]
    rw [cutAfter_append_cons has, List.map_cons, hpiece, utf8Lossy_append_lineFeed,
      cutAfter_append_cons (not_mem_utf8Lossy has), map_utf8Lossy_cutAfter cs]
  · by_cases hne : bs = []
    · rw [hne, utf8Lossy_nil]
      rfl
    · rw [cutAfter_of_not_mem hmem hne,
        cutAfter_of_not_mem (not_mem_utf8Lossy hmem) (utf8Lossy_ne_nil hne)]
      rfl
termination_by bs.length

end CronSupervisor.Text
