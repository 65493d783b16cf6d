/-
  CronSupervisor.Proofs.Log.Patterns — texts that are patterns.

  A sink is made for a list of texts, all of which have to be patterns; the first one that is none
  is reported.

  Main statements:
    * `Sink.patternsOf_eq_ok_iff` — the patterns of a list of texts, one by one.
    * `Sink.patternsOf_eq_error_iff` — the text that is reported.
-/
import CronSupervisor.Log.Sink
import CronSupervisor.Proofs.Fault

namespace CronSupervisor.Sink

variable [PatternSyntax] {texts : List String} {ps : List Pattern}

/-- A text that is no pattern is a fault. -/
def Unreadable (text : String) (e : PatternError) : Prop :=
  PatternSyntax.read? text = none ∧ e = ⟨text⟩

theorem patternsOf_cons_of_none {text : String} (h : PatternSyntax.read? text = none) :
    patternsOf (text :: texts) = .error ⟨text⟩ := by
  rw [patternsOf, h]

theorem patternsOf_cons_of_some {text : String} {p : Pattern}
    (h : PatternSyntax.read? text = some p) :
    patternsOf (text :: texts) = (patternsOf texts).map (p :: ·) := by
  rw [patternsOf, h]

/-- **The patterns are those of the texts, one by one.** -/
theorem patternsOf_eq_ok_iff : patternsOf texts = .ok ps ↔
    List.Forall₂ (fun text p => PatternSyntax.read? text = some p) texts ps := by
  induction texts generalizing ps with
  | nil =>
    show Except.ok [] = Except.ok ps ↔ _
    rw [Except.ok.injEq]
    constructor
    · rintro rfl
      exact .nil
    · rintro (_ | _)
      rfl
  | cons text texts ih =>
    cases hp : PatternSyntax.read? text with
    | none =>
      rw [patternsOf_cons_of_none hp]
      refine iff_of_false nofun ?_
      rintro (_ | ⟨h, -⟩)
      cases hp.symm.trans h
    | some p =>
      rw [patternsOf_cons_of_some hp]
      constructor
      · intro h
        cases hrest : patternsOf texts with
        | error e =>
          rw [hrest] at h
          cases h
        | ok qs =>
          rw [hrest] at h
          cases h
          exact .cons hp (ih.mp hrest)
      · rintro (_ | ⟨h, hqs⟩)
        cases hp.symm.trans h
        rw [ih.mpr hqs]
        rfl

/-- **The first text that is no pattern is reported.** -/
theorem patternsOf_eq_error_iff {e : PatternError} :
    patternsOf texts = .error e ↔ FirstFault (fun _ => Unreadable) texts e := by
  induction texts with
  | nil => exact iff_of_false nofun not_firstFault_nil
  | cons text texts ih =>
    rw [firstFault_cons, ← ih]
    cases hp : PatternSyntax.read? text with
    | none =>
      have hfault : ∀ e, Unreadable text e ↔ e = ⟨text⟩ := fun e => and_iff_right hp
      rw [patternsOf_cons_of_none hp, Except.error.injEq, hfault, eq_comm, or_iff_left]
      exact fun h => h.1 _ ((hfault _).mpr rfl)
    | some p =>
      have hsound : ∀ e, ¬ Unreadable text e := fun e he => by cases hp.symm.trans he.1
      rw [patternsOf_cons_of_some hp, or_iff_right (hsound e), and_iff_right hsound]
      cases patternsOf texts with
      | error error => exact Iff.rfl
      | ok qs => exact iff_of_false nofun nofun

/-- There are patterns of texts all of which are some. -/
theorem exists_patternsOf_iff : (∃ ps, patternsOf texts = .ok ps) ↔
    ∀ text ∈ texts, ∃ p, PatternSyntax.read? text = some p := by
  have hfaultless : (∀ text ∈ texts, ∀ e, ¬ Unreadable text e) ↔
      ∀ e, ¬ FirstFault (fun _ => Unreadable) texts e := by
    rw [← faultless_iff_forall]
    exact faultless_iff_not_firstFault
  have hread : (∀ text ∈ texts, ∃ p, PatternSyntax.read? text = some p) ↔
      ∀ text ∈ texts, ∀ e, ¬ Unreadable text e := by
    refine forall₂_congr fun text _ => ?_
    rw [← Option.ne_none_iff_exists']
    exact ⟨fun h e he => h he.1, fun h hnone => h _ ⟨hnone, rfl⟩⟩
  rw [hread, hfaultless]
  simp only [← patternsOf_eq_error_iff]
  cases patternsOf texts with
  | ok ps => exact iff_of_true ⟨ps, rfl⟩ nofun
  | error e => exact iff_of_false nofun fun h => h e rfl

end CronSupervisor.Sink
