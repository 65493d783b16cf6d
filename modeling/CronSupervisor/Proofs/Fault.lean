/-
  CronSupervisor.Proofs.Fault — the first fault of a list.

  A list is gone through until an element with a fault is found, and what counts as a fault of an
  element may depend on those before it.  `FirstFault` says which fault that is, and `Faultless`
  that there is none.

  Main statements:
    * `firstFault_cons`, `faultless_cons` — a list is gone through from its front.
    * `faultless_iff_not_firstFault` — there is a first fault if there is any.
-/
import Mathlib.Data.List.Basic

namespace CronSupervisor

variable {α ε : Type} {fault : List α → α → ε → Prop} {x : α} {xs : List α} {e : ε}

/-- No element of a list has a fault; faults are told from the element and those before it. -/
def Faultless (fault : List α → α → ε → Prop) (xs : List α) : Prop :=
  ∀ before x after, xs = before ++ x :: after → ∀ e, ¬ fault before x e

/-- The fault of the first element that has one. -/
def FirstFault (fault : List α → α → ε → Prop) (xs : List α) (e : ε) : Prop :=
  ∃ before x after, xs = before ++ x :: after ∧ Faultless fault before ∧ fault before x e

theorem faultless_nil (fault : List α → α → ε → Prop) : Faultless fault [] := by
  intro before x after h
  exact absurd h.symm (List.append_ne_nil_of_right_ne_nil before (List.cons_ne_nil x after))

theorem not_firstFault_nil : ¬ FirstFault fault [] e := by
  rintro ⟨before, x, after, h, -⟩
  exact absurd h.symm (List.append_ne_nil_of_right_ne_nil before (List.cons_ne_nil x after))

/-- A list has no fault if neither its head nor its tail has one. -/
theorem faultless_cons : Faultless fault (x :: xs) ↔
    (∀ e, ¬ fault [] x e) ∧ Faultless (fun before => fault (x :: before)) xs := by
  constructor
  · intro h
    exact ⟨h [] x xs rfl, fun before y after heq => h (x :: before) y after (congrArg _ heq)⟩
  · rintro ⟨hhead, htail⟩ before y after heq
    rcases List.cons_eq_append_iff.mp heq with ⟨rfl, hrest⟩ | ⟨before, rfl, hrest⟩
    · cases hrest
      exact hhead
    · exact htail before y after hrest

/-- The first fault is that of the head, or else that of the tail. -/
theorem firstFault_cons : FirstFault fault (x :: xs) e ↔ fault [] x e ∨
    (∀ e, ¬ fault [] x e) ∧ FirstFault (fun before => fault (x :: before)) xs e := by
  constructor
  · rintro ⟨before, y, after, heq, hbefore, hfault⟩
    rcases List.cons_eq_append_iff.mp heq with ⟨rfl, hrest⟩ | ⟨before, rfl, hrest⟩
    · cases hrest
      exact .inl hfault
    · obtain ⟨hhead, htail⟩ := faultless_cons.mp hbefore
      exact .inr ⟨hhead, before, y, after, hrest, htail, hfault⟩
  · rintro (hfault | ⟨hhead, before, y, after, rfl, hbefore, hfault⟩)
    · exact ⟨[], x, xs, rfl, faultless_nil fault, hfault⟩
    · exact ⟨x :: before, y, after, rfl, faultless_cons.mpr ⟨hhead, hbefore⟩, hfault⟩

/-- There is a first fault if there is any. -/
theorem faultless_iff_not_firstFault : Faultless fault xs ↔ ∀ e, ¬ FirstFault fault xs e := by
  induction xs generalizing fault with
  | nil => exact iff_of_true (faultless_nil fault) fun _ => not_firstFault_nil
  | cons x xs ih =>
    rw [faultless_cons, ih]
    constructor
    · rintro ⟨hhead, htail⟩ e h
      exact (firstFault_cons.mp h).elim (hhead e) fun h => htail e h.2
    · intro h
      have hhead : ∀ e, ¬ fault [] x e := fun e he => h e (firstFault_cons.mpr (.inl he))
      exact ⟨hhead, fun e he => h e (firstFault_cons.mpr (.inr ⟨hhead, he⟩))⟩

/-- Where faults do not depend on what comes before, no element has one. -/
theorem faultless_iff_forall {fault : α → ε → Prop} :
    Faultless (fun _ => fault) xs ↔ ∀ x ∈ xs, ∀ e, ¬ fault x e := by
  constructor
  · intro h x hx
    obtain ⟨before, after, rfl⟩ := List.append_of_mem hx
    exact h before x after rfl
  · rintro h before x after rfl
    exact h x (List.mem_append_right before List.mem_cons_self)

end CronSupervisor
