/-
  CronSupervisor.Proofs.Pattern.Program — what the program of a pattern looks at.

  Programs branch and jump, but what they look at in a text is what their patterns are made of: sets
  of characters, of which they take one, and conditions on places.

  Main statements:
    * `within_fragment` — instructions look at what the pattern is made of.
    * `heedless_program`, `refuses_program` — patterns without conditions, and characters that a
      pattern does not take.
-/
import CronSupervisor.Pattern.Program

namespace CronSupervisor.Pattern

/-! ## §1. What a pattern is made of -/

/-- The sets of characters of a pattern. -/
def sets : Pattern → List CharSet
  | empty => []
  | chars s => [s]
  | anchor _ => []
  | seq p q => p.sets ++ q.sets
  | alt p q => p.sets ++ q.sets
  | rounds _ _ _ p => p.sets

/-- The conditions on places of a pattern. -/
def anchors : Pattern → List Anchor
  | empty => []
  | chars _ => []
  | anchor a => [a]
  | seq p q => p.anchors ++ q.anchors
  | alt p q => p.anchors ++ q.anchors
  | rounds _ _ _ p => p.anchors

/-- Whether a pattern can take a character. -/
def takes (p : Pattern) (c : Char) : Bool := p.sets.any (·.mem c)

/-- An instruction looks at what a pattern is made of, if at anything. -/
def Instr.Of (p : Pattern) : Instr → Prop
  | .take s => s ∈ p.sets
  | .require a => a ∈ p.anchors
  | .split _ _ => True
  | .jump _ => True
  | .accept => True

/-! ## §2. Fragments -/

/-- All instructions of a fragment have a property, wherever it is placed. -/
def Fragment.Within (P : Instr → Prop) (f : Fragment) : Prop := ∀ start, ∀ i ∈ f start, P i

namespace Fragment

variable {p : Pattern} {f g : Fragment}

theorem within_nothing : Within (Instr.Of p) nothing := fun _ _ hi => absurd hi List.not_mem_nil

theorem within_append (hf : Within (Instr.Of p) f) (hg : Within (Instr.Of p) g) :
    Within (Instr.Of p) (append f g) := by
  intro start i hi
  rcases List.mem_append.mp hi with hi | hi
  · exact hf start i hi
  · exact hg _ i hi

theorem within_either (hf : Within (Instr.Of p) f) (hg : Within (Instr.Of p) g) :
    Within (Instr.Of p) (either f g) := by
  intro start i hi
  rcases List.mem_append.mp hi with hi | hi
  · rcases List.mem_cons.mp hi with rfl | hi
    · trivial
    · exact hf _ i hi
  · rcases List.mem_cons.mp hi with rfl | hi
    · trivial
    · exact hg _ i hi

theorem of_choose (greedy : Bool) (inside past : Nat) : Instr.Of p (choose greedy inside past) := by
  cases greedy <;> trivial

theorem within_optional (greedy : Bool) (hf : Within (Instr.Of p) f) :
    Within (Instr.Of p) (optional greedy f) := by
  intro start i hi
  rcases List.mem_cons.mp hi with rfl | hi
  · exact of_choose greedy _ _
  · exact hf _ i hi

theorem within_plus (greedy : Bool) (hf : Within (Instr.Of p) f) :
    Within (Instr.Of p) (plus greedy f) := by
  intro start i hi
  rcases List.mem_append.mp hi with hi | hi
  · exact hf start i hi
  · rw [List.mem_singleton.mp hi]
    exact of_choose greedy _ _

theorem within_copies (hf : Within (Instr.Of p) f) (n : Nat) :
    Within (Instr.Of p) (copies f n) := by
  -- each copy stands at another address, and `Within` speaks of all addresses
  induction n with
  | zero => exact within_nothing
  | succ n ih => exact within_append hf ih

theorem within_upTo (greedy : Bool) (hf : Within (Instr.Of p) f) (n : Nat) :
    Within (Instr.Of p) (upTo greedy f n) := by
  induction n with
  | zero => exact within_nothing
  | succ n ih => exact within_optional greedy (within_append hf ih)

theorem within_rounds (greedy : Bool) (hf : Within (Instr.Of p) f) (least : Nat)
    (most : Option Nat) : Within (Instr.Of p) (rounds greedy f least most) := by
  cases most with
  | some most => exact within_append (within_copies hf least) (within_upTo greedy hf _)
  | none =>
    cases least with
    | zero => exact within_optional greedy (within_plus greedy hf)
    | succ n => exact within_append (within_copies hf n) (within_plus greedy hf)

theorem Within.mono {q : Pattern} (h : Within (Instr.Of p) f) (hsets : p.sets ⊆ q.sets)
    (hanchors : p.anchors ⊆ q.anchors) : Within (Instr.Of q) f := by
  intro start i hi
  have hof := h start i hi
  cases i with
  | take s => exact hsets hof
  | require a => exact hanchors hof
  | split | jump | accept => trivial

end Fragment

/-- **The instructions of a pattern look at what it is made of**, and at nothing else. -/
theorem within_fragment (p : Pattern) : Fragment.Within (Instr.Of p) p.fragment := by
  induction p with
  | empty => exact Fragment.within_nothing
  | chars s =>
    intro start i hi
    rw [List.mem_singleton.mp hi]
    exact List.mem_singleton_self s
  | anchor a =>
    intro start i hi
    rw [List.mem_singleton.mp hi]
    exact List.mem_singleton_self a
  | seq p q hp hq =>
    exact Fragment.within_append
      (hp.mono (List.subset_append_left _ _) (List.subset_append_left _ _))
      (hq.mono (List.subset_append_right _ _) (List.subset_append_right _ _))
  | alt p q hp hq =>
    exact Fragment.within_either
      (hp.mono (List.subset_append_left _ _) (List.subset_append_left _ _))
      (hq.mono (List.subset_append_right _ _) (List.subset_append_right _ _))
  | rounds least most greedy p hp =>
    -- rounds take what the repeated pattern takes, however many there are
    have hrounds : Fragment.Within (Instr.Of (rounds least most greedy p)) p.fragment :=
      hp.mono (List.Subset.refl _) (List.Subset.refl _)
    exact Fragment.within_rounds greedy hrounds least most

/-! ## §3. Programs -/

/-- A program without conditions on places. -/
def Heedless (program : Array Instr) : Prop :=
  ∀ (i : Nat) (a : Anchor), program[i]? ≠ some (Instr.require a)

/-- No instruction of a program takes a character. -/
def Refuses (program : Array Instr) (c : Char) : Prop :=
  ∀ (i : Nat) (s : CharSet), program[i]? = some (Instr.take s) → s.mem c = false

theorem of_program {p : Pattern} {n : Nat} {i : Instr} (h : p.program[n]? = some i) : i.Of p := by
  rw [program, List.getElem?_toArray] at h
  rcases List.mem_append.mp (List.mem_of_getElem? h) with hi | hi
  · exact within_fragment p 0 i hi
  · -- the one instruction behind the fragment accepts
    rw [List.mem_singleton.mp hi]
    trivial

theorem heedless_program {p : Pattern} (h : p.anchors = []) : Heedless p.program := by
  intro n a hn
  have hof : a ∈ p.anchors := of_program hn
  rw [h] at hof
  exact List.not_mem_nil hof

theorem refuses_program {p : Pattern} {c : Char} (h : p.takes c = false) : Refuses p.program c := by
  intro n s hn
  have hof : s ∈ p.sets := of_program hn
  exact List.any_eq_false.mp h s hof |> Bool.eq_false_iff.mpr

end CronSupervisor.Pattern
