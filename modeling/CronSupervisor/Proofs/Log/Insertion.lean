/-
  CronSupervisor.Proofs.Log.Insertion — one pattern more.

  The patterns of a sink are applied one after the other, each to what the ones before it left.  A
  sink with one more pattern tells lines apart no better than before if that pattern is the last
  one, or if it is indifferent to all later ones.  Otherwise it may mask a part of what a later
  pattern looks for, and then the rest is shown.

  Main statements:
    * `confuses_iff` — lines that look the same.
    * `redact_append_cons` — a pattern that might as well be the last one.
    * `confuses_insertIdx` — what one more pattern reveals.
-/
import CronSupervisor.Platform
import CronSupervisor.Proofs.Log.Patterns
import CronSupervisor.Proofs.Pattern.Masking
import Mathlib.Data.List.Forall2
import Mathlib.Data.List.InsertIdx

namespace CronSupervisor

/-- A syntax that reads a text as `Pattern.ofText?` does where that is a pattern, and may know
more. -/
class LawfulPatternSyntax [PatternSyntax] : Prop where
  read?_of_ofText? : ∀ {text : String} {p : Pattern},
    Pattern.ofText? text = some p → PatternSyntax.read? text = some p

namespace Platform

scoped instance lawfulPatternSyntax : LawfulPatternSyntax := ⟨fun h => h⟩

end Platform

namespace Sink

open Calendar LawfulPatternSyntax
open Pattern (masked_mask Solid solid_iff Indifferent indifferent_iff)

/-! ## §1. Lines that look the same -/

/-- A sink stores two lines as the same message: whichever of them is captured, it is the same sink
afterwards. -/
def Confuses (s : Sink) (x y : String) : Prop :=
  ∀ now stream, s.record now stream x = s.record now stream y

variable {s : Sink} {x y : String}

/-- The line that was just captured is the newest one of the sink. -/
theorem head?_record (s : Sink) (now : Instant) (stream : Stream) (line : String) :
    ((s.record now stream line).pending ++ (s.record now stream line).entries).head?
      = some ⟨now, s.process, stream, stored s.patterns line⟩ := by
  have hcapacity := s.capacity_pos
  unfold record
  dsimp only
  split
  · -- the line fills a batch; a sink has room for one line at least
    obtain ⟨n, hn⟩ := Nat.exists_eq_add_of_lt hcapacity
    rw [Nat.zero_add] at hn
    simp [flush, hn]
  · rfl

/-- **Lines look the same if they are masked alike.** -/
theorem confuses_iff : s.Confuses x y ↔ stored s.patterns x = stored s.patterns y := by
  constructor
  · intro h
    have hnewest := s.head?_record ⟨0⟩ .event x
    rw [h ⟨0⟩ .event, head?_record] at hnewest
    exact (congrArg LogEntry.message (Option.some.inj hnewest)).symm
  · intro h now stream
    unfold record
    rw [h]

/-! ## §2. One pattern among others -/

variable {p : Pattern} {front back : List Pattern} {text : List Char}

theorem redact_append (front back : List Pattern) (text : List Char) :
    redact (front ++ back) text = redact back (redact front text) :=
  List.foldl_append

/-- A pattern that is indifferent to all that come behind it might as well come behind them. -/
theorem redact_mask (h : ∀ q ∈ back, Indifferent maskText p q text) :
    redact back (p.mask maskText text) = p.mask maskText (redact back text) := by
  induction back generalizing text with
  | nil => rfl
  | cons q back ih =>
    have hswap : q.mask maskText (p.mask maskText text) = p.mask maskText (q.mask maskText text) :=
      ((h q List.mem_cons_self).mask_mask (by decide)).symm
    -- the text that the others see holds no character but those of the text and of the mask
    have hback : ∀ r ∈ back, Indifferent maskText p r (q.mask maskText text) := by
      intro r hr
      exact (h r (List.mem_cons_of_mem q hr)).of_subset fun c hc => (masked_mask q text).mem hc
    show redact back (q.mask maskText (p.mask maskText text)) = _
    rw [hswap]
    exact ih hback

theorem redact_append_cons (h : ∀ q ∈ back, Indifferent maskText p q (redact front text)) :
    redact (front ++ p :: back) text = p.mask maskText (redact (front ++ back) text) := by
  rw [redact_append, redact_append]
  exact redact_mask h

/-! ## §3. Lists with one pattern more -/

theorem insertIdx_eq_append {α : Type} {as : List α} {i : Nat} (a : α) (hi : i ≤ as.length) :
    as.insertIdx i a = as.take i ++ a :: as.drop i := by
  induction i generalizing as with
  | zero => rfl
  | succ i ih =>
    cases as with
    | nil => exact absurd hi (Nat.not_succ_le_zero i)
    | cons b as =>
      rw [List.insertIdx_succ_cons, ih (Nat.le_of_succ_le_succ hi)]
      rfl

theorem redact_replicate {q : Pattern} (n : Nat) (h : q.mask maskText text = text) :
    redact (List.replicate n q) text = text := by
  induction n with
  | zero => rfl
  | succ n ih =>
    rw [List.replicate_succ, redact, List.foldl_cons, h]
    exact ih

/-- A pattern for one character. -/
def letter (c : Char) : Pattern := .chars (.single c)

/-- A pattern for a character and the next one of its line. -/
def letterAndNext (c : Char) : Pattern := .seq (letter c) (.chars .notNewline)

/-- Two lines that a pattern masks whole show their ends if their beginnings are masked first. -/
theorem mask_letters {c : Char} (hc : c = 'b' ∨ c = 'c') :
    (letter 'z').mask maskText ['a', c] = ['a', c] ∧
    (letterAndNext 'a').mask maskText ['a', c] = maskText ∧
    (letter 'a').mask maskText ['a', c] = maskText ++ [c] ∧
    (letterAndNext 'a').mask maskText (maskText ++ [c]) = maskText ++ [c] := by
  rcases hc with rfl | rfl
  · exact ⟨by cbv, by cbv, by cbv, by cbv⟩
  · exact ⟨by cbv, by cbv, by cbv, by cbv⟩

/-! ## §4. Sinks with one pattern more -/

/-- A pattern that is put at a position is indifferent to all behind it, on a line as those in front
of it leave it. -/
def Apart (s : Sink) (i : Nat) (p : Pattern) (line : String) : Prop :=
  ∀ q ∈ s.patterns.drop i,
    Indifferent maskText p q (redact (s.patterns.take i) (trimLineEnd line.toList))

theorem confuses_of_apart {s' : Sink} {i : Nat} (hs' : s'.patterns = s.patterns.insertIdx i p)
    (hi : i ≤ s.patterns.length) (hx : s.Apart i p x) (hy : s.Apart i p y)
    (h : s.Confuses x y) : s'.Confuses x y := by
  rw [confuses_iff] at h ⊢
  unfold stored at h ⊢
  rw [hs', insertIdx_eq_append p hi, redact_append_cons hx, redact_append_cons hy,
    List.take_append_drop, String.ofList_inj.mp h]

section Syntax

variable [PatternSyntax] {texts : List String} {process : String} {capacity : Option Nat}

theorem create_eq_ok_iff : create process capacity texts = .ok s ↔
    ∃ ps, patternsOf texts = .ok ps ∧ s = empty process (capacity.getD defaultCapacity) ps := by
  unfold create
  cases patternsOf texts with
  | error e => simp [Except.map]
  | ok ps => simp [Except.map, eq_comm]

/-- The patterns of a list of texts with one more among them. -/
theorem patternsOf_insertIdx {ps : List Pattern} {text : String} {i : Nat}
    (hps : patternsOf texts = .ok ps) (hp : PatternSyntax.read? text = some p)
    (hi : i ≤ texts.length) :
    patternsOf (texts.insertIdx i text) = .ok (ps.insertIdx i p) := by
  rw [patternsOf_eq_ok_iff] at hps ⊢
  induction i generalizing texts ps with
  | zero => exact .cons hp hps
  | succ i ih =>
    cases hps with
    | nil => exact absurd hi (Nat.not_succ_le_zero i)
    | cons hq hps => exact .cons hq (ih hps (Nat.le_of_succ_le_succ hi))

/-- Whichever pattern is put at a position among `n` patterns, lines that looked the same still
do. -/
def Harmless (n i : Nat) : Prop :=
  ∀ (process : String) (capacity : Option Nat) (texts : List String) (text : String) (s s' : Sink),
    texts.length = n → create process capacity texts = .ok s →
    create process capacity (texts.insertIdx i text) = .ok s' →
    ∀ x y, s.Confuses x y → s'.Confuses x y

/-! ## §5. Positions -/

theorem patternsOf_replicate_append {i m : Nat} {first second : String} {p q : Pattern}
    (hp : PatternSyntax.read? first = some p) (hq : PatternSyntax.read? second = some q) :
    patternsOf (List.replicate i first ++ List.replicate m second)
      = .ok (List.replicate i p ++ List.replicate m q) := by
  rw [patternsOf_eq_ok_iff]
  refine List.rel_append ?_ ?_
  · induction i with
    | zero => exact .nil
    | succ i ih => exact .cons hp ih
  · induction m with
    | zero => exact .nil
    | succ m ih => exact .cons hq ih

/-- **Anywhere but at the end, one more pattern may reveal what was masked.** -/
theorem not_harmless [LawfulPatternSyntax] {n i : Nat} (hi : i < n) : ¬ Harmless n i := by
  intro h
  -- patterns that find nothing, the new one, and then at least one that masks a pair of letters
  obtain ⟨m, rfl⟩ : ∃ m, n = i + (m + 1) := ⟨n - i - 1, by omega⟩
  have hz : PatternSyntax.read? "z" = some (letter 'z') := read?_of_ofText? (by cbv)
  have ha : PatternSyntax.read? "a" = some (letter 'a') := read?_of_ofText? (by cbv)
  have hnext : PatternSyntax.read? "a." = some (letterAndNext 'a') := read?_of_ofText? (by cbv)
  have hwhole : (letterAndNext 'a').mask maskText maskText = maskText := by cbv
  let texts := List.replicate i "z" ++ List.replicate (m + 1) "a."
  let first := List.replicate i (letter 'z')
  let last := List.replicate (m + 1) (letterAndNext 'a')
  have htexts : patternsOf texts = .ok (first ++ last) := patternsOf_replicate_append hz hnext
  have hlength : texts.length = i + (m + 1) := by simp [texts]
  have hinsert := patternsOf_insertIdx htexts ha (i := i) (by omega)
  have hsplit : (first ++ last).insertIdx i (letter 'a') = first ++ letter 'a' :: last := by
    have hfirst : first.length = i := List.length_replicate
    rw [insertIdx_eq_append _ (by simp [hfirst]), List.take_left' hfirst, List.drop_left' hfirst]
  rw [hsplit] at hinsert
  have hbefore : ∀ c, c = 'b' ∨ c = 'c' → redact (first ++ last) ['a', c] = maskText := by
    intro c hc
    obtain ⟨hkeep, hhide, -, -⟩ := mask_letters hc
    rw [redact_append, redact_replicate i hkeep]
    show redact (List.replicate m (letterAndNext 'a')) ((letterAndNext 'a').mask maskText _) = _
    rw [hhide, redact_replicate m hwhole]
  have hafter : ∀ c, c = 'b' ∨ c = 'c' →
      redact (first ++ letter 'a' :: last) ['a', c] = maskText ++ [c] := by
    intro c hc
    obtain ⟨hkeep, -, hhide, hrest⟩ := mask_letters hc
    rw [redact_append, redact_replicate i hkeep]
    show redact last ((letter 'a').mask maskText _) = _
    rw [hhide, redact_replicate (m + 1) hrest]
  have hconfuses := h "" none texts "a" _ _ hlength (create_eq_ok_iff.mpr ⟨_, htexts, rfl⟩)
    (create_eq_ok_iff.mpr ⟨_, hinsert, rfl⟩) "ab" "ac"
  rw [confuses_iff, confuses_iff] at hconfuses
  have heq := String.ofList_inj.mp (hconfuses (congrArg String.ofList
    ((hbefore 'b' (.inl rfl)).trans (hbefore 'c' (.inr rfl)).symm)))
  have hends := (hafter 'b' (.inl rfl)).symm.trans (heq.trans (hafter 'c' (.inr rfl)))
  exact absurd hends (by decide)

/-- **At the end, one more pattern reveals nothing.** -/
theorem harmless_length (n : Nat) : Harmless n n := by
  intro process capacity texts text s s' hlength hs hs' x y h
  obtain ⟨ps, hps, rfl⟩ := create_eq_ok_iff.mp hs
  obtain ⟨ps', hps', rfl⟩ := create_eq_ok_iff.mp hs'
  have hread := (patternsOf_eq_ok_iff.mp hps).length_eq
  obtain ⟨p, hp⟩ : ∃ p, PatternSyntax.read? text = some p := by
    refine exists_patternsOf_iff.mp ⟨ps', hps'⟩ text ?_
    exact (List.mem_insertIdx (by omega)).mpr (.inl rfl)
  have hinsert := patternsOf_insertIdx hps hp (Nat.le_of_eq hlength.symm)
  obtain rfl : ps' = ps.insertIdx n p := Except.ok.inj (hps'.symm.trans hinsert)
  -- no pattern comes behind the new one
  have hlast : ∀ line, (empty process (capacity.getD defaultCapacity) ps).Apart n p line := by
    intro line q hq
    have hnone : ps.drop n = [] := List.drop_eq_nil_of_le (by omega)
    exact absurd (hnone ▸ hq) List.not_mem_nil
  exact confuses_of_apart rfl (by simp only [empty]; omega) (hlast x) (hlast y) h

end Syntax

section Platform

open Platform

/-- A pattern for a word and what comes behind it. -/
def wordThen (word : String) (rest : List Pattern) : Pattern :=
  .seqAll (word.toList.map letter ++ rest)

/-- A pattern for a number. -/
def number : Pattern := .rounds 1 none true (.chars (.range '0' '9'))

/-- A pattern for the name of a secret. -/
def secretName : Pattern := wordThen "secret=" []

/-- A pattern for a secret with its name, up to the next space. -/
def secretValue : Pattern :=
  wordThen "secret=" [.rounds 1 none true (.chars (.complement .space))]

end Platform

end Sink

end CronSupervisor
