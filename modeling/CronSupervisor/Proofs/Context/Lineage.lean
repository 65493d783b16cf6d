/-
  CronSupervisor.Proofs.Context.Lineage — trees of contexts.

  A context is stored without its ancestors: their scopes were copied into its chain, and of their
  deadlines only the least is left.  A `Lineage` keeps all of them, and `family` follows how the
  requests of a session build such trees.  Scopes are handed out once, so a scope in the chain of a
  context tells exactly that the context with this scope is the same one or an ancestor.

  Main statements:
    * `deadline_context`, `scopes_context` — what a context keeps of its lineage.
    * `resolved?_eq_some_iff` — a waiter is told at the first moment at which the context is done.
    * `grown_run` — the contexts of a session have lineages, and scopes identify them.
    * `contexts_of_run` — deadlines, ends, waiting and cancellation, in terms of the tree.
-/
import CronSupervisor.Context.Session
import CronSupervisor.Proofs.Clock
import Mathlib.Data.List.Basic
import Mathlib.Order.Lattice.Nat

namespace CronSupervisor.Context

open Calendar

/-! ## §1. Lineages -/

/-- How a context came about. -/
inductive Lineage where
  /-- On a scope of its own or of a token. -/
  | root (own : Scope)
  /-- From another context, by a call at some time. -/
  | derived (parent : Lineage) (own : Scope) (call timeout : Nat)

namespace Lineage

/-- The scope that cancels this context. -/
def own : Lineage → Scope
  | root own => own
  | derived _ own _ _ => own

/-- The context that is derived step by step. -/
def context : Lineage → Context
  | root own => .ofScope own
  | derived parent own call timeout => parent.context.child own call timeout

def parent? : Lineage → Option Lineage
  | root _ => none
  | derived parent _ _ _ => some parent

/-- The context and its ancestors, up to the root. -/
def path : Lineage → List Lineage
  | root own => [root own]
  | derived parent own call timeout => derived parent own call timeout :: parent.path

/-- The end that the call asked for. -/
def limit? : Lineage → Option Nat
  | root _ => none
  | derived _ _ call timeout => some (call + timeout)

/-- The ends that were asked for on the path. -/
def limits (l : Lineage) : List Nat := l.path.filterMap limit?

variable {l m n : Lineage}

theorem self_mem_path (l : Lineage) : l ∈ l.path := by
  cases l with
  | root own => exact List.mem_singleton_self _
  | derived parent own call timeout => exact List.mem_cons_self

/-- The path of an ancestor is the end of the path. -/
theorem path_suffix (h : m ∈ l.path) : m.path <:+ l.path := by
  induction l with
  | root own =>
    cases List.mem_singleton.mp h
    exact List.suffix_rfl
  | derived parent own call timeout ih =>
    rcases List.mem_cons.mp h with rfl | h
    · exact List.suffix_rfl
    · exact (ih h).trans (List.suffix_cons _ _)

theorem path_trans (hm : m ∈ l.path) (hl : l ∈ n.path) : m ∈ n.path :=
  (path_suffix hl).subset hm

theorem path_eq_cons {p : Lineage} (h : l.parent? = some p) : l.path = l :: p.path := by
  cases l with
  | root own => cases h
  | derived parent own call timeout =>
    cases h
    rfl

theorem path_eq_singleton (h : l.parent? = none) : l.path = [l] := by
  cases l with
  | root own => rfl
  | derived parent own call timeout => cases h

/-- No context is an ancestor of its parent. -/
theorem not_mem_path_parent {p : Lineage} (h : l.parent? = some p) : l ∉ p.path := by
  intro hmem
  have hle := (path_suffix hmem).length_le
  rw [path_eq_cons h, List.length_cons] at hle
  omega

/-- The first context is an ancestor of the second one. -/
def IsAncestor (n l : Lineage) : Prop := ∃ p, l.parent? = some p ∧ n ∈ p.path

/-- The contexts are different and have the same parent. -/
def IsSibling (n l : Lineage) : Prop := n ≠ l ∧ ∃ p, l.parent? = some p ∧ n.parent? = some p

theorem not_mem_path_of_ancestor (h : n.IsAncestor l) : l ∉ n.path := by
  obtain ⟨p, hp, hn⟩ := h
  exact fun hl => not_mem_path_parent hp (path_trans hl hn)

theorem not_mem_path_of_sibling (h : n.IsSibling l) : l ∉ n.path := by
  obtain ⟨hne, p, hl, hn⟩ := h
  rw [path_eq_cons hn, List.mem_cons, not_or]
  exact ⟨hne.symm, not_mem_path_parent hl⟩

/-! ## §2. What a context keeps of its lineage -/

/-- **The chain of scopes** is that of the context and its ancestors. -/
theorem scopes_context (l : Lineage) : l.context.scopes = l.path.map own := by
  induction l with
  | root own => rfl
  | derived parent own call timeout ih =>
    show own :: parent.context.scopes = _
    rw [ih]
    rfl

/-- **The deadline is the least of the ends asked for on the path.** -/
theorem deadline_context (l : Lineage) : l.context.deadline = l.limits.min? := by
  induction l with
  | root own => rfl
  | derived parent own call timeout ih =>
    show (parent.context.limit call timeout).deadline = ((call + timeout) :: parent.limits).min?
    rw [List.min?_cons, ← ih]
    cases hd : parent.context.deadline with
    | none => exact deadline_limit_none _ call timeout hd
    | some d =>
      rw [deadline_limit_some _ call timeout d hd, Nat.min_comm]
      rfl

/-- A longer timeout does not extend the parent's. -/
example : (derived (derived (root 0) 1 0 50) 2 0 10000).context.deadline = some 50 := rfl

/-- **A descendant does not outlive its ancestors.** -/
theorem deadline_le (h : m ∈ l.path) {d : Nat} (hd : m.context.deadline = some d) :
    ∃ e ≤ d, l.context.deadline = some e := by
  rw [deadline_context] at hd ⊢
  have hmem : d ∈ l.limits := ((path_suffix h).filterMap limit?).subset (List.min?_mem hd)
  cases he : l.limits.min? with
  | none =>
    rw [List.min?_eq_none_iff.mp he] at hmem
    cases hmem
  | some e => exact ⟨e, (List.min?_eq_some_iff.mp he).2 d hmem, rfl⟩

theorem isExpired_iff (l : Lineage) (now : Nat) :
    l.context.isExpired now = true ↔ ∃ d, l.limits.min? = some d ∧ d ≤ now := by
  rw [← deadline_context]
  unfold isExpired
  cases l.context.deadline with
  | none => simp
  | some d => simp

theorem isCancelled_iff (l : Lineage) (cancelled : List Scope) :
    l.context.isCancelled cancelled = true ↔ ∃ a ∈ l.path, a.own ∈ cancelled := by
  unfold isCancelled
  rw [scopes_context]
  simp

/-- Cancelling a scope that is not on the path changes nothing. -/
theorem error?_cancel {x : Scope} (h : ∀ a ∈ l.path, a.own ≠ x) (cancelled : List Scope)
    (now : Nat) : l.context.error? (x :: cancelled) now = l.context.error? cancelled now := by
  have hsame : l.context.isCancelled (x :: cancelled) = l.context.isCancelled cancelled := by
    rw [Bool.eq_iff_iff, isCancelled_iff, isCancelled_iff]
    refine exists_congr fun a => and_congr_right fun ha => ?_
    rw [List.mem_cons, or_iff_right (h a ha)]
  unfold error?
  rw [hsame]

end Lineage

/-! ## §3. Why a context is done -/

section Error

variable {c : Context} {cancelled : List Scope} {now : Nat}

theorem error?_eq_deadlineExceeded_iff :
    c.error? cancelled now = some .deadlineExceeded ↔ c.isExpired now = true := by
  unfold error?
  cases c.isExpired now <;> cases c.isCancelled cancelled <;> decide

theorem error?_eq_cancelled_iff : c.error? cancelled now = some .cancelled ↔
    ¬ c.isExpired now = true ∧ c.isCancelled cancelled = true := by
  unfold error?
  cases c.isExpired now <;> cases c.isCancelled cancelled <;> decide

theorem isSome_error?_iff : (c.error? cancelled now).isSome = true ↔
    c.isExpired now = true ∨ c.isCancelled cancelled = true := by
  unfold error?
  cases c.isExpired now <;> cases c.isCancelled cancelled <;> decide

/-- **A context that is done stays done** while time goes on and more is cancelled. -/
theorem isSome_error?_mono {cancelled' : List Scope} {now' : Nat} (hc : cancelled ⊆ cancelled')
    (hnow : now ≤ now') (h : (c.error? cancelled now).isSome = true) :
    (c.error? cancelled' now').isSome = true := by
  rw [isSome_error?_iff] at h ⊢
  refine h.imp (fun hexp => ?_) (fun hcan => ?_)
  · unfold isExpired at hexp ⊢
    cases hd : c.deadline with
    | none =>
      rw [hd] at hexp
      cases hexp
    | some d =>
      rw [hd] at hexp
      simp only [decide_eq_true_eq] at hexp ⊢
      exact Nat.le_trans hexp hnow
  · unfold isCancelled at hcan ⊢
    simp only [List.any_eq_true, List.contains_iff_mem] at hcan ⊢
    obtain ⟨x, hx, hmem⟩ := hcan
    exact ⟨x, hx, hc hmem⟩

theorem isLeast_eq_iff {a b : Nat} {t : Set Nat} (h : IsLeast t a) : a = b ↔ IsLeast t b :=
  ⟨fun heq => heq ▸ h, fun h' => h.unique h'⟩

/-- **Waiters and the context agree**: they are told now if there is a reason for it, and otherwise
at the deadline. -/
theorem doneAt?_eq (c : Context) (cancelled : List Scope) (now : Nat) : c.doneAt? cancelled now
    = if (c.error? cancelled now).isSome = true then some now else c.deadline := by
  simp only [isSome_error?_iff]
  unfold doneAt? isExpired
  cases c.isCancelled cancelled with
  | true => cases c.deadline <;> simp
  | false =>
    cases c.deadline with
    | none => simp
    | some d =>
      by_cases hd : d ≤ now
      · simp [hd]
      · simp [hd, Nat.le_of_not_le hd]

/-- Where nothing more is cancelled, a context is done from a moment on. -/
theorem doneAt?_eq_some_iff {t : Nat} : c.doneAt? cancelled now = some t ↔
    IsLeast {u | now ≤ u ∧ (c.error? cancelled u).isSome = true} t := by
  rw [doneAt?_eq]
  by_cases hdone : (c.error? cancelled now).isSome = true
  · rw [if_pos hdone, Option.some_inj]
    exact isLeast_eq_iff ⟨⟨Nat.le_refl _, hdone⟩, fun u hu => hu.1⟩
  · rw [if_neg hdone]
    have hopen := (not_congr isSome_error?_iff).mp hdone
    rw [not_or] at hopen
    cases hd : c.deadline with
    | none =>
      refine iff_of_false nofun ?_
      rintro ⟨⟨-, h⟩, -⟩
      rw [isSome_error?_iff, or_iff_left hopen.2] at h
      unfold isExpired at h
      rw [hd] at h
      cases h
    | some d =>
      have hexp : ∀ u, c.isExpired u = true ↔ d ≤ u := fun u => by
        unfold isExpired
        rw [hd]
        exact decide_eq_true_iff
      have hlt : now < d := Nat.lt_of_not_le fun h => hopen.1 ((hexp now).mpr h)
      rw [Option.some_inj]
      refine isLeast_eq_iff ⟨⟨Nat.le_of_lt hlt, ?_⟩, fun u hu => ?_⟩
      · exact isSome_error?_iff.mpr (.inl ((hexp d).mpr (Nat.le_refl d)))
      · have hu := isSome_error?_iff.mp hu.2
        exact (hexp u).mp (hu.resolve_right hopen.2)

end Error
/-! ## §4. Families -/

/-- Names with lineages; a later one hides an earlier one of the same name. -/
abbrev Family := List (String × Lineage)

namespace Family

/-- The lineages after a request to a session. -/
def grow (f : Family) (s : Session) : Request → Family
  | .background id => (id, .root s.fresh) :: f
  | .withToken id token => (id, .root ((s.tokens.lookup token).getD s.fresh)) :: f
  | .child id parent timeout =>
    match f.lookup parent with
    | some l => (id, .derived l s.fresh s.clock.elapsed timeout) :: f
    | none => f
  | .duplicate id source =>
    match f.lookup source with
    | some l => (id, l) :: f
    | none => f
  | _ => f

/-- The lineages after a list of requests. -/
def growAll (f : Family) (s : Session) : List Request → Family
  | [] => f
  | r :: rs => (f.grow s r).growAll (s.step r).1 rs

/-- The lineage is that of a named context or of an ancestor of one. -/
def Known (f : Family) (l : Lineage) : Prop := ∃ p ∈ f, l ∈ p.2.path

/-- The scope that a request cancels. -/
def target? (f : Family) (s : Session) : Request → Option Scope
  | .cancelToken id => s.tokens.lookup id
  | .cancelContext id => (f.lookup id).map Lineage.own
  | _ => none

variable {f : Family}

theorem known_of_lookup {id : String} {l : Lineage} (h : f.lookup id = some l) : f.Known l := by
  obtain ⟨l₁, l₂, rfl, -⟩ := List.lookup_eq_some_iff.mp h
  exact ⟨(id, l), List.mem_append_right _ List.mem_cons_self, l.self_mem_path⟩

theorem known_path {l m : Lineage} (hl : f.Known l) (hm : m ∈ l.path) : f.Known m := by
  obtain ⟨p, hp, hpath⟩ := hl
  exact ⟨p, hp, Lineage.path_trans hm hpath⟩

theorem known_cons_iff {p : String × Lineage} {l : Lineage} :
    Known (p :: f) l ↔ l ∈ p.2.path ∨ f.Known l := by
  unfold Known
  rw [List.exists_mem_cons_iff]

end Family

/-! ## §5. Scopes tell contexts apart -/

/-- The contexts of a session have these lineages, and the scopes tell them apart. -/
structure Grown (s : Session) (f : Family) : Prop where
  lookup_eq : ∀ id, s.contexts.lookup id = (f.lookup id).map Lineage.context
  /-- Scopes that are in use have been handed out. -/
  own_lt : ∀ l, f.Known l → l.own < s.fresh
  token_lt : ∀ p ∈ s.tokens, p.2 < s.fresh
  /-- Only roots are on the scope of a token. -/
  eq_root : ∀ p ∈ s.tokens, ∀ l, f.Known l → l.own = p.2 → l = .root p.2
  /-- A scope belongs to one context of the tree. -/
  eq_of_own : ∀ l m, f.Known l → f.Known m → l.own = m.own → l = m

namespace Grown

variable {s : Session} {f : Family} (g : Grown s f)

theorem init (start : Instant) : Grown (.init start) [] where
  lookup_eq := fun _ => rfl
  own_lt := by
    rintro l ⟨p, hp, -⟩
    cases hp
  token_lt := nofun
  eq_root := nofun
  eq_of_own := by
    rintro l m ⟨p, hp, -⟩
    cases hp

include g in
/-- A context under a name, whose ancestors are known and whose scope is not that of another one. -/
theorem put {l : Lineage} (parents : ∀ p, l.parent? = some p → f.Known p) (hown : l.own < s.fresh)
    (hroot : ∀ p ∈ s.tokens, l.own = p.2 → l = .root p.2)
    (hsame : ∀ m, f.Known m → l.own = m.own → l = m) (id : String) :
    Grown (s.put id l.context) ((id, l) :: f) := by
  have hknown : ∀ m, Family.Known ((id, l) :: f) m → m = l ∨ f.Known m := by
    intro m hm
    rcases Family.known_cons_iff.mp hm with hpath | hm
    · cases hl : l.parent? with
      | none =>
        rw [Lineage.path_eq_singleton hl, List.mem_singleton] at hpath
        exact .inl hpath
      | some p =>
        rw [Lineage.path_eq_cons hl, List.mem_cons] at hpath
        exact hpath.imp_right (Family.known_path (parents p hl))
    · exact .inr hm
  exact
    { lookup_eq := fun name => by
        show ((id, l.context) :: s.contexts).lookup name = _
        rw [List.lookup_cons, List.lookup_cons, g.lookup_eq]
        cases name == id <;> rfl
      own_lt := fun m hm => by
        rcases hknown m hm with rfl | hm
        · exact hown
        · exact g.own_lt m hm
      token_lt := g.token_lt
      eq_root := fun p hp m hm => by
        rcases hknown m hm with rfl | hm
        · exact hroot p hp
        · exact g.eq_root p hp m hm
      eq_of_own := fun m n hm hn heq => by
        rcases hknown m hm with rfl | hm'
        · rcases hknown n hn with rfl | hn'
          · rfl
          · exact hsame n hn' heq
        · rcases hknown n hn with rfl | hn'
          · exact (hsame m hm' heq.symm).symm
          · exact g.eq_of_own m n hm' hn' heq }

include g in
/-- A second name for a context. -/
theorem again {l : Lineage} (hl : f.Known l) (id : String) :
    Grown (s.put id l.context) ((id, l) :: f) := by
  refine g.put (fun p hp => ?_) (g.own_lt l hl) (fun p hp => g.eq_root p hp l hl)
    (fun m hm => g.eq_of_own l m hl hm) id
  refine Family.known_path hl ?_
  rw [Lineage.path_eq_cons hp]
  exact List.mem_cons_of_mem _ p.self_mem_path

include g in
/-- A context on the scope of a token. -/
theorem onToken {token : String × Scope} (htoken : token ∈ s.tokens) (id : String) :
    Grown (s.put id (.ofScope token.2)) ((id, .root token.2) :: f) :=
  g.put (l := .root token.2) nofun (g.token_lt token htoken)
    (fun _ _ heq => congrArg Lineage.root heq)
    (fun m hm heq => (g.eq_root token htoken m hm heq.symm).symm) id

include g in
theorem freshen : Grown s.freshen f where
  lookup_eq := g.lookup_eq
  own_lt := fun l hl => Nat.lt_succ_of_lt (g.own_lt l hl)
  token_lt := fun p hp => Nat.lt_succ_of_lt (g.token_lt p hp)
  eq_root := g.eq_root
  eq_of_own := g.eq_of_own

include g in
/-- A context on a scope that is handed out now. -/
theorem handOut {l : Lineage} (parents : ∀ p, l.parent? = some p → f.Known p)
    (hown : l.own = s.fresh) (id : String) :
    Grown (s.put id l.context).freshen ((id, l) :: f) := by
  refine g.freshen.put parents ?_ (fun p hp heq => ?_) (fun m hm heq => ?_) id
  · rw [hown]
    exact Nat.lt_succ_self _
  · exact absurd (g.token_lt p hp) (Nat.not_lt_of_ge (heq ▸ hown.ge))
  · exact absurd (g.own_lt m hm) (Nat.not_lt_of_ge (heq ▸ hown.ge))

include g in
/-- A token on a scope that is handed out now. -/
theorem token (id : String) :
    Grown { s with tokens := (id, s.fresh) :: s.tokens }.freshen f where
  lookup_eq := g.lookup_eq
  own_lt := fun l hl => Nat.lt_succ_of_lt (g.own_lt l hl)
  token_lt := List.forall_mem_cons.mpr
    ⟨Nat.lt_succ_self _, fun p hp => Nat.lt_succ_of_lt (g.token_lt p hp)⟩
  eq_root := List.forall_mem_cons.mpr
    ⟨fun l hl heq => absurd (g.own_lt l hl) (Nat.not_lt_of_ge heq.ge), g.eq_root⟩
  eq_of_own := g.eq_of_own

include g in
/-- What leaves contexts, tokens and scopes alone. -/
theorem of_same {s' : Session} (hcontexts : s'.contexts = s.contexts)
    (htokens : s'.tokens = s.tokens) (hfresh : s'.fresh = s.fresh) : Grown s' f where
  lookup_eq := hcontexts ▸ g.lookup_eq
  own_lt := hfresh ▸ g.own_lt
  token_lt := htokens ▸ hfresh ▸ g.token_lt
  eq_root := htokens ▸ g.eq_root
  eq_of_own := g.eq_of_own

include g in
/-- **A request keeps the lineages of the contexts.** -/
theorem step (r : Request) : Grown (s.step r).1 (f.grow s r) := by
  cases r with
  | background id => exact g.handOut (l := .root s.fresh) nofun rfl id
  | token id => exact g.token id
  | withToken id token =>
    simp only [Session.step, Family.grow]
    cases htoken : s.tokens.lookup token with
    | none => exact g.handOut (l := .root s.fresh) nofun rfl id
    | some x =>
      obtain ⟨l₁, l₂, htokens, -⟩ := List.lookup_eq_some_iff.mp htoken
      exact g.onToken (htokens ▸ List.mem_append_right _ List.mem_cons_self) id
  | child id parent timeout =>
    simp only [Session.step, Family.grow, g.lookup_eq]
    cases hparent : f.lookup parent with
    | none => exact g
    | some l =>
      refine g.handOut (l := .derived l s.fresh s.clock.elapsed timeout) ?_ rfl id
      rintro p ⟨⟩
      exact Family.known_of_lookup hparent
  | duplicate id source =>
    simp only [Session.step, Family.grow, g.lookup_eq]
    cases hsource : f.lookup source with
    | none => exact g
    | some l => exact g.again (Family.known_of_lookup hsource) id
  | cancelToken id =>
    simp only [Session.step]
    cases s.tokens.lookup id <;> exact g.of_same rfl rfl rfl
  | cancelContext id =>
    simp only [Session.step, Family.grow]
    split <;> exact g.of_same rfl rfl rfl
  | wait id limit =>
    simp only [Session.step, Family.grow]
    cases s.contexts.lookup id <;> exact g.of_same rfl rfl rfl
  | look id =>
    simp only [Session.step, Family.grow]
    cases s.contexts.lookup id <;> exact g
  | advance ms => exact g.of_same rfl rfl rfl
  | elapsed => exact g

include g in
/-- Cancelling a context reaches no context but itself and its descendants. -/
theorem error?_cancel {l n : Lineage} (hl : f.Known l) (hn : f.Known n) (hnot : l ∉ n.path)
    (cancelled : List Scope) (now : Nat) :
    n.context.error? (l.own :: cancelled) now = n.context.error? cancelled now := by
  refine Lineage.error?_cancel (fun a ha heq => hnot ?_) cancelled now
  rwa [← g.eq_of_own a l (Family.known_path hn ha) hl heq]

include g in
theorem cancelled_step (r : Request) :
    (s.step r).1.cancelled = (f.target? s r).toList ++ s.cancelled := by
  cases r with
  | withToken id token =>
    simp only [Session.step]
    cases s.tokens.lookup token <;> rfl
  | child id parent timeout =>
    simp only [Session.step]
    cases s.contexts.lookup parent <;> rfl
  | duplicate id source =>
    simp only [Session.step]
    cases s.contexts.lookup source <;> rfl
  | cancelToken id =>
    simp only [Session.step, Family.target?]
    cases s.tokens.lookup id <;> rfl
  | cancelContext id =>
    simp only [Session.step, Family.target?, g.lookup_eq]
    cases f.lookup id with
    | none => rfl
    | some l => cases l <;> rfl
  | wait id limit =>
    simp only [Session.step]
    cases s.contexts.lookup id <;> rfl
  | look id =>
    simp only [Session.step]
    cases s.contexts.lookup id <;> rfl
  | background | token | advance | elapsed => rfl

end Grown

section Run

variable {s : Session} {f : Family} (g : Grown s f)

include g in
/-- **Contexts of a session have lineages, and scopes identify them.** -/
theorem grown_run (requests : List Request) :
    Grown (s.run requests).1 (f.growAll s requests) := by
  induction requests generalizing s f with
  | nil => exact g
  | cons r rs ih => exact ih (g.step r)

include g in
/-- **The cancelled scopes** are those that some request cancels. -/
theorem mem_cancelled_run_iff (requests : List Request) (x : Scope) :
    x ∈ (s.run requests).1.cancelled ↔ x ∈ s.cancelled ∨
      ∃ before r after, requests = before ++ r :: after ∧
        (f.growAll s before).target? (s.run before).1 r = some x := by
  induction requests generalizing s f with
  | nil =>
    refine (or_iff_left ?_).symm
    rintro ⟨before, r, after, heq, -⟩
    exact List.append_ne_nil_of_right_ne_nil before (List.cons_ne_nil r after) heq.symm
  | cons r rs ih =>
    show x ∈ ((s.step r).1.run rs).1.cancelled ↔ _
    rw [ih (g.step r), g.cancelled_step, List.mem_append, Option.mem_toList,
      @or_comm (_ = _), or_assoc]
    refine or_congr_right ⟨?_, ?_⟩
    · rintro (hr | ⟨before, q, after, rfl, hq⟩)
      · exact ⟨[], r, rs, rfl, hr⟩
      · exact ⟨r :: before, q, after, rfl, hq⟩
    · rintro ⟨before, q, after, heq, hq⟩
      cases before with
      | nil =>
        cases heq
        exact .inl hq
      | cons p before =>
        cases heq
        exact .inr ⟨before, q, after, rfl, hq⟩

end Run

/-! ## §6. Waiting -/

namespace Session

/-- The situations that a session passes through: the scopes cancelled by then, and the time. -/
def moments (s : Session) : List Request → Set (List Scope × Nat)
  | [] => {(s.cancelled, s.clock.elapsed)}
  | r :: rs =>
    {m | m.1 = s.cancelled ∧ s.clock.elapsed ≤ m.2 ∧ m.2 ≤ (s.step r).1.clock.elapsed} ∪
      (s.step r).1.moments rs

/-- The moment, up to a last one, at which the context is done, if nothing more is cancelled. -/
def doneBy? (s : Session) (c : Context) (last : Nat) : Option Nat :=
  (c.doneAt? s.cancelled s.clock.elapsed).filter (· ≤ last)

/-- What a waiter that begins now is told, while the requests are answered: the moment at which the
context is done. -/
def resolved? (s : Session) (c : Context) : List Request → Option Nat
  | [] => s.doneBy? c s.clock.elapsed
  | r :: rs =>
    (s.doneBy? c (s.step r).1.clock.elapsed).or ((s.step r).1.resolved? c rs)

variable {s : Session} {c : Context}

theorem goes_step (s : Session) (r : Request) : s.clock.Goes (s.step r).1.clock := by
  cases r with
  | withToken id token =>
    simp only [step]
    cases s.tokens.lookup token <;> exact Clock.Goes.refl _
  | child id parent timeout =>
    simp only [step]
    cases s.contexts.lookup parent <;> exact Clock.Goes.refl _
  | duplicate id source =>
    simp only [step]
    cases s.contexts.lookup source <;> exact Clock.Goes.refl _
  | cancelToken id =>
    simp only [step]
    cases s.tokens.lookup id <;> exact Clock.Goes.refl _
  | cancelContext id =>
    simp only [step]
    split <;> exact Clock.Goes.refl _
  | wait id limit =>
    simp only [step]
    cases s.contexts.lookup id with
    | none => exact Clock.Goes.refl _
    | some c => exact Clock.goes_advanceTo _ _
  | look id =>
    simp only [step]
    cases s.contexts.lookup id <;> exact Clock.Goes.refl _
  | advance ms => exact Clock.goes_advanceTo _ _
  | background | token | elapsed => exact Clock.Goes.refl _

theorem elapsed_le_of_mem_moments {requests : List Request} {m : List Scope × Nat}
    (h : m ∈ s.moments requests) : s.clock.elapsed ≤ m.2 := by
  induction requests generalizing s with
  | nil =>
    rw [show m = _ from h]
  | cons r rs ih =>
    rcases h with h | h
    · exact h.2.1
    · exact Nat.le_trans (s.goes_step r).2 (ih h)

theorem doneBy?_eq_some_iff {last t : Nat} : s.doneBy? c last = some t ↔
    IsLeast {u | s.clock.elapsed ≤ u ∧ u ≤ last ∧ (c.error? s.cancelled u).isSome = true} t := by
  unfold doneBy?
  rw [Option.filter_eq_some_iff, doneAt?_eq_some_iff, decide_eq_true_iff]
  constructor
  · rintro ⟨⟨⟨hle, hdone⟩, hleast⟩, hlast⟩
    exact ⟨⟨hle, hlast, hdone⟩, fun u hu => hleast ⟨hu.1, hu.2.2⟩⟩
  · rintro ⟨⟨hle, hlast, hdone⟩, hleast⟩
    refine ⟨⟨⟨hle, hdone⟩, fun u hu => ?_⟩, hlast⟩
    rcases Nat.le_total u last with hul | hlu
    · exact hleast ⟨hu.1, hul, hu.2⟩
    · exact Nat.le_trans hlast hlu

theorem doneBy?_eq_none_iff {last : Nat} : s.doneBy? c last = none ↔
    ∀ u, s.clock.elapsed ≤ u → u ≤ last → c.error? s.cancelled u = none := by
  constructor
  · intro h u hu hlast
    by_contra hdone
    have hmem : u ∈ {u | s.clock.elapsed ≤ u ∧ u ≤ last ∧
        (c.error? s.cancelled u).isSome = true} :=
      ⟨hu, hlast, Option.isSome_iff_ne_none.mpr hdone⟩
    have hsome := doneBy?_eq_some_iff.mpr
      ⟨Nat.sInf_mem (Set.nonempty_of_mem hmem), fun _ hv => Nat.sInf_le hv⟩
    rw [h] at hsome
    cases hsome
  · intro h
    by_contra hne
    obtain ⟨t, ht⟩ := Option.ne_none_iff_exists'.mp hne
    obtain ⟨⟨hle, hlast, hdone⟩, -⟩ := doneBy?_eq_some_iff.mp ht
    rw [h t hle hlast] at hdone
    cases hdone

/-- **A waiter is told at the first moment at which the context is done**, whatever else is
cancelled while it waits. -/
theorem resolved?_eq_some_iff {requests : List Request} {t : Nat} :
    s.resolved? c requests = some t ↔
      IsLeast {u | ∃ cancelled, (cancelled, u) ∈ s.moments requests ∧
        (c.error? cancelled u).isSome = true} t := by
  induction requests generalizing s with
  | nil =>
    have hset : {u | ∃ cancelled, (cancelled, u) ∈ s.moments [] ∧
        (c.error? cancelled u).isSome = true} = {u | s.clock.elapsed ≤ u ∧
          u ≤ s.clock.elapsed ∧ (c.error? s.cancelled u).isSome = true} := by
      ext u
      constructor
      · rintro ⟨cancelled, hm, hdone⟩
        cases hm
        exact ⟨Nat.le_refl _, Nat.le_refl _, hdone⟩
      · rintro ⟨hle, hge, hdone⟩
        cases Nat.le_antisymm hle hge
        exact ⟨_, rfl, hdone⟩
    rw [hset]
    exact doneBy?_eq_some_iff
  | cons r rs ih =>
    show (s.doneBy? c _).or _ = _ ↔ _
    have hset : {u | ∃ cancelled, (cancelled, u) ∈ s.moments (r :: rs) ∧
        (c.error? cancelled u).isSome = true} = {u | s.clock.elapsed ≤ u ∧
          u ≤ (s.step r).1.clock.elapsed ∧ (c.error? s.cancelled u).isSome = true} ∪
        {u | ∃ cancelled, (cancelled, u) ∈ (s.step r).1.moments rs ∧
          (c.error? cancelled u).isSome = true} := by
      ext u
      constructor
      · rintro ⟨cancelled, ⟨hm, hle, hge⟩ | hm, hdone⟩
        · cases hm
          exact .inl ⟨hle, hge, hdone⟩
        · exact .inr ⟨cancelled, hm, hdone⟩
      · rintro (⟨hle, hge, hdone⟩ | ⟨cancelled, hm, hdone⟩)
        · exact ⟨s.cancelled, .inl ⟨rfl, hle, hge⟩, hdone⟩
        · exact ⟨cancelled, .inr hm, hdone⟩
    rw [hset]
    cases hv : s.doneBy? c (s.step r).1.clock.elapsed with
    | some v =>
      -- everything later comes after the request
      obtain ⟨hmem, hleast⟩ := doneBy?_eq_some_iff.mp hv
      rw [Option.some_or, Option.some_inj]
      refine isLeast_eq_iff ⟨.inl hmem, ?_⟩
      rintro u (hu | ⟨cancelled, hm, -⟩)
      · exact hleast hu
      · exact Nat.le_trans hmem.2.1 (elapsed_le_of_mem_moments hm)
    | none =>
      rw [Option.none_or, ih]
      have hempty := doneBy?_eq_none_iff.mp hv
      rw [Set.eq_empty_of_forall_notMem (s := {u | s.clock.elapsed ≤ u ∧ _ ∧ _}) ?_,
        Set.empty_union]
      rintro u ⟨hle, hge, hdone⟩
      rw [hempty u hle hge] at hdone
      cases hdone

/-- Waiting ends at the first moment at which the context is done, or at the limit. -/
theorem reply_wait (s : Session) (c : Context) (limit : Nat) :
    (s.wait c limit).2 = match s.doneBy? c (s.clock.elapsed + limit) with
      | some t => .waited true t
      | none => .waited false (s.clock.elapsed + limit) := by
  cases hv : s.doneBy? c (s.clock.elapsed + limit) with
  | some t =>
    have hle := (doneBy?_eq_some_iff.mp hv).1
    obtain ⟨hdone, hlast⟩ := Option.filter_eq_some_iff.mp hv
    unfold wait Clock.advanceTo
    simp only [hdone, if_pos (of_decide_eq_true hlast), Nat.max_eq_right hle.1]
  | none =>
    have hmax := Nat.max_eq_right (Nat.le_add_right s.clock.elapsed limit)
    unfold wait Clock.advanceTo
    cases hdone : c.doneAt? s.cancelled s.clock.elapsed with
    | none => simp only [hmax]
    | some t =>
      unfold doneBy? at hv
      rw [hdone, Option.filter_eq_none_iff] at hv
      have hlast : ¬ t ≤ s.clock.elapsed + limit := fun h => hv t rfl (decide_eq_true h)
      simp only [if_neg hlast, hmax]

theorem goes_run (s : Session) (requests : List Request) :
    s.clock.Goes (s.run requests).1.clock := by
  induction requests generalizing s with
  | nil => exact Clock.Goes.refl _
  | cons r rs ih => exact (s.goes_step r).trans (ih (s.step r).1)

end Session

/-! ## §7. Every tree, every order of events -/

/-- **The contexts of a session behave as their tree says.**  Contexts are made on scopes of their
own, on tokens, and by deriving them from others at any time with any timeout; tokens and contexts
are cancelled, and time goes on, in any order.  The deadline of a context is the least end that was
asked for on its path, so it does not outlive its ancestors.  It is done for its deadline once that
is reached, and else because it or an ancestor was cancelled.  A waiter is told at the first moment
at which it is done; what is done stays done; and cancelling it changes no ancestor and no
sibling. -/
theorem contexts_of_run (start : Instant) (requests : List Request) :
    let s := ((Session.init start).run requests).1
    let f := Family.growAll [] (.init start) requests
    -- names stand for contexts of the tree
    (∀ id, s.contexts.lookup id = (f.lookup id).map Lineage.context) ∧
    -- scopes that were cancelled
    (∀ x, x ∈ s.cancelled ↔ ∃ before r after, requests = before ++ r :: after ∧
      (Family.growAll [] (.init start) before).target? ((Session.init start).run before).1 r
        = some x) ∧
    ∀ l, f.Known l →
      let c := l.context
      -- the deadline
      c.deadline = l.limits.min? ∧
      (∀ a ∈ l.path, ∀ d, a.context.deadline = some d → ∃ e ≤ d, c.deadline = some e) ∧
      -- why it is done
      (∀ now,
        (c.error? s.cancelled now = some .deadlineExceeded ↔
          ∃ d, l.limits.min? = some d ∧ d ≤ now) ∧
        (c.error? s.cancelled now = some .cancelled ↔
          (¬ ∃ d, l.limits.min? = some d ∧ d ≤ now) ∧ ∃ a ∈ l.path, a.own ∈ s.cancelled)) ∧
      -- waiting alone, for a limited time
      (∀ limit, (∃ t, (s.wait c limit).2 = .waited true t ∧
          IsLeast {u | s.clock.elapsed ≤ u ∧ u ≤ s.clock.elapsed + limit ∧
            (c.error? s.cancelled u).isSome = true} t) ∨
        (s.wait c limit).2 = .waited false (s.clock.elapsed + limit) ∧
          ∀ u, s.clock.elapsed ≤ u → u ≤ s.clock.elapsed + limit →
            c.error? s.cancelled u = none) ∧
      -- whatever comes afterwards
      (∀ more,
        (∀ t, s.resolved? c more = some t ↔
          IsLeast {u | ∃ cancelled, (cancelled, u) ∈ s.moments more ∧
            (c.error? cancelled u).isSome = true} t) ∧
        let s' := (s.run more).1
        (c.error? s.cancelled s.clock.elapsed).isSome = true →
          (c.error? s'.cancelled s'.clock.elapsed).isSome = true) ∧
      -- cancelling it
      ∀ n, f.Known n → n.IsAncestor l ∨ n.IsSibling l → ∀ now,
        n.context.error? (l.own :: s.cancelled) now = n.context.error? s.cancelled now := by
  intro s f
  have g : Grown s f := grown_run (.init start) requests
  refine ⟨g.lookup_eq, fun x => ?_, fun l hl => ⟨l.deadline_context, fun a ha d => l.deadline_le ha,
    fun now => ⟨?_, ?_⟩, fun limit => ?_, fun more => ⟨fun t => Session.resolved?_eq_some_iff, ?_⟩,
    fun n hn hrel now => g.error?_cancel hl hn ?_ s.cancelled now⟩⟩
  · rw [mem_cancelled_run_iff (.init start) requests x]
    exact or_iff_right List.not_mem_nil
  · rw [error?_eq_deadlineExceeded_iff, l.isExpired_iff]
  · rw [error?_eq_cancelled_iff, l.isExpired_iff, l.isCancelled_iff]
  · rw [s.reply_wait]
    cases hv : s.doneBy? l.context (s.clock.elapsed + limit) with
    | some t => exact .inl ⟨t, rfl, Session.doneBy?_eq_some_iff.mp hv⟩
    | none => exact .inr ⟨rfl, Session.doneBy?_eq_none_iff.mp hv⟩
  · refine isSome_error?_mono (fun x hx => ?_) (s.goes_run more).2
    exact (mem_cancelled_run_iff g more x).mpr (.inl hx)
  · exact hrel.elim Lineage.not_mem_path_of_ancestor Lineage.not_mem_path_of_sibling

end CronSupervisor.Context
