/-
  CronSupervisor.Proofs.Pattern.Search — a search goes piece by piece.

  A match never reaches over a character that its program does not take.  If no condition looks at
  the neighbours of a place either, then a text may be cut at such a character: what is found in the
  text is what is found in front of the character or, if nothing is, behind it.

  Main statements:
    * `search_bounds` — a match lies in the text.
    * `searchFrom_shift` — where a search begins to count makes no difference.
    * `search_append_cons` — a search in a text that is cut.
-/
import CronSupervisor.Pattern.Search
import CronSupervisor.Proofs.Pattern.Program

namespace CronSupervisor.Pattern

/-! ## §1. Steps of a branch -/

/-- Whether the branches at an address accept. -/
def accepts (program : Array Instr) (a : Nat) : Bool :=
  match program[a]? with
  | some .accept => true
  | _ => false

/-- Whether the branches at an address take what comes next. -/
def moves (program : Array Instr) (char : Option Char) (a : Nat) : Bool :=
  match program[a]?, char with
  | some (.take s), some c => s.mem c
  | _, _ => false

variable {program : Array Instr} {char : Option Char} {place : Place} {position : Nat}

/-- The most preferred branch ends the others, or takes what comes next, or ends. -/
theorem advance_cons (b : Branch) (bs : List Branch) (next : Front) :
    advance program char place position (b :: bs) next =
      if accepts program b.address then { next, found := some (b.start, position) }
      else if moves program char b.address then
        advance program char place position bs
          (next.follow program place b.start [b.address + 1])
      else advance program char place position bs next := by
  unfold accepts moves
  cases hi : program[b.address]? with
  | none => simp [advance, hi]
  | some i => cases i <;> cases char <;> simp [advance, hi]

theorem moves_none (program : Array Instr) (a : Nat) : moves program none a = false := by
  unfold moves
  split <;> simp_all

theorem moves_of_refuses {c : Char} (hc : Refuses program c) (a : Nat) :
    moves program (some c) a = false := by
  unfold moves
  split
  · next s d hs hd =>
    cases hd
    exact hc a s hs
  · rfl

/-! ## §2. Bounds -/

/-- No branch of a front began behind a position. -/
def Front.Begun (position : Nat) (f : Front) : Prop := ∀ b ∈ f.branches, b.start ≤ position

theorem Front.Begun.mono {position' : Nat} {f : Front} (hf : f.Begun position)
    (hle : position ≤ position') : f.Begun position' :=
  fun b hb => Nat.le_trans (hf b hb) hle

theorem Front.begun_ofSize (position n : Nat) : (ofSize n).Begun position :=
  fun _ hb => absurd hb List.not_mem_nil

theorem Front.Begun.follow {start : Nat} {stack : List Nat} {f : Front} (hf : f.Begun position)
    (hstart : start ≤ position) : (f.follow program place start stack).Begun position := by
  fun_induction Front.follow program place start stack f
  case case1 => exact hf
  case case2 ih | case3 ih | case4 ih | case5 ih | case7 ih | case8 ih => exact ih hf
  case case6 ih =>
    -- only here does a branch come to wait
    refine ih ?_
    intro b hb
    rcases List.mem_cons.mp hb with rfl | hb
    · exact hstart
    · exact hf b hb

/-- A match that starts and ends in this order, and not behind a position. -/
def Inside (position : Nat) (m : Nat × Nat) : Prop := m.1 ≤ m.2 ∧ m.2 ≤ position

theorem Inside.mono {position' : Nat} {m : Nat × Nat} (h : Inside position m)
    (hle : position ≤ position') : Inside position' m :=
  ⟨h.1, Nat.le_trans h.2 hle⟩

theorem advance_inside (program : Array Instr) (char : Option Char) (place : Place)
    {bs : List Branch} {next : Front} (hbs : ∀ b ∈ bs, b.start ≤ position)
    (hnext : next.Begun position) :
    (advance program char place position bs next).next.Begun position ∧
      ∀ m, (advance program char place position bs next).found = some m → Inside position m := by
  induction bs generalizing next with
  | nil =>
    refine ⟨hnext, ?_⟩
    intro m hm
    cases hm
  | cons b bs ih =>
    have hb : b.start ≤ position := hbs b List.mem_cons_self
    have hrest : ∀ b ∈ bs, b.start ≤ position := fun b hb => hbs b (List.mem_cons_of_mem _ hb)
    rw [advance_cons]
    by_cases hacc : accepts program b.address
    · rw [if_pos hacc]
      refine ⟨hnext, ?_⟩
      intro m hm
      cases hm
      exact ⟨hb, Nat.le_refl position⟩
    · rw [if_neg hacc]
      by_cases hmove : moves program char b.address
      · rw [if_pos hmove]
        exact ih hrest (hnext.follow hb)
      · rw [if_neg hmove]
        exact ih hrest hnext

/-- The branches of a place, with the one that begins there as long as nothing was found. -/
def Front.entered (program : Array Instr) (place : Place) (position : Nat)
    (best : Option (Nat × Nat)) (f : Front) : Front :=
  if best.isSome then f else f.follow program place position [0]

theorem Front.Begun.entered {best : Option (Nat × Nat)} {f : Front} (hf : f.Begun position) :
    (f.entered program place position best).Begun position := by
  unfold Front.entered
  split
  · exact hf
  · exact hf.follow (Nat.le_refl position)

variable {before : Option Char} {front : Front} {best : Option (Nat × Nat)} {rest : List Char}

/-- The branches of a place take what comes next, with the one that begins there. -/
def Front.taken (program : Array Instr) (before char : Option Char) (place : Place) (size : Nat)
    (position : Nat) (best : Option (Nat × Nat)) (f : Front) : Advance :=
  advance program char place position
    (f.entered program ⟨before, char⟩ position best).branches.reverse (.ofSize size)

theorem Front.Begun.taken_inside {f : Front} (hf : f.Begun position) (program : Array Instr)
    (before char : Option Char) (place : Place) (size : Nat)
    (hbest : ∀ m, best = some m → Inside position m) :
    (f.taken program before char place size position best).next.Begun position ∧
      ∀ m, (f.taken program before char place size position best).found.or best = some m →
        Inside position m := by
  have hentered : ∀ b ∈ (f.entered program ⟨before, char⟩ position best).branches.reverse,
      b.start ≤ position :=
    fun b hb => hf.entered b (List.mem_reverse.mp hb)
  have hadvance := advance_inside program char place hentered (Front.begun_ofSize position size)
  refine ⟨hadvance.1, ?_⟩
  intro m hm
  rcases Option.or_eq_some_iff.mp hm with hfound | ⟨-, hm⟩
  · exact hadvance.2 m hfound
  · exact hbest m hm

theorem searchFrom_nil : searchFrom program before position front best [] =
    (front.taken program before none ⟨before, none⟩ 0 position best).found.or best := by
  rw [searchFrom]
  rfl

theorem searchFrom_cons (c : Char) : searchFrom program before position front best (c :: rest) =
    let a := front.taken program before (some c) ⟨some c, rest.head?⟩ program.size position best
    if (a.found.or best).isSome && a.next.branches.isEmpty then a.found.or best
    else searchFrom program (some c) (position + 1) a.next (a.found.or best) rest := by
  rw [searchFrom]
  rfl

theorem searchFrom_inside (hfront : front.Begun position)
    (hbest : ∀ m, best = some m → Inside position m) :
    ∀ m, searchFrom program before position front best rest = some m →
      Inside (position + rest.length) m := by
  induction rest generalizing before position front best with
  | nil =>
    intro m hm
    rw [searchFrom_nil] at hm
    exact (hfront.taken_inside program before none ⟨before, none⟩ 0 hbest).2 m hm
  | cons c rest ih =>
    intro m hm
    rw [searchFrom_cons] at hm
    dsimp only at hm
    -- what is found at this place ends here, and the other branches go on from the next one
    have htaken :=
      hfront.taken_inside program before (some c) ⟨some c, rest.head?⟩ program.size hbest
    split at hm
    · exact (htaken.2 m hm).mono (Nat.le_add_right _ _)
    · have hnext := htaken.1.mono (Nat.le_succ position)
      have hrest := ih hnext (fun m hm => (htaken.2 m hm).mono (Nat.le_succ position)) m hm
      rw [List.length_cons]
      exact hrest.mono (by omega)

/-- **A match lies in the text**, and it does not end before it starts. -/
theorem search_bounds {text : List Char} {start stop : Nat}
    (h : search program before text = some (start, stop)) :
    start ≤ stop ∧ stop ≤ text.length := by
  have hinside := searchFrom_inside (Front.begun_ofSize 0 program.size) (fun m hm => by cases hm)
    (start, stop) h
  rw [Nat.zero_add] at hinside
  exact hinside

/-! ## §3. Places and positions -/

/-- The branch of a text that begins later. -/
def Branch.shift (k : Nat) (b : Branch) : Branch := { b with start := b.start + k }

/-- The branches of a text that begins later. -/
def Front.shift (k : Nat) (f : Front) : Front :=
  { f with branches := f.branches.map (Branch.shift k) }

/-- The match in a text that begins later. -/
def shiftMatch (k : Nat) (m : Nat × Nat) : Nat × Nat := (m.1 + k, m.2 + k)

theorem Front.follow_shift (hh : Heedless program) (place place' : Place) (k start : Nat)
    (stack : List Nat) (f : Front) :
    (f.shift k).follow program place' (start + k) stack
      = (f.follow program place start stack).shift k := by
  fun_induction Front.follow program place start stack f
  case case1 => rw [Front.follow]
  case case2 f a stack h _ _ _ _ hi ih =>
    rw [Front.follow, dif_pos (show a ∈ (f.shift k).fresh from h), hi]
    exact ih
  case case3 f a stack h _ _ _ hi ih =>
    rw [Front.follow, dif_pos (show a ∈ (f.shift k).fresh from h), hi]
    exact ih
  -- only a condition could tell the two places apart
  case case4 hi _ _ | case5 hi _ _ => exact absurd hi (hh _ _)
  case case6 f a stack h _ _ i hsplit hjump hrequire hi ih =>
    rw [Front.follow, dif_pos (show a ∈ (f.shift k).fresh from h), hi]
    cases i with
    | split x y => exact absurd rfl (hsplit x y)
    | jump x => exact absurd rfl (hjump x)
    | require condition => exact absurd rfl (hrequire condition)
    | take | accept => exact ih
  case case7 f a stack h _ _ hi ih =>
    rw [Front.follow, dif_pos (show a ∈ (f.shift k).fresh from h), hi]
    exact ih
  case case8 f a stack h ih =>
    rw [Front.follow, dif_neg (show a ∉ (f.shift k).fresh from h)]
    exact ih

/-- The outcome in a text that begins later. -/
def Advance.shift (k : Nat) (a : Advance) : Advance :=
  { next := a.next.shift k, found := a.found.map (shiftMatch k) }

theorem advance_shift (hh : Heedless program) (place place' : Place) (k : Nat) (bs : List Branch)
    (next : Front) :
    advance program char place' (position + k) (bs.map (Branch.shift k)) (next.shift k)
      = (advance program char place position bs next).shift k := by
  induction bs generalizing next with
  | nil => rfl
  | cons b bs ih =>
    rw [List.map_cons, advance_cons, advance_cons]
    show (if accepts program b.address then _ else if moves program char b.address then _ else _)
      = _
    by_cases hacc : accepts program b.address
    · rw [if_pos hacc, if_pos hacc]
      rfl
    · rw [if_neg hacc, if_neg hacc]
      by_cases hmove : moves program char b.address
      · rw [if_pos hmove, if_pos hmove, ← ih]
        exact congrArg _ (Front.follow_shift hh place place' k b.start [b.address + 1] next)
      · rw [if_neg hmove, if_neg hmove, ih]

theorem Front.entered_shift (hh : Heedless program) (place place' : Place) (k : Nat) (f : Front) :
    (f.shift k).entered program place' (position + k) (best.map (shiftMatch k))
      = (f.entered program place position best).shift k := by
  unfold Front.entered
  rw [Option.isSome_map]
  split
  · rfl
  · exact Front.follow_shift hh place place' k position [0] f

theorem Front.taken_shift (hh : Heedless program) (before before' : Option Char)
    (place place' : Place) (k size : Nat) (f : Front) :
    (f.shift k).taken program before' char place' size (position + k) (best.map (shiftMatch k))
      = (f.taken program before char place size position best).shift k := by
  unfold Front.taken
  rw [Front.entered_shift hh ⟨before, char⟩ ⟨before', char⟩, Front.shift, ← List.map_reverse]
  exact advance_shift hh place place' k _ (ofSize size)

/-- **Where a text begins, and what stands before it, makes no difference to what is found**, but
for the positions. -/
theorem searchFrom_shift (hh : Heedless program) (before before' : Option Char) (k : Nat) :
    searchFrom program before' (position + k) (front.shift k) (best.map (shiftMatch k)) rest
      = (searchFrom program before position front best rest).map (shiftMatch k) := by
  induction rest generalizing before before' position front best with
  | nil =>
    rw [searchFrom_nil, searchFrom_nil,
      Front.taken_shift hh before before' ⟨before, none⟩ ⟨before', none⟩]
    exact Option.map_or.symm
  | cons c rest ih =>
    rw [searchFrom_cons, searchFrom_cons,
      Front.taken_shift hh before before' ⟨some c, rest.head?⟩ ⟨some c, rest.head?⟩]
    generalize front.taken program before (some c) ⟨some c, rest.head?⟩ program.size position best
      = a
    -- the search ends at the same place, since it ends when no branch is left
    have hbest : (a.shift k).found.or (best.map (shiftMatch k))
        = (a.found.or best).map (shiftMatch k) := Option.map_or.symm
    have hempty : (a.shift k).next.branches.isEmpty = a.next.branches.isEmpty := List.isEmpty_map
    dsimp only
    rw [hbest, hempty, Option.isSome_map]
    split
    · rfl
    · rw [Nat.add_right_comm]
      exact ih (some c) (some c)

theorem shiftMatch_zero : shiftMatch 0 = id := rfl

theorem Front.shift_zero (f : Front) : f.shift 0 = f := by
  have hid : Branch.shift 0 = id := rfl
  rw [Front.shift, hid, List.map_id]

theorem Advance.shift_zero (a : Advance) : a.shift 0 = a := by
  rw [Advance.shift, shiftMatch_zero, Option.map_id, Front.shift_zero]
  rfl

theorem Front.taken_eq_taken (hh : Heedless program) (before before' : Option Char)
    (place place' : Place) (size : Nat) (f : Front) :
    f.taken program before' char place' size position best
      = f.taken program before char place size position best := by
  rw [← (f.taken program before char place size position best).shift_zero,
    ← Front.taken_shift hh before before' place place' 0 size f, shiftMatch_zero, Option.map_id,
    Front.shift_zero]
  rfl

/-- A search in a text that begins later, from its beginning. -/
theorem searchFrom_ofSize (hh : Heedless program) (before before' : Option Char) (k : Nat)
    (text : List Char) :
    searchFrom program before' k (.ofSize program.size) none text
      = (search program before text).map (shiftMatch k) := by
  rw [search, ← searchFrom_shift hh before before' k, Nat.zero_add]
  rfl

theorem search_eq_search (hh : Heedless program) (before before' : Option Char)
    (text : List Char) : search program before' text = search program before text := by
  have hfrom := searchFrom_ofSize hh before before' 0 text
  rw [shiftMatch_zero, Option.map_id] at hfrom
  exact hfrom

/-! ## §4. Cuts -/

variable {c : Char}

/-- Before a character that is not taken, branches fare as at the end of the text. -/
theorem advance_of_refuses (hc : Refuses program c) (place place' : Place) (bs : List Branch)
    (next next' : Front) :
    advance program (some c) place position bs next
      = { next, found := (advance program none place' position bs next').found } := by
  induction bs with
  | nil => rfl
  | cons b bs ih =>
    rw [advance_cons, advance_cons, moves_of_refuses hc, moves_none]
    by_cases hacc : accepts program b.address
    · simp [hacc]
    · simp [hacc, ih]

theorem Front.taken_of_refuses (hh : Heedless program) (hc : Refuses program c)
    (place place' : Place) (size size' : Nat) (f : Front) :
    f.taken program before (some c) place size position best =
      { next := ofSize size,
        found := (f.taken program before none place' size' position best).found } := by
  -- the branch that begins here does not look at the character either
  have hentered : f.entered program ⟨before, some c⟩ position best
      = f.entered program ⟨before, none⟩ position best := by
    rw [← (f.entered program ⟨before, none⟩ position best).shift_zero,
      ← Front.entered_shift hh ⟨before, none⟩ ⟨before, some c⟩ 0 f, shiftMatch_zero, Option.map_id,
      Front.shift_zero]
    rfl
  unfold Front.taken
  rw [advance_of_refuses hc place place' _ _ (ofSize size'), hentered]

theorem searchFrom_append_cons (hh : Heedless program) (hc : Refuses program c)
    (u v : List Char) :
    searchFrom program before position front best (u ++ c :: v) =
      (searchFrom program before position front best u).or
        ((search program none v).map (shiftMatch (position + u.length + 1))) := by
  induction u generalizing before position front best with
  | nil =>
    rw [List.nil_append, searchFrom_cons, searchFrom_nil,
      Front.taken_of_refuses hh hc _ ⟨before, none⟩ _ 0]
    dsimp only
    generalize (front.taken program before none ⟨before, none⟩ 0 position best).found.or best
      = found
    -- no branch is left behind the character, so the search ends if anything was found
    cases found with
    | some m => rfl
    | none => exact searchFrom_ofSize hh none (some c) (position + 1) v
  | cons d u ih =>
    rw [List.cons_append, searchFrom_cons, searchFrom_cons,
      Front.taken_eq_taken hh before before ⟨some d, u.head?⟩]
    generalize front.taken program before (some d) ⟨some d, u.head?⟩ program.size position best = a
    dsimp only
    split
    · next hend =>
      -- the search ends in front of the character
      have hfound : (a.found.or best).isSome := (Bool.and_eq_true_iff.mp hend).1
      obtain ⟨m, hm⟩ := Option.isSome_iff_exists.mp hfound
      rw [hm]
      rfl
    · rw [ih, List.length_cons]
      congr 3
      omega

/-- **A search goes piece by piece**: in a text with a character that is not taken, it finds what is
in front of the character or, if nothing is, what is behind it. -/
theorem search_append_cons (hh : Heedless program) (hc : Refuses program c) (before : Option Char)
    (u v : List Char) :
    search program before (u ++ c :: v) =
      (search program before u).or ((search program none v).map (shiftMatch (u.length + 1))) := by
  have hlength : 0 + u.length + 1 = u.length + 1 := by omega
  rw [search, searchFrom_append_cons hh hc, hlength]
  rfl

end CronSupervisor.Pattern
