/-
  CronSupervisor.Pattern.Search — where a pattern matches in a text.

  Of all matches the one that starts first is found, and of those at one place the first choice of
  the pattern.  The search goes through the text once and keeps, in the order of preference, the
  branches of the program that are still alive.
-/
import CronSupervisor.Pattern.Program

namespace CronSupervisor.Pattern

/-! ## §1. Branches -/

/-- A branch of a run: the instruction it waits at and the place where it began. -/
structure Branch where
  address : Nat
  start : Nat

/-- A place in a text: the characters on its two sides. -/
structure Place where
  before : Option Char
  after : Option Char

/-- The branches that wait at a place, and the addresses that no branch has reached there. -/
structure Front where
  /-- Most preferred last. -/
  branches : List Branch := []
  fresh : List Nat

namespace Front

/-- No branch yet. -/
def ofSize (n : Nat) : Front := { fresh := List.range n }

/-- Follow a branch to the instructions that take a character or accept.  The stack holds the
addresses to follow, most preferred first; an address is followed once at most. -/
def follow (program : Array Instr) (place : Place) (start : Nat) (stack : List Nat) (f : Front) :
    Front :=
  match stack with
  | [] => f
  | a :: stack =>
    if h : a ∈ f.fresh then
      have : (f.fresh.erase a).length < f.fresh.length := by
        have := List.length_erase_of_mem h
        have := List.length_pos_of_mem h
        omega
      let rest := f.fresh.erase a
      match program[a]? with
      | some (.split x y) =>
        follow program place start (x :: y :: stack) { f with fresh := rest }
      | some (.jump x) => follow program place start (x :: stack) { f with fresh := rest }
      | some (.require condition) =>
        if condition.holds place.before place.after then
          follow program place start ((a + 1) :: stack) { f with fresh := rest }
        else follow program place start stack { f with fresh := rest }
      | some _ =>
        follow program place start stack
          { branches := ⟨a, start⟩ :: f.branches, fresh := rest }
      | none => follow program place start stack { f with fresh := rest }
    else follow program place start stack f
termination_by (f.fresh.length, stack.length)

end Front

/-! ## §2. The search -/

/-- The outcome of looking at all branches of a place: those of the next place, and the match that
ends here, if one was found. -/
structure Advance where
  next : Front
  found : Option (Nat × Nat)

/-- Let the branches take a character, the most preferred first.  A branch that accepts ends all
that are less preferred. -/
def advance (program : Array Instr) (char : Option Char) (place : Place) (position : Nat) :
    List Branch → Front → Advance
  | [], next => { next, found := none }
  | b :: bs, next =>
    match program[b.address]?, char with
    | some .accept, _ => { next, found := some (b.start, position) }
    | some (.take s), some c =>
      if s.mem c then
        advance program char place position bs
          (next.follow program place b.start [b.address + 1])
      else advance program char place position bs next
    | _, _ => advance program char place position bs next

/-- Search on from a position.  As long as nothing was found, a match may also begin there; after
that the search ends as soon as no branch is left. -/
def searchFrom (program : Array Instr) (before : Option Char) (position : Nat) (front : Front)
    (best : Option (Nat × Nat)) (rest : List Char) : Option (Nat × Nat) :=
  let front :=
    if best.isSome then front else front.follow program ⟨before, rest.head?⟩ position [0]
  match rest with
  | [] =>
    (advance program none ⟨before, none⟩ position front.branches.reverse (.ofSize 0)).found.or best
  | c :: cs =>
    let a := advance program (some c) ⟨some c, cs.head?⟩ position front.branches.reverse
      (.ofSize program.size)
    let best := a.found.or best
    if best.isSome && a.next.branches.isEmpty then best
    else searchFrom program (some c) (position + 1) a.next best cs

/-- The first match in a text, which may have a character before it: the positions where it starts
and where it ends. -/
def search (program : Array Instr) (before : Option Char) (text : List Char) :
    Option (Nat × Nat) :=
  searchFrom program before 0 (.ofSize program.size) none text

/-! ## §3. Masking -/

/-- Put a mask in place of every match.  An empty match directly after another one counts for
nothing, and the search goes on behind the next character. -/
def maskWith (program : Array Instr) (mask : List Char) (before : Option Char) (afterMatch : Bool)
    (text : List Char) : List Char :=
  match search program before text with
  | none => text
  | some (start, stop) =>
    if _h : stop = 0 then
      match afterMatch, text with
      | false, text => mask ++ maskWith program mask before true text
      | true, [] => []
      | true, c :: cs => c :: maskWith program mask (some c) false cs
    else if ht : text = [] then text
    else
      have : 0 < text.length := List.length_pos_iff.2 ht
      text.take start ++ mask
        ++ maskWith program mask (text.take stop).getLast? true (text.drop stop)
termination_by (text.length, if afterMatch then 0 else 1)

/-- The text with a mask in place of every match. -/
def mask (p : Pattern) (mask : List Char) (text : List Char) : List Char :=
  maskWith p.program mask none false text

end CronSupervisor.Pattern
