/-
  CronSupervisor.Pattern.Program — patterns as programs.

  A program is a list of instructions with absolute addresses.  Running it means following all its
  branches at once, those of a first choice before those of a second.  A branch that comes back to
  an instruction without having taken a character is given up, so a repetition of something empty
  ends.
-/
import CronSupervisor.Pattern.Basic

namespace CronSupervisor.Pattern

/-- A step of a program. -/
inductive Instr where
  /-- Take a character of a set and go on. -/
  | take (s : CharSet)
  /-- Go on if a condition holds at this place. -/
  | require (a : Anchor)
  /-- Go on at either address, the first preferred. -/
  | split (first second : Nat)
  | jump (target : Nat)
  /-- The pattern has matched. -/
  | accept

/-- Instructions placed at an address, which end by going on behind themselves. -/
abbrev Fragment := Nat → List Instr

namespace Fragment

/-- No instruction. -/
def nothing : Fragment := fun _ => []

/-- One instruction. -/
def one (i : Instr) : Fragment := fun _ => [i]

/-- One fragment after another. -/
def append (f g : Fragment) : Fragment := fun start =>
  let first := f start
  first ++ g (start + first.length)

/-- Either of two fragments. -/
def either (f g : Fragment) : Fragment := fun start =>
  let first := f (start + 1)
  let middle := start + first.length + 2
  let second := g middle
  .split (start + 1) middle :: first ++ .jump (middle + second.length) :: second

/-- Into the fragment or past it. -/
def choose (greedy : Bool) (inside past : Nat) : Instr :=
  if greedy then .split inside past else .split past inside

/-- The fragment or nothing. -/
def optional (greedy : Bool) (f : Fragment) : Fragment := fun start =>
  let body := f (start + 1)
  choose greedy (start + 1) (start + 1 + body.length) :: body

/-- The fragment once or more. -/
def plus (greedy : Bool) (f : Fragment) : Fragment := fun start =>
  let body := f start
  body ++ [choose greedy start (start + body.length + 1)]

/-- The fragment a number of times. -/
def copies (f : Fragment) : Nat → Fragment
  | 0 => nothing
  | n + 1 => append f (copies f n)

/-- The fragment up to a number of times. -/
def upTo (greedy : Bool) (f : Fragment) : Nat → Fragment
  | 0 => nothing
  | n + 1 => optional greedy (append f (upTo greedy f n))

/-- The fragment from `least` up to `most` times. -/
def rounds (greedy : Bool) (f : Fragment) (least : Nat) : Option Nat → Fragment
  | some most => append (copies f least) (upTo greedy f (most - least))
  | none =>
    match least with
    | 0 => optional greedy (plus greedy f)
    | n + 1 => append (copies f n) (plus greedy f)

end Fragment

/-- The instructions of a pattern. -/
def fragment : Pattern → Fragment
  | empty => .nothing
  | chars s => .one (.take s)
  | anchor a => .one (.require a)
  | seq p q => .append p.fragment q.fragment
  | alt p q => .either p.fragment q.fragment
  | rounds least most greedy p => .rounds greedy p.fragment least most

/-- The program of a pattern. -/
def program (p : Pattern) : Array Instr := (p.fragment 0 ++ [Instr.accept]).toArray

end CronSupervisor.Pattern
