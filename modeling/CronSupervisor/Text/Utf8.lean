/-
  CronSupervisor.Text.Utf8 — bytes as text.

  A character is encoded as one to four bytes.  `units` cuts any bytes into characters and flaws: a
  flaw is a longest run of bytes that begins an encoding without completing it, or a single byte
  that begins none.  Text proper has no flaws, and `lossy` puts a replacement character for each.
-/
namespace CronSupervisor.Text

/-! ## §1. Encodings -/

/-- What a first byte announces: the bits it holds, how many bytes follow, and the bounds of the
next byte, which rule out encodings that are too long or of no character. -/
structure Utf8Lead where
  bits : Nat
  following : Nat
  low : Nat := 0x80
  high : Nat := 0xBF

/-- The lead of a first byte, if it is one. -/
def utf8Lead? (b : Nat) : Option Utf8Lead :=
  if b < 0x80 then some { bits := b, following := 0 }
  else if b < 0xC2 then none
  else if b < 0xE0 then some { bits := b - 0xC0, following := 1 }
  else if b < 0xF0 then
    some { bits := b - 0xE0, following := 2, low := if b = 0xE0 then 0xA0 else 0x80,
           high := if b = 0xED then 0x9F else 0xBF }
  else if b < 0xF5 then
    some { bits := b - 0xF0, following := 3, low := if b = 0xF0 then 0x90 else 0x80,
           high := if b = 0xF4 then 0x8F else 0xBF }
  else none

/-- Complete a character with the bytes that are to follow, or stop before the first byte that may
not follow. -/
def utf8Complete (bits : Nat) (low high : Nat) : Nat → List UInt8 → Option Char × List UInt8
  | 0, bs => (some (Char.ofNat bits), bs)
  | _ + 1, [] => (none, [])
  | n + 1, b :: bs =>
    if low ≤ b.toNat ∧ b.toNat ≤ high then
      utf8Complete (bits * 64 + b.toNat % 64) 0x80 0xBF n bs
    else (none, b :: bs)

theorem length_utf8Complete_le (bits low high n : Nat) (bs : List UInt8) :
    (utf8Complete bits low high n bs).2.length ≤ bs.length := by
  fun_induction utf8Complete bits low high n bs with
  | case1 => simp
  | case2 => simp
  | case3 _ _ _ _ _ _ _ ih => simp only [List.length_cons]; omega
  | case4 => simp

/-- The character or flaw that starts with a byte, and the bytes after it. -/
def utf8Unit (b : UInt8) (bs : List UInt8) : Option Char × List UInt8 :=
  match utf8Lead? b.toNat with
  | some lead => utf8Complete lead.bits lead.low lead.high lead.following bs
  | none => (none, bs)

theorem length_utf8Unit_le (b : UInt8) (bs : List UInt8) :
    (utf8Unit b bs).2.length ≤ bs.length := by
  unfold utf8Unit
  split
  · exact length_utf8Complete_le ..
  · exact Nat.le_refl _

/-! ## §2. Decoding -/

/-- The characters in order, and nothing in place of each flaw. -/
def utf8Units : List UInt8 → List (Option Char)
  | [] => []
  | b :: bs =>
    have := length_utf8Unit_le b bs
    (utf8Unit b bs).1 :: utf8Units (utf8Unit b bs).2
termination_by bs => bs.length

/-- The text, if there is no flaw. -/
def utf8Text? (bs : List UInt8) : Option (List Char) := (utf8Units bs).mapM id

/-- The character that stands for a flaw. -/
def replacementChar : Char := '\ufffd'

/-- The text with a replacement character for each flaw. -/
def utf8Lossy (bs : List UInt8) : List Char := (utf8Units bs).map (·.getD replacementChar)

/-! ## §3. Encoding -/

/-- The bytes of a text. -/
def utf8Bytes (s : String) : List UInt8 := s.toList.flatMap String.utf8EncodeChar

end CronSupervisor.Text
