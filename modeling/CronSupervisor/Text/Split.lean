/-
  CronSupervisor.Text.Split — cutting a list of characters at a separator.

  `splitOn` keeps every piece, empty ones too, so a text of `n` separators has `n + 1` pieces;
  `splitOnce` cuts at the first separator only.  Joining the pieces with the separator gives the
  text back.
-/
namespace CronSupervisor.Text

/-- The parts before and after the first separator, if there is one. -/
def splitOnce (sep : Char) : List Char → Option (List Char × List Char)
  | [] => none
  | c :: cs =>
    if c = sep then some ([], cs) else (splitOnce sep cs).map fun (a, b) => (c :: a, b)

/-- The pieces between the separators. -/
def splitOn (sep : Char) : List Char → List (List Char)
  | [] => [[]]
  | c :: cs =>
    if c = sep then [] :: splitOn sep cs
    else match splitOn sep cs with
      | [] => [[c]]
      | p :: ps => (c :: p) :: ps

/-- The pieces with the separator between each two of them. -/
def joinWith (sep : Char) : List (List Char) → List Char
  | [] => []
  | [p] => p
  | p :: ps => p ++ sep :: joinWith sep ps

theorem splitOn_ne_nil (sep : Char) (cs : List Char) : splitOn sep cs ≠ [] := by
  cases cs with
  | nil => simp [splitOn]
  | cons c cs => simp only [splitOn]; split <;> (try split) <;> simp

theorem joinWith_splitOn (sep : Char) (cs : List Char) : joinWith sep (splitOn sep cs) = cs := by
  induction cs with
  | nil => rfl
  | cons c cs ih =>
    simp only [splitOn]
    have h := splitOn_ne_nil sep cs
    cases hs : splitOn sep cs with
    | nil => exact absurd hs h
    | cons p ps =>
      rw [hs] at ih
      split
      · rename_i hc; subst hc; simp [joinWith, ih]
      · cases ps <;> simp_all [joinWith]

theorem splitOnce_eq {sep : Char} {cs a b : List Char} (h : splitOnce sep cs = some (a, b)) :
    cs = a ++ sep :: b := by
  induction cs generalizing a b with
  | nil => simp [splitOnce] at h
  | cons c cs ih =>
    simp only [splitOnce] at h
    split at h
    · rename_i hc; subst hc; simp_all
    · obtain ⟨⟨x, y⟩, hxy, hab⟩ := Option.map_eq_some_iff.1 h
      simp only [Prod.mk.injEq] at hab
      obtain ⟨rfl, rfl⟩ := hab
      simp [ih hxy]

end CronSupervisor.Text
