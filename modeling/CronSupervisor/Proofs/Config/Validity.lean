/-
  CronSupervisor.Proofs.Config.Validity — which configurations are valid, and what is wrong with
  the others.

  Validation looks for the first job without a name, without a program, or with a name that an
  earlier job has, in this order.

  Main statements:
    * `JobConfig.problem?_eq_some_iff` — what is wrong with a job.
    * `Config.problem?_eq_some_iff`, `Config.problem?_eq_none_iff` — what validation finds.
    * `faultless_violates_iff` — valid jobs have names, programs, and no name twice.
-/
import CronSupervisor.Config.Basic
import CronSupervisor.Proofs.Fault
import CronSupervisor.Proofs.Text.Split
import Mathlib.Data.List.Nodup
import Mathlib.Data.List.TakeWhile

namespace CronSupervisor

open Text

/-! ## §1. Blank texts -/

theorem trimChars_eq_nil_iff {cs : List Char} : trimChars cs = [] ↔ ∀ c ∈ cs, isBlank c = true := by
  unfold trimChars
  rw [List.reverse_eq_nil_iff, List.dropWhile_eq_nil_iff]
  constructor
  · intro h
    by_contra hnot
    -- what is left without the blanks in front starts with a character that is none
    have hne : cs.dropWhile isBlank ≠ [] := fun hnil => hnot (List.dropWhile_eq_nil_iff.mp hnil)
    have hhead := List.head_dropWhile_not isBlank hne
    rw [h _ (List.mem_reverse.mpr (List.head_mem hne))] at hhead
    cases hhead
  · intro h
    rw [List.dropWhile_eq_nil_iff.mpr h]
    exact nofun

/-- A text is blank if nothing is left of it after trimming. -/
theorem isBlankText_iff {s : String} : isBlankText s = true ↔ trim s = "" := by
  unfold isBlankText trim
  rw [List.all_eq_true, ← trimChars_eq_nil_iff]
  exact ⟨fun h => congrArg String.ofList h, fun h => String.ofList_injective h⟩

/-! ## §2. Validation -/

/-- The command of a job starts with a program. -/
def JobConfig.HasProgram (j : JobConfig) : Prop :=
  ∃ program args, j.command = program :: args ∧ trim program ≠ ""

/-- What is wrong with a job that comes after others: a name comes before a program, and a program
before a name of its own. -/
inductive JobConfig.Violates (earlier : List JobConfig) (j : JobConfig) : ConfigProblem → Prop
  | emptyName (unnamed : trim j.name = "") : Violates earlier j (.emptyName j.schedule)
  | emptyCommand (named : trim j.name ≠ "") (idle : ¬ j.HasProgram) :
      Violates earlier j (.emptyCommand j.name)
  | repeatedName (named : trim j.name ≠ "") (runs : j.HasProgram)
      (repeated : ∃ i ∈ earlier, i.name = j.name) : Violates earlier j (.repeatedName j.name)

theorem isBlankCommand_iff {j : JobConfig} : isBlankCommand j.command = true ↔ ¬ j.HasProgram := by
  unfold JobConfig.HasProgram
  cases j.command with
  | nil => exact iff_of_true rfl nofun
  | cons program args =>
    show isBlankText program = true ↔ _
    rw [isBlankText_iff]
    constructor
    · rintro hblank ⟨_, _, heq, hprogram⟩
      cases heq
      exact hprogram hblank
    · intro h
      by_contra hprogram
      exact h ⟨program, args, rfl, hprogram⟩

variable {j : JobConfig} {js earlier : List JobConfig} {names : List String} {p : ConfigProblem}

/-- **What is wrong with a job is found**, and nothing else. -/
theorem JobConfig.problem?_eq_some_iff
    (hnames : ∀ name, name ∈ names ↔ ∃ i ∈ earlier, i.name = name) :
    j.problem? names = some p ↔ j.Violates earlier p := by
  have hblank := isBlankText_iff (s := j.name)
  have hcommand := isBlankCommand_iff (j := j)
  have hcontains : names.contains j.name = true ↔ ∃ i ∈ earlier, i.name = j.name :=
    List.contains_iff_mem.trans (hnames j.name)
  unfold problem?
  by_cases hunnamed : trim j.name = ""
  · rw [if_pos (hblank.mpr hunnamed), Option.some.injEq]
    constructor
    · rintro rfl
      exact .emptyName hunnamed
    · rintro (_ | ⟨named, _⟩ | ⟨named, _, _⟩)
      · rfl
      · exact absurd hunnamed named
      · exact absurd hunnamed named
  rw [if_neg (mt hblank.mp hunnamed)]
  by_cases hidle : j.HasProgram
  · rw [if_neg fun h => hcommand.mp h hidle]
    by_cases hrepeated : ∃ i ∈ earlier, i.name = j.name
    · rw [if_pos (hcontains.mpr hrepeated), Option.some.injEq]
      constructor
      · rintro rfl
        exact .repeatedName hunnamed hidle hrepeated
      · rintro (unnamed | ⟨_, idle⟩ | _)
        · exact absurd unnamed hunnamed
        · exact absurd hidle idle
        · rfl
    · rw [if_neg (mt hcontains.mp hrepeated)]
      refine iff_of_false nofun ?_
      rintro (unnamed | ⟨_, idle⟩ | ⟨_, _, repeated⟩)
      · exact hunnamed unnamed
      · exact idle hidle
      · exact hrepeated repeated
  · rw [if_pos (hcommand.mpr hidle), Option.some.injEq]
    constructor
    · rintro rfl
      exact .emptyCommand hunnamed hidle
    · rintro (unnamed | _ | ⟨_, runs, _⟩)
      · exact absurd unnamed hunnamed
      · rfl
      · exact absurd runs hidle

/-- The first problem of jobs that come after others. -/
theorem firstProblem?_eq_some_iff (hnames : ∀ name, name ∈ names ↔ ∃ i ∈ earlier, i.name = name) :
    firstProblem? names js = some p ↔
      FirstFault (fun before j => j.Violates (earlier ++ before)) js p := by
  induction js generalizing names earlier with
  | nil => exact iff_of_false nofun not_firstFault_nil
  | cons j js ih =>
    have hnext : ∀ name, name ∈ j.name :: names ↔ ∃ i ∈ earlier ++ [j], i.name = name := by
      intro name
      simp only [List.mem_cons, List.mem_append, hnames, List.not_mem_nil, or_false]
      constructor
      · rintro (rfl | ⟨i, hi, rfl⟩)
        · exact ⟨j, .inr rfl, rfl⟩
        · exact ⟨i, .inl hi, rfl⟩
      · rintro ⟨i, hi | rfl, rfl⟩
        · exact .inr ⟨i, hi, rfl⟩
        · exact .inl rfl
    have hjob := fun p => JobConfig.problem?_eq_some_iff (j := j) (p := p) hnames
    rw [firstFault_cons, List.append_nil]
    have hrest : (fun before j' => j'.Violates (earlier ++ j :: before)) =
        fun before j' => JobConfig.Violates (earlier ++ [j] ++ before) j' :=
      funext fun before => funext fun j' => by rw [← List.append_cons]
    rw [hrest, ← ih hnext]
    show (j.problem? names).or (firstProblem? (j.name :: names) js) = some p ↔ _
    cases hp : j.problem? names with
    | some q =>
      rw [Option.some_or, ← hp, hjob, or_iff_left]
      rintro ⟨hnone, -⟩
      exact hnone q ((hjob q).mp hp)
    | none =>
      have hnone : ∀ q, ¬ j.Violates earlier q := fun q hq => by
        cases hp.symm.trans ((hjob q).mpr hq)
      rw [Option.none_or, or_iff_right (hnone p), and_iff_right hnone]

/-- **The problem of a configuration is that of its first job with one.** -/
theorem Config.problem?_eq_some_iff {c : Config} :
    c.problem? = some p ↔ FirstFault JobConfig.Violates c.jobs p := by
  have hnone : ∀ name, name ∈ ([] : List String) ↔ ∃ i ∈ ([] : List JobConfig), i.name = name :=
    fun _ => iff_of_false List.not_mem_nil nofun
  exact firstProblem?_eq_some_iff hnone

theorem Config.problem?_eq_none_iff {c : Config} :
    c.problem? = none ↔ Faultless JobConfig.Violates c.jobs := by
  rw [faultless_iff_not_firstFault, Option.eq_none_iff_forall_ne_some]
  exact forall_congr' fun p => not_congr problem?_eq_some_iff

/-- **Valid jobs have names, programs, and no name twice.** -/
theorem faultless_violates_iff : Faultless JobConfig.Violates js ↔
    (∀ j ∈ js, trim j.name ≠ "") ∧ (∀ j ∈ js, j.HasProgram) ∧ (js.map (·.name)).Nodup := by
  constructor
  · intro h
    have hnamed : ∀ j ∈ js, trim j.name ≠ "" := by
      intro j hj hunnamed
      obtain ⟨before, after, rfl⟩ := List.append_of_mem hj
      exact h before j after rfl _ (.emptyName hunnamed)
    have hruns : ∀ j ∈ js, j.HasProgram := by
      intro j hj
      by_contra hidle
      obtain ⟨before, after, rfl⟩ := List.append_of_mem hj
      exact h before j after rfl _ (.emptyCommand (hnamed j hj) hidle)
    refine ⟨hnamed, hruns, List.pairwise_map.mpr (List.pairwise_iff_forall_sublist.mpr ?_)⟩
    intro i j hij hname
    obtain ⟨before, rest, rfl, hi, hj⟩ := List.cons_sublist_iff.mp hij
    obtain ⟨between, after, rfl⟩ := List.append_of_mem (List.singleton_sublist.mp hj)
    have hj : j ∈ before ++ (between ++ j :: after) :=
      List.mem_append_right before (List.mem_append_right between List.mem_cons_self)
    exact h (before ++ between) j after (List.append_assoc _ _ _).symm _
      (.repeatedName (hnamed j hj) (hruns j hj) ⟨i, List.mem_append_left between hi, hname⟩)
  · rintro ⟨hnamed, hruns, hdistinct⟩ before j after rfl p hviolates
    have hj : j ∈ before ++ j :: after := List.mem_append_right before List.mem_cons_self
    cases hviolates with
    | emptyName unnamed => exact hnamed j hj unnamed
    | emptyCommand _ idle => exact idle (hruns j hj)
    | repeatedName _ _ repeated =>
      obtain ⟨i, hi, hname⟩ := repeated
      rw [List.map_append, List.nodup_append] at hdistinct
      exact hdistinct.2.2 _ (List.mem_map_of_mem hi) _ (List.mem_map_of_mem List.mem_cons_self)
        hname

end CronSupervisor
