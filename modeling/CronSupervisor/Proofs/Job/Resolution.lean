/-
  CronSupervisor.Proofs.Job.Resolution — how triggers resolve.

  A trigger in the background, a trigger that somebody waits for and a scheduled run open the same
  kind of execution; they differ in the bounds they set and in who waits.  So each of them resolves
  at the moment that comes first, whatever was asked of the job before.

  Main statements:
    * `resolves_background` — triggers in the background, whatever else is asked meanwhile.
    * `resolves_launch` — triggers that the session waits for.
    * `resolves_at_first` — every job, every caller, every order of requests.
-/
import CronSupervisor.Proofs.Job.Course

namespace CronSupervisor.Job

open Calendar

/-! ## §1. Requests that open an execution -/

/-- The bounds of a trigger that the session does not wait for. -/
def Request.background? : Request → Option CallerBounds
  | .runInBackground => some {}
  | .trigger bounds => some bounds
  | .triggerSyncInBackground _ bounds => some bounds
  | _ => none

namespace Session

variable {size : Nat} {s t : Session} {d : Nat} {own : Outcome}

theorem deadline_context (b : CallerBounds) (tokens : List (String × Scope)) (now : Nat) :
    (b.context tokens now).deadline = b.timeout.map (now + ·) := by
  unfold CallerBounds.context
  cases b.token.bind fun id => tokens.lookup id <;> cases b.timeout <;> rfl

/-- A trigger in the background opens an execution, and its caller, if it has a name, waits. -/
theorem answer_background (free : s.worker.job.refusal? = none) {q : Request}
    {bounds : CallerBounds} (hq : q.background? = some bounds) :
    ∃ tag, (s.answer q).1 =
      { (s.opened tag (bounds.context s.tokens s.clock.elapsed)).passTo s.clock.elapsed with
        callers := match q.caller? with
          | some x => (x, .admitted s.worker.job.history.nextId) :: s.callers
          | none => s.callers } := by
  have hlaunch := fun tag context => launch_of_free free tag context
  cases q with
  | runInBackground =>
    cases hq
    refine ⟨.schedule, ?_⟩
    simp only [answer, hlaunch]
    rfl
  | trigger =>
    cases hq
    refine ⟨.manual, ?_⟩
    simp only [answer, hlaunch]
    rfl
  | triggerSyncInBackground =>
    cases hq
    refine ⟨.api, ?_⟩
    simp only [answer, hlaunch]
    rfl
  | _ => cases hq

theorem opens_answer (works : s.Works d own) (free : s.worker.job.refusal? = none) {q : Request}
    {bounds : CallerBounds} (hq : q.background? = some bounds) {qs : List Request}
    (fair : (s.race d (bounds.context s.tokens s.clock.elapsed)
      (cancelTime? (bounds.context s.tokens s.clock.elapsed) (s.answer q).1 qs)).Fair
        s.clock.elapsed) :
    ∃ tag, s.Opens tag (bounds.context s.tokens s.clock.elapsed) (s.answer q).1 ∧
      (s.answer q).1.callers = match q.caller? with
        | some x => (x, .admitted s.worker.job.history.nextId) :: s.callers
        | none => s.callers := by
  obtain ⟨tag, hanswer⟩ := answer_background free hq
  have hclock : (s.answer q).1.clock = s.clock := by
    rw [hanswer]
    exact advanceTo_of_le (Nat.le_refl _)
  have hcancelled : (s.answer q).1.cancelled = s.cancelled := by
    rw [hanswer]
    rfl
  have fl := inFlight_opened works tag fair (uncancelled_of_fair fair hclock hcancelled)
  refine ⟨tag, ⟨?_, hclock, hcancelled⟩, ?_⟩
  · have hnow := congrArg Session.worker (passTo_now fl)
    rw [hanswer]
    exact hnow
  · rw [hanswer]

/-- A caller whose name is not used again is not given up. -/
theorem spared_of_unused {opening : Request} {run : Run} (known : s.Known)
    (named : run.execution = s.worker.job.history.nextId) {qs : List Request}
    (hcallers : t.callers = match opening.caller? with
      | some x => (x, .admitted s.worker.job.history.nextId) :: s.callers
      | none => s.callers)
    (unused : ∀ q ∈ qs, q.caller? ≠ none → q.caller? ≠ opening.caller?) :
    t.Spared run qs := by
  intro x hx hc
  have hnew : s.callers.lookup x ≠ some (.admitted run.execution) := fun h =>
    absurd (known x _ h) (named ▸ Int.lt_irrefl _)
  have hname := unused _ hx nofun
  rw [hcallers] at hc
  cases ho : opening.caller? with
  | none =>
    rw [ho] at hc
    exact hnew hc
  | some y =>
    rw [ho] at hc hname
    have hne : (x == y) = false := by
      rw [beq_eq_false_iff_ne]
      rintro rfl
      exact hname rfl
    simp only [List.lookup_cons, hne] at hc
    exact hnew hc

/-! ## §2. Ways to trigger a job -/

/-- **Triggers in the background**, whatever else is asked meanwhile. -/
theorem resolves_background (hs : s.Sound size) (known : s.Known)
    (free : s.worker.job.refusal? = none) (works : s.Works d own) {opening : Request}
    {bounds : CallerBounds} (background : opening.background? = some bounds) {qs : List Request}
    (unused : ∀ q ∈ qs, q.caller? ≠ none → q.caller? ≠ opening.caller?) :
    let id := s.worker.job.history.nextId
    let context := bounds.context s.tokens s.clock.elapsed
    let t := (s.answer opening).1
    let u := t.after qs
    let race := s.race d context (cancelTime? context t qs)
    race.Fair s.clock.elapsed →
      (u.clock.elapsed < race.first → u.UnderWay id) ∧
      (race.first ≤ u.clock.elapsed →
        u.Ended id s.clock.elapsed race.first (race.outcome own)) ∧
      (∀ mid q, qs = mid ++ [q] → (t.after mid).UnderWay id → race.first ≤ u.clock.elapsed →
        u.JustOver id) ∧
      (∀ x, opening.caller? = some x →
        (u.answer (.join x)).2 = .ofOutcome (race.outcome own) ∧
        (u.answer (.join x)).1.clock.elapsed = max u.clock.elapsed race.first) := by
  intro id context t u race fair
  obtain ⟨tag, opens, hcallers⟩ := opens_answer works free background fair
  have ht : t.Sound size := (s.goesOn_answer opening).sound hs
  have spared : t.Spared (s.runOf context id) qs := spared_of_unused known rfl hcallers unused
  have hu : u.Sound size := (t.goesOn_after qs).sound ht
  have hcourse := course works opens ht spared fair
  refine ⟨fun hlt => ?_, fun hge => ?_, ?_, fun x hx => ?_⟩
  · rcases hcourse with ⟨fl, -⟩ | ⟨hge, -⟩
    · exact fl.underWay hu
    · exact absurd hge (Nat.not_le_of_gt hlt)
  · rcases hcourse with ⟨-, -, -, hlt⟩ | ⟨-, hended⟩
    · exact absurd hge (Nat.not_le_of_gt hlt)
    · exact hended
  · rintro mid q rfl before reached
    exact justOver_at_first works opens ht spared fair before reached
  · have hname : u.callers.lookup x = some (.admitted id) := by
      rw [lookup_callers_after, hcallers, hx]
      · exact List.lookup_cons_self
      · rw [← hx]
        exact fun q hq hsame => unused q hq (hsame ▸ hx ▸ nofun) hsame
    obtain ⟨hreply, htime⟩ := course_await works opens ht spared fair
    simp only [answer, hname]
    exact ⟨hreply, htime⟩

/-- **A trigger that the session waits for.** -/
theorem resolves_launch (hs : s.Sound size) (free : s.worker.job.refusal? = none)
    (works : s.Works d own) (tag : Trigger) (context : Context) (event : Event)
    (triggers : s.life.step event = s.life.launch tag context)
    (ahead : ∀ m, context.deadline = some m → s.clock.elapsed ≤ m) :
    let id := s.worker.job.history.nextId
    let race := s.race d context (cancelTime? context s [])
    race.Fair s.clock.elapsed →
      ∃ t, s.launch tag context = .ok (t, id) ∧
        (t.await id).replyOf id = .ofOutcome (race.outcome own) ∧
        (t.await id).clock.elapsed = race.first ∧
        (t.await id).JustOver id ∧
        (t.await id).Ended id s.clock.elapsed race.first (race.outcome own) := by
  intro id race fair
  have uncancelled := uncancelled_of_fair fair rfl rfl
  have hlaunch := launch_of_works works free fair uncancelled tag
  have opens : s.Opens tag context (s.opened tag context) := ⟨rfl, rfl, rfl⟩
  have ht := (goesOn_launch hlaunch event triggers ahead).sound hs
  have fl := inFlight_opened works tag fair uncancelled
  have hnone : cancelTime? context (s.opened tag context) [] = none :=
    if_neg (Bool.eq_false_iff.mp uncancelled)
  have hfair : (s.race d context (cancelTime? context (s.opened tag context) [])).Fair
      s.clock.elapsed := fair
  obtain ⟨helapsed, hidle, hended⟩ := ended_await works opens ht hfair fl rfl hnone
  refine ⟨_, hlaunch, ?_, helapsed, hidle, hended⟩
  have hreplied := hended.replied
  unfold replyOf
  rw [after_nil] at hreplied
  rw [hreplied]
  rfl

/-! ## §3. Every job, every caller, every order of requests -/

/-- **An execution ends at the first of four moments**: when its work is done, when the job's own
timeout is over, when the caller's deadline is reached, and when the caller's token is cancelled.
Until then the job executes, and then it is idle; the caller is told then, with what the executor
has to say, or with exit code -1 that time was up or that it was cancelled; and the entry of the
history is closed with that time.  This holds for callers in the background whatever else is asked
meanwhile, for callers that wait, and for scheduled runs, which only the work and the timeout
bound. -/
theorem resolves_at_first (start : Instant) (name : String) (schedule : Cron.Schedule)
    (timezone : String) (historySize : Nat) (timeout : Option Nat) (maxConcurrent : Nat)
    (script : List Behaviour) (before : List Request) (d : Nat) (own : Outcome) :
    let job := create name schedule timezone historySize timeout maxConcurrent
    let s := (Session.init start job script).after before
    let now := s.clock.elapsed
    let id := s.worker.job.history.nextId
    s.worker.job.state = .idle →
    behaviourAt script s.life.callCount
      = { work := some d, ignoresContext := false, outcome := own } →
    s.worker.job.timeout = timeout.filter (0 < ·) ∧
    (∀ race : Race, IsLeast {m | m ∈ race.moments} race.first ∧
      (race.first ≠ race.work → (race.outcome own).exitCode = -1)) ∧
    -- triggers in the background
    (∀ (opening : Request) (bounds : CallerBounds) (qs : List Request),
      opening.background? = some bounds →
      (∀ q ∈ qs, q.caller? ≠ none → q.caller? ≠ opening.caller?) →
      let context := bounds.context s.tokens now
      let t := (s.answer opening).1
      let u := t.after qs
      let race := s.race d context (cancelTime? context t qs)
      race.Fair now →
        race.deadline = bounds.timeout.map (now + ·) ∧
        (u.clock.elapsed < race.first → u.UnderWay id) ∧
        (race.first ≤ u.clock.elapsed → u.Ended id now race.first (race.outcome own)) ∧
        (∀ mid q, qs = mid ++ [q] → (t.after mid).UnderWay id → race.first ≤ u.clock.elapsed →
          u.JustOver id) ∧
        (∀ x, opening.caller? = some x →
          (u.answer (.join x)).2 = .ofOutcome (race.outcome own) ∧
          (u.answer (.join x)).1.clock.elapsed = max u.clock.elapsed race.first) ∧
        (opening = .runInBackground → race.deadline = none ∧ race.cancel = none)) ∧
    -- a caller that waits
    (∀ bounds : CallerBounds,
      let context := bounds.context s.tokens now
      let race := s.race d context (cancelTime? context s [])
      let v := s.answer (.triggerSync bounds)
      race.Fair now →
        v.2 = .ofOutcome (race.outcome own) ∧ v.1.clock.elapsed = race.first ∧
        v.1.JustOver id ∧ v.1.Ended id now race.first (race.outcome own)) ∧
    -- a scheduled run
    (let race := s.race d .background none
      let v := s.answer .run
      race.Fair now →
        v.2 = .elapsed race.first ∧ v.1.clock.elapsed = race.first ∧
        v.1.JustOver id ∧ v.1.Ended id now race.first (race.outcome own)) := by
  intro job s now id idle behaves
  have hs : s.Sound (max historySize 1) :=
    sound_run start script (inStep_create _ _ _ _ _ _) rfl rfl rfl rfl rfl before
  have hborn : (Session.init start job script).Sound (max historySize 1) :=
    sound_run start script (inStep_create _ _ _ _ _ _) rfl rfl rfl rfl rfl []
  have later : (Session.init start job script).life.Later s.life :=
    ((Session.init start job script).goesOn_after before).later hborn.timely
  have nobody : (Session.init start job script).Known := by
    intro x e h
    cases h
  have known : s.Known := nobody.after hborn before
  have free : s.worker.job.refusal? = none := hs.inStep.refusal?_eq_none.mpr idle
  have works : s.Works d own := by
    unfold Works
    rw [show s.worker.script = script from later.script]
    exact behaves
  refine ⟨later.timeout, fun race => ⟨race.isLeast_first, race.exitCode_outcome own⟩,
    fun opening bounds qs background unused => ?_, fun bounds => ?_, ?_⟩
  · intro context t u race fair
    obtain ⟨hunder, hended, hidle, hjoin⟩ :=
      resolves_background hs known free works background unused fair
    refine ⟨deadline_context _ _ _, hunder, hended, hidle, hjoin, ?_⟩
    rintro rfl
    cases background
    exact ⟨rfl, cancelTime?_background _ _⟩
  · intro context race v fair
    obtain ⟨t, hlaunch, hreply, helapsed, hidle, hended⟩ :=
      resolves_launch hs free works .api context (.triggerSync context) rfl
        (bounds.le_deadline _ _) fair
    have hv : v = (t.await id, (t.await id).replyOf id) := by
      show s.triggerSync bounds none = _
      unfold triggerSync
      rw [hlaunch]
    rw [hv]
    exact ⟨hreply, helapsed, hidle, hended⟩
  · intro race v fair
    obtain ⟨t, hlaunch, -, helapsed, hidle, hended⟩ :=
      resolves_launch hs free works .schedule .background .run rfl nofun fair
    have hv : v = (t.await id, .elapsed (t.await id).clock.elapsed) := by
      show s.answer .run = _
      simp only [answer, hlaunch]
      rfl
    rw [hv]
    exact ⟨congrArg Reply.elapsed helapsed, helapsed, hidle, hended⟩

/-- The script of an executor that works for 60 milliseconds. -/
def slowScript : List Behaviour := [{ work := some 60, ignoresContext := false, outcome := .ok 0 }]

/-- A job of it with a timeout of 50 milliseconds. -/
def slowJob : Job := create "backup" ⟨"0 0 * * *", "UTC", .fixed 0, []⟩ "UTC" 10 (some 50) 1

/-- A session with that job and a token. -/
def slowSession : Session := (init ⟨0⟩ slowJob slowScript).after [.token "stop"]

/-- A call with a deadline after 40 milliseconds. -/
def slowBounds : CallerBounds := { token := some "stop", timeout := some 40 }

/-- The token is cancelled after 30 milliseconds, before the deadline, the timeout and the end of
the work, so the caller is told then that the execution was cancelled. -/
theorem resolves_at_cancellation :
    let context := slowBounds.context slowSession.tokens 0
    let t := (slowSession.answer (.triggerSyncInBackground "caller" slowBounds)).1
    let qs : List Request := [.advance 30, .cancel "stop", .advance 20]
    let race := slowSession.race 60 context (cancelTime? context t qs)
    let joined := (t.after qs).answer (.join "caller")
    slowSession.worker.job.state = .idle ∧ race.Fair 0 ∧ race.first = 30 ∧
      joined.2 = .failed (.execution .cancelled) ∧ joined.1.clock.elapsed = 50 ∧
      (t.after qs).Ended 1 0 30 (.error .cancelled) := by
  intro context t qs race joined
  have hrace : race = { work := 60, timeout := some 50, deadline := some 40, cancel := some 30 } :=
    rfl
  have fair : race.Fair 0 := by
    rw [hrace]
    exact ⟨by decide, by decide⟩
  obtain ⟨-, -, hbackground, -⟩ :=
    resolves_at_first ⟨0⟩ "backup" ⟨"0 0 * * *", "UTC", .fixed 0, []⟩ "UTC" 10 (some 50) 1
      slowScript [.token "stop"] 60 (.ok 0) rfl rfl
  obtain ⟨-, -, hended, -, hjoin, -⟩ := hbackground (.triggerSyncInBackground "caller" slowBounds)
    slowBounds qs rfl (by decide) fair
  obtain ⟨hreply, htime⟩ := hjoin "caller" rfl
  exact ⟨rfl, fair, rfl, hreply, htime, hended (by decide)⟩

end Session

end CronSupervisor.Job
