/-
  CronSupervisor.Job.Session — one job under manual control.

  Requests trigger the job in every way there is, pause and resume it, cancel tokens, abandon
  callers and let time pass.  A request that waits moves the clock to the end of what it waits for.
  Callers in the background are kept under names and can be given up or joined.
-/
import CronSupervisor.History.Session
import CronSupervisor.Job.Worker

namespace CronSupervisor

open Calendar

/-! ## §1. Bounds of callers -/

/-- The bounds that a caller sets: a token, and a timeout from the moment of the call. -/
structure CallerBounds where
  token : Option String := none
  timeout : Option Nat := none

/-- The context of a call at a moment; an unknown token cancels nothing. -/
def CallerBounds.context (b : CallerBounds) (tokens : List (String × Scope)) (now : Nat) :
    Context :=
  let base := match b.token.bind (fun id => tokens.lookup id) with
    | some scope => Context.ofScope scope
    | none => Context.background
  match b.timeout with
  | some timeout => base.limit now timeout
  | none => base

namespace Job

/-! ## §2. Requests and replies -/

/-- What can be asked of the session. -/
inductive Request where
  /-- A scheduled run; wait for its end. -/
  | run
  /-- A scheduled run in the background. -/
  | runInBackground
  | trigger (bounds : CallerBounds)
  | triggerSync (bounds : CallerBounds)
  /-- Trigger, wait, and give up after some milliseconds. -/
  | triggerSyncFor (bounds : CallerBounds) (patience : Nat)
  /-- Trigger from a background caller of the given name. -/
  | triggerSyncInBackground (id : String) (bounds : CallerBounds)
  /-- Give up a background caller. -/
  | abort (id : String)
  /-- Wait for a background caller's result. -/
  | join (id : String)
  | pause
  | resume
  | token (id : String)
  | cancel (id : String)
  | advance (ms : Nat)
  | elapsed
  | calls
  | status
  | look
  | query (q : History.Query)

/-- The answer to a request. -/
inductive Reply where
  | done
  | exitCode (code : Int)
  | failed (error : JobError)
  | abandoned
  | elapsed (ms : Nat)
  | calls (log : CallLog)
  | status (s : Status)
  | look (j : Job)
  | history (r : History.Reply)

/-- The reply that reports an outcome. -/
def Reply.ofOutcome : Outcome → Reply
  | .ok code => .exitCode code
  | .error e => .failed (.execution e)

/-- A caller in the background. -/
inductive BackgroundCaller where
  | refused (error : JobError)
  /-- Its trigger was admitted as this execution. -/
  | admitted (execution : Int)
  | gaveUp

/-- A job, its background callers, the tokens, the calls and the time. -/
structure Session where
  clock : Clock
  fresh : Scope := 0
  cancelled : List Scope := []
  tokens : List (String × Scope) := []
  calls : CallLog := {}
  callers : List (String × BackgroundCaller) := []
  worker : Worker

namespace Session

/-! ## §3. Steps -/

/-- Let time pass up to a moment. -/
def passTo (s : Session) (ms : Nat) : Session :=
  let clock := s.clock.advanceTo ms
  let (worker, calls) := s.worker.passTime clock s.cancelled s.calls []
  { s with clock, worker, calls }

/-- Trigger the job; yields the identifier of the admitted execution. -/
def launch (s : Session) (trigger : Trigger) (context : Context) :
    Except JobError (Session × Int) :=
  match s.worker.launch s.clock s.cancelled s.calls trigger context with
  | .ok (worker, calls) => .ok ({ s with worker, calls }, s.worker.job.history.nextId)
  | .error e => .error e

/-- Let time pass until an execution has returned. -/
def await (s : Session) (execution : Int) : Session :=
  match s.worker.job.dueOf? execution with
  | some due => s.passTo due
  | none => s

/-- The reply to the caller of an execution that is over. -/
def replyOf (s : Session) (execution : Int) : Reply :=
  match s.worker.job.reply? execution with
  | some outcome => .ofOutcome outcome
  | none => .abandoned

/-- Give up an execution, if it is under way. -/
def abandon (s : Session) (execution : Int) : Session :=
  { s with worker := { s.worker with job := s.worker.job.abandon s.clock.now execution } }

/-- Trigger the job for a caller that waits for so long at most. -/
def triggerSync (s : Session) (bounds : CallerBounds) (patience : Option Nat) : Session × Reply :=
  match s.launch .api (bounds.context s.tokens s.clock.elapsed) with
  | .error e => (s, .failed e)
  | .ok (s, id) =>
    match patience, s.worker.job.dueOf? id with
    | some patience, some due =>
      if s.clock.elapsed + patience < due then
        ((s.passTo (s.clock.elapsed + patience)).abandon id, .abandoned)
      else
        let s := s.await id
        (s, s.replyOf id)
    | _, _ =>
      let s := s.await id
      (s, s.replyOf id)

/-- Change the job, or say why not. -/
def change (s : Session) : Except JobError Job → Session × Reply
  | .ok job => ({ s with worker := { s.worker with job } }, .done)
  | .error e => (s, .failed e)

/-- Answer one request. -/
def answer (s : Session) : Request → Session × Reply
  | .run =>
    match s.launch .schedule .background with
    | .ok (s, id) =>
      let s := s.await id
      (s, .elapsed s.clock.elapsed)
    | .error _ => (s, .elapsed s.clock.elapsed)
  | .runInBackground =>
    match s.launch .schedule .background with
    | .ok (s, _) => (s, .done)
    | .error _ => (s, .done)
  | .trigger bounds =>
    match s.launch .manual (bounds.context s.tokens s.clock.elapsed) with
    | .ok (s, _) => (s, .done)
    | .error e => (s, .failed e)
  | .triggerSync bounds => s.triggerSync bounds none
  | .triggerSyncFor bounds patience => s.triggerSync bounds (some patience)
  | .triggerSyncInBackground id bounds =>
    match s.launch .api (bounds.context s.tokens s.clock.elapsed) with
    | .ok (s, execution) =>
      ({ s with callers := (id, .admitted execution) :: s.callers }, .done)
    | .error e => ({ s with callers := (id, .refused e) :: s.callers }, .done)
  | .abort id =>
    match s.callers.lookup id with
    | some (.admitted execution) =>
      if (s.worker.job.dueOf? execution).isSome then
        ({ s.abandon execution with callers := (id, .gaveUp) :: s.callers }, .done)
      else (s, .done)
    | _ => (s, .done)
  | .join id =>
    match s.callers.lookup id with
    | some (.admitted execution) =>
      let s := s.await execution
      (s, s.replyOf execution)
    | some (.refused e) => (s, .failed e)
    | _ => (s, .abandoned)
  | .pause => s.change s.worker.job.pause
  | .resume => s.change s.worker.job.resume
  | .token id => ({ s with tokens := (id, s.fresh) :: s.tokens, fresh := s.fresh + 1 }, .done)
  | .cancel id =>
    match s.tokens.lookup id with
    | some scope =>
      let s := { s with cancelled := scope :: s.cancelled }
      (s.passTo s.clock.elapsed, .done)
    | none => (s, .done)
  | .advance ms =>
    let s := s.passTo (s.clock.elapsed + ms)
    (s, .elapsed s.clock.elapsed)
  | .elapsed => (s, .elapsed s.clock.elapsed)
  | .calls => (s, .calls s.calls)
  | .status => (s, .status s.worker.job.status)
  | .look => (s, .look s.worker.job)
  | .query q => (s, .history (s.worker.job.history.answer s.clock.now q))

/-- A step of the session. -/
inductive Step where
  | request (r : Request)
  /-- Write into the job's history, past the job. -/
  | history (r : History.Request)

/-- Take one step. -/
def step (s : Session) : Step → Session × Reply
  | .request r => s.answer r
  | .history r =>
    let (history, reply) := s.worker.job.history.respond s.clock.now r
    ({ s with worker := { s.worker with job := { s.worker.job with history } } }, .history reply)

/-- Take a list of steps in order. -/
def run (s : Session) : List Step → Session × List Reply
  | [] => (s, [])
  | r :: rs =>
    let (s, reply) := s.step r
    let (s, replies) := s.run rs
    (s, reply :: replies)

/-- A session with a job that never ran, and a script for its executor. -/
def init (start : Instant) (job : Job) (script : List Behaviour) : Session :=
  { clock := ⟨start, 0⟩, worker := { job, caller := .own job.name, script } }

end Session

end Job

end CronSupervisor
