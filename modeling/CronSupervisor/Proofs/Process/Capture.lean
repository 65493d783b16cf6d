/-
  CronSupervisor.Proofs.Process.Capture — what is captured of the output of a child.

  The bytes of a child arrive in pieces, those of its two pipes mixed, and each line is decoded by
  itself as soon as it is complete.  A piece may end within a character, and so may a line, after
  bytes that begin a character without completing it.  Still the lines of a pipe that is read to its
  end are those of the text that all its bytes together stand for: nothing is lost or torn.

  A pipe that something else holds for too long after the child has ended is given up.  What is lost
  then is exactly what is held back of a line, besides all that would have come later.

  Main statements:
    * `Capture.linesOf_eq` — the lines of bytes are their pieces after line feeds.
    * `Output.readsOn_eq` — a pipe yields bytes, and at most one end, which is the last thing.
    * `linesOn_lines` — each pipe is read as if it were alone.
    * `ChildRun.endOf?_heard` — which pipes are read to their end.
    * `Sink.recordRun_eq_performAll` — what a run does to a sink.
    * `ProcessRegistry.lines_of_execute` — from the bytes of a child to the messages of a sink.
-/
import CronSupervisor.Process.Execution
import CronSupervisor.Proofs.Log.Captured
import CronSupervisor.Proofs.Text.Utf8

namespace CronSupervisor

open Calendar Text

/-! ## §1. Lines of bytes -/

namespace Capture

/-- All lines of some bytes. -/
def linesOf (bs : List UInt8) : List (List UInt8) := (cut bs).1 ++ lastLine (cut bs).2

/-- The bytes up to the last line feed. -/
def completed (bs : List UInt8) : List UInt8 := (cut bs).1.flatten

/-- The bytes after the last line feed. -/
def pending (bs : List UInt8) : List UInt8 := (cut bs).2

theorem linesOf_eq (bs : List UInt8) : linesOf bs = cutAfter lineFeed bs := by
  induction bs with
  | nil => rfl
  | cons b bs ih =>
    unfold cutAfter
    rw [← ih]
    unfold linesOf
    by_cases hb : b = lineFeed
    · simp [cut, hb]
    · simp only [cut, if_neg hb]
      -- the byte begins what is left, or else the first line
      rcases cut bs with ⟨_ | ⟨l, ls⟩, rest⟩
      · cases rest <;> rfl
      · rfl

/-- **The texts of the lines are the lines of the text.** -/
theorem map_lineText_linesOf (bs : List UInt8) :
    (linesOf bs).map lineText = (cutAfter '\n' (utf8Lossy bs)).map String.ofList := by
  rw [linesOf_eq, ← map_utf8Lossy_cutAfter, List.map_map]
  rfl

theorem completed_append_pending (bs : List UInt8) : completed bs ++ pending bs = bs := by
  have hlines : (linesOf bs).flatten = bs := by rw [linesOf_eq, flatten_cutAfter]
  unfold linesOf at hlines
  unfold completed pending
  rw [List.flatten_append] at hlines
  refine Eq.trans (congrArg _ ?_) hlines
  cases (cut bs).2 <;> simp [lastLine]

/-- No line feed is held back. -/
theorem lineFeed_not_mem_pending (bs : List UInt8) : lineFeed ∉ pending bs := by
  unfold pending
  induction bs with
  | nil => exact List.not_mem_nil
  | cons b bs ih =>
    by_cases hb : b = lineFeed
    · simpa only [cut, if_pos hb] using ih
    · simp only [cut, if_neg hb]
      cases h : (cut bs).1 with
      | nil => simpa using ⟨Ne.symm hb, ih⟩
      | cons l ls => simpa using ih

/-- Complete lines are lines by themselves. -/
theorem cut_completed (bs : List UInt8) : cut (completed bs) = ((cut bs).1, []) := by
  unfold completed
  induction bs with
  | nil => rfl
  | cons b bs ih =>
    by_cases hb : b = lineFeed
    · simp [cut, hb, ih]
    · simp only [cut, if_neg hb]
      cases h : (cut bs).1 with
      | nil => rfl
      | cons l ls =>
        rw [h] at ih
        simp only [List.flatten_cons, List.cons_append, cut, if_neg hb] at ih ⊢
        rw [ih]

theorem linesOf_completed (bs : List UInt8) : linesOf (completed bs) = (cut bs).1 := by
  unfold linesOf
  rw [cut_completed]
  exact List.append_nil _

/-- What holds nothing back ends with a line feed. -/
theorem getLast_of_pending_eq_nil {bs : List UInt8} (h : pending bs = []) (hne : bs ≠ []) :
    bs.getLast hne = lineFeed := by
  unfold pending at h
  induction bs with
  | nil => exact absurd rfl hne
  | cons b bs ih =>
    cases bs with
    | nil =>
      by_contra hb
      simp [cut, (show b ≠ lineFeed from hb)] at h
    | cons c bs =>
      rw [List.getLast_cons (List.cons_ne_nil c bs)]
      refine ih ?_ (List.cons_ne_nil c bs)
      rw [cut] at h
      dsimp only at h
      split at h
      · exact h
      · split at h
        · cases h
        · exact h

/-- Complete lines end with a line feed. -/
theorem getLast_completed {bs : List UInt8} (hne : completed bs ≠ []) :
    (completed bs).getLast hne = lineFeed :=
  getLast_of_pending_eq_nil (congrArg Prod.snd (cut_completed bs)) hne

/-! ## §2. Pieces make no difference -/

theorem cut_append (xs ys : List UInt8) :
    cut (xs ++ ys) = ((cut xs).1 ++ (feed (cut xs).2 ys).1, (feed (cut xs).2 ys).2) := by
  induction xs with
  | nil =>
    simp only [List.nil_append, cut, feed]
    rcases cut ys with ⟨_ | _, _⟩ <;> simp
  | cons x xs ih =>
    simp only [List.cons_append, cut, ih]
    by_cases hx : x = lineFeed
    · simp [hx]
    · simp only [hx, if_false]
      cases h : (cut xs).1 with
      | nil =>
        simp only [List.nil_append, feed]
        cases (cut ys).1 <;> simp
      | cons l ls => simp

theorem feed_append (held xs ys : List UInt8) : feed held (xs ++ ys)
    = ((feed held xs).1 ++ (feed (feed held xs).2 ys).1, (feed (feed held xs).2 ys).2) := by
  simp only [feed, cut_append]
  cases (cut xs).1 with
  | nil =>
    simp only [List.nil_append]
    cases (cut ys).1 <;> simp
  | cons l ls => simp

theorem feed_nil (bs : List UInt8) : feed [] bs = cut bs := by
  unfold feed
  rcases cut bs with ⟨_ | _, _⟩ <;> rfl

/-- Pieces are read as if they were one. -/
theorem readLines_map_some (held : List UInt8) (pieces : List (List UInt8))
    (rest : List (Option (List UInt8))) : readLines held (pieces.map some ++ rest)
      = (feed held pieces.flatten).1 ++ readLines (feed held pieces.flatten).2 rest := by
  induction pieces generalizing held with
  | nil => simp [feed, cut]
  | cons p ps ih =>
    simp only [List.map_cons, List.cons_append, readLines, take, ih, List.flatten_cons,
      feed_append, List.append_assoc]

/-- **A pipe that comes to its end yields all lines of its bytes.** -/
theorem readLines_closed (pieces : List (List UInt8)) :
    readLines [] (pieces.map some ++ [none]) = linesOf pieces.flatten := by
  rw [readLines_map_some, feed_nil]
  unfold linesOf
  simp [readLines, take]

/-- **A pipe that does not yields the complete ones.** -/
theorem readLines_open (pieces : List (List UInt8)) :
    readLines [] (pieces.map some) = linesOf (completed pieces.flatten) := by
  rw [linesOf_completed, ← feed_nil]
  simpa [readLines] using readLines_map_some [] pieces []

end Capture

/-! ## §3. What comes out of a pipe -/

theorem Pipe.stream_injective {pipe other : Pipe} (h : pipe.stream = other.stream) :
    pipe = other := by
  cases pipe <;> cases other <;> first | rfl | cases h

theorem Pipe.stream_ne_event (pipe : Pipe) : pipe.stream ≠ .event := by
  cases pipe <;> exact nofun

/-- What the reads of a pipe bring: bytes, or its end. -/
def readsOn (pipe : Pipe) (arrivals : List Arrival) : List (Option (List UInt8)) :=
  (arrivals.filter (·.pipe = pipe)).map (·.bytes?)

theorem readsOn_cons (pipe : Pipe) (a : Arrival) (rest : List Arrival) :
    readsOn pipe (a :: rest)
      = if a.pipe = pipe then a.bytes? :: readsOn pipe rest else readsOn pipe rest := by
  unfold readsOn
  rw [List.filter_cons]
  by_cases h : a.pipe = pipe <;> simp [h]

namespace Output

variable {o : Output} {pipe : Pipe} {limit t : Nat}

/-- The pieces of bytes that come out of a pipe. -/
def piecesOn (o : Output) (pipe : Pipe) : List (List UInt8) :=
  (readsOn pipe o.arrivals).filterMap id

/-- All bytes that come out of a pipe. -/
def bytesOn (o : Output) (pipe : Pipe) : List UInt8 := (o.piecesOn pipe).flatten

/-- **A pipe comes to its end when its end arrives.** -/
theorem endOf?_eq_some_iff : o.endOf? pipe = some t ↔ ⟨t, pipe, none⟩ ∈ o.arrivals := by
  unfold endOf?
  rw [Option.map_eq_some_iff]
  constructor
  · rintro ⟨a, ha, rfl⟩
    have hend := List.find?_some ha
    simp only [decide_eq_true_eq] at hend
    obtain ⟨rfl, hbytes⟩ := hend
    rw [← hbytes]
    exact List.mem_of_find?_eq_some ha
  · intro h
    obtain ⟨before, after, hsplit⟩ := List.append_of_mem h
    refine ⟨_, List.find?_eq_some_iff_append.mpr ⟨by simp, before, after, hsplit, ?_⟩, rfl⟩
    intro a ha
    -- the pipe cannot have come to its end before
    have hfinal := o.final
    rw [hsplit, List.pairwise_append] at hfinal
    have hpipe := hfinal.2.2 a ha _ List.mem_cons_self
    simp only [Bool.not_eq_true', decide_eq_false_iff_not]
    rintro ⟨rfl, hbytes⟩
    exact hpipe hbytes rfl

/-- Nothing comes out of a pipe later than its end. -/
theorem time_le_end (hend : o.endOf? pipe = some t) {a : Arrival} (ha : a ∈ o.arrivals)
    (hpipe : a.pipe = pipe) : a.time ≤ t := by
  obtain ⟨before, after, hsplit⟩ := List.append_of_mem (endOf?_eq_some_iff.mp hend)
  have hordered := o.ordered
  have hfinal := o.final
  rw [hsplit, List.pairwise_append] at hordered hfinal
  rw [hsplit, List.mem_append, List.mem_cons] at ha
  obtain ha | rfl | ha := ha
  · exact hordered.2.2 a ha _ List.mem_cons_self
  · exact Nat.le_refl _
  · exact absurd hpipe ((List.pairwise_cons.mp hfinal.2.1).1 a ha rfl)

/-- **After its end nothing comes out of a pipe**: its reads bring bytes, and its end at last. -/
theorem readsOn_eq (o : Output) (pipe : Pipe) : readsOn pipe o.arrivals
    = (o.piecesOn pipe).map some ++ if (o.endOf? pipe).isSome then [none] else [] := by
  have hends : (o.endOf? pipe).isSome ↔ none ∈ readsOn pipe o.arrivals := by
    rw [Option.isSome_iff_exists]
    simp only [endOf?_eq_some_iff, readsOn, List.mem_map, List.mem_filter, decide_eq_true_eq]
    constructor
    · rintro ⟨t, ht⟩
      exact ⟨_, ⟨ht, rfl⟩, rfl⟩
    · rintro ⟨a, ⟨ha, rfl⟩, hbytes⟩
      exact ⟨a.time, hbytes ▸ ha⟩
  have hfinal : (readsOn pipe o.arrivals).Pairwise fun a _ => a ≠ none := by
    refine List.pairwise_map.mpr (List.Pairwise.imp_of_mem ?_ (o.final.filter _))
    intro a b ha hb h hnone
    simp only [List.mem_filter, decide_eq_true_eq] at ha hb
    exact h hnone (hb.2.trans ha.2.symm)
  unfold piecesOn
  simp only [hends]
  generalize readsOn pipe o.arrivals = reads at hfinal ⊢
  induction reads with
  | nil => rfl
  | cons r rs ih =>
    obtain ⟨hhead, htail⟩ := List.pairwise_cons.mp hfinal
    cases r with
    | some piece =>
      rw [show (some piece :: rs).filterMap id = piece :: rs.filterMap id from rfl, List.map_cons,
        List.cons_append, List.cons.injEq]
      simpa using ih htail
    | none =>
      cases rs with
      | nil => rfl
      | cons r' rs => exact absurd rfl (hhead r' List.mem_cons_self)

theorem mem_upTo {a : Arrival} : a ∈ (o.upTo limit).arrivals ↔ a ∈ o.arrivals ∧ a.time ≤ limit := by
  unfold upTo
  rw [List.mem_filter, decide_eq_true_eq]

theorem endOf?_upTo :
    (o.upTo limit).endOf? pipe = some t ↔ o.endOf? pipe = some t ∧ t ≤ limit := by
  rw [endOf?_eq_some_iff, endOf?_eq_some_iff, mem_upTo]

/-- **What is read beyond the end of a pipe is all that comes out of it.** -/
theorem bytesOn_upTo (hend : o.endOf? pipe = some t) (ht : t ≤ limit) :
    (o.upTo limit).bytesOn pipe = o.bytesOn pipe := by
  have hreads : readsOn pipe (o.upTo limit).arrivals = readsOn pipe o.arrivals := by
    unfold readsOn upTo
    rw [List.filter_filter]
    refine congrArg _ (List.filter_congr fun a ha => ?_)
    by_cases hpipe : a.pipe = pipe
    · simp [hpipe, Nat.le_trans (time_le_end hend ha hpipe) ht]
    · simp [hpipe]
  unfold bytesOn piecesOn
  rw [hreads]

end Output

/-! ## §4. Which pipes are read to their end -/

namespace Output

theorem readUntil_le (o : Output) (ended : Nat) : o.readUntil ended ≤ ended + drainLimit := by
  unfold readUntil
  split
  · exact Nat.min_le_left _ _
  · exact Nat.le_refl _

/-- A pipe is waited for if it comes to its end within the limit. -/
theorem le_readUntil {o : Output} {pipe : Pipe} {ended t : Nat} (hend : o.endOf? pipe = some t)
    (ht : t ≤ ended + drainLimit) : t ≤ o.readUntil ended := by
  unfold readUntil
  split
  · next hout herr =>
    cases pipe with
    | out =>
      cases hout.symm.trans hend
      omega
    | err =>
      cases herr.symm.trans hend
      omega
  · exact ht

end Output

namespace ChildRun

/-- A pipe comes to its end while it is still read: it has to within the limit after the end of the
child, if there is one. -/
def ReadToEnd (c : ChildRun) (stop : Option (Nat × ContextError)) (pipe : Pipe) : Prop :=
  ∃ t, (c.written stop).endOf? pipe = some t ∧
    ∀ e, c.endOf? stop = some e → t ≤ e.time + drainLimit

/-- **A pipe is read to its end if that comes in time.** -/
theorem endOf?_heard {c : ChildRun} {stop : Option (Nat × ContextError)} {pipe : Pipe} {t : Nat} :
    (c.heard stop).endOf? pipe = some t ↔ (c.written stop).endOf? pipe = some t ∧
      ∀ e, c.endOf? stop = some e → t ≤ e.time + drainLimit := by
  unfold heard
  cases c.endOf? stop with
  | none => exact (and_iff_left nofun).symm
  | some e =>
    simp only [Option.some.injEq, forall_eq', Output.endOf?_upTo]
    refine and_congr_right fun hend => ⟨fun h => ?_, Output.le_readUntil hend⟩
    exact Nat.le_trans h (Output.readUntil_le _ _)

theorem isSome_endOf?_heard {c : ChildRun} {stop : Option (Nat × ContextError)} {pipe : Pipe} :
    ((c.heard stop).endOf? pipe).isSome ↔ c.ReadToEnd stop pipe := by
  rw [Option.isSome_iff_exists]
  exact exists_congr fun t => endOf?_heard

/-- **Of a pipe that is read to its end everything is read.** -/
theorem bytesOn_heard {c : ChildRun} {stop : Option (Nat × ContextError)} {pipe : Pipe}
    (h : c.ReadToEnd stop pipe) : (c.heard stop).bytesOn pipe = (c.written stop).bytesOn pipe := by
  obtain ⟨t, hend, htime⟩ := h
  unfold heard
  cases he : c.endOf? stop with
  | none => rfl
  | some e => exact Output.bytesOn_upTo hend (Output.le_readUntil hend (htime e he))

end ChildRun

/-! ## §5. Two pipes -/

/-- The lines of a stream, in the order in which they were captured. -/
def linesOn (stream : Stream) (cs : List Captured) : List String :=
  (cs.filter (·.stream = stream)).map (·.line)

section Pipes

variable {stream : Stream}

theorem linesOn_append (cs ds : List Captured) :
    linesOn stream (cs ++ ds) = linesOn stream cs ++ linesOn stream ds := by
  unfold linesOn
  rw [List.filter_append, List.map_append]

/-- Lines that are captured together are all on one stream. -/
theorem linesOn_map (time : Nat) (other : Stream) (ls : List (List UInt8)) :
    linesOn stream (ls.map fun l => ⟨time, other, Capture.lineText l⟩)
      = if other = stream then ls.map Capture.lineText else [] := by
  unfold linesOn
  induction ls with
  | nil => exact (ite_self _).symm
  | cons l ls ih =>
    rw [List.map_cons, List.filter_cons]
    by_cases h : other = stream <;> simp_all

/-- **Each pipe is read as if it were alone**, whatever is held back of both. -/
theorem linesOn_outputLines (pipe : Pipe) (held : Pipe → List UInt8) (arrivals : List Arrival) :
    linesOn pipe.stream (outputLines held arrivals)
      = (Capture.readLines (held pipe) (readsOn pipe arrivals)).map Capture.lineText := by
  induction arrivals generalizing held with
  | nil => rfl
  | cons a rest ih =>
    unfold outputLines
    dsimp only
    rw [linesOn_append, linesOn_map, ih, readsOn_cons]
    -- what arrives continues what is held back of its own pipe
    by_cases h : a.pipe = pipe
    · rw [h, if_pos rfl, if_pos rfl, if_pos rfl, Capture.readLines, List.map_append]
    · rw [if_neg fun h' => h (Pipe.stream_injective h'), if_neg h, if_neg (Ne.symm h),
        List.nil_append]

/-- **The lines of a pipe are those of all its bytes**, or of those up to the last line feed where
it does not come to its end. -/
theorem linesOn_lines (o : Output) (pipe : Pipe) : linesOn pipe.stream o.lines
    = (cutAfter '\n' (utf8Lossy (if (o.endOf? pipe).isSome then o.bytesOn pipe
        else Capture.completed (o.bytesOn pipe)))).map String.ofList := by
  unfold Output.lines
  rw [linesOn_outputLines, Output.readsOn_eq, ← Capture.map_lineText_linesOf]
  by_cases hend : (o.endOf? pipe).isSome
  · rw [if_pos hend, if_pos hend, Capture.readLines_closed]
    rfl
  · rw [if_neg hend, if_neg hend, List.append_nil, Capture.readLines_open]
    rfl

end Pipes

/-! ## §6. A run and its sink -/

/-- **The marks of a run aside, its lines are those of what is read of its output.** -/
theorem linesOn_runProcess {system : System} {name : String} {settings : ProcessSettings}
    {child : ChildRun} (stop : Option (Nat × ContextError)) (pipe : Pipe)
    (hcommand : settings.command ≠ []) (hchild : system name settings = .ok child) :
    linesOn pipe.stream (runProcess system name settings stop).captured
      = linesOn pipe.stream (child.heard stop).lines := by
  have hmark : ∀ time line, linesOn pipe.stream [⟨time, .event, line⟩] = [] := by
    intro time line
    unfold linesOn
    rw [List.filter_cons_of_neg (by simpa using pipe.stream_ne_event.symm)]
    rfl
  have hfirst : ∀ time line cs,
      linesOn pipe.stream (⟨time, .event, line⟩ :: cs) = linesOn pipe.stream cs := by
    intro time line cs
    rw [← List.singleton_append, linesOn_append, hmark, List.nil_append]
  unfold runProcess
  rw [if_neg (mt List.isEmpty_iff.mp hcommand), hchild]
  dsimp only
  cases child.endOf? stop with
  | none => exact hfirst ..
  | some e =>
    dsimp only
    rw [List.cons_append, hfirst, linesOn_append, hmark, List.append_nil]

namespace Sink

/-- What a run does to a sink that begins at an instant. -/
def recording (start : Instant) (cs : List Captured) : List Act :=
  cs.map (fun c => .record (start.addMillis c.time) c.stream c.line) ++ [.flush]

theorem recordRun_eq_performAll (s : Sink) (start : Instant) (cs : List Captured) :
    s.recordRun start cs = s.performAll (recording start cs) := by
  unfold recordRun recording performAll
  rw [List.foldl_append, List.foldl_map]
  rfl

/-- The messages that a sink gets on a stream while it records a run. -/
def messagesOn (s : Sink) (start : Instant) (stream : Stream) (cs : List Captured) : List String :=
  ((captured s.process s.patterns (recording start cs)).filter (·.stream = stream)).map (·.message)

/-- **The messages of a stream are its lines**, without their ends and masked. -/
theorem messagesOn_eq (s : Sink) (start : Instant) (stream : Stream) (cs : List Captured) :
    s.messagesOn start stream cs = (linesOn stream cs).map (stored s.patterns) := by
  unfold messagesOn linesOn
  induction cs with
  | nil => rfl
  | cons c cs ih =>
    show ((_ :: captured s.process s.patterns (recording start cs)).filter _).map _ = _
    rw [List.filter_cons, List.filter_cons]
    by_cases h : c.stream = stream
    · simp only [h, decide_true, if_true, List.map_cons, ih]
    · simp only [h, decide_false, Bool.false_eq_true, if_false, ih]

end Sink

/-! ## §7. From the bytes of a child to the messages of a sink -/

/-- Lines, and the messages that are made of them under some patterns, are those of the text that
bytes stand for: cut after each line feed, and together all of it.  A message is a line without its
end, and masked. -/
structure AreLinesOf (bytes : List UInt8) (patterns : List Pattern) (lines messages : List String) :
    Prop where
  whole : (cutAfter '\n' (utf8Lossy bytes)).flatten = utf8Lossy bytes
  lines_eq : lines = (cutAfter '\n' (utf8Lossy bytes)).map String.ofList
  messages_eq : messages = (cutAfter '\n' (utf8Lossy bytes)).map fun line =>
    String.ofList (Sink.redact patterns (Sink.trimLineEnd line))

theorem areLinesOf_messagesOn {s : Sink} {start : Instant} {stream : Stream} {cs : List Captured}
    {bytes : List UInt8}
    (h : linesOn stream cs = (cutAfter '\n' (utf8Lossy bytes)).map String.ofList) :
    AreLinesOf bytes s.patterns (linesOn stream cs) (s.messagesOn start stream cs) := by
  refine ⟨flatten_cutAfter _ _, h, ?_⟩
  rw [Sink.messagesOn_eq, h, List.map_map]
  refine List.map_congr_left fun line _ => ?_
  unfold Function.comp Sink.stored
  rw [String.toList_ofList]

namespace ProcessRegistry

/-- **Nothing that a child writes is lost or torn** on a pipe that is read to its end, be it by the
child or by what it has started.  However the bytes are divided into pieces, and however the pieces
of the two pipes follow one another, the lines that are captured are those of the text that all
bytes of the pipe together stand for: what comes up to a line feed is a line, and so is what is left
after the last one.  The sink stores them in order, without their ends and masked.

A pipe is read to its end unless it is still open when the limit after the end of the child is over.
Then what has come up to the last line feed is captured in the same way, and what was held back
after it is not. -/
theorem lines_of_execute {r : ProcessRegistry} {system : System} {name : String}
    {p : RegisteredProcess} {s : Sink} {child : ChildRun} (start : Instant) (context : Context)
    (cancelledAt : Option Nat) (hp : r.find? name = some p) (hs : p.sink = some s)
    (hcommand : p.settings.command ≠ []) (hchild : system name p.settings = .ok child) :
    let stop := stopTime? (runContext p.settings context) cancelledAt
    let run := runProcess system name p.settings stop
    ((r.execute system start name context cancelledAt).1.find? name).bind (·.sink)
      = some (s.performAll (Sink.recording start run.captured)) ∧
    ∀ pipe : Pipe,
      let lines := linesOn pipe.stream run.captured
      let messages := s.messagesOn start pipe.stream run.captured
      (child.ReadToEnd stop pipe →
        AreLinesOf ((child.written stop).bytesOn pipe) s.patterns lines messages) ∧
      (¬ child.ReadToEnd stop pipe → ∃ kept held,
        (child.heard stop).bytesOn pipe = kept ++ held ∧
        Capture.lineFeed ∉ held ∧ (∀ h : kept ≠ [], kept.getLast h = Capture.lineFeed) ∧
        AreLinesOf kept s.patterns lines messages) := by
  intro stop run
  refine ⟨?_, fun pipe => ?_⟩
  · unfold execute modifySink
    rw [hp]
    dsimp only
    rw [find?_insert_self, hs, Option.map_some, Sink.recordRun_eq_performAll]
    rfl
  · have hlines : linesOn pipe.stream run.captured = _ :=
      (linesOn_runProcess stop pipe hcommand hchild).trans (linesOn_lines _ pipe)
    refine ⟨fun hread => areLinesOf_messagesOn ?_, fun hopen => ?_⟩
    · rw [hlines, if_pos (ChildRun.isSome_endOf?_heard.mpr hread), ChildRun.bytesOn_heard hread]
    · rw [if_neg (mt ChildRun.isSome_endOf?_heard.mp hopen)] at hlines
      exact ⟨_, _, (Capture.completed_append_pending _).symm, Capture.lineFeed_not_mem_pending _,
        Capture.getLast_completed, areLinesOf_messagesOn hlines⟩

/-- A child of which one piece ends within a character and one within a line end, and one line
within a character.  It leaves a process behind that never lets go of one pipe. -/
def torn : ChildRun where
  ending := some (5, .exited 0)
  output _ :=
    { arrivals := [⟨0, .out, some [99, 97, 102, 0xC3]⟩, ⟨1, .err, some [120, 13]⟩,
        ⟨2, .out, some [0xA9, 10, 0xE2, 10, 122]⟩, ⟨3, .err, some [10, 10, 121]⟩, ⟨5, .out, none⟩,
        ⟨3000, .err, some [10]⟩]
      ordered := by decide
      final := by decide }

/-- A process without patterns, and nothing captured of it yet. -/
def fresh : RegisteredProcess :=
  { settings := { command := ["app"] }, sink := some (Sink.empty "app" 10 []) }

theorem lines_of_torn :
    let s := Sink.empty "app" 10 []
    let run := runProcess (fun _ _ => .ok torn) "app" fresh.settings none
    s.messagesOn ⟨0⟩ .stdout run.captured = ["café", "\ufffd", "z"] ∧
      s.messagesOn ⟨0⟩ .stderr run.captured = ["x", ""] ∧ run.elapsed = 2005 := by
  intro s run
  let r : ProcessRegistry := { captures := true, processes := [("app", fresh)] }
  let system : System := fun _ _ => .ok torn
  have hp : r.find? "app" = some fresh := rfl
  have hchild : system "app" fresh.settings = .ok torn := rfl
  have hread : torn.ReadToEnd none .out := ⟨5, rfl, fun e he => by cases he; decide⟩
  have hlines := lines_of_execute ⟨0⟩ .background none hp rfl (by decide) hchild
  have hout := ((hlines.2 .out).1 hread).messages_eq
  exact ⟨hout.trans (by decide +kernel), by decide +kernel, rfl⟩

end ProcessRegistry

end CronSupervisor
