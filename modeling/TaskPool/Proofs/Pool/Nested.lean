import TaskPool.Proofs.Pool.Diary

/-!
A failure may have others behind it, to any depth, and its text tells all of them.

The text names the workers that could not be created, from the outside, and then what
lies behind all of them. A worker whose task returns such a failure tells this text once,
as a whole, behind its own name.
-/

namespace TaskPool

/-- What lies innermost in a failure, where no other failure stands behind it. -/
inductive Origin where
  /-- A task returned a failure that is known by its message. -/
  | failed (message : String)
  /-- A task broke off with a message. -/
  | brokeOff (message : String)
  /-- The thread of a worker did not come to its end. -/
  | unjoined (worker : String)
  /-- A setting has a value that makes no sense. -/
  | setting (parameter message : String)
  /-- Anything else. -/
  | other (message : String)
  /-- Trouble known by its number. -/
  | coded (code : Int)
  /-- Trouble of which only the sort is known. -/
  | bare (kind : TroubleKind)
  /-- Trouble with words about it. -/
  | told (message : String)

/-- The text of what lies innermost, with its message as it is. -/
def Origin.text : Origin → String
  | .failed message => "Task failed: " ++ message
  | .brokeOff message => "Exception: " ++ message
  | .unjoined worker => "Failed to join worker '" ++ worker ++ "'"
  | .setting parameter message => "Invalid configuration for '" ++ parameter ++ "': " ++ message
  | .other message => message
  | .coded code => codeMessage code ++ " (os error " ++ toString code ++ ")"
  | .bare kind => kind.describe
  | .told message => message

mutual

/-- The workers that could not be created, one after the other from the outside. -/
def Failure.uncreated : Failure → List String
  | .spawn worker trouble => worker :: trouble.uncreated
  | _ => []

/-- The workers that could not be created because of a failure behind the trouble. -/
def Trouble.uncreated : Trouble → List String
  | .caused _ inner => inner.uncreated
  | _ => []

end

mutual

/-- What lies innermost in a failure. -/
def Failure.origin : Failure → Origin
  | .taskFailed _ message => .failed message
  | .taskPanicked _ message => .brokeOff message
  | .spawn _ trouble => trouble.origin
  | .join worker => .unjoined worker
  | .setting parameter message => .setting parameter message
  | .other message => .other message

/-- What lies innermost in trouble. -/
def Trouble.origin : Trouble → Origin
  | .coded code => .coded code
  | .bare kind => .bare kind
  | .told _ message => .told message
  | .caused _ inner => inner.origin

end

/-- What is told about each worker that could not be created, one after the other. -/
def uncreatedText (workers : List String) : String :=
  String.join (workers.map fun worker => "Failed to spawn worker '" ++ worker ++ "': ")

/-- One more worker is told about in front of all others. -/
theorem uncreatedText_cons (worker : String) (workers : List String) :
    uncreatedText (worker :: workers) = "Failed to spawn worker '" ++ worker ++ "': " ++
    uncreatedText workers := by
  rw [uncreatedText, List.map_cons, String.join_cons]
  rfl

mutual

/-- A failure is told from the outside to what lies innermost in it. -/
theorem Failure.display_eq : ∀ failure : Failure,
    failure.display = uncreatedText failure.uncreated ++ failure.origin.text
  | .spawn worker trouble => by
    -- The worker is told about in front of what the trouble tells.
    calc (Failure.spawn worker trouble).display
        = "Failed to spawn worker '" ++ worker ++ "': " ++ trouble.display := rfl
      _ = "Failed to spawn worker '" ++ worker ++ "': " ++
            (uncreatedText trouble.uncreated ++ trouble.origin.text) := by rw [trouble.display_eq]
      _ = uncreatedText (worker :: trouble.uncreated) ++ trouble.origin.text := by
        rw [uncreatedText_cons]
        exact String.append_assoc.symm
  -- Any other failure is what lies innermost in it.
  | .taskFailed _ _ | .taskPanicked _ _ | .join _ | .setting _ _
      | .other _ => (String.empty_append).symm

/-- Trouble is told from the outside to what lies innermost in it. -/
theorem Trouble.display_eq : ∀ trouble : Trouble,
    trouble.display = uncreatedText trouble.uncreated ++ trouble.origin.text
  -- Where a failure stands behind the trouble, only the failure is told.
  | .caused _ inner => inner.display_eq
  | .coded _ | .bare _ | .told _ _ => (String.empty_append).symm

end

/--
The line in which a worker tells that a task came to a bad end, if it did.

Of a task that takes its worker with it nothing is told.
-/
def Outcome.line? (worker : String) : Outcome → Option Line
  | .completed | .unspeakable | .panicked .volatile => none
  | .failed failure =>
    some ⟨.error, "[Worker Pool][" ++ worker ++ "] Task failed: " ++
      (uncreatedText failure.uncreated ++ failure.origin.text)⟩
  | .panicked (.message text) =>
    some ⟨.error, "[Worker Pool][" ++ worker ++ "] Exception: " ++ text⟩
  | .panicked .unreadable =>
    some ⟨.error, "[Worker Pool][" ++ worker ++ "] Exception: Unknown panic"⟩

/-- What a worker tells about a task is the line for its end. -/
theorem Outcome.line_trouble? (worker : String) (outcome : Outcome) :
    ((outcome.trouble? worker).map (.troubled worker)).map Message.line = outcome.line? worker := by
  -- The worker tells its own name, and then a text that is kept as the message of another failure.
  have behind (text : String) : Message.workerHeading worker ++ text = "[Worker Pool][" ++ worker ++
      "] " ++ text := by
    simp [Message.workerHeading, Message.heading]
  have exception (text : String) : Message.workerHeading worker ++ ("Exception: " ++ text) =
      "[Worker Pool][" ++ worker ++ "] Exception: " ++ text :=
    (behind _).trans (by simp [← String.toList_inj])
  cases outcome with
  | completed | unspeakable => rfl
  | failed failure =>
    rw [Outcome.line?, ← failure.display_eq]
    exact congrArg (fun text => some (Line.mk .error text))
      ((behind ("Task failed: " ++ failure.display)).trans (by simp [← String.toList_inj]))
  | panicked payload =>
    cases payload with
    | message text => exact congrArg (fun text => some (Line.mk .error text)) (exception text)
    | unreadable =>
      refine congrArg (fun text => some (Line.mk .error text))
        ((exception "Unknown panic").trans ?_)
      simp [← String.toList_inj]
    | volatile => rfl

/--
The lines of a worker about its tasks are one line for each task that came to a
bad end, in the same order.
-/
theorem lines_troubles (worker : String) (ends : List (Task × Outcome)) :
    (troubles worker ends).map Message.line = ends.filterMap fun entry => entry.2.line? worker := by
  rw [troubles, List.map_filterMap]
  exact List.filterMap_congr fun entry _ => entry.2.line_trouble? worker

namespace World

open Pool (endsOf said)

/--
Failures are told in full, however many of them stand behind each other.

The text of a failure tells about each worker that could not be created, from the outside, and then
has the text of what lies innermost, which it ends with. In every run where the sink keeps errors,
the errors that a worker has told, with the one that it may have yet to tell, are one line for
each of its tasks that came to a bad end, in the order in which they ended; the line has the name
of the worker, and for a task that returned a failure all of the text of that failure. Where the
text of a failure, or the end of what a task panicked with, ends the worker itself, no line is told.
-/
theorem nested_failures_are_told_in_full :
    (∀ failure : Failure,
      failure.display = uncreatedText failure.uncreated ++ failure.origin.text ∧
      failure.origin.text.toList <:+ failure.display.toList) ∧
    ∀ (number : Nat) (settings : Settings) (sink : Sink) (turns : List Turn) (world : World)
      (events : List Pool.Event), sink.filter.admits .error = true →
      (∀ filter, .refilter filter ∈ turns → filter.admits .error = true) →
      runOf step (fresh number settings sink) turns = some (world, events) →
      ∀ index name duty, world.pool.workers[index]? = some ⟨name, duty⟩ →
        ((said index events ++ duty.pending name).filter Message.isError).map Message.line =
          (endsOf index events).filterMap fun entry => entry.2.line? name := by
  constructor
  · intro failure
    refine ⟨failure.display_eq, ?_⟩
    rw [failure.display_eq, String.toList_append]
    exact List.suffix_append ..
  · intro number settings sink turns world events keeps goesOn ran index name duty found
    have diaries := run_errors keeps goesOn ran
    rw [diaries.errors found]
    exact lines_troubles name (endsOf index events)

/-- A failure that two others stand in front of, the outer one because of the inner one. -/
def deepFailure : Failure :=
  .spawn "it's"
    (.caused .other
      (.spawn "W 2" (.caused .wouldBlock (.taskFailed "W 3" "no 'room'\nTask failed: "))))

/-- A pool with one worker is started, and the worker runs a task that returns such a failure. -/
def deepRun : List Turn :=
  .begin 0 (.start 1) :: List.replicate 8 (.caller 0 plain) ++
  [.begin 1 (.submit (briefTask 1 (.failed deepFailure))), .caller 1 plain] ++
  List.replicate 5 (.worker 0 plain)

/-- The worker has told the one line, which has both workers and the message as it is. -/
theorem deep_failure_is_told_in_full :
    ∃ world events duty, runOf step (fresh 0 .default .keepAll) deepRun = some (world, events) ∧
      world.pool.workers[0]? = some ⟨"Worker 0", duty⟩ ∧
      ((said 0 events ++ duty.pending "Worker 0").filter Message.isError).map Message.line =
        [⟨.error, "[Worker Pool][Worker 0] Task failed: Failed to spawn worker 'it's': " ++
          "Failed to spawn worker 'W 2': Task failed: no 'room'\nTask failed: "⟩] := by
  -- The run is evaluated once, up to the lines for the tasks that have ended.
  have run : (runOf step (fresh 0 .default .keepAll) deepRun).map (fun run =>
      (run.1.pool.workers.map (·.name), (endsOf 0 run.2).filterMap fun entry =>
        entry.2.line? "Worker 0")) =
        some (["Worker 0"],
          [⟨.error, "[Worker Pool][Worker 0] Task failed: Failed to spawn worker 'it's': " ++
          "Failed to spawn worker 'W 2': Task failed: no 'room'\nTask failed: "⟩]) := by
    decide +kernel
  simp only [Option.map_eq_some_iff, Prod.exists, Prod.mk.injEq, List.map_eq_singleton_iff] at run
  obtain ⟨world, events, ran, ⟨⟨_, duty⟩, only, rfl⟩, lines⟩ := run
  have found : world.pool.workers[0]? = some ⟨"Worker 0", duty⟩ := by
    rw [only]
    rfl
  have told := nested_failures_are_told_in_full.2 0 .default .keepAll deepRun world events rfl
    (fun filter member => by simp [deepRun] at member) ran 0 "Worker 0" duty found
  exact ⟨world, events, duty, ran, found, told.trans lines⟩

end World

end TaskPool
