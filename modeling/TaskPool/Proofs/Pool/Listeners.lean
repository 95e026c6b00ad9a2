import TaskPool.Proofs.Pool.Follow
import TaskPool.Proofs.Pool.Recast

/-!
Nobody minds who listens: what the sink keeps of the lines changes nothing
but the lines that are kept.

Two runs are compared turn by turn, where at each turn the one sink may have
another filter than the other.
-/

namespace TaskPool

/-- The widest filter lets everything through. -/
@[simp] theorem Filter.trace_admits (severity : Severity) :
    (Filter.upTo .trace).admits severity = true := by
  cases severity <;> rfl

namespace Pool

/-- The lines that were kept. -/
def lines (events : List Event) : List Line :=
  events.filterMap fun
    | .logged _ message => some message.line
    | _ => none

/-- What a filter leaves of some events has the lines that it admits, in the same order. -/
theorem lines_hearing (filter : Filter) (events : List Event) :
    lines (hearing filter events) = (lines events).filter fun line =>
      filter.admits line.severity := by
  -- The induction goes along the events, of which only lines are tested.
  induction events with
  | nil => rfl
  | cons event rest ih =>
    cases event with
    | logged seat message =>
      -- The severity of a line is that of its message.
      cases passes : filter.admits message.severity <;>
        simpa [hearing, lines, Message.line, passes] using ih
    | _ => simpa [hearing, lines] using ih

/-- A filter that lets everything through leaves all events as they are. -/
theorem hearing_trace (events : List Event) : hearing (.upTo .trace) events = events := by
  refine List.filter_eq_self.mpr fun event _ => ?_
  cases event with
  | logged seat message => exact Filter.trace_admits message.severity
  | _ => rfl

end Pool

namespace World

open Pool (hearing lines)

variable {world next : World} {events : List Pool.Event} {number : Nat} {settings : Settings}

/-- The world where the sink has another filter. -/
def withFilter (world : World) (filter : Filter) : World :=
  { world with pool := { world.pool with sink := { world.pool.sink with filter := filter } } }

namespace Turn

/-- Two turns that differ at most in what the sink is to keep from now on. -/
inductive Alike : Turn → Turn → Prop where
  | same (turn : Turn) : Alike turn turn
  | refilter (filter other : Filter) : Alike (.refilter filter) (.refilter other)

/-- Whether a turn leaves it to the sink to keep everything. -/
def hushesNobody : Turn → Bool
  | .refilter filter => filter = .upTo .trace
  | _ => true

end Turn

/-- A turn at which nothing is told comes out the same way, whatever the filter. -/
theorem step_withFilter_of_silent {turn : Turn} (filter : Filter)
    (silent : (∃ caller request, turn = .begin caller request) ∨ (∃ index, turn = .openGate index) ∨
      ∃ index broken, turn = .resume index broken)
    (stepped : world.step turn = some (next, events)) :
    hearing filter events = events ∧
    (world.withFilter filter).step turn = some (next.withFilter filter, events) := by
  obtain ⟨caller, request, rfl⟩ | ⟨index, rfl⟩ | ⟨index, broken, rfl⟩ := silent
  · -- A call begins where there is a place for it, which the sink has nothing to do with.
    obtain ⟨rfl, -⟩ := step_begin stepped
    refine ⟨rfl, ?_⟩
    simp only [step] at stepped
    split at stepped <;> rename_i new
    · cases stepped
      exact if_pos new
    · refine (if_neg new).trans ?_
      split at stepped <;> rename_i found
      · obtain ⟨ended, same⟩ := Option.ite_none_right_eq_some.mp stepped
        cases same
        simp [withFilter, found, ended, setCaller]
      · cases stepped
  · obtain ⟨rfl, name, task, left, found, rfl⟩ := step_openGate stepped
    refine ⟨rfl, ?_⟩
    simp [step, withFilter, found, setWorker]
  · -- The end of a task is the only thing that happens here.
    simp only [step] at stepped
    split at stepped
    · rename_i name duty found
      obtain ⟨⟨after, new⟩, moved, same⟩ := Option.map_eq_some_iff.mp stepped
      cases same
      refine ⟨?_, by simp [step, withFilter, found, moved, setWorker]⟩
      unfold resumed at moved
      split at moved
      · cases broken <;> cases moved <;> rfl
      · cases moved
    · cases stepped

/--
A turn comes out the same way whatever the sink keeps, and whatever it is to keep from now on.

What happens is what the filter leaves of `full`, which does not depend on the filter.
-/
theorem step_withFilter {turn : Turn} (stepped : world.step turn = some (next, events)) :
    ∃ full, events = hearing world.pool.sink.filter full ∧
      ∀ filter other, turn.Alike other → ∃ onward,
        (world.withFilter filter).step other =
        some (next.withFilter onward, hearing filter full) := by
  -- Only the turns that change the filter have a partner other than themselves.
  have single {full : List Pool.Event} (unheard : ∀ filter, turn ≠ .refilter filter)
      (same : ∀ filter, (world.withFilter filter).step turn =
        some (next.withFilter filter, hearing filter full))
      (filter : Filter) (other : Turn) (alike : turn.Alike other) :
      ∃ onward, (world.withFilter filter).step other =
        some (next.withFilter onward, hearing filter full) := by
    cases alike with
    | same => exact ⟨filter, same filter⟩
    | refilter old new => exact absurd rfl (unheard old)
  cases turn with
  | begin caller request =>
    have silent (filter : Filter) :=
      step_withFilter_of_silent filter (.inl ⟨caller, request, rfl⟩) stepped
    refine ⟨events, (silent _).1.symm, single nofun fun filter => ?_⟩
    rw [(silent filter).1]
    exact (silent filter).2
  | caller index chance =>
    obtain ⟨call, queue, pool, later, found, moved, rfl⟩ := step_caller.mp stepped
    obtain ⟨full, new, heard, grown, moves⟩ := (Pool.Call.step_eq_some_iff.mp moved).recasts
    have visit := Pool.Call.step_visit moved
    have tally := (Pool.Call.step_submission moved).tally
    refine ⟨full, heard, single nofun fun filter => step_caller.mpr ⟨call, queue, _, later, found,
      Pool.Call.step_eq_some_iff.mpr
        (moves filter world.pool.workers world.pool.callers world.pool.tally (.refl _)), ?_⟩⟩
    -- The pool is recast with its own workers, callers and counters, so only the filter is another.
    rw [← grown, ← visit.callers, ← tally]
    rfl
  | worker index chance =>
    obtain ⟨name, duty, queue, pool, later, found, moved, rfl⟩ := step_worker.mp stepped
    by_cases looks : duty = .fetching
    · -- What a worker meets at the queue does not depend on the sink.
      subst looks
      obtain ⟨awake, met, looked, rfl, rfl, rfl⟩ := Pool.work_fetching_iff.mp moved
      refine ⟨_, (Pool.hearing_queue ..).symm, single nofun fun filter => step_worker.mpr
        ⟨name, .fetching, queue, (world.withFilter filter).pool, _, found, ?_, rfl⟩⟩
      rw [Pool.hearing_queue]
      exact Pool.work_fetching_iff.mpr ⟨awake, met, looked, rfl, rfl, rfl⟩
    · obtain ⟨rfl, full, ticks, heard, rfl, works⟩ := Pool.work_recasts looks moved
      exact ⟨full, heard, single nofun fun filter =>
        step_worker.mpr ⟨name, duty, world.queue, _, later, found,
        works world.queue filter world.pool.workers world.pool.callers world.pool.tally, rfl⟩⟩
  | openGate index =>
    have silent (filter : Filter) :=
      step_withFilter_of_silent filter (.inr (.inl ⟨index, rfl⟩)) stepped
    refine ⟨events, (silent _).1.symm, single nofun fun filter => ?_⟩
    rw [(silent filter).1]
    exact (silent filter).2
  | resume index broken =>
    have silent (filter : Filter) :=
      step_withFilter_of_silent filter (.inr (.inr ⟨index, broken, rfl⟩)) stepped
    refine ⟨events, (silent _).1.symm, single nofun fun filter => ?_⟩
    rw [(silent filter).1]
    exact (silent filter).2
  | refilter old =>
    cases stepped
    refine ⟨[], rfl, fun filter other alike => ?_⟩
    -- Either sink keeps from now on what it is told to keep.
    cases alike with
    | same => exact ⟨old, rfl⟩
    | refilter old new => exact ⟨new, rfl⟩

namespace Moment

/-- The filter in force at a moment. -/
def filter (moment : Moment) : Filter := moment.before.world.pool.sink.filter

/-- Two moments that differ at most in what the sinks keep. -/
structure Alike (moment other : Moment) : Prop where
  -- The two turns may tell the sinks different things.
  turn : moment.turn.Alike other.turn
  begun : other.before.begun = moment.before.begun
  before : other.before.world = moment.before.world.withFilter other.filter
  next : other.next = moment.next.withFilter other.next.pool.sink.filter
  /-- Either sink keeps, of all that happens and is told, what its filter lets through. -/
  events : ∃ full, moment.events = hearing moment.filter full ∧
    other.events = hearing other.filter full

/-- Where the one sink keeps everything, the other one keeps what its filter leaves of that. -/
theorem Alike.lines_eq {moment other : Moment} (alike : moment.Alike other)
    (keeps : moment.filter = .upTo .trace) :
    lines other.events = (lines moment.events).filter fun line =>
      other.filter.admits line.severity := by
  obtain ⟨full, own, others⟩ := alike.events
  rw [keeps, Pool.hearing_trace] at own
  rw [others, own, Pool.lines_hearing]

end Moment

/-- Two worlds that differ at most in the filters of their sinks, where as many calls were begun. -/
structure Watched.Alike (watched other : Watched) : Prop where
  world : other.world = watched.world.withFilter other.world.pool.sink.filter
  begun : other.begun = watched.begun

/-- A sink that keeps everything goes on doing so where it is not told otherwise. -/
theorem keepsAll_of_step {turn : Turn} (keeps : world.pool.sink.filter = .upTo .trace)
    (unhushed : turn.hushesNobody = true) (stepped : world.step turn = some (next, events)) :
    next.pool.sink.filter = .upTo .trace := by
  rw [(step_frame stepped).sink]
  cases turn with
  | refilter filter => exact of_decide_eq_true unhushed
  | _ => exact keeps

/--
In a run from a pool whose sink keeps everything, and is never told otherwise,
it keeps everything throughout.
-/
theorem filter_of_recorded {start last : Watched} {turns : List Turn} {moments : List Moment}
    (ran : runOf recorded start turns = some (last, moments))
    (keeps : start.world.pool.sink.filter = .upTo .trace)
    (hushed : ∀ turn ∈ turns, turn.hushesNobody = true) :
    ∀ moment ∈ moments, moment.filter = .upTo .trace := by
  -- The induction takes the first turn off, after which the sink has the same filter.
  induction turns generalizing start moments with
  | nil =>
    obtain ⟨-, rfl⟩ : start = last ∧ [] = moments := by simpa [runOf] using ran
    exact List.forall_mem_nil _
  | cons turn turns ih =>
    obtain ⟨next, new, more, stepped, went, rfl⟩ := runOf_cons.mp ran
    obtain ⟨⟨world, events⟩, moved, same⟩ := Option.map_eq_some_iff.mp stepped
    cases same
    have kept := keepsAll_of_step keeps (hushed turn List.mem_cons_self) moved
    intro moment member
    rcases List.mem_append.mp member with here | later
    · rw [List.mem_singleton.mp here]
      exact keeps
    · exact ih went kept (fun other known =>
        hushed other (List.mem_cons_of_mem _ known)) moment later

/--
Two moments of two runs that differ at most in what the sinks keep lead to worlds
that do not differ otherwise.
-/
theorem recorded_alike {watched other next : Watched} {moments : List Moment} {turn partner : Turn}
    (same : watched.Alike other) (alike : turn.Alike partner)
    (stepped : recorded watched turn = some (next, moments)) :
    ∃ onward partners, recorded other partner = some (onward, partners) ∧ next.Alike onward ∧
      List.Forall₂ Moment.Alike moments partners := by
  obtain ⟨⟨world, events⟩, moved, made⟩ := Option.map_eq_some_iff.mp stepped
  cases made
  obtain ⟨full, heard, goes⟩ := step_withFilter moved
  obtain ⟨filter, went⟩ := goes other.world.pool.sink.filter partner alike
  rw [← same.world] at went
  -- As many calls are begun, since a turn that begins one is its own partner.
  have begun : other.count partner = watched.count turn := by
    cases alike with
    | same => cases turn <;> simp [Watched.count, same.begun]
    | refilter => exact same.begun
  refine ⟨⟨world.withFilter filter, other.count partner⟩,
    [⟨other, partner, world.withFilter filter, hearing other.world.pool.sink.filter full⟩], ?_, ?_,
    ?_⟩
  · rw [recorded, went]
    rfl
  · exact { world := rfl, begun := begun }
  · exact .cons { turn := alike, begun := same.begun, before := same.world, next := rfl,
                  events := ⟨full, heard, rfl⟩ } .nil

/--
What somebody writes who is handed every line of one run under the filter in force in another run.
-/
def written {β : Type} (write : Filter → Line → List β) (moments others : List Moment) : List β :=
  -- The first run has the lines, and the second one the filter that is in force when they are told.
  (moments.zip others).flatMap fun pair => (lines pair.1.events).flatMap (write pair.2.filter)

/--
Who writes one thing for each line that the filter in force admits writes it for the lines
that the other sink keeps.

The sink of the first run keeps everything, so that no line is missing from what is handed on.
-/
theorem written_eq {β : Type} {write : Filter → Line → List β} {form : Line → β}
    {moments others : List Moment}
    (writes : ∀ filter line,
      write filter line = if filter.admits line.severity then [form line] else [])
    (keeps : ∀ moment ∈ moments, moment.filter = .upTo .trace)
    (alike : List.Forall₂ Moment.Alike moments others) :
    written write moments others = (others.flatMap fun other => lines other.events).map form := by
  -- The lines of one moment are handed on one after the other, and only those that
  -- are admitted leave anything.
  have single (filter : Filter) (told : List Line) :
      told.flatMap (write filter) =
      (told.filter fun line => filter.admits line.severity).map form := by
    induction told with
    | nil => rfl
    | cons line rest ih =>
      rw [List.flatMap_cons, ih, writes]
      cases passes : filter.admits line.severity <;> simp [passes]
  induction alike with
  | nil => rfl
  | @cons moment other moments others pair _ ih =>
    have rest := ih fun known member => keeps known (List.mem_cons_of_mem _ member)
    have here : (lines moment.events).flatMap (write other.filter) =
        (lines other.events).map form := by
      rw [single, pair.lines_eq (keeps moment List.mem_cons_self)]
    rw [List.flatMap_cons, List.map_append, ← rest, ← here]
    rfl

/--
The same turns are taken at two new pools whose sinks keep what two filters admit,
and where these are changed on the way, they may be changed differently.

Then both runs go through the same worlds but for the filter in force, and the same happens at each
turn but for the lines that are kept: of all that is told, each sink keeps what its filter lets
through. If the first sink keeps everything throughout, the other one keeps just those of its lines
that are as grave as the filter in force asks for, in the same order. A console that is handed
each line of the first one under the filter in force writes of what the other one keeps the time,
the severity and the text as it is; the logger of the process gets records with the severity,
the name of the pools and the text as it is.
-/
theorem logging_is_fire_and_forget {filter : Filter} (other : Filter) {failsOn : Option String}
    {turns partners : List Turn} {last : Watched} {moments : List Moment}
    (alike : List.Forall₂ Turn.Alike turns partners)
    (ran : runOf recorded (.fresh number settings ⟨filter, failsOn⟩) turns = some (last, moments)) :
    ∃ onward others, runOf recorded (.fresh number settings ⟨other, failsOn⟩) partners =
      some (onward, others) ∧
      last.Alike onward ∧ List.Forall₂ Moment.Alike moments others ∧
      (filter = .upTo .trace → (∀ turn ∈ turns, turn.hushesNobody = true) →
        written (fun filter line => if filter.admits line.severity then [line]
          else []) moments others =
            (others.flatMap fun other => lines other.events) ∧
          (∀ stamp, written (fun filter => Console.log ⟨filter⟩ stamp) moments others =
            (others.flatMap fun other => lines other.events).map fun line =>
              "[" ++ stamp ++ "] [" ++ line.severity.label ++ "] " ++ line.text) ∧
          written (fun filter => Facade.log ⟨filter⟩) moments others =
            (others.flatMap fun other => lines other.events).map fun line =>
              ⟨line.severity, "rust_worker_pool", line.text⟩) := by
  -- Both runs are taken side by side, and with each pair of turns there
  -- is one more pair of moments.
  have base : (Watched.fresh number settings ⟨filter, failsOn⟩).Alike
    (.fresh number settings ⟨other, failsOn⟩) ∧
      List.Forall₂ Moment.Alike [] [] := ⟨{ world := rfl, begun := rfl }, .nil⟩
  obtain ⟨onward, others, went, same, paired⟩ := run_together Turn.Alike
    (fun watched moments other others => watched.Alike other ∧
      List.Forall₂ Moment.Alike moments others)
    base
    (by
      intro watched moments other others turn partner next new held partners stepped
      obtain ⟨same, paired⟩ := held
      obtain ⟨onward, more, went, still, pairs⟩ := recorded_alike same partners stepped
      exact ⟨onward, more, went, still, List.rel_append paired pairs⟩)
    alike ran
  rw [List.nil_append, List.nil_append] at paired
  refine ⟨onward, others, went, same, paired, fun keeps hushed => ?_⟩
  have open_ := filter_of_recorded ran keeps hushed
  refine ⟨?_, fun stamp => written_eq (fun _ _ => rfl) open_ paired,
    written_eq (fun _ _ => rfl) open_ paired⟩
  -- To keep a line is to write the line itself.
  have kept : written (fun filter line => if filter.admits line.severity then [line]
    else []) moments others =
      (others.flatMap fun other => lines other.events).map id :=
        written_eq (fun _ _ => rfl) open_ paired
  exact kept.trans (List.map_id _)

/--
A worker begins, somebody tells the sink what to keep from now on,
and the worker runs a task that fails.
-/
def overheard (filter : Filter) : List Turn :=
  (.begin 0 (.start 1) :: List.replicate 8 (.caller 0 plain) ++ [.worker 0 plain]) ++
    .refilter filter ::
    ([.begin 1 (.submit (briefTask 1 (.failed (.other "no")))), .caller 1 plain, .caller 1 plain,
      .caller 1 plain] ++
      List.replicate 4 (.worker 0 plain))

/--
Of three lines, the logger of the process gets the first, and then only
what is as grave as an error.
-/
theorem logger_overhears :
    ∃ last moments onward others,
      runOf recorded (.fresh 0 .default .keepAll) (overheard (.upTo .trace)) =
      some (last, moments) ∧
      runOf recorded (.fresh 0 .default ⟨.upTo .info, none⟩) (overheard (.upTo .error)) =
      some (onward, others) ∧
      (moments.flatMap fun moment => lines moment.events).map (·.severity) =
        [.info, .debug, .error] ∧
      (written (fun filter => Facade.log ⟨filter⟩) moments others).map (·.severity) =
        [.info, .error] := by
  -- The two runs differ at one turn only.
  have alike (filter other : Filter) : List.Forall₂ Turn.Alike (overheard filter)
      (overheard other) :=
    List.rel_append (List.forall₂_same.mpr fun turn _ => .same turn)
      (.cons (.refilter filter other) (List.forall₂_same.mpr fun turn _ => .same turn))
  have run :
      ((runOf recorded (.fresh 0 .default .keepAll) (overheard (.upTo .trace))).map fun run =>
      (run.2.flatMap fun moment => lines moment.events).map (·.severity)) =
        some [.info, .debug, .error] := by
    decide +kernel
  have other :
    ((runOf recorded (.fresh 0 .default ⟨.upTo .info, none⟩) (overheard (.upTo .error))).map
      fun run => (run.2.flatMap fun other => lines other.events).map (·.severity)) =
      some [.info, .error] := by
    decide +kernel
  simp only [Option.map_eq_some_iff, Prod.exists] at run other
  obtain ⟨last, moments, ran, told⟩ := run
  obtain ⟨onward, others, went, heard⟩ := other
  obtain ⟨onward', others', went', -, -, kept⟩ :=
    logging_is_fire_and_forget (.upTo .info) (alike (.upTo .trace) (.upTo .error)) ran
  -- The second run is the one that the theorem speaks of.
  obtain ⟨rfl, rfl⟩ : onward' = onward ∧ others' = others := by
    rw [went] at went'
    cases went'
    exact ⟨rfl, rfl⟩
  refine ⟨last, moments, onward', others', ran, went, told, ?_⟩
  rw [(kept rfl (by decide)).2.2, List.map_map]
  exact heard

end World

end TaskPool
