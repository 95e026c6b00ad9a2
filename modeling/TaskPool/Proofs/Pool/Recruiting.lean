import TaskPool.Proofs.Pool.Follow
import TaskPool.Proofs.Text.Bytes

/-!
What a start comes to.

A start that has the lock on the life of the pool always goes on. It tells of every thread
that the system does not create and goes on with the next one, but two things it meets break it off:
a name that no thread can have, and a roster that is too large. The settings of a pool
may well have such a name.
-/

namespace TaskPool

namespace Pool

/-- A character is written with a null byte just if it is the null character. -/
theorem zero_mem_utf8EncodeChar (c : Char) : 0 ∈ String.utf8EncodeChar c ↔ c = '\x00' := by
  have null := ascii_mem_utf8EncodeChar (c := c) (e := '\x00') (by decide)
  exact null

/-- The system takes the name of a thread just if it has no null character. -/
theorem unusableName?_eq_none (name : String) :
    unusableName? name = none ↔ '\x00' ∉ name.toList := by
  -- The bytes of a name are those of its characters, and a null byte among
  -- them is a null character.
  unfold unusableName?
  rw [toUTF8_toList, bytes]
  simp only [Option.map_eq_none_iff, List.findIdx?_eq_none_iff, List.mem_flatMap]
  constructor
  · intro usable null
    have none := usable 0 ⟨_, null, (zero_mem_utf8EncodeChar _).mpr rfl⟩
    simp at none
  · rintro usable byte ⟨c, member, part⟩
    rw [decide_eq_false_iff_not]
    rintro rfl
    exact usable ((zero_mem_utf8EncodeChar c).mp part ▸ member)

/-- Whether the name of a worker is of use does not depend on its number. -/
theorem unusableName?_workerName (settings : Settings) (number : Nat) :
    unusableName? (settings.workerName number) = none ↔ '\x00' ∉ settings.nameStem.toList := by
  rw [unusableName?_eq_none, Settings.workerName, String.toList_append, List.mem_append, not_or]
  -- A number is written with digits.
  have digits : '\x00' ∉ (toString number).toList := by
    intro member
    have digit :=
      Nat.isDigit_of_mem_toDigits (b := 10) (n := number) (by decide) (by decide)
        (by simpa using member)
    cases digit
  exact and_iff_left digits

/--
Whether a start with a number of workers meets neither a name that no thread can
have nor too large a roster.
-/
def Feasible (settings : Settings) (count : Nat) : Prop :=
  count ≤ rosterLimit ∧ (0 < count → '\x00' ∉ settings.nameStem.toList)

/--
The names of the workers that there are after the system was asked for the threads
of some, by their numbers.
-/
def hired (settings : Settings) (asked : List (Nat × Option Trouble)) : List String :=
  asked.filterMap fun (number, refusal) =>
    if refusal.isNone then some (settings.workerName number) else none

/-- What is to be told about the workers whose threads the system refused. -/
def losses (settings : Settings) (asked : List (Nat × Option Trouble)) : List Message :=
  asked.filterMap fun (number, refusal) =>
    refusal.map fun trouble => .lost (.spawn (settings.workerName number) trouble)

/-- How many steps a start has taken at most when it comes to a phase. -/
def Starting.reach (count : Nat) : Starting → Nat
  | .locking => 0
  | .checking => 1
  | .refusing | .claiming => 2
  | .announcing => 3
  | .reserving => 4
  -- For each worker there is a step that asks for it, and there may be one that tells of its loss.
  | .creating number => 2 * number + 5
  | .lamenting number _ => 2 * number + 6
  | .unlocking => 2 * count + 6

/--
How many steps a start has taken at most when it has come to a phase of its
call, or to the end of it.
-/
def Call.reach (count : Nat) : Call → Nat
  | .start _ phase => phase.reach count
  | _ => 2 * count + 7

/--
The thread that a call asks the system for, by the number of the worker,
and why the system refuses it, if so.
-/
def Call.attempt? (refusal : Option Trouble) : Call → Option (Nat × Option Trouble)
  | .start count (.creating number) => if number < count then some (number, refusal) else none
  | _ => none

variable {pool : Pool} {caller count : Nat} {refusal : Option Trouble}

/-- Each step of a start leads it further. -/
theorem Starting.Move.reach_lt {phase : Starting} {next : Pool} {later : Call} {events : List Event}
    (move : phase.Move pool caller count refusal next later events)
    (low : phase.reach count ≤ 2 * count + 6) :
    phase.reach count < later.reach count := by
  -- A start that tells something goes on or breaks off, and the end of the
  -- call is behind all phases.
  cases move with
  | refuse tells | announce tells | lament tells =>
    cases tells <;> simp only [reach, Call.reach] at low ⊢ <;> omega
  | _ =>
    simp only [reach, Call.reach] at low ⊢
    omega

/-- A start can go on unless somebody else holds the lock that it asks for. -/
theorem Starting.step_isSome {phase : Starting} (life : phase = .locking → pool.lifecycle = none)
    (roster : phase = .reserving → pool.rosterLock = none) :
    (phase.step pool caller count refusal).isSome = true := by
  -- The two phases that take a lock wait for it; all others go one way or the other.
  cases phase with
  | locking => simp [step, life rfl]
  | reserving =>
    simp only [step, roster rfl, if_true]
    split <;> rfl
  | claiming | creating =>
    simp only [step]
    split <;> rfl
  | _ => rfl

end Pool

namespace World

open Pool (Call Starting Feasible hired losses SameLife)

namespace Moment

/-- The thread that the system is asked for at a moment, if it is asked for one. -/
def attempt? (moment : Moment) : Option (Nat × Option Trouble) :=
  match moment.turn with
  | .caller _ chance => moment.call?.bind (Call.attempt? chance.refusal)
  | _ => none

/-- Whether what is kept at a moment is what a caller tells at it. -/
def Tells (caller : Nat) (moment : Moment) : Prop :=
  moment.events = moment.message?.elim [] (moment.before.world.pool.kept (.caller caller))

end Moment

/-- The threads that the system is asked for at some moments. -/
def attempts (own : List Moment) : List (Nat × Option Trouble) := own.filterMap Moment.attempt?

/-- The threads that the system is asked for with one more moment. -/
theorem attempts_concat (own : List Moment) (moment : Moment) :
    attempts (own ++ [moment]) = attempts own ++ moment.attempt?.toList := by
  rw [attempts, List.filterMap_append]
  cases asked : moment.attempt? <;> simp [asked, attempts]

/--
Whether a pool that runs has on its roster just the workers whose threads
were created at some moments.
-/
structure Staffed (settings : Settings) (pool : Pool) (own : List Moment) : Prop where
  running : pool.running = true
  open_ : pool.stopped = false
  names : pool.staffNames = hired settings (attempts own)
  roster : pool.roster = pool.staffNames.zipIdx

/-- What a start has come to at its end, unless it has broken off. -/
inductive Settles (settings : Settings) (count : Nat) (pool : Pool) (own : List Moment) : Prop where
  /-- The pool was stopped before; the start has told so, and has changed nothing. -/
  | refused (stopped : pool.stopped = true) (idle : ∀ moment ∈ own, moment.IsIdle)
      (told : messages own = [.restartRefused])
  /-- The pool was started before; the start has told nothing, and has changed nothing. -/
  | needless (running : pool.running = true) (idle : ∀ moment ∈ own, moment.IsIdle)
      (told : messages own = [])
  /--
  The system was asked for all threads, one after the other, and of those that it
  refused the start has told.
  -/
  | staffed (feasible : Feasible settings count)
      (asked : (attempts own).map (·.1) = List.range count)
      (told : messages own = .starting count :: losses settings (attempts own))
        (staff : Staffed settings pool own)

/-- What a start has come to that has broken off: the pool runs, but has no worker. -/
structure Thwarted (settings : Settings) (count : Nat) (text : String) (pool : Pool)
    (own : List Moment) : Prop where
  reason : Pool.rosterLimit < count ∧ text = Pool.rosterOverflowText ∨
    0 < count ∧ Pool.unusableName? (settings.workerName 0) = some text
  running : pool.running = true
  workers : pool.workers = []
  roster : pool.roster = []
  told : messages own = [.starting count]

/-- What a start has done when it has come to a phase. -/
def Accounts (settings : Settings) (count : Nat) (pool : Pool) (own : List Moment) : Starting → Prop
  | .locking | .checking | .claiming => messages own = [] ∧ attempts own = [] ∧
      ∀ moment ∈ own, moment.IsIdle
  | .refusing => messages own = [] ∧ (∀ moment ∈ own, moment.IsIdle) ∧ pool.stopped = true
  | .announcing => messages own = [] ∧ attempts own = [] ∧ Staffed settings pool own
  | .reserving => messages own = [.starting count] ∧ attempts own = [] ∧ Staffed settings pool own
  | .creating number =>
    number ≤ count ∧ count ≤ Pool.rosterLimit ∧ (0 < number → '\x00' ∉ settings.nameStem.toList) ∧
      (attempts own).map (·.1) = List.range number ∧
      messages own = .starting count :: losses settings (attempts own) ∧ Staffed settings pool own
  | .lamenting number failure =>
    number < count ∧ count ≤ Pool.rosterLimit ∧ '\x00' ∉ settings.nameStem.toList ∧
      (attempts own).map (·.1) = List.range (number + 1) ∧
      messages own ++ [.lost failure] = .starting count :: losses settings (attempts own) ∧
      Staffed settings pool own
  | .unlocking => Settles settings count pool own

/-- What a start has done that has come to a phase, or to its end. -/
def Comes (settings : Settings) (count : Nat) (pool : Pool) (own : List Moment) : Call → Prop
  | .start many phase => many = count ∧ Accounts settings count pool own phase
  | .returned .nothing => Settles settings count pool own
  | .broken text => Thwarted settings count text pool own
  | _ => False

/-- What is true of a start and of what its caller has done, wherever it has come to. -/
def StartTale (settings : Settings) (count : Nat) (pool : Pool) (own : List Moment) : Call → Prop
  | .start many phase =>
    many = count ∧ own.length ≤ phase.reach count ∧ Accounts settings count pool own phase
  -- What the pool has become is seen at the last moment; from then on others may change it.
  | .returned .nothing =>
    own.length ≤ 2 * count + 7 ∧ ∃ rest final, own = rest ++ [final] ∧
      Settles settings count final.next.pool own
  | .broken text =>
    own.length ≤ 2 * count + 7 ∧
      ∃ rest final, own = rest ++ [final] ∧ Thwarted settings count text final.next.pool own
  | _ => False

variable {watched : Watched} {queue after : Queue Thread Task} {pool next : Pool}
  {settings : Settings} {caller count : Nat} {chance : Pool.Chance} {call later : Call}
  {events : List Pool.Event} {own : List Moment}

/--
A pool stays staffed where nothing changes about its life, and the system is asked for no thread.
-/
theorem Staffed.keep {more : List Moment} (staff : Staffed settings pool own)
    (asked : attempts more = attempts own) (running : next.running = pool.running)
    (stopped : next.stopped = pool.stopped) (names : next.staffNames = pool.staffNames)
    (roster : next.roster = pool.roster) : Staffed settings next more where
  running := running.trans staff.running
  open_ := stopped.trans staff.open_
  names := by rw [names, asked, staff.names]
  roster := by rw [roster, names, staff.roster]

/-- Who has a place on the roster is no matter of who else goes on. -/
theorem Staffed.frame (staff : Staffed settings pool own) (same : SameLife pool next) :
    Staffed settings next own :=
  staff.keep rfl same.running same.stopped same.names same.roster

/-- Where the system was asked for no thread, there are no workers. -/
theorem Staffed.nobody (staff : Staffed settings pool own) (unasked : attempts own = []) :
    pool.workers = [] ∧ pool.roster = [] := by
  have nobody : pool.staffNames = [] := by rw [staff.names, unasked]; rfl
  refine ⟨List.map_eq_nil_iff.mp nobody, ?_⟩
  rw [staff.roster, nobody]
  rfl

/-- What a start has done is not undone while it holds the lock on the life of the pool. -/
theorem Accounts.frame {phase : Starting} (accounts : Accounts settings count pool own phase)
    (same : SameLife pool next) : Accounts settings count next own phase := by
  -- What a start has told and asked for is past, and what it says of the pool is about its life.
  cases phase with
  | locking | checking | claiming => exact accounts
  | refusing => exact ⟨accounts.1, accounts.2.1, same.stopped.trans accounts.2.2⟩
  | announcing | reserving => exact ⟨accounts.1, accounts.2.1, accounts.2.2.frame same⟩
  | creating number =>
    obtain ⟨within, few, usable, asked, told, staff⟩ := accounts
    exact ⟨within, few, usable, asked, told, staff.frame same⟩
  | lamenting number failure =>
    obtain ⟨within, few, usable, asked, told, staff⟩ := accounts
    exact ⟨within, few, usable, asked, told, staff.frame same⟩
  | unlocking =>
    rcases accounts with
      ⟨stopped, idle, told⟩ | ⟨running, idle, told⟩ | ⟨feasible, asked, told, staff⟩
    · exact .refused (same.stopped.trans stopped) idle told
    · exact .needless (same.running.trans running) idle told
    · exact .staffed feasible asked told (staff.frame same)

/-- A turn of somebody else changes nothing about a start. -/
theorem StartTale.others {world next : World} {turn : Turn} (orderly : world.pool.Orderly)
    (quiet : world.pool.Quiet) (found : world.pool.callers[caller]? = some call)
    (other : turn.isBy caller = false) (stepped : world.step turn = some (next, events))
    (tale : StartTale settings count world.pool own call) :
    StartTale settings count next.pool own call := by
  cases call with
  | start many phase =>
    obtain ⟨same, length, accounts⟩ := tale
    refine ⟨same, length, ?_⟩
    by_cases locking : phase = .locking
    · -- Before it has the lock it has done nothing.
      subst locking
      exact accounts
    · have staged : (Call.start many phase).stage?.isSome = true := by
        cases phase with
        | locking => exact absurd rfl locking
        | _ => rfl
      exact accounts.frame (sameLife_of_others orderly quiet found staged other stepped)
  | returned answer =>
    cases answer with
    | nothing => exact tale
    | _ => exact tale.elim
  | broken text => exact tale
  | _ => exact tale.elim

/-- The system is asked for at most one thread more, and is told of, where the start goes on. -/
theorem losses_concat (asked : List (Nat × Option Trouble)) (number : Nat)
    (refusal : Option Trouble) :
    losses settings (asked ++ [(number, refusal)]) =
      losses settings asked ++
        (refusal.map fun trouble =>
          .lost (.spawn (settings.workerName number) trouble)).toList := by
  rw [losses, List.filterMap_append]
  cases refusal <;> rfl

/-- A thread that was created is that of one more worker. -/
theorem hired_concat (asked : List (Nat × Option Trouble)) (number : Nat)
    (refusal : Option Trouble) :
    hired settings (asked ++ [(number, refusal)]) =
      hired settings asked ++ if refusal.isNone then [settings.workerName number] else [] := by
  rw [hired, List.filterMap_append]
  cases refusal <;> rfl

/-- What one more step of a call adds to what its caller has told and asked for. -/
theorem account_concat (own : List Moment) {moment : Moment}
    (turn : moment.turn = .caller caller chance) (acts : moment.call? = some call) :
    messages (own ++ [moment]) = messages own ++ call.message?.toList ∧
      attempts (own ++ [moment]) = attempts own ++ (call.attempt? chance.refusal).toList := by
  rw [messages_concat, attempts_concat]
  simp [Moment.message?, Moment.attempt?, turn, acts]

/-- An idle moment after idle moments. -/
theorem idle_concat {moment : Moment} (idle : ∀ earlier ∈ own, earlier.IsIdle)
    (still : moment.IsIdle) :
    ∀ each ∈ own ++ [moment], each.IsIdle :=
  List.forall_mem_append.mpr ⟨idle, List.forall_mem_singleton.mpr still⟩

/-- What was settled is settled still when the lock on the life of the pool is given up. -/
theorem Settles.unlock {moment : Moment} (settles : Settles settings count pool own)
    (turn : moment.turn = .caller caller chance)
    (acts : moment.call? = some (.start count .unlocking)) (still : moment.IsIdle) :
    Settles settings count (setCaller { pool with lifecycle := none } caller (.returned .nothing))
      (own ++ [moment]) := by
  -- The last step tells nothing and asks for nothing, and the lock is no part of what was settled.
  obtain ⟨told, asked⟩ := account_concat own turn acts
  have silent : messages (own ++ [moment]) = messages own := told.trans (List.append_nil _)
  have unasked : attempts (own ++ [moment]) = attempts own := asked.trans (List.append_nil _)
  rcases settles with
    ⟨stopped, idle, telling⟩ | ⟨running, idle, telling⟩ | ⟨feasible, numbers, telling, staff⟩
  · exact .refused stopped (idle_concat idle still) (silent.trans telling)
  · exact .needless running (idle_concat idle still) (silent.trans telling)
  · refine .staffed feasible ?_ ?_ (staff.keep unasked rfl rfl rfl rfl)
    · rw [unasked, numbers]
    · rw [silent, unasked, telling]

/--
A start that breaks off before the system was asked for a thread leaves the pool
running and without workers.
-/
theorem Staffed.thwarted {moment : Moment} {text : String} (staff : Staffed settings pool own)
    (unasked : attempts own = [])
    (becomes : moment.next.pool = setCaller (pool.release caller) caller (.broken text))
    (reason : Pool.rosterLimit < count ∧ text = Pool.rosterOverflowText ∨ 0 < count ∧
      Pool.unusableName? (settings.workerName 0) = some text)
    (told : messages (own ++ [moment]) = [.starting count]) :
    Thwarted settings count text moment.next.pool (own ++ [moment]) := by
  obtain ⟨workers, roster⟩ := staff.nobody unasked
  rw [becomes]
  exact ⟨reason, staff.running, workers, roster, told⟩

/-- A worker with a new name that is hired has its place behind all others, also on the roster. -/
theorem Staffed.hire {number : Nat} {more : List Moment} (staff : Staffed pool.settings pool own)
    (named : pool.NamedBelow number) (asked : attempts more = attempts own ++ [(number, none)]) :
    Staffed pool.settings (setCaller (pool.employ (pool.settings.workerName number)) caller
      later) more where
  running := staff.running
  open_ := staff.open_
  names := by
    rw [asked, hired_concat, ← staff.names]
    simp [Pool.staffNames, Pool.employ, setCaller]
  roster := Pool.RollsAll.employ (fun _ => staff.roster) named staff.open_

/-- All names of workers are of use or none is, so one that is not is met at the first worker. -/
theorem first_of_unusable {number : Nat} {text : String}
    (usable : 0 < number → '\x00' ∉ settings.nameStem.toList)
    (unusable : Pool.unusableName? (settings.workerName number) = some text) : number = 0 := by
  by_contra later
  have none :=
    (Pool.unusableName?_workerName settings number).mpr (usable (Nat.pos_of_ne_zero later))
  rw [none] at unusable
  cases unusable

/-- What holds of a run whose sink fails nobody. -/
structure Proper (settings : Settings) (world : World) : Prop where
  settings : world.pool.settings = settings
  orderly : world.pool.Orderly
  quiet : world.pool.Quiet
  rolls : world.pool.RollsAll

/-- A start takes boundedly many steps to any phase. -/
theorem Accounts.reach_le {phase : Starting} (accounts : Accounts settings count pool own phase) :
    phase.reach count ≤ 2 * count + 6 := by
  cases phase with
  | creating number | lamenting number =>
    have within := accounts.1
    simp only [Starting.reach]
    omega
  | _ => simp [Starting.reach]

/-- Each step of a start does what brings it to its next phase, or to its end. -/
theorem step_comes {phase : Starting} {moment : Moment} (proper : Proper settings watched.world)
    (found : watched.world.pool.callers[caller]? = some (.start count phase))
    (move : phase.Move watched.world.pool caller count chance.refusal next later events)
    (now : moment = callerMoment watched.world.queue watched.world.queue watched.world.pool next
      watched.begun caller chance later events)
    (accounts : Accounts settings count watched.world.pool own phase) :
    Comes settings count (setCaller next caller later) (own ++ [moment]) later := by
  obtain ⟨rfl, orderly, quiet, rolls⟩ := proper
  have turn : moment.turn = .caller caller chance := by rw [now]; rfl
  have acts : moment.call? = some (.start count phase) := by rw [now]; exact found
  have becomes : moment.next.pool = setCaller next caller later := by rw [now]; rfl
  obtain ⟨told, asked⟩ := account_concat own turn acts
  have telling {said : List Message} (before : messages own = said) :
      messages (own ++ [moment]) = said ++ (Call.start count phase).message?.toList := by
        rw [told, before]
  have asking {tried : List (Nat × Option Trouble)} (before : attempts own = tried) :
      attempts (own ++ [moment]) =
      tried ++ ((Call.start count phase).attempt? chance.refusal).toList := by
    rw [asked, before]
  have idling (idle : ∀ each ∈ own, each.IsIdle)
      (same : ∃ lifecycle, next = { watched.world.pool with lifecycle := lifecycle }) :
      ∀ each ∈ own ++ [moment], each.IsIdle := by
    obtain ⟨lifecycle, rfl⟩ := same
    exact idle_concat idle (by rw [now]; exact ⟨_, _, rfl⟩)
  have holds (stage : Pool.Stage) (reached : (Call.start count phase).stage? = some stage) :=
    (orderly.held caller _ stage found reached).2
  -- Up to its claim a start does nothing; from there on it keeps account of the
  -- threads that it asks for.
  cases move with
  | lock | pass =>
    obtain ⟨silent, unasked, idle⟩ := accounts
    exact ⟨rfl, telling silent, asking unasked, idling idle ⟨_, rfl⟩⟩
  | bar stopped =>
    obtain ⟨silent, -, idle⟩ := accounts
    exact ⟨rfl, telling silent, idling idle ⟨_, rfl⟩, stopped⟩
  | refuse tells =>
    obtain ⟨rfl, rfl, rfl⟩ := tells.unfailed (quiet _)
    obtain ⟨silent, idle, stopped⟩ := accounts
    exact ⟨rfl, .refused stopped (idling idle ⟨_, rfl⟩) (telling silent)⟩
  | skip running =>
    obtain ⟨silent, -, idle⟩ := accounts
    exact ⟨rfl, .needless running (idling idle ⟨_, rfl⟩) (telling silent)⟩
  | claim idle =>
    obtain ⟨silent, unasked, -⟩ := accounts
    obtain ⟨resting, open_⟩ := holds _ rfl
    -- A pool that was never started has nobody on its roster, and so it has no workers.
    have nobody : watched.world.pool.staffNames = [] := by
      simpa using (rolls open_).symm.trans (resting.empty open_ idle)
    have nothing : attempts (own ++ [moment]) = [] := asking unasked
    refine ⟨rfl, telling silent, nothing, rfl, open_, ?_, rolls open_⟩
    rw [nothing]
    exact nobody
  | announce tells =>
    obtain ⟨rfl, rfl, rfl⟩ := tells.unfailed (quiet _)
    obtain ⟨silent, unasked, staff⟩ := accounts
    have nothing : attempts (own ++ [moment]) = [] := asking unasked
    exact ⟨rfl, telling silent, nothing, staff.keep (nothing.trans unasked.symm) rfl rfl rfl rfl⟩
  | overflow free many =>
    -- The pool runs by now, and the start breaks off before it has asked for anything.
    obtain ⟨starting, unasked, staff⟩ := accounts
    exact becomes ▸ staff.thwarted unasked becomes (.inl ⟨many, rfl⟩) (telling starting)
  | reserve free few =>
    -- The account of threads begins, with none.
    obtain ⟨starting, unasked, staff⟩ := accounts
    have nothing : attempts (own ++ [moment]) = [] := asking unasked
    refine ⟨rfl, Nat.zero_le _, few, fun some => absurd some (Nat.lt_irrefl 0), ?_, ?_,
      staff.keep (nothing.trans unasked.symm) rfl rfl rfl rfl⟩
    · rw [nothing]
      rfl
    · rw [nothing]
      exact telling starting
  | misname more unusable =>
    -- This must be the first name, so there are no workers either.
    obtain ⟨-, few, usable, numbers, losing, staff⟩ := accounts
    obtain rfl := first_of_unusable usable unusable
    have nothing : attempts own = [] := List.map_eq_nil_iff.mp numbers
    rw [nothing] at losing
    exact becomes ▸ staff.thwarted nothing becomes (.inr ⟨more, unusable⟩) (telling losing)
  | @miss number trouble more usable refused =>
    -- The system refuses the thread, and that is still to be told.
    obtain ⟨within, few, -, numbers, losing, staff⟩ := accounts
    have tried : attempts (own ++ [moment]) = attempts own ++ [(number, some trouble)] := by
      rw [asked, Call.attempt?, if_pos more, refused]
      rfl
    refine ⟨rfl, more, few, (Pool.unusableName?_workerName _ number).mp usable, ?_, ?_,
      staff.running, staff.open_, ?_, staff.roster⟩
    · rw [tried, List.map_append, numbers, List.range_succ]
      rfl
    · rw [telling losing, tried, losses_concat]
      exact congrArg (· ++ _) (List.append_nil _)
    · rw [tried, hired_concat]
      exact staff.names.trans (List.append_nil _).symm
  | @hire number more usable granted =>
    -- The system creates the thread, and the worker is on the roster.
    obtain ⟨within, few, -, numbers, losing, staff⟩ := accounts
    obtain ⟨-, -, -, named⟩ := holds _ rfl
    have tried : attempts (own ++ [moment]) = attempts own ++ [(number, none)] := by
      rw [asked, Call.attempt?, if_pos more, granted]
      rfl
    refine ⟨rfl, more, few, fun _ => (Pool.unusableName?_workerName _ number).mp usable, ?_, ?_,
      staff.hire named tried⟩
    · rw [tried, List.map_append, numbers, List.range_succ]
      rfl
    · rw [telling losing, tried, losses_concat]
      rfl
  | @finish number done =>
    -- All threads have been asked for, and all that was refused has been told.
    obtain ⟨within, few, usable, numbers, losing, staff⟩ := accounts
    obtain rfl : number = count := Nat.le_antisymm within done
    have still : attempts (own ++ [moment]) = attempts own := by
      rw [asked, Call.attempt?, if_neg (Nat.lt_irrefl _)]
      exact List.append_nil _
    refine ⟨rfl, .staffed ⟨few, usable⟩ ?_ ?_ ?_⟩
    · rw [still, numbers]
    · rw [still, telling losing]
      exact List.append_nil _
    · exact staff.keep still rfl rfl rfl rfl
  | lament tells =>
    -- The loss was on the account already; now it is told as well.
    obtain ⟨rfl, rfl, rfl⟩ := tells.unfailed (quiet _)
    obtain ⟨within, few, usable, numbers, losing, staff⟩ := accounts
    have still : attempts (own ++ [moment]) = attempts own := asked.trans (List.append_nil _)
    refine ⟨rfl, within, few, fun _ => usable, ?_, ?_, staff.keep still rfl rfl rfl rfl⟩
    · rw [still, numbers]
    · rw [still, ← losing]
      exact told
  | unlock => exact accounts.unlock turn acts (by rw [now]; exact ⟨_, _, rfl⟩)

/-- Each step of a start goes with what is told of it, and is one of those that it takes at most. -/
theorem step_tale {phase : Starting} {moment : Moment} (proper : Proper settings watched.world)
    (found : watched.world.pool.callers[caller]? = some (.start count phase))
    (move : phase.Move watched.world.pool caller count chance.refusal next later events)
    (now : moment = callerMoment watched.world.queue watched.world.queue watched.world.pool next
      watched.begun caller chance later events)
    (length : own.length ≤ phase.reach count)
    (accounts : Accounts settings count watched.world.pool own phase) :
    StartTale settings count (setCaller next caller later) (own ++ [moment]) later := by
  have comes := step_comes proper found move now accounts
  have longer : (own ++ [moment]).length ≤ later.reach count :=
    List.length_append.trans_le
      (Nat.succ_le_of_lt (Nat.lt_of_le_of_lt length (move.reach_lt accounts.reach_le)))
  have becomes : moment.next.pool = setCaller next caller later := by rw [now]; rfl
  -- What is said of the end of a start is said of the pool as it is then.
  cases later with
  | start many phase => exact ⟨comes.1, longer, comes.2⟩
  | returned answer =>
    cases answer with
    | nothing => exact ⟨longer, own, moment, rfl, becomes ▸ comes⟩
    | _ => exact comes.elim
  | broken text => exact ⟨longer, own, moment, rfl, becomes ▸ comes⟩
  | _ => exact comes.elim

variable {number : Nat} {sink : Sink}

/-- Where the sink fails nobody, everything that can be reached is proper. -/
theorem Reached.proper {watched : Watched}
    (quiet : ∀ message : Message, sink.failsAt message.line = false)
    (reached : Reached number settings sink watched) : Proper settings watched.world := by
  obtain ⟨turns, moments, ran⟩ := reached
  have went := run_of_recorded ran
  obtain ⟨-, orderly, silent⟩ := run_orderly quiet went
  exact ⟨run_settings went, orderly, silent, run_rolls quiet went⟩

/-- Whatever a caller does that has begun a start goes with what is told of the start. -/
theorem StartTale.goes (proper : Proper settings watched.world)
    (found : watched.world.pool.callers[caller]? = some call)
    (moved : call.step watched.world.queue watched.world.pool caller chance =
      some (queue, pool, later, events))
    (tale : StartTale settings count watched.world.pool own call)
    (tells : ∀ moment ∈ own, moment.Tells caller) :
    let moment :=
      callerMoment watched.world.queue queue watched.world.pool pool watched.begun
        caller chance later
      events
    StartTale settings count (setCaller pool caller later) (own ++ [moment]) later ∧
      ∀ each ∈ own ++ [moment], each.Tells caller := by
  intro moment
  cases call with
  | start many phase =>
    obtain ⟨rfl, length, accounts⟩ := tale
    -- What a start tells goes with its phase.
    cases Pool.Call.step_eq_some_iff.mp moved with
    | start move =>
      refine ⟨step_tale proper found move rfl length accounts,
        List.forall_mem_append.mpr ⟨tells, List.forall_mem_singleton.mpr ?_⟩⟩
      have acts : moment.call? = some (.start many phase) := found
      rw [Moment.Tells, Moment.message?, acts]
      exact move.events_eq
  | returned | broken => cases moved
  | _ => exact tale.elim

/-- A start that was thwarted was not feasible. -/
theorem Thwarted.not_feasible {text : String} (thwarted : Thwarted settings count text pool own) :
    ¬ Feasible settings count := by
  -- Each of the two reasons is against one half of what is feasible.
  rintro ⟨few, usable⟩
  rcases thwarted.reason with ⟨many, -⟩ | ⟨some, unusable⟩
  · exact absurd few (Nat.not_le_of_lt many)
  · rw [(Pool.unusableName?_workerName settings 0).mpr (usable some)] at unusable
    cases unusable

/--
A start in a world that can be reached can go on, unless it still waits for the
lock on the life of the pool.
-/
theorem Reached.start_goes_on {phase : Starting} (reached : Reached number settings sink watched)
    (found : watched.world.pool.callers[caller]? = some (.start count phase)) :
    (∀ chance, (watched.world.step (.caller caller chance)).isSome = true) ∨
      phase = .locking ∧ watched.world.pool.lifecycle ≠ none := by
  -- A start waits only for locks, and the one on the roster is free for whoever has the other.
  obtain ⟨turns, moments, ran⟩ := reached
  have went := run_of_recorded ran
  by_cases waits : phase = .locking ∧ watched.world.pool.lifecycle ≠ none
  · exact .inr waits
  · refine .inl fun chance => ?_
    have free : phase = .reserving → watched.world.pool.rosterLock = none := by
      rintro rfl
      by_contra taken
      -- Whoever creates workers has the lock on the life of the pool, which is with this start.
      obtain ⟨owner, owns⟩ := Option.ne_none_iff_exists'.mp taken
      obtain ⟨call, known, creating⟩ := (run_owned went).roster owner owns
      have mine := run_held went found rfl
      obtain rfl : caller = owner :=
        Option.some.inj
          (mine.symm.trans (run_held went known (Pool.Call.staged_of_isCreating creating)))
      rw [found] at known
      cases known
      cases creating
    have onward : (phase.step watched.world.pool caller count chance.refusal).isSome = true :=
      Starting.step_isSome (fun locking => by_contra fun taken => waits ⟨locking, taken⟩) free
    simpa [step, found, Call.step] using onward

/--
Any number of threads use a new pool and its queue in any order, its sink fails nobody,
and one of them starts it.

The start can always go on, unless somebody else holds the lock on the life of the pool,
and comes to its end in bounded many steps; what is kept of them is what it tells. It returns
and has changed nothing where the pool was stopped, and has told so, or was started before.
Otherwise it returns just if it is feasible, and then the pool runs, and there is one worker
on the roster for each thread that the system created and one message for each that it refused;
and just if it is not, it breaks off with the pool running and without workers.
-/
theorem start_staffs_or_breaks_off {caller count : Nat} {early late : List Turn}
    {before after : Watched} {past moments : List Moment}
    (quiet : ∀ message : Message, sink.failsAt message.line = false)
    (ran : runOf recorded (.fresh number settings sink) (early ++ [.begin caller (.start count)]) =
      some (before, past))
    (alone : ∀ turn ∈ late, turn.begins caller = false)
    (went : runOf recorded before late = some (after, moments)) :
    (ofCaller caller moments).length ≤ 2 * count + 7 ∧
    (∀ moment ∈ ofCaller caller moments, moment.Tells caller) ∧
    ((∃ phase, after.world.pool.callers[caller]? = some (.start count phase) ∧
        ((∀ chance, (after.world.step (.caller caller chance)).isSome = true) ∨
          phase = .locking ∧ after.world.pool.lifecycle ≠ none)) ∨
      (after.world.pool.callers[caller]? = some (.returned .nothing) ∧
        ∃ rest final, ofCaller caller moments = rest ++ [final] ∧
          Settles settings count final.next.pool (ofCaller caller moments)) ∨
      ∃ text, after.world.pool.callers[caller]? = some (.broken text) ∧ ¬ Feasible settings count ∧
        ∃ rest final, ofCaller caller moments = rest ++ [final] ∧
          Thwarted settings count text final.next.pool (ofCaller caller moments)) := by
  have start : Reached number settings sink before := ⟨_, _, ran⟩
  obtain ⟨earlier, _, _, -, began, -⟩ := runOf_concat.mp ran
  obtain ⟨⟨_, _⟩, stepped, same⟩ := Option.map_eq_some_iff.mp began
  cases same
  have found := found_of_step_begin stepped
  -- The tale is followed from the turn at which the start was begun, over all turns of others.
  obtain ⟨reached, call, there, tale, tells⟩ := follow (Reached number settings sink)
    (fun pool own call => StartTale settings count pool own call ∧
      ∀ moment ∈ own, moment.Tells caller)
    (fun _ _ _ _ reached stepped => reached.further stepped)
    (fun _ _ _ _ _ _ reached found other stepped ⟨tale, tells⟩ =>
      have proper := reached.proper quiet
      ⟨tale.others proper.orderly proper.quiet found other stepped, tells⟩)
    (fun _ _ _ _ _ _ _ _ reached found moved ⟨tale, tells⟩ =>
      tale.goes (reached.proper quiet) found moved tells)
    start found ⟨⟨rfl, Nat.le_refl _, rfl, rfl, List.forall_mem_nil _⟩,
      List.forall_mem_nil _⟩ alone went
  -- The tale of a call that goes on, of one that has returned, and of one that has broken off.
  cases call with
  | start many phase =>
    obtain ⟨rfl, length, accounts⟩ := tale
    exact ⟨by have := accounts.reach_le; omega, tells,
      .inl ⟨phase, there, reached.start_goes_on there⟩⟩
  | returned answer =>
    cases answer with
    | nothing => exact ⟨tale.1, tells, .inr (.inl ⟨there, tale.2⟩)⟩
    | _ => exact tale.elim
  | broken text =>
    obtain ⟨length, rest, final, same, thwarted⟩ := tale
    exact ⟨length, tells,
      .inr (.inr ⟨text, there, thwarted.not_feasible, rest, final, same, thwarted⟩)⟩
  | _ => exact tale.elim

/-- The turns of a start of two workers, where the system has no thread for the second one. -/
def scarceStart : List Turn :=
  List.replicate 6 (.caller 0 hasty) ++ .caller 0 { hasty with refusal := some (.coded 11) } ::
    List.replicate 3 (.caller 0 hasty)

/-- The start returns, with one worker and one message about the other. -/
theorem scarce_start_returns :
    ∃ before past after moments,
      runOf recorded (.fresh 0 .default .keepAll) [.begin 0 (.start 2)] = some (before, past) ∧
      runOf recorded before scarceStart = some (after, moments) ∧
      (messages (ofCaller 0 moments)).map Message.severity = [.info, .error] ∧
      after.world.pool.roster = [("Worker 0", 0)] ∧
      ∃ rest final, ofCaller 0 moments = rest ++ [final] ∧
        Settles .default 2 final.next.pool (ofCaller 0 moments) := by
  have run : ((runOf recorded (.fresh 0 .default .keepAll) [.begin 0 (.start 2)]).bind fun run =>
      (runOf recorded run.1 scarceStart).map fun went =>
        ((went.1.world.pool.callers[0]?).any hasReturned,
          (messages (ofCaller 0 went.2)).map Message.severity, went.1.world.pool.roster)) =
      some (true, [.info, .error], [("Worker 0", 0)]) := by
    decide +kernel
  simp only [Option.bind_eq_some_iff, Option.map_eq_some_iff, Prod.exists, Prod.mk.injEq,
    Option.any_eq_true] at run
  obtain ⟨before, past, began, after, moments, went, ⟨call, found, returned⟩, told, roster⟩ := run
  refine ⟨before, past, after, moments, began, went, told, roster, ?_⟩
  have first : runOf recorded (.fresh 0 .default .keepAll) ([] ++ [.begin 0 (.start 2)]) =
    some (before, past) := began
  -- It has returned, which leaves the second of the three ends.
  obtain ⟨-, -, ⟨phase, there, -⟩ | ⟨-, settled⟩ | ⟨text, there, -⟩⟩ :=
    start_staffs_or_breaks_off (fun _ => rfl) first (by decide) went
  · rw [found] at there
    cases there
    cases returned
  · exact settled
  · rw [found] at there
    cases there
    cases returned

/-- Settings with a name that no thread can have. -/
def oddlyNamed : Settings := { Settings.default with nameStem := "a\x00b" }

/-- What a call has broken off with, if it has. -/
def brokenWith? : Call → Option String
  | .broken text => some text
  | _ => none

/--
The check of settings lets such a name pass, and a start that meets it breaks off
and leaves the pool running.
-/
theorem oddly_named_start_breaks_off :
    oddlyNamed.validate = .ok oddlyNamed ∧
    ∃ world events,
      runOf step (fresh 0 oddlyNamed .keepAll)
        (.begin 0 (.start 1) :: List.replicate 6 (.caller 0 hasty)) = some (world, events) ∧
      world.pool.callers[0]? = some (.broken
        "thread name may not contain interior null bytes: NulError(1, [97, 0, 98, 48])") ∧
      world.pool.running = true ∧ world.pool.overview.workers = 0 := by
  refine ⟨by simp [Settings.validate, oddlyNamed, Settings.default, Span.toNanos], ?_⟩
  -- The name has a null in it, which the settings allow and a thread does not.
  have run :
    ((runOf step (fresh 0 oddlyNamed .keepAll)
        (.begin 0 (.start 1) :: List.replicate 6 (.caller 0 hasty))).map fun run =>
        ((run.1.pool.callers[0]?).bind brokenWith?, run.1.pool.running,
          run.1.pool.overview.workers)) =
      some (some "thread name may not contain interior null bytes: NulError(1, [97, 0, 98, 48])",
        true, 0) := by
    decide +kernel
  simp only [Option.map_eq_some_iff, Option.bind_eq_some_iff, Prod.exists, Prod.mk.injEq] at run
  obtain ⟨world, events, ran, ⟨call, found, broken⟩, running, nobody⟩ := run
  refine ⟨world, events, ran, ?_, running, nobody⟩
  unfold brokenWith? at broken
  split at broken
  · rw [found, Option.some.inj broken]
  · cases broken

end World

end TaskPool
