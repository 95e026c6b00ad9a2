import TaskPool.Proofs.Pool.Muster
import TaskPool.Proofs.Pool.Recruiting

/-!
What the callers of a pool tell, in the order in which they tell it.

Only a start or a stop has something to tell, and it has the lock on the life of the pool meanwhile.
So what has been told by now can be read off the call that has the lock, or off the flags
of the pool if nobody has it.
-/

namespace TaskPool

/-- Whether a message tells a start that it comes too late. -/
def Message.isRefusal : Message → Bool
  | .restartRefused => true
  | _ => false

namespace Pool

/-- Whether a call is a start that is about to be told that it comes too late. -/
def Call.isRefusing : Call → Bool
  | .start _ .refusing => true
  | _ => false

/-- Whether a call is a start that looks whether the pool was stopped, and sees that it was. -/
def Call.isBarred (pool : Pool) : Call → Bool
  | .start _ .checking => pool.stopped
  | _ => false

variable {queue after : Queue Thread Task} {pool next : Pool} {events : List Event} {caller : Nat}
  {chance : Chance} {call later : Call}

/--
A start that finds the pool stopped is about to be told so, and once it was
told so it is not told again.
-/
theorem Call.Move.refusals (move : call.Move queue pool caller chance after next later events) :
    later.isRefusing.toNat + call.message?.toList.countP Message.isRefusal =
      call.isRefusing.toNat + (call.isBarred pool).toNat := by
  -- Apart from the two steps around the warning, no call comes near it.
  have quiet {message : Message} {onward : Call}
      (tells : Telling pool caller message onward next later events)
      (other : onward.isRefusing = false) : later.isRefusing = false := by
    cases tells with
    | told => exact other
    | failed => rfl
  cases move with
  | @queue own onward => cases onward <;> rfl
  | start move =>
    cases move with
    | bar stopped => simp [isRefusing, isBarred, message?, stopped]
    | pass open_ => simp [isRefusing, isBarred, message?, open_]
    | refuse tells | announce tells | lament tells =>
      rw [quiet tells rfl]
      rfl
    | _ => rfl
  | stop move =>
    cases move with
    | announce tells | warn tells | part tells | lament tells =>
      rw [quiet tells rfl]
      rfl
    | _ => rfl
  | _ => rfl

/--
Where no worker has broken off, a stop that has waited for one goes on to wait for the others.
-/
theorem joining_of_join {left : List Nat} {worker : Nat} {phase : Stopping}
    (sound : ∀ worker ∈ pool.workers, worker.duty ≠ .gone true)
    (joined : pool.join left worker = some phase) :
    ∃ others, phase = .joining others := by
  unfold join at joined
  split at joined
  · split at joined
    · rename_i name broken found
      -- A stop laments a worker that has broken off, and goes on where it has not.
      cases broken with
      | true => exact absurd rfl (sound _ (List.mem_of_getElem? found))
      | false => exact ⟨_, (Option.some.inj joined).symm⟩
    · cases joined
  · cases joined

end Pool

namespace World

open Pool (Call Feasible Mild SameLife Starting Stopping hired joining_of_join losses)

/-- Whether the start that took effect was one of a number of workers. -/
def Claimed (count : Nat) (moments : List Moment) : Prop :=
  ∃ moment ∈ moments, moment.claims = true ∧ moment.call? = some (.start count .claiming)

/--
What a start has told that took effect, where the system was asked for some threads
and there are some workers.
-/
inductive Opening (settings : Settings) (count : Nat) (asked : List (Nat × Option Trouble))
    (names : List String) :
    List Message → Prop where
  /--
  The system was asked for all threads, one after the other, and of those that it
  refused the start has told.
  -/
  | staffed (feasible : Feasible settings count) (numbers : asked.map (·.1) = List.range count)
    (staff : names = hired settings asked) :
    Opening settings count asked names (.starting count :: losses settings asked)
  /-- The start broke off before it had asked for a thread. -/
  | thwarted (infeasible : ¬ Feasible settings count) (nobody : names = []) :
    Opening settings count asked names [.starting count]

/-- What callers have told of a pool: that a start took effect, and then something else. -/
structure Recounts (settings : Settings) (pool : Pool) (moments : List Moment)
    (closing : List Message → Prop) :
    Prop where
  -- The opening is that of the start, with its losses; what comes behind it is up to a stop.
  tells : ∃ count opening words, Claimed count moments ∧
    Opening settings count (attempts moments) pool.staffNames opening ∧
    messages moments = opening ++ words ∧ closing words

/-- What a stop has told when it has waited for the queue to become empty, perhaps in vain. -/
def Hurried (words : List Message) : Prop :=
  words = [.stopRequested] ∨ words = [.stopRequested, .drainTimeout]

/-- What a stop has told when it has closed the queue. -/
def Parted (words : List Message) : Prop :=
  ∃ waiting, Hurried waiting ∧ words = waiting ++ [.drained]

/--
What is told of a pool that was stopped: what the stop told, and then only that
some starts came too late.
-/
def Closed (words : List Message) : Prop :=
  ∃ parting refusals, Parted parting ∧ words = parting ++ List.replicate refusals .restartRefused

/-- One more start that comes too late is told so behind all others. -/
theorem Closed.refuse {words : List Message} (closed : Closed words) :
    Closed (words ++ [.restartRefused]) := by
  obtain ⟨parting, refusals, parted, rfl⟩ := closed
  exact ⟨parting, refusals + 1, parted, by rw [List.replicate_succ', List.append_assoc]⟩

/-- What callers have told of a pool that nobody is starting or stopping. -/
inductive Rests (settings : Settings) (pool : Pool) (moments : List Moment) : Prop where
  -- No start has taken effect, so nobody had anything to tell.
  | unstarted (idle : pool.running = false) (open_ : pool.stopped = false)
      (nobody : pool.staffNames = [])
    (silent : messages moments = []) (unasked : attempts moments = [])
  -- The start is over, and no stop has begun.
  | started (running : pool.running = true) (open_ : pool.stopped = false)
    (recounts : Recounts settings pool moments (· = []))
  -- The stop is over, and a start that comes now is told that it is too late.
  | stopped (idle : pool.running = false) (stopped : pool.stopped = true)
    (recounts : Recounts settings pool moments Closed)

/--
What callers have told of a pool when a call has come to some phase, if it has
the lock on the life of the pool.
-/
def Page (settings : Settings) (pool : Pool) (moments : List Moment) : Call → Prop
  -- A start that comes too late changes nothing but what it tells.
  | .start _ .refusing => pool.stopped = true ∧ Rests settings pool moments
  -- A start that has claimed the pool keeps account of what it has asked for and told.
  | .start count .announcing => Claimed count moments ∧
      Accounts settings count pool moments .announcing
  | .start count .reserving => Claimed count moments ∧
      Accounts settings count pool moments .reserving
  | .start count (.creating number) => Claimed count moments ∧
      Accounts settings count pool moments (.creating number)
  | .start count (.lamenting number failure) =>
    Claimed count moments ∧ Accounts settings count pool moments (.lamenting number failure)
  -- A stop tells its three messages one after the other, the second one only if time was up.
  | .stop .marking | .stop .announcing => Recounts settings pool moments (· = [])
  | .stop .draining | .stop .warning => Recounts settings pool moments (· = [.stopRequested])
  | .stop .closing | .stop .waking | .stop .parting => Recounts settings pool moments Hurried
  | .stop .gathering | .stop (.joining _) => Recounts settings pool moments Parted
  -- No worker is lost where the sink fails nobody.
  | .stop (.lamenting ..) => False
  | _ => Rests settings pool moments

/--
What some more moments add to what callers have told, if the system is asked for no thread at them.
-/
structure Adds (words : List Message) (moments more : List Moment) : Prop where
  told : messages more = messages moments ++ words
  asked : attempts more = attempts moments
  -- Which start took effect is known from its moment, which must not get lost.
  grown : moments ⊆ more

variable {settings : Settings} {pool next : Pool} {moments more : List Moment}
  {words : List Message} {count : Nat} {watched : Watched} {queue after : Queue Thread Task}
  {caller : Nat} {chance : Pool.Chance} {call later : Call} {events : List Pool.Event}
  {moment : Moment}

/-- A moment of somebody who tells nothing and asks for no thread adds nothing. -/
theorem Adds.nothing (silent : moment.message? = none) (unasked : moment.attempt? = none) :
    Adds [] moments (moments ++ [moment]) where
  told := by rw [messages_concat, silent]; rfl
  asked := by rw [attempts_concat, unasked]; exact List.append_nil _
  grown := List.subset_append_left _ _

/-- A moment of a caller adds what the caller tells, if it asks for no thread. -/
theorem Adds.turn (turn : moment.turn = .caller caller chance) (acts : moment.call? = some call)
    (unasked : call.attempt? chance.refusal = none) :
    Adds call.message?.toList moments (moments ++ [moment]) where
  told := (account_concat moments turn acts).1
  asked := by
    rw [(account_concat moments turn acts).2, unasked]
    exact List.append_nil _
  grown := List.subset_append_left _ _

/-- The start that took effect is not forgotten. -/
theorem Claimed.mono (claimed : Claimed count moments) (grown : moments ⊆ more) :
    Claimed count more := by
  obtain ⟨moment, member, claims, call⟩ := claimed
  exact ⟨moment, grown member, claims, call⟩

/-- What is told comes behind what was told before. -/
theorem Recounts.further {closing onward : List Message → Prop}
    (recounts : Recounts settings pool moments closing) (adds : Adds words moments more)
    (names : next.staffNames = pool.staffNames)
    (leads : ∀ earlier, closing earlier → onward (earlier ++ words)) :
    Recounts settings next more onward := by
  obtain ⟨count, opening, earlier, claimed, opens, told, closes⟩ := recounts.tells
  refine ⟨count, opening, earlier ++ words, claimed.mono adds.grown, ?_, ?_, leads earlier closes⟩
  · rw [adds.asked, names]
    exact opens
  · rw [adds.told, told, List.append_assoc]

/-- Where nothing is told, it stays at what was told before. -/
theorem Recounts.keep {closing : List Message → Prop}
    (recounts : Recounts settings pool moments closing) (adds : Adds [] moments more)
    (names : next.staffNames = pool.staffNames) :
    Recounts settings next more closing :=
  recounts.further adds names fun earlier closes => (List.append_nil earlier).symm ▸ closes

/-- A pool that nobody starts or stops goes on resting where nothing is told. -/
theorem Rests.keep (rests : Rests settings pool moments) (adds : Adds [] moments more)
    (running : next.running = pool.running) (stopped : next.stopped = pool.stopped)
    (names : next.staffNames = pool.staffNames) : Rests settings next more := by
  have silent : messages more = messages moments := adds.told.trans (List.append_nil _)
  cases rests with
  | unstarted idle open_ nobody told unasked =>
    exact .unstarted (running.trans idle) (stopped.trans open_) (names.trans nobody)
      (silent.trans told)
      (adds.asked.trans unasked)
  | started on open_ recounts =>
    exact .started (running.trans on) (stopped.trans open_) (recounts.keep adds names)
  | stopped idle marked recounts =>
    exact .stopped (running.trans idle) (stopped.trans marked) (recounts.keep adds names)

/--
What callers have told of a pool stays so where others do something that has
nothing to do with its life.
-/
theorem Page.frame (page : Page settings pool moments call) (same : SameLife pool next)
    (adds : Adds [] moments more) :
    Page settings next more call := by
  have silent : messages more = messages moments := adds.told.trans (List.append_nil _)
  have staffed (staff : Staffed settings pool moments) : Staffed settings next more :=
    staff.keep adds.asked same.running same.stopped same.names same.roster
  have rest (rests : Rests settings pool moments) : Rests settings next more :=
    rests.keep adds same.running same.stopped same.names
  have recount {closing : List Message → Prop} (recounts : Recounts settings pool moments closing) :
      Recounts settings next more closing := recounts.keep adds same.names
  -- What a page holds is about the told messages, the requested threads and the roster,
  -- of which nothing changes.
  cases call with
  | start count phase =>
    cases phase with
    | refusing => exact ⟨same.stopped.trans page.1, rest page.2⟩
    | announcing | reserving =>
      obtain ⟨claimed, told, unasked, staff⟩ := page
      exact ⟨claimed.mono adds.grown, silent.trans told, adds.asked.trans unasked, staffed staff⟩
    | creating number =>
      obtain ⟨claimed, within, few, usable, numbers, losing, staff⟩ := page
      exact ⟨claimed.mono adds.grown, within, few, usable, by rw [adds.asked, numbers],
        by rw [silent, adds.asked, losing], staffed staff⟩
    | lamenting number failure =>
      obtain ⟨claimed, within, few, usable, numbers, losing, staff⟩ := page
      exact ⟨claimed.mono adds.grown, within, few, usable, by rw [adds.asked, numbers],
        by rw [silent, adds.asked, losing], staffed staff⟩
    | _ => exact rest page
  | stop phase =>
    cases phase with
    | lamenting => exact page.elim
    | locking | claiming | unlocking => exact rest page
    | _ => exact recount page
  | _ => exact rest page

/-- A call without the lock on the life of the pool says no more than the flags of the pool do. -/
theorem page_of_outside (outside : call.stage?.isSome = false) :
    Page settings pool moments call = Rests settings pool moments := by
  -- Every other phase of a start or a stop has the lock.
  cases call with
  | start count phase => cases phase <;> first | rfl | cases outside
  | stop phase => cases phase <;> first | rfl | cases outside
  | _ => rfl

/-- A start that has asked for all its threads, or has broken off, leaves a pool that rests. -/
theorem Settles.rests (settles : Settles settings count pool moments)
    (claimed : Claimed count moments) (open_ : pool.stopped = false)
    (told : messages moments ≠ []) : Rests settings pool moments := by
  rcases settles with ⟨stopped, -, -⟩ | ⟨-, -, silent⟩ | ⟨feasible, numbers, telling, staff⟩
  · exact absurd (open_.symm.trans stopped) Bool.false_ne_true
  · exact absurd silent told
  · exact .started staff.running open_ ⟨count, _, [], claimed,
      .staffed feasible numbers staff.names, telling.trans (List.append_nil _).symm, rfl⟩

/-- A start that was thwarted leaves a pool that rests, without workers. -/
theorem Thwarted.rests {text : String} (thwarted : Thwarted settings count text pool moments)
    (claimed : Claimed count moments) (open_ : pool.stopped = false) :
    Rests settings pool moments := by
  have nobody : pool.staffNames = [] := List.map_eq_nil_iff.mpr thwarted.workers
  exact .started thwarted.running open_ ⟨count, _, [], claimed,
    .thwarted thwarted.not_feasible nobody, thwarted.told.trans (List.append_nil _).symm, rfl⟩

/-- Each step of a start leads from what was told before it to what was told after it. -/
theorem page_start {phase : Starting} (proper : Proper settings watched.world)
    (found : watched.world.pool.callers[caller]? = some (.start count phase))
    (move : phase.Move watched.world.pool caller count chance.refusal next later events)
    (now : moment = callerMoment watched.world.queue watched.world.queue watched.world.pool next
      watched.begun caller chance later events)
    (page : Page settings watched.world.pool moments (.start count phase)) :
    Page settings (setCaller next caller later) (moments ++ [moment]) later := by
  have turn : moment.turn = .caller caller chance := by rw [now]; rfl
  have acts : moment.call? = some (.start count phase) := by rw [now]; exact found
  have becomes : moment.next.pool = setCaller next caller later := by rw [now]; rfl
  have grown : moments ⊆ moments ++ [moment] := List.subset_append_left _ _
  -- Once the pool is claimed, the start keeps account of what it tells,
  -- and so do the steps that come after.
  have comes (accounts : Accounts settings count watched.world.pool moments phase) :=
    step_comes proper found move now accounts
  obtain ⟨rfl, orderly, quiet, rolls⟩ := proper
  have holds (stage : Pool.Stage) (reached : (Call.start count phase).stage? = some stage) :=
    (orderly.held caller _ stage found reached).2
  cases move with
  | lock | pass | skip | unlock => exact Rests.keep page (.turn turn acts rfl) rfl rfl rfl
  | bar stopped => exact ⟨stopped, Rests.keep page (.turn turn acts rfl) rfl rfl rfl⟩
  | refuse tells =>
    obtain ⟨rfl, rfl, rfl⟩ := tells.unfailed (quiet _)
    obtain ⟨stopped, rests⟩ := page
    -- Of the three ways in which a pool can rest, this is the last.
    cases rests with
    | unstarted _ open_
        | started _ open_ => exact absurd (open_.symm.trans stopped) Bool.false_ne_true
    | stopped idle _ recounts =>
      exact .stopped idle stopped (recounts.further (.turn turn acts rfl) rfl fun _ closed =>
        closed.refuse)
  | claim idle =>
    obtain ⟨-, open_⟩ := holds _ rfl
    have adds : Adds [] moments (moments ++ [moment]) := .turn turn acts rfl
    have claims : moment.claims = true := by
      rw [now]; simp [Moment.claims, callerMoment, setCaller, idle]
    -- Of the three ways in which a pool can rest, this is the first, so nothing was
    -- told and nobody was created.
    cases page with
    | started running => exact absurd (idle.symm.trans running) Bool.false_ne_true
    | stopped _ stopped => exact absurd (open_.symm.trans stopped) Bool.false_ne_true
    | unstarted _ _ nobody silent unasked =>
      have nothing : attempts (moments ++ [moment]) = [] := adds.asked.trans unasked
      refine ⟨⟨moment, by simp, claims, acts⟩, adds.told.trans (by rw [silent]; rfl), nothing,
        rfl, open_, ?_, rolls open_⟩
      rw [nothing]
      exact nobody
  | announce tells | lament tells =>
    obtain ⟨rfl, rfl, rfl⟩ := tells.unfailed (quiet _)
    exact ⟨page.1.mono grown, (comes page.2).2⟩
  | reserve | miss | hire => exact ⟨page.1.mono grown, (comes page.2).2⟩
  | overflow | misname => exact Thwarted.rests (comes page.2) (page.1.mono grown) (holds _ rfl).2.1
  | finish done =>
    obtain ⟨-, -, -, -, losing, -⟩ := page.2
    refine (comes page.2).2.rests (page.1.mono grown) (holds _ rfl).2.1 ?_
    rw [(account_concat moments turn acts).1, losing]
    exact List.cons_ne_nil _ _

/-- Each step of a stop leads from what was told before it to what was told after it. -/
theorem page_stop {phase : Stopping} (proper : Proper settings watched.world)
    (sound : ∀ worker ∈ watched.world.pool.workers, worker.duty ≠ .gone true)
    (found : watched.world.pool.callers[caller]? = some (.stop phase))
    (move : phase.Move watched.world.queue watched.world.pool caller chance.timeUp chance.joined
      after next later events)
    (now : moment = callerMoment watched.world.queue after watched.world.pool next watched.begun
      caller chance later events)
    (page : Page settings watched.world.pool moments (.stop phase)) :
    Page settings (setCaller next caller later) (moments ++ [moment]) later := by
  have turn : moment.turn = .caller caller chance := by rw [now]; rfl
  have acts : moment.call? = some (.stop phase) := by rw [now]; exact found
  obtain ⟨rfl, orderly, quiet, rolls⟩ := proper
  have holds (stage : Pool.Stage) (reached : (Call.stop phase).stage? = some stage) :=
    (orderly.held caller _ stage found reached).2
  cases move with
  | lock | skip | unlock => exact Rests.keep page (.turn turn acts rfl) rfl rfl rfl
  | claim running =>
    -- Of the three ways in which a pool can rest, this is the second.
    cases page with
    | unstarted idle | stopped idle => exact absurd (idle.symm.trans running) Bool.false_ne_true
    | started _ _ recounts => exact recounts.keep (.turn turn acts rfl) rfl
  | mark => exact Recounts.keep page (.turn turn acts rfl) rfl
  | announce tells =>
    obtain ⟨rfl, rfl, rfl⟩ := tells.unfailed (quiet _)
    exact Recounts.further page (.turn turn acts rfl) rfl fun words none => by rw [none]; rfl
  | drained =>
    exact Recounts.further page (.turn turn acts rfl) rfl fun words requested =>
      .inl (by rw [requested]; rfl)
  | tire => exact Recounts.keep page (.turn turn acts rfl) rfl
  | warn tells =>
    obtain ⟨rfl, rfl, rfl⟩ := tells.unfailed (quiet _)
    exact Recounts.further page (.turn turn acts rfl) rfl fun words requested =>
      .inr (by rw [requested]; rfl)
  | close | wake => exact Recounts.keep page (.turn turn acts rfl) rfl
  | part tells =>
    obtain ⟨rfl, rfl, rfl⟩ := tells.unfailed (quiet _)
    exact Recounts.further page (.turn turn acts rfl) rfl fun words hurried => ⟨words, hurried, rfl⟩
  | gather => exact Recounts.keep page (.turn turn acts rfl) rfl
  | rest =>
    obtain ⟨idle, stopped, -⟩ := holds _ rfl
    exact .stopped idle stopped (Recounts.further page (.turn turn acts rfl) rfl fun words parted =>
      ⟨words, 0, parted, rfl⟩)
  | join joined =>
    -- The worker that was waited for has ended well.
    obtain ⟨left, rfl⟩ := joining_of_join sound joined
    exact Recounts.keep page (.turn turn acts rfl) rfl
  | lament => exact page.elim

/-- What callers have told of a pool, whoever has the lock on its life. -/
structure Chronicle (settings : Settings) (pool : Pool) (moments : List Moment) : Prop where
  -- Of calls that have come this far there is only one, since they have the lock.
  held : ∀ (caller : Nat) (call : Call), pool.callers[caller]? = some call →
    call.stage?.isSome = true →
    Page settings pool moments call
  idle : pool.lifecycle = none → Rests settings pool moments

/-- A moment at which nobody goes on with a start or a stop adds nothing. -/
theorem IsAside.adds {turn : Turn} {last : World} (aside : IsAside watched.world turn last) :
    Adds [] moments (moments ++ [⟨watched, turn, last, events⟩]) := by
  cases turn with
  | caller index chance =>
    cases found : watched.world.pool.callers[index]? with
    | none =>
      exact .nothing (by simp [Moment.message?, Moment.call?, found])
        (by simp [Moment.attempt?, Moment.call?, found])
    | some call =>
      -- Other calls have nothing to tell, and they create no workers.
      obtain ⟨start, stop⟩ := aside.actor index chance call rfl found
      cases call with
      | start => cases start
      | stop => cases stop
      | _ =>
        have acts : (⟨watched, .caller index chance, last, events⟩ : Moment).call? = some _ := found
        exact .turn rfl acts rfl
  | _ => exact .nothing rfl rfl

/--
What others do that have nothing to do with the life of the pool leaves the chronicle as it is.
-/
theorem Chronicle.aside {turn : Turn} {last : World}
    (chronicle : Chronicle settings watched.world.pool moments)
    (aside : IsAside watched.world turn last) :
    Chronicle settings last.pool (moments ++ [⟨watched, turn, last, events⟩]) where
  held caller call found staged := by
    rcases aside.calls caller call found with outside | old
    · rw [outside] at staged
      cases staged
    · exact (chronicle.held caller call old staged).frame aside.same aside.adds
  idle free := by
    -- If nobody has the lock now, nobody had it before.
    have same := aside.same
    exact (chronicle.idle (same.lifecycle.symm.trans free)).keep aside.adds same.running
      same.stopped same.names

/--
A caller that goes on with a start or a stop leads the chronicle on,
and has the lock then or gives it up.
-/
theorem Chronicle.goes (chronicle : Chronicle settings watched.world.pool moments)
    (proper : Proper settings watched.world)
    (sound : ∀ worker ∈ watched.world.pool.workers, worker.duty ≠ .gone true)
    (found : watched.world.pool.callers[caller]? = some call)
    (move : call.Move watched.world.queue watched.world.pool caller chance after next later events)
    (aside : ¬ (call.isStart = false ∧ call.isStop = false))
    (now : moment = callerMoment watched.world.queue after watched.world.pool next watched.begun
      caller chance later events) :
    Page settings (setCaller next caller later) (moments ++ [moment]) later := by
  -- A call that does not have the lock yet goes on only where nobody has it.
  have page : Page settings watched.world.pool moments call := by
    cases staged : call.stage?.isSome with
    | true => exact chronicle.held caller call found staged
    | false => exact page_of_outside staged ▸ chronicle.idle (move.free aside staged)
  cases move with
  | start move => exact page_start proper found move now page
  | stop move => exact page_stop proper sound found move now page
  | _ => exact absurd ⟨rfl, rfl⟩ aside

/-- Every turn continues the chronicle. -/
theorem step_chronicle {turn : Turn} {last : World}
    (chronicle : Chronicle settings watched.world.pool moments)
    (proper : Proper settings watched.world)
    (sound : ∀ worker ∈ watched.world.pool.workers, worker.duty ≠ .gone true)
    (stepped : watched.world.step turn = some (last, events)) :
    Chronicle settings last.pool (moments ++ [⟨watched, turn, last, events⟩]) := by
  have orderly := (step_orderly proper.orderly proper.quiet stepped).1
  obtain aside | ⟨index, chance, call, queue, pool, later, rfl, found, aside, move, rfl, placed⟩ :=
    isAside_or_goes stepped
  · exact chronicle.aside aside
  · have page := chronicle.goes proper sound found move aside rfl
    refine ⟨fun other known there staged => ?_, fun free => ?_⟩
    · by_cases here : other = index
      · rw [here, placed.known] at there
        cases there
        exact page
      · -- Another call that has the lock now would have had it before.
        have outside := outside_of_goes (fun caller call found staged =>
          have ⟨stage, reached⟩ := Option.isSome_iff_exists.mp staged
          (proper.orderly.held caller call stage found reached).1) found move aside here
          ((placed.others other here).symm.trans there)
        rw [staged] at outside
        cases outside
    · -- If the lock is free now, the call that went on has given it up.
      cases staged : later.stage?.isSome with
      | true =>
        obtain ⟨stage, reached⟩ := Option.isSome_iff_exists.mp staged
        have held := (orderly.held index later stage placed.known reached).1
        rw [free] at held
        cases held
      | false => exact page_of_outside staged ▸ page

variable {number : Nat} {sink : Sink}

/--
In every run of a new pool whose sink fails nobody, and where no task ends
deadly, the chronicle is kept.
-/
theorem run_chronicle {turns : List Turn}
    (quiet : ∀ message : Message, sink.failsAt message.line = false)
    (ran : runOf recorded (.fresh number settings sink) turns = some (watched, moments))
    (mild : Mild (moments.flatMap (·.events))) : Chronicle settings watched.world.pool moments := by
  -- The step needs that the pool is in order, which is known of every world that can be reached.
  have kept := run_invariant
    (fun watched moments => (∃ turns, runOf recorded (.fresh number settings sink) turns =
      some (watched, moments)) ∧
      (Mild (moments.flatMap (·.events)) → Chronicle settings watched.world.pool moments))
    ⟨⟨[], rfl⟩, fun _ => ⟨fun _ _ found => by simp [Watched.fresh, fresh, Pool.fresh] at found,
      fun _ => .unstarted rfl rfl rfl rfl rfl⟩⟩ ?_ ran
  · exact kept.2 mild
  · rintro before earlier turn after new ⟨⟨turns, ran⟩, chronicle⟩ stepped
    refine ⟨⟨turns ++ [turn], runOf_concat.mpr ⟨before, earlier, new, ran, stepped, rfl⟩⟩,
      fun mild => ?_⟩
    have reached : Reached number settings sink before := ⟨turns, earlier, ran⟩
    -- No worker has broken off, since no task has ended deadly up to here.
    rw [List.flatMap_append] at mild
    have sound := (run_orderly quiet (run_of_recorded ran)).1.unbroken_of_mild mild.of_append
    obtain ⟨⟨next, events⟩, moved, same⟩ := Option.map_eq_some_iff.mp stepped
    cases same
    exact step_chronicle (chronicle mild.of_append) (reached.proper quiet) sound moved

/-- Whether a start looks whether the pool was stopped, and sees that it was. -/
def Moment.isBarred (moment : Moment) : Bool :=
  moment.call?.any (Call.isBarred moment.before.world.pool)

/--
A turn more is one more start that finds the pool stopped, one more that is told so, or neither.
-/
theorem step_refusals {turn : Turn} {last : World}
    (stepped : watched.world.step turn = some (last, events))
    (now : moment = ⟨watched, turn, last, events⟩) :
    last.pool.callers.countP Call.isRefusing + moment.message?.toList.countP Message.isRefusal =
      watched.world.pool.callers.countP Call.isRefusing + moment.isBarred.toNat := by
  subst now
  -- Only the caller whose turn it is changes its call, and a call that begins or has
  -- ended is not about to be told.
  cases turn with
  | begin index request =>
    have new : request.call.isRefusing = false := by cases request <;> rfl
    obtain ⟨-, callers, rfl, rfl | ⟨call, found, ended, rfl⟩⟩ := step_begin stepped
    · simp [Moment.message?, Moment.isBarred, Moment.call?, new]
    · have old : call.isRefusing = false := by
        cases call with
        | returned | broken => rfl
        | _ => cases ended
      obtain ⟨others, before, after⟩ := Queue.countP_set_frame Call.isRefusing found
      show (watched.world.pool.callers.set index request.call).countP Call.isRefusing + 0 =
        watched.world.pool.callers.countP Call.isRefusing + 0
      rw [after, before, old, new]
  | caller index chance =>
    obtain ⟨call, queue, pool, later, found, moved, rfl⟩ := step_caller.mp stepped
    obtain ⟨others, before, after⟩ := Queue.countP_set_frame Call.isRefusing found
    have refusals := (Pool.Call.step_eq_some_iff.mp moved).refusals
    have callers := (Pool.Call.step_visit moved).callers
    simp only [Moment.message?, Moment.isBarred, Moment.call?, found, Option.bind_some,
      Option.any_some]
    show (pool.callers.set index later).countP Call.isRefusing + _ = _
    rw [callers, after, before]
    omega
  | worker index chance =>
    obtain ⟨name, duty, queue, pool, later, found, moved, rfl⟩ := step_worker.mp stepped
    rw [(Pool.work_progress moved).same]
    rfl
  | openGate index =>
    obtain ⟨-, name, task, left, found, rfl⟩ := step_openGate stepped
    rfl
  | resume index broken =>
    obtain ⟨name, task, request, left, later, found, rfl, -⟩ := step_resume stepped
    rfl
  | refilter filter =>
    cases stepped
    rfl

/-- Each start that finds the pool stopped is told so once, unless it is about to be. -/
theorem run_refusals {turns : List Turn}
    (ran : runOf recorded (.fresh number settings sink) turns = some (watched, moments)) :
    (messages moments).countP Message.isRefusal + watched.world.pool.callers.countP
      Call.isRefusing =
      moments.countP Moment.isBarred := by
  refine run_invariant (fun watched moments =>
    (messages moments).countP Message.isRefusal + watched.world.pool.callers.countP
      Call.isRefusing =
      moments.countP Moment.isBarred) rfl ?_ ran
  rintro before earlier turn after new balanced stepped
  obtain ⟨⟨next, events⟩, moved, same⟩ := Option.map_eq_some_iff.mp stepped
  cases same
  -- One turn counts on either side what its moment adds.
  have refusals := step_refusals moved rfl
  have single (moment : Moment) : [moment].countP Moment.isBarred = moment.isBarred.toNat := by
    cases barred : moment.isBarred <;> simp [barred]
  show (messages (earlier ++ _)).countP Message.isRefusal + next.pool.callers.countP
    Call.isRefusing = _
  rw [messages_concat, List.countP_append, List.countP_append, single]
  omega

end World

end TaskPool
