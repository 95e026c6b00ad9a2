import Mathlib.Data.List.Forall2
import TaskPool.Log.Sinks
import TaskPool.Proofs.Run

/-!
The console and the way to the logger of the process let the same lines through,
whenever their filters are changed.

A line passes just if it is as grave as the filter that was set last asks for,
so wider filters only add to what passes.
-/

namespace TaskPool

namespace Filter

/-- The severities that pass, from the gravest down to the one that the filter names. -/
def admitted : Filter → List Severity
  | .off => []
  | .upTo least => Severity.all.takeWhile (· ≠ least) ++ [least]

/-- By their places just those severities pass that stand among the gravest ones. -/
theorem admits_iff (filter : Filter) (severity : Severity) :
    filter.admits severity = true ↔ severity ∈ filter.admitted := by
  cases filter with
  | off => cases severity <;> decide
  | upTo least => cases least <;> cases severity <;> decide

/-- A filter that names a place further down lets at least the same severities pass. -/
theorem admitted_of_rank_le {filter other : Filter} (wider : filter.rank ≤ other.rank)
    {severity : Severity} (passes : severity ∈ filter.admitted) : severity ∈ other.admitted := by
  rw [← admits_iff] at passes ⊢
  exact decide_eq_true (Nat.le_trans (of_decide_eq_true passes) wider)

end Filter

/-! Places for lines, whose filters are changed while lines arrive. -/

/--
What is done to a place for lines: it gets another filter, or it is handed a line at some time.
-/
inductive Demand where
  | refilter (filter : Filter)
  | log (stamp : String) (line : Line)
deriving DecidableEq

namespace Demand

/-- The filter that is set, if one is. -/
def filter? : Demand → Option Filter
  | .refilter filter => some filter
  | .log .. => none

/--
Whether two demands are the same but for the filter that is set, which lets
no less pass in the second one.
-/
inductive Widens : Demand → Demand → Prop where
  | refilter {filter other : Filter} (wider : filter.rank ≤ other.rank) : Widens (.refilter filter)
      (.refilter other)
  | log (stamp : String) (line : Line) : Widens (.log stamp line) (.log stamp line)

/-- The filter in force after some demands: the one that was set last, or else the first one. -/
def latest (first : Filter) (demands : List Demand) : Filter :=
  ((demands.filterMap filter?).getLast?).getD first

/-- A line that is handed over, with its number among the demands and its time. -/
structure Call where
  number : Nat
  stamp : String
  line : Line
deriving DecidableEq

/--
The line that is handed over by the demand with a number, if it is as grave as
the filter then in force asks for.
-/
def heardAt (first : Filter) (demands : List Demand) (number : Nat) : Option Call :=
  match demands[number]? with
  | some (.log stamp line) =>
    if line.severity ∈ (latest first (demands.take number)).admitted then
      some ⟨number, stamp, line⟩
    else none
  | _ => none

/-- The lines that pass, in the order of the demands. -/
def heard (first : Filter) (demands : List Demand) : List Call :=
  (List.range demands.length).filterMap (heardAt first demands)

/-- The entries for the lines that pass: the time, the severity, and the text as it is. -/
def entries (first : Filter) (demands : List Demand) : List String :=
  (heard first demands).map fun call =>
    "[" ++ call.stamp ++ "] [" ++ call.line.severity.label ++ "] " ++ call.line.text

/--
The records of the lines that pass: the severity, the name of the pools, and the text as it is.
-/
def records (first : Filter) (demands : List Demand) : List Record :=
  (heard first demands).map fun call => ⟨call.line.severity, "rust_worker_pool", call.line.text⟩

variable {first : Filter} {demands : List Demand}

/-- A filter that is set is in force from then on. -/
@[simp] theorem latest_concat_refilter (filter : Filter) :
    latest first (demands ++ [.refilter filter]) = filter := by
  simp [latest, filter?]

/-- A line changes no filter. -/
@[simp] theorem latest_concat_log (stamp : String) (line : Line) :
    latest first (demands ++ [.log stamp line]) = latest first demands := by
  simp [latest, filter?]

/-- One more demand lets at most its own line pass, by the filter that is in force before it. -/
theorem heard_concat (first : Filter) (demands : List Demand) (demand : Demand) :
    heard first (demands ++ [demand]) =
      heard first demands ++ (heardAt first (demands ++ [demand]) demands.length).toList := by
  -- The demands before it are found where they were, and so are the filters in force then.
  have same : ∀ number ∈ List.range demands.length,
      heardAt first (demands ++ [demand]) number = heardAt first demands number := by
    intro number inside
    have within := List.mem_range.mp inside
    simp only [heardAt, List.getElem?_append_left within, List.take_append_of_le_length
      (Nat.le_of_lt within)]
  rw [heard, heard, List.length_append, List.length_singleton, List.range_succ,
    List.filterMap_append, List.filterMap_congr same]
  cases here : heardAt first (demands ++ [demand]) demands.length <;> simp [here]

/-- No line is handed over when a filter is set. -/
@[simp] theorem heard_concat_refilter (filter : Filter) :
    heard first (demands ++ [.refilter filter]) = heard first demands := by
  rw [heard_concat]
  simp [heardAt]

/-- A line that is handed over passes if it is as grave as the filter in force asks for. -/
@[simp] theorem heard_concat_log (stamp : String) (line : Line) :
    heard first (demands ++ [.log stamp line]) = heard first demands ++
      if line.severity ∈ (latest first demands).admitted then [⟨demands.length, stamp, line⟩]
          else [] := by
  rw [heard_concat]
  by_cases passes : line.severity ∈ (latest first demands).admitted <;> simp [heardAt, passes]

/-- A wider first filter and wider filters later on leave a wider one in force. -/
theorem latest_rank_le {others : List Demand} (widens : List.Forall₂ Widens demands others)
    {other : Filter} (wider : first.rank ≤ other.rank) :
    (latest first demands).rank ≤ (latest other others).rank := by
  -- The induction takes the first pair of demands off, which may set the filters
  -- that the others go on from.
  induction widens generalizing first other with
  | nil => exact wider
  | @cons demand partner demands others widen _ ih =>
    have onward (filter : Filter) (demand : Demand) (rest : List Demand) :
        latest filter (demand :: rest) = latest (demand.filter?.getD filter) rest := by
      cases demand <;> simp [latest, filter?, List.getLast?_cons]
    rw [onward, onward]
    cases widen with
    | refilter wide => exact ih wide
    | log => exact ih wider

/-- With wider filters each demand lets the same line pass, or one where none did. -/
theorem heardAt_widens {others : List Demand} (widens : List.Forall₂ Widens demands others)
    {other : Filter} (wider : first.rank ≤ other.rank) (number : Nat) :
    heardAt first demands number = none ∨
    heardAt first demands number = heardAt other others number := by
  have force := latest_rank_le (List.forall₂_take number widens) wider
  have same := widens.length_eq
  by_cases within : number < demands.length
  · have pair := widens.get within (same ▸ within)
    simp only [List.get_eq_getElem] at pair
    simp only [heardAt, List.getElem?_eq_getElem within, List.getElem?_eq_getElem (same ▸ within)]
    generalize demands[number] = demand, others[number] = partner at pair
    cases pair with
    | refilter => exact .inl rfl
    | log stamp line =>
      simp only
      split
      · rename_i passes
        exact .inr (by rw [if_pos (Filter.admitted_of_rank_le force passes)])
      · exact .inl rfl
  · exact .inl (by simp [heardAt, List.getElem?_eq_none (Nat.le_of_not_lt within)])

/-- With wider filters the same lines pass in the same order, and perhaps others between them. -/
theorem heard_sublist {others : List Demand} (widens : List.Forall₂ Widens demands others)
    {other : Filter} (wider : first.rank ≤ other.rank) :
    (heard first demands).Sublist (heard other others) := by
  rw [heard, heard, ← widens.length_eq]
  induction List.range demands.length with
  | nil => exact .slnil
  | cons number numbers ih =>
    rcases heardAt_widens widens wider number with none | same
    · rw [List.filterMap_cons_none none]
      exact ih.trans (List.Sublist.filterMap _ (List.sublist_cons_self _ _))
    · rw [List.filterMap_cons, List.filterMap_cons, same]
      split
      · exact ih
      · exact ih.cons_cons _

end Demand

open Demand (latest heard entries records)

/-- A console that gets another filter, or writes a line. -/
def Console.step (console : Console) : Demand → Option (Console × List String)
  | .refilter filter => some ({ console with filter := filter }, [])
  | .log stamp line => some (console, console.log stamp line)

/--
The way to the logger of the process, where the process gets another filter, or a line is handed on.
-/
def Facade.step (facade : Facade) : Demand → Option (Facade × List Record)
  | .refilter filter => some ({ facade with filter := filter }, [])
  | .log _ line => some (facade, facade.log line)

/-- Who writes each line that the filter in force admits has written just the lines that pass. -/
theorem runOf_filtering {σ β : Type} (step : σ → Demand → Option (σ × List β)) (state : Filter → σ)
    (form : String → Line → β)
    (sets : ∀ old new, step (state old) (.refilter new) = some (state new, []))
    (writes : ∀ filter stamp line, step (state filter) (.log stamp line) =
      some (state filter, if filter.admits line.severity then [form stamp line] else []))
    (first : Filter) (demands : List Demand) :
    runOf step (state first) demands =
      some (state (latest first demands), (heard first demands).map fun call =>
        form call.stamp call.line) := by
  -- The induction takes the last demand off, before which the latest filter is in force.
  induction demands using List.reverseRecOn with
  | nil => rfl
  | append_singleton demands demand ih =>
    cases demand with
    | refilter filter =>
      rw [Demand.latest_concat_refilter, Demand.heard_concat_refilter]
      exact runOf_concat.mpr ⟨_, _, _, ih, sets .., (List.append_nil _).symm⟩
    | log stamp line =>
      rw [Demand.latest_concat_log, Demand.heard_concat_log]
      refine runOf_concat.mpr ⟨_, _, _, ih, writes .., ?_⟩
      rw [List.map_append]
      by_cases passes : line.severity ∈ (latest first demands).admitted
      · rw [if_pos passes, if_pos ((Filter.admits_iff ..).mpr passes), List.map_singleton]
      · rw [if_neg passes, if_neg (mt (Filter.admits_iff ..).mp passes), List.map_nil]

/--
The console and the way to the logger of the process let the same lines through.

Both begin with the same filter and meet the same demands, after which either has the filter
that was set last. The console has written one entry for each line that is as grave as the filter in
force asked for, and none for any other, in the order of the lines and with their texts as they are;
and the logger has got one record for each of these lines, in the same order,
under the name of the pools. Where no filter lets less pass than before, and some let more pass,
the same lines pass in the same order, so entries and records are only added.
-/
theorem sinks_filter_alike (first : Filter) (demands : List Demand) :
    runOf Console.step ⟨first⟩ demands = some (⟨latest first demands⟩, entries first demands) ∧
    runOf Facade.step ⟨first⟩ demands = some (⟨latest first demands⟩, records first demands) ∧
    ∀ (other : Filter) (others : List Demand),
      first.rank ≤ other.rank → List.Forall₂ Demand.Widens demands others →
      (heard first demands).Sublist (heard other others) ∧
      (entries first demands).Sublist (entries other others) ∧
      (records first demands).Sublist (records other others) := by
  refine ⟨?_, ?_, fun other others wider widens => ?_⟩
  · have writes := runOf_filtering Console.step Console.mk Console.entry
    exact writes (fun _ _ => rfl) (fun _ _ _ => rfl) first demands
  · have passes := runOf_filtering Facade.step Facade.mk fun _ line =>
      Record.mk line.severity Facade.target line.text
    exact passes (fun _ _ => rfl) (fun _ _ _ => rfl) first demands
  · have added := Demand.heard_sublist widens wider
    exact ⟨added, added.map _, added.map _⟩

/-- Some lines, between which a filter is set, and later on another one. -/
def chatter (early late : Filter) : List Demand :=
  [.log "t0" ⟨.info, "up"⟩, .refilter early, .log "t1" ⟨.error, "lost [x]\n"⟩, .refilter late,
    .log "t2" ⟨.warn, "late"⟩, .log "t3" ⟨.debug, "idle"⟩]

/--
With wider filters the console writes what it wrote, with the lines between them
that did not pass before.
-/
theorem entries_are_added :
    entries (.upTo .info) (chatter .off (.upTo .warn)) = ["[t0] [INFO] up", "[t2] [WARN] late"] ∧
    entries (.upTo .info) (chatter (.upTo .error) (.upTo .trace)) =
      ["[t0] [INFO] up", "[t1] [ERROR] lost [x]\n", "[t2] [WARN] late", "[t3] [DEBUG] idle"] ∧
    (entries (.upTo .info) (chatter .off (.upTo .warn))).Sublist
      (entries (.upTo .info) (chatter (.upTo .error) (.upTo .trace))) := by
  have wider : List.Forall₂ Demand.Widens (chatter .off (.upTo .warn))
      (chatter (.upTo .error) (.upTo .trace)) :=
    .cons (.log ..) (.cons (.refilter (by decide)) (.cons (.log ..) (.cons (.refilter (by decide))
      (.cons (.log ..) (.cons (.log ..) .nil)))))
  exact ⟨by decide, by decide, ((sinks_filter_alike _ _).2.2 _ _ (Nat.le_refl _) wider).2.1⟩

end TaskPool
