import EbmsMessaging.Proofs.Correlation.Balance
import EbmsMessaging.Proofs.Correlation.Detachment
import EbmsMessaging.Proofs.Correlation.Independence
import EbmsMessaging.Proofs.Correlation.Sleepers

/-!
# The statistics balance

In a room that settles after each step every value and every attempt to fetch one is accounted for.
A value that comes calls those who wait for it, and none of them is a sweeper. So before the next
sweep somebody has taken the value, and no sweep takes a cell away from tasks that were called
there.
-/
namespace EbmsMessaging.Correlation

variable {α : Type}

/-- The task fetches a value, whether it has begun or not. -/
def RoomTask.fetches : RoomTask → Bool
  | .sweeping _ => false
  | _ => true

namespace WaitingRoom

/-- What a step from outside has a sweep report. -/
def reported (w : WaitingRoom α) : Step α → List Removals
  | .sweep offset => [(w.sweep offset).1]
  | _ => []

/-- What the sweeps from outside report in some steps. -/
def sweepReports (w : WaitingRoom α) : List (Step α) → List Removals
  | [] => []
  | s :: steps => w.reported s ++ (w.perform s).sweepReports steps

/-- The room settles after each step. -/
def settling (steps : List (Step α)) : List (Step α) := steps.flatMap fun s => [s, .settle]

theorem sweepReports_append (w : WaitingRoom α) (steps more : List (Step α)) :
    w.sweepReports (steps ++ more) =
      w.sweepReports steps ++ (steps.foldl perform w).sweepReports more := by
  induction steps generalizing w with
  | nil => rfl
  | cons s steps ih => simp [sweepReports, ih]

theorem settling_append (steps : List (Step α)) (s : Step α) :
    settling (steps ++ [s]) = settling steps ++ [s, .settle] := by
  simp [settling]

/-! ## Attempts -/

/-- Every attempt that was started has ended or goes on, and no attempt is dropped. -/
structure AttemptsBalance (orders : List RoomTask) (w : WaitingRoom α) : Prop where
  started : orders.countP RoomTask.fetches =
    w.shared.table.stats.ended + w.tasks.countP fun e => e.2.fetches
  kept : ∀ id ∈ w.aborted, ∃ sweeper, (id, .sweeping sweeper) ∈ w.tasks

namespace AttemptsBalance

variable {orders : List RoomTask} {w v : WaitingRoom α} {id : TaskId} {task : RoomTask}

theorem start (p : Retention) : (start p : WaitingRoom α).AttemptsBalance [] :=
  ⟨rfl, by simp [WaitingRoom.start, Scheduler.start]⟩

theorem spawn (h : w.AttemptsBalance orders) (task : RoomTask) :
    AttemptsBalance (orders ++ [task]) (w.spawn task) := by
  refine ⟨?_, fun id hid => ?_⟩
  · have hstarted := h.started
    simp only [Scheduler.spawn, List.countP_append, List.countP_singleton]
    omega
  · obtain ⟨sweeper, hmem⟩ := h.kept id hid
    exact ⟨sweeper, List.mem_append_left _ hmem⟩

/-- No attempt begins or ends. -/
theorem touch (h : w.AttemptsBalance orders) (htasks : v.tasks = w.tasks)
    (hended : v.shared.table.stats.ended = w.shared.table.stats.ended)
    (haborted : v.aborted = w.aborted) : v.AttemptsBalance orders := by
  refine ⟨?_, ?_⟩
  · rw [htasks, hended]
    exact h.started
  · rw [htasks, haborted]
    exact h.kept

/-- A task has its last turn, which counts if the task fetches a value. -/
theorem close (h : w.AttemptsBalance orders) (hw : w.Orderly orders)
    (htask : w.task? id = some task) {t : Table α} (results : List (Option (Outcome α)))
    (hended : t.stats.ended = w.shared.table.stats.ended + if task.fetches then 1 else 0) :
    (w.close id t results).AttemptsBalance orders := by
  constructor
  case started =>
    have hstarted := h.started
    have hcount := (Scheduler.perm_of_lookup hw.tasks_nodup htask).countP_eq fun e => e.2.fetches
    rw [List.countP_cons] at hcount
    change _ = _ + (if task.fetches then 1 else 0) at hcount
    rw [table_close, hended]
    change _ = _ + (w.tasks.filter fun e => e.1 ≠ id).countP _
    omega
  case kept =>
    intro j hj
    obtain ⟨hj, hne⟩ := List.mem_filter.mp hj
    obtain ⟨sweeper, hmem⟩ := h.kept j hj
    exact ⟨sweeper, List.mem_filter.mpr ⟨hmem, by simpa using hne⟩⟩

/-- A task goes to sleep after its turn and does what it did before. -/
theorem rest (h : w.AttemptsBalance orders) (hw : w.Orderly orders)
    (htask : w.task? id = some task) (ha : id ∉ w.aborted) {task' : RoomTask}
    (hsame : task'.fetches = task.fetches) (alarms : List (TaskId × Nat)) {room : Room α}
    (hended : room.table.stats.ended = w.shared.table.stats.ended) :
    (w.rest id task' alarms room).AttemptsBalance orders := by
  constructor
  case started =>
    have hstarted := h.started
    have hcount := (Scheduler.perm_of_lookup hw.tasks_nodup htask).countP_eq fun e => e.2.fetches
    have hcount' := (Scheduler.perm_replaced hw.tasks_nodup htask task').countP_eq
      fun e => e.2.fetches
    rw [List.countP_cons] at hcount hcount'
    simp only [hsame] at hcount hcount'
    rw [table_rest, hended]
    change _ = _ + (w.tasks.map fun e => if e.1 = id then (id, task') else e).countP _
    omega
  case kept =>
    intro j hj
    obtain ⟨sweeper, hmem⟩ := h.kept j hj
    have hne : j ≠ id := fun heq => ha (heq ▸ hj)
    exact ⟨sweeper, List.mem_map.mpr ⟨_, hmem, if_neg hne⟩⟩

theorem turned (h : w.AttemptsBalance orders) (hw : w.Orderly orders) (hv : Turned w id v) :
    v.AttemptsBalance orders := by
  cases hv with
  | nobody htask => exact h.touch rfl rfl rfl
  | withdrawn wait htask ha =>
    obtain ⟨sweeper, hmem⟩ := h.kept id ha
    have := (hw.task?_eq_some_iff.mpr hmem).symm.trans htask
    simp at this
  | dropped task htask ha hne =>
    obtain ⟨sweeper, hmem⟩ := h.kept id ha
    exact h.close hw (hw.task?_eq_some_iff.mpr hmem) _ rfl
  | fetched key limit a t htask ha ht =>
    refine h.close hw htask _ ?_
    rw [Table.stats_countStats, Table.stats_takeReady ht]
    simp only [Stats.ended, RoomTask.fetches, if_true]
    omega
  | entered key limit htask ha ht =>
    refine h.rest hw htask ha ?_ _ ?_
    · rfl
    · rw [Table.stats_change, Table.stats_withCell]
  | received wait a t htask ha ht =>
    refine h.close hw htask _ ?_
    rw [Table.stats_countStats, Table.stats_leave, Table.stats_takeAwaited ht]
    simp only [Stats.ended, RoomTask.fetches, if_true]
    omega
  | timedOut wait htask ha ht hd => exact h.close hw htask _ rfl
  | stayed wait htask ha ht hd => exact h.rest hw htask ha (by rfl) _ rfl
  | idled sweeper htask ha hp => exact h.close hw htask _ rfl
  | ticked sweeper htask ha hp =>
    refine h.rest hw htask ha ?_ _ ?_
    · rfl
    · exact Table.ended_sweepTimes _ _ _

end AttemptsBalance

/-! ## Reports -/

/-- The sweeps have reported what was removed, those from outside first. -/
def ReportsBalance (reports : List Removals) (w : WaitingRoom α) : Prop :=
  w.shared.table.stats.removals = .sum (reports ++ w.shared.reports)

namespace ReportsBalance

variable {reports : List Removals} {w v : WaitingRoom α} {id : TaskId}

theorem turned (h : w.ReportsBalance reports) (hv : Turned w id v) : v.ReportsBalance reports := by
  have hsame {v : WaitingRoom α} (hreports : v.shared.reports = w.shared.reports)
      (hremovals : v.shared.table.stats.removals = w.shared.table.stats.removals) :
      v.ReportsBalance reports := by
    rw [ReportsBalance, hreports, hremovals]
    exact h
  cases hv with
  | nobody htask => exact h
  | withdrawn wait htask ha => exact h
  | dropped task htask ha hne => exact h
  | fetched key limit a t htask ha ht =>
    refine hsame rfl ?_
    rw [table_close, Table.stats_countStats, Table.stats_takeReady ht]
    rfl
  | entered key limit htask ha ht =>
    refine hsame rfl ?_
    rw [table_rest, Table.stats_change, Table.stats_withCell]
  | received wait a t htask ha ht =>
    refine hsame rfl ?_
    rw [table_close, Table.stats_countStats, Table.stats_leave, Table.stats_takeAwaited ht]
    rfl
  | timedOut wait htask ha ht hd => exact h
  | stayed wait htask ha ht hd => exact h
  | idled sweeper htask ha hp => exact h
  | ticked sweeper htask ha hp =>
    have hswept := Table.removals_sweepTimes w.now (sweeper.tick w.clock).1 h
    rwa [List.append_assoc] at hswept

end ReportsBalance

/-! ## Values -/

section Values

variable {orders : List RoomTask} {w v : WaitingRoom α} {id : TaskId}

theorem clear_turned (h : w.shared.table.Clear) (hw : w.Orderly orders) (hv : Turned w id v) :
    v.shared.table.Clear := by
  cases hv with
  | nobody htask => exact h
  | withdrawn wait htask ha => exact h.leave _ _
  | dropped task htask ha hne => exact h
  | fetched key limit a t htask ha ht => exact (h.takeReady ht).countStats _
  | entered key limit htask ha ht =>
    have hw := (hw.hosts_others htask (by simp)).withCell w.now key
    obtain ⟨hmem, -⟩ := Table.find?_eq_some (w.shared.table.find?_withCell w.now key)
    refine (h.withCell w.now key).enter _ id fun c hc hid => ?_
    obtain rfl := hw.eq_of_id (Table.mem_known_of_mem_cells hc)
      (Table.mem_known_of_mem_cells hmem) hid
    exact Table.slot_withCell ht w.now
  | received wait a t htask ha ht => exact ((h.takeAwaited ht).leave _ _).countStats _
  | timedOut wait htask ha ht hd => exact (h.leave _ _).countStats _
  | stayed wait htask ha ht hd => exact h.sleep _ _
  | idled sweeper htask ha hp => exact h
  | ticked sweeper htask ha hp => exact h.sweepTimes _ _

/-- A turn keeps the balance of values. A sweeper must not have its turn while a value lies where
tasks wait. -/
theorem balanced_turned (h : w.shared.table.Balanced) (hw : w.Orderly orders)
    (hclear : w.shared.table.Clear ∨ ∀ sweeper, w.task? id ≠ some (.sweeping sweeper))
    (hv : Turned w id v) : v.shared.table.Balanced := by
  cases hv with
  | nobody htask => exact h
  | withdrawn wait htask ha => exact h.leave _ _
  | dropped task htask ha hne => exact h
  | fetched key limit a t htask ha ht =>
    rw [table_close]
    refine (Table.Taken.takeReady h hw.hosts ht).balanced h ?_ (fun s => ?_) ?_
    · exact fun _ => rfl
    · exact Nat.add_right_comm s.fetchedAtOnce 1 s.fetchedAfterWait
    · exact fun _ => rfl
  | entered key limit htask ha ht => exact (h.withCell w.now key).change _ fun _ => rfl
  | received wait a t htask ha ht =>
    rw [table_close]
    refine ((Table.Taken.takeAwaited h hw.hosts ht).leave _ _).balanced h ?_ (fun s => ?_) ?_
    · exact fun _ => rfl
    · exact (Nat.add_assoc s.fetchedAtOnce s.fetchedAfterWait 1).symm
    · exact fun _ => rfl
  | timedOut wait htask ha ht hd => exact h.giveUp _ _
  | stayed wait htask ha ht hd => exact h.sleep _ _
  | idled sweeper htask ha hp => exact h
  | ticked sweeper htask ha hp =>
    have hclear := hclear.resolve_right fun hnone => hnone sweeper htask
    exact h.sweepTimes hclear _ _

/-- No sweep comes between a value and those who were called for it. -/
def Unhurried (w : WaitingRoom α) : Prop :=
  w.shared.table.Clear ∨ ∀ id ∈ w.queue, ∀ sweeper, (id, .sweeping sweeper) ∉ w.tasks

/-- Only a sweeper becomes a sweeper. -/
theorem sweeping_of_turned (hv : Turned w id v) {j : TaskId} {sweeper : Sweeper}
    (hmem : (j, .sweeping sweeper) ∈ v.tasks) : ∃ s, (j, .sweeping s) ∈ w.tasks := by
  have hclosed {t : Table α} {results : List (Option (Outcome α))}
      (hmem : (j, .sweeping sweeper) ∈ (w.close id t results).tasks) :
      ∃ s, (j, .sweeping s) ∈ w.tasks := ⟨sweeper, (mem_tasks_close hmem).1⟩
  cases hv with
  | nobody htask => exact ⟨sweeper, hmem⟩
  | withdrawn wait htask ha => exact hclosed hmem
  | dropped task htask ha hne => exact hclosed hmem
  | fetched key limit a t htask ha ht => exact hclosed hmem
  | entered key limit htask ha ht =>
    rcases mem_tasks_rest hmem with heq | ⟨hmem, -⟩
    · simp at heq
    · exact ⟨sweeper, hmem⟩
  | received wait a t htask ha ht => exact hclosed hmem
  | timedOut wait htask ha ht hd => exact hclosed hmem
  | stayed wait htask ha ht hd =>
    rcases mem_tasks_rest hmem with heq | ⟨hmem, -⟩
    · simp at heq
    · exact ⟨sweeper, hmem⟩
  | idled sweeper htask ha hp => exact hclosed hmem
  | ticked s htask ha hp =>
    rcases mem_tasks_rest hmem with heq | ⟨hmem, -⟩
    · obtain ⟨rfl, -⟩ := Prod.mk.inj heq
      exact ⟨s, Scheduler.mem_of_lookup htask⟩
    · exact ⟨sweeper, hmem⟩

theorem unhurried_turned (h : w.Unhurried) (hw : w.Orderly orders) (hv : Turned w id v) :
    v.Unhurried := by
  rcases h with hclear | hnone
  · exact .inl (clear_turned hclear hw hv)
  · right
    intro j hj sweeper hmem
    rw [(tasks_and_queue_turned hv).1] at hj
    obtain ⟨s, hmem⟩ := sweeping_of_turned hv hmem
    exact hnone j (List.mem_of_mem_erase hj) s hmem

end Values

/-! ## Runs that settle after each step -/

/-- A room whose statistics balance, after these orders and reports. -/
structure InBalance (orders : List RoomTask) (reports : List Removals) (w : WaitingRoom α) :
    Prop where
  orderly : w.Orderly orders
  lodged : w.Lodged
  alarmed : w.Alarmed
  values : w.shared.table.Balanced
  attempts : w.AttemptsBalance orders
  removals : w.ReportsBalance reports
  unhurried : w.Unhurried

namespace InBalance

variable {orders : List RoomTask} {reports : List Removals} {w v : WaitingRoom α}

theorem start (p : Retention) : (start p : WaitingRoom α).InBalance [] [] where
  orderly := .start p
  lodged := fun c hc => by simp [WaitingRoom.start, Scheduler.start, Table.known, Table.empty] at hc
  alarmed := .start p
  values := .empty p
  attempts := .start p
  removals := rfl
  unhurried := .inl fun c hc => by simp [WaitingRoom.start, Scheduler.start, Table.empty] at hc

/-- With nobody in the queue no waiting task is called. -/
theorem clear_of_queue (hw : w.Orderly orders) (hqueue : w.queue = []) :
    w.shared.table.Clear :=
  Table.Clear.of_nobody_called hw.hosts fun e _ => by simp [hqueue]

/-- Time passes, alarms ring or a sweeper is dropped while nobody is in the queue. -/
theorem still (h : w.InBalance orders reports) (hqueue : w.queue = []) {m : Move α}
    (hm : ∀ id, m ≠ .turn id) (hstarted : m.started? = none)
    (hshared : (w.move m).shared = w.shared)
    (hkept : ∀ id ∈ (w.move m).aborted, ∃ sweeper, (id, .sweeping sweeper) ∈ w.tasks) :
    (w.move m).InBalance orders reports := by
  have htasks := (tasks_and_results_of_not_turn w hm).2
  rw [hstarted, Option.toList_none, List.map_nil, List.append_nil] at htasks
  have horderly := h.orderly.move m
  rw [hstarted, Option.toList_none, List.append_nil] at horderly
  constructor
  case orderly => exact horderly
  case lodged => exact h.lodged.move h.orderly m
  case alarmed => exact h.alarmed.move m
  case values => exact hshared ▸ h.values
  case attempts =>
    refine ⟨?_, ?_⟩
    · rw [hshared, htasks]
      exact h.attempts.started
    · rw [htasks]
      exact hkept
  case removals =>
    rw [ReportsBalance, hshared]
    exact h.removals
  case unhurried => exact .inl (hshared ▸ clear_of_queue h.orderly hqueue)

theorem step (h : w.InBalance orders reports) (hstep : w.step? Room.behaviour = some v) :
    v.InBalance orders reports := by
  rcases Scheduler.step?_cases hstep with ⟨id, rest, hqueue, rfl⟩ | ⟨hqueue, rfl⟩
  · have hv := turned w id
    have hid : id ∈ w.queue := hqueue ▸ List.mem_cons_self
    constructor
    case orderly => exact h.orderly.turned hv
    case lodged => exact h.lodged.turned h.orderly hv
    case alarmed => exact h.alarmed.turned hv
    case values =>
      refine balanced_turned h.values h.orderly (h.unhurried.imp_right fun hnone s htask => ?_) hv
      exact hnone id hid s (Scheduler.mem_of_lookup htask)
    case attempts => exact h.attempts.turned h.orderly hv
    case removals => exact h.removals.turned hv
    case unhurried => exact unhurried_turned h.unhurried h.orderly hv
  · refine h.still hqueue (m := .ring) (by simp) rfl (shared_ring w) fun id hid => ?_
    rw [move, Scheduler.ring, Scheduler.callAll_eq] at hid
    exact h.attempts.kept id hid

theorem settle (h : w.InBalance orders reports) : w.settle.InBalance orders reports :=
  Scheduler.run_keeps (fun _ _ hs hstep => hs.step hstep) h _

/-- A value comes, and nobody but the tasks called for it is in the queue. -/
theorem deposit (h : w.InBalance orders reports) (hqueue : w.queue = []) (key : String) (a : α) :
    (w.move (.deposit key a)).InBalance orders reports := by
  have horderly := h.orderly.move (.deposit key a)
  have htasks : (w.move (.deposit key a)).tasks = w.tasks :=
    (tasks_and_results_of_not_turn w (by simp)).2.trans (List.append_nil _)
  have hroom : (w.move (.deposit key a)).shared.table = (w.shared.table.deposit w.now key a).1 ∧
      (w.move (.deposit key a)).shared.reports = w.shared.reports ∧
      (w.move (.deposit key a)).aborted = w.aborted := by
    simp only [move, WaitingRoom.deposit, Scheduler.change, Scheduler.callAll_eq]
    exact ⟨trivial, trivial, trivial⟩
  obtain ⟨htable, hreports, haborted⟩ := hroom
  have hstats : (w.shared.table.deposit w.now key a).1.stats.ended = w.shared.table.stats.ended ∧
      (w.shared.table.deposit w.now key a).1.stats.removals = w.shared.table.stats.removals := by
    rw [Table.fst_deposit, Table.stats_countStats, Table.stats_change, Table.stats_withCell]
    exact ⟨rfl, rfl⟩
  simp only [Move.started?, Option.toList_none, List.append_nil] at horderly
  constructor
  case orderly => exact horderly
  case lodged => exact h.lodged.move h.orderly _
  case alarmed => exact h.alarmed.move _
  case values => exact htable ▸ h.values.deposit h.orderly.hosts w.now key a
  case attempts => exact h.attempts.touch htasks (htable ▸ hstats.1) haborted
  case removals =>
    rw [ReportsBalance, htable, hreports, hstats.2]
    exact h.removals
  case unhurried =>
    right
    intro j hj sweeper hmem
    have hcalled : j ∈ (w.shared.table.withCell w.now key).2.sleepers := by
      rw [move, queue_deposit, hqueue] at hj
      exact (Scheduler.mem_enqueue.mp hj).resolve_left List.not_mem_nil
    obtain ⟨hcell, -⟩ := Table.find?_eq_some (w.shared.table.find?_withCell w.now key)
    obtain ⟨e, he, rfl, -⟩ :=
      h.lodged.withCell w.now key _ (Table.mem_known_of_mem_cells hcell) j hcalled
    rw [htasks] at hmem
    have hwaits := h.orderly.task?_eq_some_iff.mpr (mem_crowdOf.mp he)
    have := hwaits.symm.trans (h.orderly.task?_eq_some_iff.mpr hmem)
    simp at this

theorem sweep (h : w.InBalance orders reports) (hqueue : w.queue = []) (offset : Int) :
    (w.move (.sweep offset)).InBalance orders (reports ++ [(w.sweep offset).1]) := by
  have hclear := clear_of_queue h.orderly hqueue
  have horderly := h.orderly.move (.sweep offset)
  simp only [Move.started?, Option.toList_none, List.append_nil] at horderly
  constructor
  case orderly => exact horderly
  case lodged => exact h.lodged.move h.orderly _
  case alarmed => exact h.alarmed.move _
  case values => exact h.values.sweep hclear _
  case attempts => exact h.attempts.touch rfl rfl rfl
  case removals =>
    refine (Table.removals_sweep h.removals _).trans (Removals.sum_perm ?_)
    rw [List.append_assoc, List.append_assoc]
    exact List.perm_append_comm.append_left _
  case unhurried => exact .inl (hclear.sweep _)

/-- A step from outside in a settled room keeps the balance, if it drops no attempt. -/
theorem perform (h : w.InBalance orders reports) (hqueue : w.queue = []) {s : Step α}
    (hkept : ∀ id, s = .abort id → ∀ wait, w.task? id ≠ some (.waiting wait)) :
    (w.perform s).InBalance (orders ++ s.started?.toList) (reports ++ w.reported s) := by
  have hclear := clear_of_queue h.orderly hqueue
  cases s with
  | fetch key limit =>
    simp only [reported, List.append_nil]
    exact ⟨h.orderly.move (.fetch key limit), h.lodged.move h.orderly (.fetch key limit),
      h.alarmed.move (.fetch key limit), h.values, h.attempts.spawn _, h.removals, .inl hclear⟩
  | startSweeper period =>
    simp only [reported, List.append_nil]
    exact ⟨h.orderly.move (.startSweeper period), h.lodged.move h.orderly (.startSweeper period),
      h.alarmed.move (.startSweeper period), h.values, h.attempts.spawn _, h.removals, .inl hclear⟩
  | deposit key a =>
    simp only [reported, Step.started?, Option.toList_none, List.append_nil]
    exact h.deposit hqueue key a
  | sweep offset =>
    simp only [Step.started?, Option.toList_none, List.append_nil]
    exact h.sweep hqueue offset
  | advance ms =>
    simp only [reported, Step.started?, Option.toList_none, List.append_nil]
    exact h.still hqueue (m := .advance ms) (by simp) rfl rfl h.attempts.kept
  | abort id =>
    simp only [reported, Step.started?, Option.toList_none, List.append_nil]
    refine h.still hqueue (m := .abort id) (by simp) rfl (shared_abort w id) fun j hj => ?_
    rcases Scheduler.mem_aborted_abort.mp hj with hj | ⟨rfl, task, htask⟩
    · exact h.attempts.kept j hj
    · have hmem := Scheduler.mem_of_lookup htask
      cases task with
      | fetching key limit =>
        have := h.orderly.unbegun j key limit hmem
        simp [hqueue] at this
      | waiting wait => exact absurd htask (hkept j rfl wait)
      | sweeping sweeper => exact ⟨sweeper, hmem⟩
  | settle =>
    simp only [reported, Step.started?, Option.toList_none, List.append_nil]
    exact h.settle

end InBalance

/-- After each step the room has settled, and its statistics balance. -/
theorem inBalance_settling (p : Retention) {steps : List (Step α)}
    (hkept : ∀ before id, before ++ [.abort id] <+: steps →
      ∀ wait, (atWork p (settling before)).task? id ≠ some (.waiting wait)) :
    (atWork p (settling steps)).IsSettled Room.behaviour ∧
      (atWork p (settling steps)).InBalance (steps.filterMap Step.started?)
        ((start p).sweepReports (settling steps)) := by
  induction steps using List.reverseRecOn with
  | nil =>
    refine ⟨(Scheduler.isSettled_iff _ _).mpr ⟨rfl, rfl, ?_⟩, .start p⟩
    simp [settling, atWork, start, Scheduler.start]
  | append_singleton steps s ih =>
    obtain ⟨hsettled, hbalance⟩ := ih fun before id hp =>
      hkept before id (hp.trans (List.prefix_append _ _))
    have hqueue := ((Scheduler.isSettled_iff _ _).mp hsettled).1
    have hperform := hbalance.perform hqueue fun id hs => hkept steps id (hs ▸ List.prefix_rfl)
    have hroom : atWork p (settling (steps ++ [s])) =
        ((atWork p (settling steps)).perform s).settle := by
      rw [settling_append, ← List.singleton_append, ← List.append_assoc, atWork_append,
        atWork_append]
      rfl
    have hreports : (start p).sweepReports (settling (steps ++ [s])) =
        (start p).sweepReports (settling steps) ++ (atWork p (settling steps)).reported s := by
      rw [settling_append, sweepReports_append]
      simp [sweepReports, reported, atWork]
    rw [hroom, hreports, List.filterMap_append]
    exact ⟨isSettled_settle hperform.alarmed, hperform.settle⟩

/-- A room settles after each step, and no task is dropped that waits for a value. Then every value
that came was fetched at once or after a wait, was replaced or swept away for its age, or lies in a
cell in reach; every attempt that was started got its value at once or after a wait, timed out, or
goes on; and what the statistics say of sweeps is what these have reported. -/
theorem statistics_balance (p : Retention) (steps : List (Step α))
    (hkept : ∀ before id, before ++ [.abort id] <+: steps →
      ∀ wait, (atWork p (settling before)).task? id ≠ some (.waiting wait)) :
    let w := atWork p (settling steps)
    let stats := w.shared.table.stats
    let reports := (start p).sweepReports (settling steps) ++ w.shared.reports
    w.IsSettled Room.behaviour ∧
      stats.deposited = stats.fetchedAtOnce + stats.fetchedAfterWait + stats.replaced +
        stats.sweptExpired + w.shared.table.cells.countP Cell.hasValue ∧
      (steps.filterMap Step.started?).countP RoomTask.fetches = stats.fetchedAtOnce +
        stats.fetchedAfterWait + stats.timeouts + w.tasks.countP (fun e => e.2.fetches) ∧
      stats.sweptExpired = (reports.map Removals.expired).sum ∧
      stats.sweptUnused = (reports.map Removals.unused).sum := by
  intro w stats reports
  obtain ⟨hsettled, hbalance⟩ := inBalance_settling p hkept
  obtain ⟨hexpired, hunused⟩ := Removals.mk.inj hbalance.removals
  exact ⟨hsettled, hbalance.values.deposits, hbalance.attempts.started, hexpired, hunused⟩

/-- A value comes, and a task waits for another one. A sweeper removes the value and is dropped. -/
def watched : List (Step Nat) :=
  [.startSweeper 20, .deposit "a" 1, .fetch "k" 9, .advance 9, .advance 11, .abort 0]

/-- The value was swept away and the task timed out. -/
theorem watched_in_balance :
    let w := atWork ⟨10, none⟩ (settling watched)
    let stats := w.shared.table.stats
    stats = ⟨0, 0, 1, 0, 1, 1, 0⟩ ∧
      stats.deposited = stats.fetchedAtOnce + stats.fetchedAfterWait + stats.replaced +
        stats.sweptExpired + w.shared.table.cells.countP Cell.hasValue := by
  intro w stats
  have hstats : (atWork ⟨10, none⟩ (settling watched)).shared.table.stats =
      ⟨0, 0, 1, 0, 1, 1, 0⟩ := by decide +kernel
  refine ⟨hstats, (statistics_balance ⟨10, none⟩ watched ?_).2.1⟩
  intro before id hp wait
  obtain ⟨rfl, rfl⟩ : before = watched.take 5 ∧ id = 0 := by
    rcases before with _ | ⟨a, _ | ⟨b, _ | ⟨c, _ | ⟨d, _ | ⟨e, _ | ⟨f, before⟩⟩⟩⟩⟩⟩
    all_goals simp [watched, List.cons_prefix_cons] at hp
    obtain ⟨rfl, rfl, rfl, rfl, rfl, rfl⟩ := hp
    exact ⟨rfl, rfl⟩
  have hsweeps : (atWork ⟨10, none⟩ (settling (watched.take 5))).task? 0 =
      some (.sweeping ⟨20, some ⟨40, true⟩⟩) := by decide +kernel
  simp [hsweeps]

end WaitingRoom
end EbmsMessaging.Correlation
