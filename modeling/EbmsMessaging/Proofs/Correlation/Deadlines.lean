import EbmsMessaging.Proofs.Correlation.Orderly

/-!
# No wake-up is lost

A task that waits with a limit has its alarm set, or the alarm has rung and the task is called. When
the room is settled nobody is called. So nobody waits at a cell with a value, and nobody waits
beyond its limit. A task gives up only when its limit has passed and its own cell is empty.
-/
namespace EbmsMessaging.Correlation.WaitingRoom

open Table

variable {α : Type}

structure Timely (w : WaitingRoom α) : Prop where
  rung_le : w.clock.rung ≤ w.now
  alarmed : ∀ id wait, (id, .waiting wait) ∈ w.tasks → ∀ d, wait.deadline = some d →
    (id, d) ∈ w.alarms ∨ (d ≤ w.clock.rung ∧ id ∈ w.queue)

namespace Timely

variable {w : WaitingRoom α}

/-- No wait begins, no alarm is lost, and time may pass. -/
theorem touch (h : w.Timely) {v : WaitingRoom α} (hclock : v.clock.rung = w.clock.rung)
    (hnow : w.now ≤ v.now) (htasks : ∀ id wait, (id, .waiting wait) ∈ v.tasks →
      (id, .waiting wait) ∈ w.tasks) (halarms : v.alarms = w.alarms)
    (hqueue : ∀ j ∈ w.queue, j ∈ v.queue) : v.Timely where
  rung_le := by
    rw [hclock]
    exact Nat.le_trans h.rung_le hnow
  alarmed id wait hmem d hd := by
    rw [halarms, hclock]
    exact (h.alarmed id wait (htasks id wait hmem) d hd).imp_right (.imp_right (hqueue id))

/-- The alarms of the other tasks stay at a turn. -/
theorem others (h : w.Timely) {id j : TaskId} {wait : Wait} (hmem : (j, .waiting wait) ∈ w.tasks)
    (hj : j ≠ id) {d : Nat} (hd : wait.deadline = some d) :
    (j, d) ∈ w.alarms.filter (fun a => a.1 ≠ id) ∨
      (d ≤ w.clock.rung ∧ j ∈ w.queue.erase id) := by
  rcases h.alarmed j wait hmem d hd with ha | ⟨hle, hq⟩
  · exact .inl (List.mem_filter.mpr ⟨ha, by simpa using hj⟩)
  · exact .inr ⟨hle, (List.mem_erase_of_ne hj).mpr hq⟩

theorem close (h : w.Timely) (id : TaskId) (t : Table α) (results : List (Option (Outcome α))) :
    (w.close id t results).Timely where
  rung_le := h.rung_le
  alarmed j wait hmem d hd := by
    obtain ⟨hmem, hj⟩ := mem_tasks_close hmem
    exact h.others hmem hj hd

/-- A task goes to sleep with a new alarm, or with the one that it has. -/
theorem rest (h : w.Timely) {id : TaskId} {task : RoomTask} {alarms : List (TaskId × Nat)}
    {room : Room α} (halarms : ∀ a ∈ w.alarms, a.1 ≠ id → a ∈ alarms)
    (htask : ∀ wait, task = .waiting wait → ∀ d, wait.deadline = some d → (id, d) ∈ alarms) :
    (w.rest id task alarms room).Timely where
  rung_le := h.rung_le
  alarmed j wait hmem d hd := by
    rcases mem_tasks_rest hmem with heq | ⟨hmem, hj⟩
    · obtain ⟨rfl, hwait⟩ := Prod.mk.inj heq
      exact .inl (htask wait hwait.symm d hd)
    · refine (h.others hmem hj hd).imp_left fun ha => halarms _ (List.mem_filter.mp ha).1 hj

theorem turned (h : w.Timely) {id : TaskId} {v : WaitingRoom α} (hv : Turned w id v)
    {orders : List RoomTask} (hw : w.Orderly orders) : v.Timely := by
  cases hv with
  | nobody htask =>
    refine ⟨h.rung_le, fun j wait hmem d hd => ?_⟩
    have hj : j ≠ id := by
      rintro rfl
      rw [hw.task?_eq_some_iff.mpr hmem] at htask
      simp at htask
    exact (h.others hmem hj hd).imp_left fun ha => (List.mem_filter.mp ha).1
  | withdrawn wait _ _ => exact h.close _ _ _
  | dropped task _ _ _ => exact h.close _ _ _
  | fetched key limit a t _ _ _ => exact h.close _ _ _
  | entered key limit _ _ _ =>
    refine h.rest (fun a ha hne => mem_alarmsWith_of_ne ha hne) ?_
    rintro wait heq d hd
    obtain rfl := RoomTask.waiting.inj heq
    exact List.mem_append_right _ (by simp [hd])
  | received wait a t _ _ _ => exact h.close _ _ _
  | timedOut wait _ _ _ _ => exact h.close _ _ _
  | stayed wait htask _ _ hlate =>
    refine h.rest (fun a ha _ => ha) ?_
    rintro wait' heq d hd
    obtain rfl := RoomTask.waiting.inj heq
    rcases h.alarmed id wait (Scheduler.mem_of_lookup htask) d hd with ha | ⟨hle, -⟩
    · exact ha
    · simp [hd] at hlate
      omega
  | idled sweeper _ _ _ => exact h.close _ _ _
  | ticked sweeper _ _ _ => exact h.rest (fun a ha hne => mem_alarmsWith_of_ne ha hne) (by simp)

/-- Whoever's alarm rings is called. -/
theorem ring (h : w.Timely) : Timely (Scheduler.ring w) := by
  simp only [Scheduler.ring, Scheduler.callAll_eq]
  refine ⟨Nat.le_refl _, fun id wait hmem d hd => ?_⟩
  rcases h.alarmed id wait hmem d hd with ha | ⟨hle, hq⟩
  · by_cases hdue : d ≤ w.now
    · refine .inr ⟨hdue, Scheduler.mem_enqueue.mpr (.inr ?_)⟩
      refine List.mem_map.mpr ⟨(id, d), ?_, rfl⟩
      rw [Scheduler.dueAlarms, List.mem_mergeSort]
      exact List.mem_filter.mpr ⟨ha, by simpa using hdue⟩
    · exact .inl (List.mem_filter.mpr ⟨ha, by simpa using hdue⟩)
  · exact .inr ⟨Nat.le_trans hle h.rung_le, Scheduler.mem_enqueue.mpr (.inl hq)⟩

theorem move (h : w.Timely) {orders : List RoomTask} (hw : w.Orderly orders) (m : Move α) :
    (w.move m).Timely := by
  have hspawn {task : RoomTask} (htask : ∀ wait, task ≠ .waiting wait) :
      Timely (w.spawn task) := by
    refine h.touch rfl (Nat.le_refl _) (fun id wait hmem => ?_) rfl
      fun j hj => List.mem_append_left _ hj
    rcases List.mem_append.mp hmem with hmem | hmem
    · exact hmem
    · exact absurd (Prod.mk.inj (List.mem_singleton.mp hmem)).2.symm (htask wait)
  have hcalled {shared : Room α} {aborted ids : List TaskId} : Timely ({ w with
      queue := Scheduler.enqueue w.queue ids
      aborted := aborted
      shared := shared } : WaitingRoom α) :=
    h.touch rfl (Nat.le_refl _) (fun _ _ hmem => hmem) rfl
      fun j hj => Scheduler.mem_enqueue.mpr (.inl hj)
  cases m with
  | fetch key limit => exact hspawn (by simp)
  | startSweeper period => exact hspawn (by simp)
  | deposit key a =>
    simp only [WaitingRoom.move, WaitingRoom.deposit, Scheduler.change, Scheduler.callAll_eq]
    exact hcalled
  | sweep offset =>
    simp only [WaitingRoom.move, WaitingRoom.sweep, Scheduler.change, Scheduler.callAll_eq]
    exact hcalled
  | advance ms =>
    exact h.touch rfl (Nat.le_add_right _ _) (fun _ _ hmem => hmem) rfl fun _ hj => hj
  | abort id =>
    rw [WaitingRoom.move]
    rcases Scheduler.abort_cases w id with heq | heq
    · rw [heq]
      exact h
    · rw [heq]
      exact hcalled
  | turn id => exact h.turned (WaitingRoom.turned w id) hw
  | ring => exact h.ring

end Timely

theorem timely_after (p : Retention) (moves : List (Move α)) : (after p moves).Timely := by
  induction moves using List.reverseRecOn with
  | nil => exact ⟨Nat.le_refl _, by simp [start, Scheduler.start]⟩
  | append_singleton moves m ih =>
    rw [after_append]
    exact ih.move (orderly_after p moves) m

/-! ## When a task begins to wait, and when it gives up -/

/-- A task begins to wait at its turn. -/
def Begins (w : WaitingRoom α) (m : Move α) (id : TaskId) (wait : Wait) : Prop :=
  m = .turn id ∧ wait.startedAt = w.now ∧
    ∃ limit, w.task? id = some (.fetching wait.key limit)

/-- A task gives up at its turn, beyond its limit and with nothing in its own cell. -/
def GivesUp (w : WaitingRoom α) (m : Move α) (id : TaskId) (key : String) (waited : Nat) : Prop :=
  m = .turn id ∧ ∃ wait c, w.task? id = some (.waiting wait) ∧ wait.key = key ∧
    w.shared.table.cell? wait.cell = some c ∧ c.key = key ∧ c.slot = none ∧
    wait.deadline.any (· ≤ w.now) = true ∧ waited = w.now - wait.startedAt

theorem begins_of_turned {w v : WaitingRoom α} {id j : TaskId} {wait : Wait} (h : Turned w id v)
    (hmem : (j, .waiting wait) ∈ v.tasks) :
    (j, .waiting wait) ∈ w.tasks ∨ w.Begins (.turn id) j wait := by
  cases h with
  | nobody _ => exact .inl hmem
  | entered key limit htask _ _ =>
    rcases mem_tasks_rest hmem with heq | ⟨hmem, -⟩
    · obtain ⟨rfl, hwait⟩ := Prod.mk.inj heq
      obtain rfl := RoomTask.waiting.inj hwait
      exact .inr ⟨rfl, rfl, limit, htask⟩
    · exact .inl hmem
  | stayed wait' htask _ _ _ =>
    rcases mem_tasks_rest hmem with heq | ⟨hmem, -⟩
    · rw [heq]
      exact .inl (Scheduler.mem_of_lookup htask)
    · exact .inl hmem
  | ticked sweeper _ _ _ =>
    rcases mem_tasks_rest hmem with heq | ⟨hmem, -⟩
    · simp at heq
    · exact .inl hmem
  | _ => exact .inl (mem_tasks_close hmem).1

theorem begins_of_move {w : WaitingRoom α} {m : Move α} {j : TaskId} {wait : Wait}
    (hmem : (j, .waiting wait) ∈ (w.move m).tasks) :
    (j, .waiting wait) ∈ w.tasks ∨ w.Begins m j wait := by
  by_cases hm : ∃ id, m = .turn id
  · obtain ⟨id, rfl⟩ := hm
    exact begins_of_turned (turned w id) hmem
  · rw [(tasks_and_results_of_not_turn w (not_exists.mp hm)).2] at hmem
    refine .inl ((List.mem_append.mp hmem).resolve_right fun hnew => ?_)
    cases m <;> simp [Move.started?] at hnew

/-- Every wait began at some turn. -/
theorem begun (p : Retention) (moves : List (Move α)) {id : TaskId} {wait : Wait}
    (hmem : (id, .waiting wait) ∈ (after p moves).tasks) :
    Occurs p moves fun w m => w.Begins m id wait := by
  induction moves using List.reverseRecOn with
  | nil => simp [start, Scheduler.start] at hmem
  | append_singleton moves m ih =>
    rw [after_append] at hmem
    rw [occurs_append]
    exact (begins_of_move hmem).imp_left ih

theorem mem_results_close {w : WaitingRoom α} {id : TaskId} {t : Table α}
    {results : List (Option (Outcome α))} {r : TaskId × Option (Outcome α)} :
    r ∈ (w.close id t results).results ↔ r ∈ w.results ∨ (r.1 = id ∧ r.2 ∈ results) := by
  simp only [close, List.mem_append, List.mem_map]
  refine or_congr_right ⟨?_, ?_⟩
  · rintro ⟨r', hr', rfl⟩
    exact ⟨rfl, hr'⟩
  · rintro ⟨hid, hr⟩
    exact ⟨r.2, hr, by rw [← hid]⟩

theorem givesUp_of_turned {w v : WaitingRoom α} (hw : w.Timely) {orders : List RoomTask}
    (ho : w.Orderly orders) {id j : TaskId} {key : String} {waited : Nat} (h : Turned w id v)
    (hmem : (j, some (.timeout key waited)) ∈ v.results) :
    (j, some (.timeout key waited)) ∈ w.results ∨ w.GivesUp (.turn id) j key waited := by
  cases h with
  | nobody _ | entered key limit _ _ _ | stayed wait _ _ _ _ | ticked sweeper _ _ _ =>
    exact .inl hmem
  | withdrawn wait _ _ | dropped task _ _ _ | fetched key limit a t _ _ _
  | received wait a t _ _ _ | idled sweeper _ _ _ =>
    refine .inl ((mem_results_close.mp hmem).resolve_right ?_)
    simp
  | timedOut wait htask _ hnone hlate =>
    refine (mem_results_close.mp hmem).imp_right fun ⟨hid, hr⟩ => ?_
    simp only [List.mem_singleton, Option.some.injEq, Outcome.timeout.injEq] at hid hr
    obtain ⟨rfl, rfl⟩ := hr
    obtain ⟨c, hc, hcid, hkey, -⟩ :=
      ho.hosts.placed _ (mem_crowdOf.mpr (Scheduler.mem_of_lookup htask))
    have hcell := ho.hosts.cell?_eq_some_iff.mpr ⟨hc, hcid⟩
    refine ⟨by rw [hid], wait, c, by rw [hid]; exact htask, rfl, hcell, hkey,
      takeAwaited?_eq_none.mp hnone c hcell, ?_, rfl⟩
    rw [Option.any_eq_true_iff_get] at hlate ⊢
    obtain ⟨hd, hle⟩ := hlate
    have hrung := hw.rung_le
    exact ⟨hd, by simp only [decide_eq_true_eq] at hle ⊢; omega⟩

theorem givesUp_of_move {w : WaitingRoom α} (hw : w.Timely) {orders : List RoomTask}
    (ho : w.Orderly orders) {m : Move α} {j : TaskId} {key : String} {waited : Nat}
    (hmem : (j, some (.timeout key waited)) ∈ (w.move m).results) :
    (j, some (.timeout key waited)) ∈ w.results ∨ w.GivesUp m j key waited := by
  by_cases hm : ∃ id, m = .turn id
  · obtain ⟨id, rfl⟩ := hm
    exact givesUp_of_turned hw ho (turned w id) hmem
  · rw [(tasks_and_results_of_not_turn w (not_exists.mp hm)).1] at hmem
    exact .inl hmem

/-- Every timeout happened at some turn. -/
theorem gaveUp (p : Retention) (moves : List (Move α)) {id : TaskId} {key : String} {waited : Nat}
    (hmem : (id, some (.timeout key waited)) ∈ (after p moves).results) :
    Occurs p moves fun w m => w.GivesUp m id key waited := by
  induction moves using List.reverseRecOn with
  | nil => simp [start, Scheduler.start] at hmem
  | append_singleton moves m ih =>
    rw [after_append] at hmem
    rw [occurs_append]
    exact (givesUp_of_move (timely_after p moves) (orderly_after p moves) hmem).imp_left ih

/-- Whoever gives up was given a limit and has waited for it. -/
theorem limit_of_givesUp {w : WaitingRoom α} {orders : List RoomTask} (hw : w.Orderly orders)
    {m : Move α} {id : TaskId} {key : String} {waited : Nat} (h : w.GivesUp m id key waited) :
    ∃ limit, orders[id]? = some (.fetching key limit) ∧ 0 < limit ∧ limit ≤ waited := by
  obtain ⟨-, wait, c, htask, rfl, -, -, -, hlate, rfl⟩ := h
  obtain ⟨order, horder, limit, rfl, hdeadline⟩ := hw.stems _ (Scheduler.mem_of_lookup htask)
  refine ⟨limit, horder, ?_⟩
  rw [hdeadline, deadlineOf] at hlate
  split at hlate
  · simp at hlate
  · simp only [Option.any_some, decide_eq_true_eq] at hlate
    omega

/-- A value that is present wins over a limit that has passed. -/
theorem value_of_turn (w : WaitingRoom α) {id : TaskId} {wait : Wait} {c : Cell α} {d : Deposit α}
    (htask : w.task? id = some (.waiting wait)) (ha : id ∉ w.aborted)
    (hc : w.shared.table.cell? wait.cell = some c) (hd : c.slot = some d) :
    (id, some (.value d.value)) ∈ (w.move (.turn id)).results := by
  rcases (turned w id).of_waiting htask ha with ⟨a, t, ht, heq⟩ | ⟨hnone, -⟩
  · obtain ⟨c', d', hc', hd', rfl, -⟩ := takeAwaited?_eq_some ht
    obtain rfl : c = c' := Option.some.inj (hc.symm.trans hc')
    obtain rfl : d = d' := Option.some.inj (hd.symm.trans hd')
    rw [heq]
    exact mem_results_close.mpr (.inr ⟨rfl, List.mem_singleton_self _⟩)
  · simp [takeAwaited?_eq_none.mp hnone c hc] at hd

/-- A task that is there in a settled room waits, at an empty cell that will call it. -/
theorem waiting_of_settled {p : Retention} {moves : List (Move α)}
    (hs : (after p moves).IsSettled Room.behaviour) {id : TaskId} {task : RoomTask}
    (htask : (after p moves).task? id = some task) {key : String} {limit : Nat}
    (hstart : (started moves)[id]? = some (.fetching key limit)) :
    ∃ wait c, task = .waiting wait ∧ wait.key = key ∧
      (after p moves).shared.table.cell? wait.cell = some c ∧ c.key = key ∧ id ∈ c.sleepers ∧
      c.slot = none ∧ (limit ≠ 0 → (after p moves).now < wait.startedAt + limit) ∧
      Occurs p moves fun w m => w.Begins m id wait := by
  have ho := orderly_after p moves
  obtain ⟨hqueue, -, halarms⟩ := (Scheduler.isSettled_iff _ _).mp hs
  have hmem := Scheduler.mem_of_lookup htask
  obtain ⟨order, horder, hstem⟩ := ho.stems _ hmem
  obtain rfl : order = .fetching key limit := Option.some.inj (horder.symm.trans hstart)
  cases task with
  | sweeping sweeper =>
    obtain ⟨s, hs⟩ := hstem
    simp at hs
  | fetching key' limit' =>
    have hq := ho.unbegun _ _ _ hmem
    simp [hqueue] at hq
  | waiting wait =>
    obtain ⟨limit', heq, hdeadline⟩ := hstem
    obtain ⟨rfl, rfl⟩ := RoomTask.fetching.inj heq
    obtain ⟨c, hc, hid, hkey, hcalled⟩ := ho.hosts.placed _ (mem_crowdOf.mpr hmem)
    have hsleeps : id ∈ c.sleepers := hcalled.resolve_right (by simp [hqueue])
    refine ⟨wait, c, rfl, rfl, ho.hosts.cell?_eq_some_iff.mpr ⟨hc, hid⟩, hkey, hsleeps, ?_, ?_,
      begun p moves hmem⟩
    · by_contra hslot
      have hvalue : c.hasValue = true := Option.isSome_iff_ne_none.mpr hslot
      rw [ho.hosts.awake c hc hvalue] at hsleeps
      simp at hsleeps
    · intro hlimit
      rw [deadlineOf, if_neg hlimit] at hdeadline
      rcases (timely_after p moves).alarmed id wait hmem _ hdeadline with ha | ⟨-, hq⟩
      · exact halarms _ ha
      · simp [hqueue] at hq

/-- In a settled room every task that still fetches waits at an empty cell that will call it, and
its limit has not passed. A timeout is returned only by a task with a limit, after the limit, with
nothing in its cell at that turn; a task that finds a value returns it. -/
theorem settled_waits_and_timeouts (p : Retention) (moves : List (Move α)) :
    ((after p moves).IsSettled Room.behaviour → ∀ id task key limit,
      (after p moves).task? id = some task →
      (started moves)[id]? = some (.fetching key limit) → ∃ wait c,
        task = .waiting wait ∧ wait.key = key ∧
        (after p moves).shared.table.cell? wait.cell = some c ∧ c.key = key ∧
        id ∈ c.sleepers ∧ c.slot = none ∧
        (limit ≠ 0 → (after p moves).now < wait.startedAt + limit) ∧
        Occurs p moves fun w m => w.Begins m id wait) ∧
    (∀ id key waited, (id, some (.timeout key waited)) ∈ (after p moves).results →
      ∃ limit, (started moves)[id]? = some (.fetching key limit) ∧ 0 < limit ∧ limit ≤ waited ∧
        Occurs p moves fun w m => w.GivesUp m id key waited) ∧
    (∀ id wait c d, (after p moves).task? id = some (.waiting wait) →
      id ∉ (after p moves).aborted → (after p moves).shared.table.cell? wait.cell = some c →
      c.slot = some d →
      (id, some (.value d.value)) ∈ ((after p moves).move (.turn id)).results) := by
  refine ⟨fun hs id task key limit htask hstart => waiting_of_settled hs htask hstart, ?_,
    fun id wait c d htask ha hc hd => value_of_turn _ htask ha hc hd⟩
  intro id key waited hmem
  have hoccurs := gaveUp p moves hmem
  obtain ⟨before, m, hprefix, hgives⟩ := hoccurs
  obtain ⟨limit, horder, hpos, hle⟩ := limit_of_givesUp (orderly_after p before) hgives
  have hbefore : before <+: moves := (List.prefix_append _ _).trans hprefix
  exact ⟨limit, getElem?_started_of_prefix hbefore horder, hpos, hle, before, m, hprefix, hgives⟩

/-- Two tasks wait for one value. After it came one of them is left, and nothing is due. -/
def contested : List (Move Nat) :=
  [.fetch "k" 5, .fetch "k" 0, .turn 0, .turn 1, .deposit "k" 7, .turn 0, .turn 1]

/-- The task that is left waits without a limit. -/
theorem contested_settled :
    (after ⟨10, none⟩ contested).IsSettled Room.behaviour ∧
      ∃ task wait c, (after ⟨10, none⟩ contested).task? 1 = some task ∧ task = .waiting wait ∧
        (after ⟨10, none⟩ contested).shared.table.cell? wait.cell = some c ∧ 1 ∈ c.sleepers ∧
        c.slot = none := by
  have hsettled : (after ⟨10, none⟩ contested).IsSettled Room.behaviour :=
    (Scheduler.isSettled_iff _ _).mpr (by decide)
  obtain ⟨task, htask⟩ : ∃ task, (after ⟨10, none⟩ contested).task? 1 = some task := ⟨_, rfl⟩
  obtain ⟨wait, c, hwait, -, hcell, -, hsleeps, hslot, -⟩ :=
    (settled_waits_and_timeouts ⟨10, none⟩ contested).1 hsettled 1 task "k" 0 htask rfl
  exact ⟨hsettled, task, wait, c, htask, hwait, hcell, hsleeps, hslot⟩

end EbmsMessaging.Correlation.WaitingRoom
