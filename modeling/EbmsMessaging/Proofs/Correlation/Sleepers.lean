import EbmsMessaging.Proofs.Correlation.Evolution

/-!
# Who sleeps at a cell waits there

A task that is to be called when a value arrives is one of those that the cell counts. So where
nobody waits there is nobody to be called. And no task sleeps at a cell twice.
-/
namespace EbmsMessaging.Correlation

variable {α : Type}

namespace Table

/-- Whoever sleeps at a cell is one of the crowd and waits at this cell. -/
def Lodges (t : Table α) (crowd : Crowd) : Prop :=
  ∀ c ∈ t.known, ∀ j ∈ c.sleepers, ∃ e ∈ crowd, e.1 = j ∧ e.2.cell = c.id

namespace Lodges

variable {t t' : Table α} {crowd crowd' : Crowd} {id : TaskId} {w : Wait} {a : α}

theorem mono (h : t.Lodges crowd) (hsub : ∀ e ∈ crowd, e ∈ crowd') : t.Lodges crowd' := by
  intro c hc j hj
  obtain ⟨e, he, hej, hcell⟩ := h c hc j hj
  exact ⟨e, hsub e he, hej, hcell⟩

theorem countStats (h : t.Lodges crowd) (f : Stats → Stats) : (t.countStats f).Lodges crowd := h

/-- One cell is changed, perhaps along with the crowd there. -/
theorem change {n : Nat} {f : Cell α → Cell α} (hid : ∀ c, (f c).id = c.id)
    (hcell : ∀ c ∈ t.known, c.id = n → ∀ j ∈ (f c).sleepers, ∃ e ∈ crowd, e.1 = j ∧ e.2.cell = n)
    (hothers : ∀ c ∈ t.known, c.id ≠ n → ∀ j ∈ c.sleepers,
      ∃ e ∈ crowd, e.1 = j ∧ e.2.cell = c.id) : (t.change n f).Lodges crowd := by
  intro c' hc'
  obtain ⟨c, hc, ⟨hn, rfl⟩ | ⟨hn, rfl⟩⟩ := mem_known_change hc'
  · rw [hid, hn]
    exact hcell c hc hn
  · exact hothers c' hc hn

theorem withCell (h : t.Lodges crowd) (now : Nat) (key : String) :
    (t.withCell now key).1.Lodges crowd := by
  rcases t.withCell_cases now key with ⟨c, -, heq⟩ | ⟨-, heq⟩
  · rw [heq]
    exact h
  · rw [heq]
    intro c hc
    rcases mem_known_added hc with hc | rfl
    · exact h c hc
    · exact fun j hj => absurd hj List.not_mem_nil

theorem deposit (h : t.Lodges crowd) (now : Nat) (key : String) (a : α) :
    (t.deposit now key a).1.Lodges crowd := by
  rw [fst_deposit]
  have hw := h.withCell now key
  exact change (fun _ => rfl) (fun _ _ _ j hj => absurd hj List.not_mem_nil)
    (fun c hc _ => hw c hc)

theorem clear (h : t.Lodges crowd) (n : Nat) : (t.change n Cell.clear).Lodges crowd :=
  change (fun _ => rfl) (fun c hc hn => hn ▸ h c hc) (fun c hc _ => h c hc)

theorem remove (h : t.Lodges crowd) (n : Nat) : (t.remove n).Lodges crowd :=
  fun c hc => h c (mem_known_remove hc)

theorem takeReady (h : t.Lodges crowd) {key : String} (ht : t.takeReady? key = some (a, t')) :
    t'.Lodges crowd := by
  obtain ⟨c, d, -, -, -, rfl⟩ := takeReady?_eq_some ht
  split
  · exact h.remove c.id
  · exact h.clear c.id

theorem enter (h : t.Lodges crowd) (w : Wait) :
    (t.change w.cell fun c => c.enter id).Lodges ((id, w) :: crowd) := by
  have hmono := h.mono fun e he => List.mem_cons_of_mem (id, w) he
  refine change (fun _ => rfl) (fun c hc hn j hj => ?_) (fun c hc _ => hmono c hc)
  rcases List.mem_append.mp hj with hj | hj
  · exact hn ▸ hmono c hc j hj
  · obtain rfl := List.mem_singleton.mp hj
    exact ⟨(j, w), List.mem_cons_self, rfl, rfl⟩

theorem sleep (h : t.Lodges ((id, w) :: crowd)) :
    (t.change w.cell fun c => c.sleep id).Lodges ((id, w) :: crowd) := by
  refine change (fun c => c.id_sleep id) (fun c hc hn j hj => ?_) (fun c hc _ => h c hc)
  rcases (c.mem_sleepers_sleep id j).mp hj with hj | rfl
  · exact hn ▸ h c hc j hj
  · exact ⟨(j, w), List.mem_cons_self, rfl, rfl⟩

theorem leave (h : t.Lodges ((id, w) :: crowd)) : (t.leave w.cell id).Lodges crowd := by
  have hchanged : (t.change w.cell fun c => c.leave id).Lodges crowd := by
    refine change (fun _ => rfl) (fun c hc hn j hj => ?_) (fun c hc hn j hj => ?_)
    · obtain ⟨hj, hne⟩ := List.mem_filter.mp hj
      obtain ⟨e, he, rfl, hcell⟩ := h c hc j hj
      rcases List.mem_cons.mp he with rfl | he
      · simp at hne
      · exact ⟨e, he, rfl, hcell.trans hn⟩
    · obtain ⟨e, he, rfl, hcell⟩ := h c hc j hj
      rcases List.mem_cons.mp he with rfl | he
      · exact absurd hcell.symm hn
      · exact ⟨e, he, rfl, hcell⟩
  exact fun c hc => hchanged c (mem_known_leave hc)

theorem takeAwaited (h : t.Lodges ((id, w) :: crowd))
    (ht : t.takeAwaited? w.cell = some (a, t')) : (t'.leave w.cell id).Lodges crowd := by
  obtain ⟨c, d, -, -, -, rfl⟩ := takeAwaited?_eq_some ht
  split
  · exact (h.remove w.cell).leave
  · exact (h.clear w.cell).leave

theorem sweep (h : t.Lodges crowd) (asOf : Int) : (t.sweep asOf).1.Lodges crowd :=
  fun c hc => h c (mem_known_sweep hc)

theorem sweepTimes (h : t.Lodges crowd) (now n : Nat) : (t.sweepTimes now n).1.Lodges crowd := by
  induction n generalizing t with
  | zero => exact h
  | succ n ih => exact ih (h.sweep now)

/-- Where nobody waits nobody sleeps. -/
theorem sleepers_eq_nil {queue : List TaskId} (h : t.Lodges crowd) (hosts : t.Hosts crowd queue)
    {c : Cell α} (hc : c ∈ t.known) (hnobody : c.waiters = 0) : c.sleepers = [] := by
  rw [List.eq_nil_iff_forall_not_mem]
  intro j hj
  obtain ⟨e, he, -, hcell⟩ := h c hc j hj
  rw [hosts.waiters_eq c hc] at hnobody
  exact Crowd.ne_cell_of_countAt_eq_zero hnobody e he hcell

end Lodges

/-- No task sleeps at a cell twice. -/
def SleepsOnce (t : Table α) : Prop := ∀ c ∈ t.known, c.sleepers.Nodup

namespace SleepsOnce

variable {t t' : Table α} {a : α}

theorem countStats (h : t.SleepsOnce) (f : Stats → Stats) : (t.countStats f).SleepsOnce := h

theorem change (h : t.SleepsOnce) {n : Nat} {f : Cell α → Cell α}
    (hf : ∀ c ∈ t.known, c.sleepers.Nodup → (f c).sleepers.Nodup) : (t.change n f).SleepsOnce := by
  intro c' hc'
  obtain ⟨c, hc, ⟨-, rfl⟩ | ⟨-, rfl⟩⟩ := mem_known_change hc'
  · exact hf c hc (h c hc)
  · exact h c' hc

theorem clear (h : t.SleepsOnce) (n : Nat) : (t.change n Cell.clear).SleepsOnce :=
  h.change fun _ _ hc => hc

theorem remove (h : t.SleepsOnce) (n : Nat) : (t.remove n).SleepsOnce :=
  fun c hc => h c (mem_known_remove hc)

theorem withCell (h : t.SleepsOnce) (now : Nat) (key : String) :
    (t.withCell now key).1.SleepsOnce := by
  rcases t.withCell_cases now key with ⟨c, -, heq⟩ | ⟨-, heq⟩
  · rwa [heq]
  · rw [heq]
    intro c hc
    rcases mem_known_added hc with hc | rfl
    · exact h c hc
    · exact List.nodup_nil

theorem deposit (h : t.SleepsOnce) (now : Nat) (key : String) (a : α) :
    (t.deposit now key a).1.SleepsOnce := by
  rw [fst_deposit]
  exact (h.withCell now key).change fun _ _ _ => List.nodup_nil

theorem takeReady (h : t.SleepsOnce) {key : String} (ht : t.takeReady? key = some (a, t')) :
    t'.SleepsOnce := by
  obtain ⟨c, d, -, -, -, rfl⟩ := takeReady?_eq_some ht
  split
  · exact h.remove c.id
  · exact h.clear c.id

theorem takeAwaited (h : t.SleepsOnce) {n : Nat} (ht : t.takeAwaited? n = some (a, t')) :
    t'.SleepsOnce := by
  obtain ⟨c, d, -, -, -, rfl⟩ := takeAwaited?_eq_some ht
  split
  · exact h.remove n
  · exact h.clear n

/-- A task enters that does not sleep anywhere. -/
theorem enter (h : t.SleepsOnce) (n : Nat) {id : TaskId} (hid : ∀ c ∈ t.known, id ∉ c.sleepers) :
    (t.change n fun c => c.enter id).SleepsOnce :=
  h.change fun c hc hnodup => List.nodup_append.mpr ⟨hnodup, List.nodup_singleton id,
    fun _ hj _ hi heq => hid c hc (List.mem_singleton.mp hi ▸ heq ▸ hj)⟩

theorem leave (h : t.SleepsOnce) (n : Nat) (id : TaskId) : (t.leave n id).SleepsOnce := by
  have hchanged : (t.change n fun c => c.leave id).SleepsOnce :=
    h.change fun _ _ hc => hc.sublist List.filter_sublist
  exact fun c hc => hchanged c (mem_known_leave hc)

theorem sleep (h : t.SleepsOnce) (n : Nat) (id : TaskId) :
    (t.change n fun c => c.sleep id).SleepsOnce := by
  refine h.change fun c _ hc => ?_
  rw [Cell.sleep]
  split
  · exact hc
  · next hid =>
    exact List.nodup_append.mpr ⟨hc, List.nodup_singleton id,
      fun j hj i hi heq => hid (List.mem_singleton.mp hi ▸ heq ▸ hj)⟩

theorem sweepTimes (h : t.SleepsOnce) (now n : Nat) : (t.sweepTimes now n).1.SleepsOnce := by
  induction n generalizing t with
  | zero => exact h
  | succ n ih => exact ih fun c hc => h c (mem_known_sweep hc)

end SleepsOnce
end Table

namespace WaitingRoom

/-- Whoever sleeps in a room waits in it. -/
def Lodged (w : WaitingRoom α) : Prop := w.shared.table.Lodges w.crowd

namespace Lodged

variable {orders : List RoomTask} {w v : WaitingRoom α} {id : TaskId} {task : RoomTask}

theorem with_waiting (h : w.Lodged) (hw : w.Orderly orders) {wait : Wait}
    (htask : w.task? id = some (.waiting wait)) : w.shared.table.Lodges
      ((id, wait) :: crowdOf (w.tasks.filter fun e => e.1 ≠ id)) :=
  h.mono fun _ he =>
    (crowdOf_perm (Scheduler.perm_of_lookup hw.tasks_nodup htask)).mem_iff.mp he

theorem without (h : w.Lodged) (hw : w.Orderly orders) (htask : w.task? id = some task)
    (hne : ∀ wait, task ≠ .waiting wait) :
    w.shared.table.Lodges (crowdOf (w.tasks.filter fun e => e.1 ≠ id)) := by
  have hperm := crowdOf_perm (Scheduler.perm_of_lookup hw.tasks_nodup htask)
  rw [crowdOf_cons_of_ne hne] at hperm
  exact h.mono fun _ he => hperm.mem_iff.mp he

theorem rest (hw : w.Orderly orders) (htask : w.task? id = some task) {task' : RoomTask}
    {alarms : List (TaskId × Nat)} {room : Room α}
    (h : room.table.Lodges (crowdOf ((id, task') :: w.tasks.filter fun e => e.1 ≠ id))) :
    (w.rest id task' alarms room).Lodged :=
  h.mono fun _ he =>
    (crowdOf_perm (Scheduler.perm_replaced hw.tasks_nodup htask task')).mem_iff.mpr he

theorem turned (h : w.Lodged) (hw : w.Orderly orders) (hv : Turned w id v) : v.Lodged := by
  cases hv with
  | nobody _ => exact h
  | withdrawn wait htask _ => exact (h.with_waiting hw htask).leave
  | dropped task htask _ hne => exact h.without hw htask hne
  | fetched key limit a t htask _ ht =>
    exact ((h.without hw htask (by simp)).takeReady ht).countStats _
  | entered key limit htask _ _ =>
    exact rest hw htask (((h.without hw htask (by simp)).withCell w.now key).enter _)
  | received wait a t htask _ ht => exact (h.with_waiting hw htask).takeAwaited ht
  | timedOut wait htask _ _ _ => exact (h.with_waiting hw htask).leave
  | stayed wait htask _ _ _ => exact rest hw htask (h.with_waiting hw htask).sleep
  | idled sweeper htask _ _ => exact h.without hw htask (by simp)
  | ticked sweeper htask _ _ =>
    exact rest hw htask ((h.without hw htask (by simp)).sweepTimes _ _)

theorem move (h : w.Lodged) (hw : w.Orderly orders) (m : Move α) : (w.move m).Lodged := by
  have hmore (m : Move α) (hm : ∀ id, m ≠ .turn id)
      (ht : (w.move m).shared.table.Lodges w.crowd) : (w.move m).Lodged := by
    rw [Lodged, crowd, (tasks_and_results_of_not_turn w hm).2, crowdOf, List.filterMap_append]
    exact ht.mono fun e he => List.mem_append_left _ he
  cases m with
  | fetch key limit => exact hmore _ (by simp) h
  | startSweeper period => exact hmore _ (by simp) h
  | deposit key a =>
    refine hmore _ (by simp) ?_
    simp only [WaitingRoom.move, WaitingRoom.deposit, Scheduler.change, Scheduler.callAll_eq]
    exact Table.Lodges.deposit h w.now key a
  | sweep offset =>
    refine hmore _ (by simp) ?_
    simp only [WaitingRoom.move, WaitingRoom.sweep, Scheduler.change, Scheduler.callAll_eq]
    exact Table.Lodges.sweep h _
  | advance ms => exact h
  | abort id =>
    refine hmore _ (by simp) ?_
    rw [shared_abort]
    exact h
  | turn id => exact h.turned hw (WaitingRoom.turned w id)
  | ring =>
    refine hmore _ (by simp) ?_
    rw [shared_ring]
    exact h

end Lodged

theorem lodged_after (p : Retention) (moves : List (Move α)) : (after p moves).Lodged := by
  induction moves using List.reverseRecOn with
  | nil => simp [Lodged, Table.Lodges, start, Scheduler.start, Table.empty, Table.known]
  | append_singleton moves m ih =>
    rw [after_append]
    exact ih.move (orderly_after p moves) m

section Once

variable {orders : List RoomTask} {w v : WaitingRoom α} {id : TaskId}

theorem sleepsOnce_turned (h : w.shared.table.SleepsOnce) (hl : w.Lodged) (hw : w.Orderly orders)
    (hv : Turned w id v) : v.shared.table.SleepsOnce := by
  cases hv with
  | nobody _ | dropped _ _ _ _ | idled _ _ _ _ => exact h
  | withdrawn wait _ _ => exact h.leave wait.cell id
  | fetched key limit a t _ _ ht => exact (h.takeReady ht).countStats _
  | entered key limit htask _ _ =>
    refine (h.withCell w.now key).enter _ fun c hc hid => ?_
    obtain ⟨e, he, rfl, -⟩ := ((hl.without hw htask (by simp)).withCell w.now key) c hc id hid
    exact ne_of_mem_crowdOf_filter he rfl
  | received wait a t _ _ ht => exact ((h.takeAwaited ht).leave wait.cell id).countStats _
  | timedOut wait _ _ _ _ => exact (h.leave wait.cell id).countStats _
  | stayed wait _ _ _ _ => exact h.sleep wait.cell id
  | ticked sweeper _ _ _ => exact h.sweepTimes w.now _

theorem sleepsOnce_move (h : w.shared.table.SleepsOnce) (hl : w.Lodged) (hw : w.Orderly orders)
    (m : Move α) : (w.move m).shared.table.SleepsOnce := by
  cases m with
  | fetch _ _ | startSweeper _ | advance _ => exact h
  | deposit key a =>
    rw [WaitingRoom.move, table_deposit]
    exact h.deposit w.now key a
  | sweep offset => exact fun c hc => h c (Table.mem_known_sweep hc)
  | abort id => rwa [shared_abort]
  | turn id => exact sleepsOnce_turned h hl hw (WaitingRoom.turned w id)
  | ring => rwa [shared_ring]

theorem sleepsOnce_after (p : Retention) (moves : List (Move α)) :
    (after p moves).shared.table.SleepsOnce := by
  induction moves using List.reverseRecOn with
  | nil => simp [Table.SleepsOnce, start, Scheduler.start, Table.empty, Table.known]
  | append_singleton moves m ih =>
    rw [after_append]
    exact sleepsOnce_move ih (lodged_after p moves) (orderly_after p moves) m

end Once

end WaitingRoom
end EbmsMessaging.Correlation
