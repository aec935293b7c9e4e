import EbmsMessaging.Proofs.Correlation.Numbering
import EbmsMessaging.Proofs.Correlation.OtherKeys

/-!
# Cells left behind

A cell in reach that is empty and has nobody waiting at it serves no one. A task that takes a value
removes the cell unless others wait there, and a task that enters a cell waits there. So such a cell
is left over only by a task that went without a value: its limit had passed, or it was dropped. Where
nobody goes without, no cell is left over.
-/
namespace EbmsMessaging.Correlation

variable {α : Type}

namespace Table

/-- The cell in reach with this number is empty and nobody waits at it. -/
def LeftOver (t : Table α) (n : Nat) : Prop :=
  ∃ c ∈ t.cells, c.id = n ∧ c.slot = none ∧ c.waiters = 0

namespace LeftOver

variable {t t' : Table α} {crowd : Crowd} {queue : List TaskId} {m n : Nat} {f : Cell α → Cell α}

/-- Nobody waits at a cell that is left over. -/
theorem nobody (h : t.LeftOver n) (hhosts : t.Hosts crowd queue) :
    ∀ e ∈ crowd, e.2.cell ≠ n := by
  obtain ⟨c, hc, rfl, -, hwaiters⟩ := h
  rw [hhosts.waiters_eq c (mem_known_of_mem_cells hc)] at hwaiters
  exact Crowd.ne_cell_of_countAt_eq_zero hwaiters

/-- A change of one cell leaves over no other. -/
theorem of_change_of_ne (h : (t.change m f).LeftOver n) (hid : ∀ c, (f c).id = c.id)
    (hne : n ≠ m) : t.LeftOver n := by
  obtain ⟨c', hc', hn, hslot, hwaiters⟩ := h
  obtain ⟨c, hc, rfl⟩ := List.mem_map.mp hc'
  by_cases hm : c.id = m
  · rw [if_pos hm, hid] at hn
    exact absurd (hn.symm.trans hm) hne
  · rw [if_neg hm] at hn hslot hwaiters
    exact ⟨c, hc, hn, hslot, hwaiters⟩

/-- A change that leaves over only what was so before. -/
theorem of_change (h : (t.change m f).LeftOver n) (hid : ∀ c, (f c).id = c.id)
    (hf : ∀ c ∈ t.cells, c.id = m → (f c).slot = none → (f c).waiters = 0 →
      c.slot = none ∧ c.waiters = 0) : t.LeftOver n := by
  by_cases hne : n = m
  · subst hne
    obtain ⟨c', hc', hn, hslot, hwaiters⟩ := h
    obtain ⟨c, hc, rfl⟩ := List.mem_map.mp hc'
    by_cases hm : c.id = n
    · rw [if_pos hm] at hslot hwaiters
      exact ⟨c, hc, hm, hf c hc hm hslot hwaiters⟩
    · rw [if_neg hm] at hn
      exact absurd hn hm
  · exact h.of_change_of_ne hid hne

theorem of_remove (h : (t.remove m).LeftOver n) : t.LeftOver n := by
  obtain ⟨c, hc, hrest⟩ := h
  exact ⟨c, List.mem_of_mem_filter hc, hrest⟩

theorem of_sweptFrom {asOf : Int} (h : t'.LeftOver n) (hswept : SweptFrom asOf t' t) :
    t.LeftOver n := by
  obtain ⟨c, hc, hrest⟩ := h
  exact ⟨c, ((hswept.mem_cells c).mp hc).1, hrest⟩

/-- The cell of a key is as it was, or it is new and used at once. -/
theorem of_withCell {now : Nat} {key : String}
    (h : ((t.withCell now key).1.change (t.withCell now key).2.id f).LeftOver n)
    (hid : ∀ c, (f c).id = c.id) (hused : ∀ c, (f c).slot = none → (f c).waiters ≠ 0) :
    t.LeftOver n := by
  by_cases hn : n = (t.withCell now key).2.id
  · obtain ⟨c', hc', hid', hslot, hwaiters⟩ := h
    obtain ⟨c, hc, rfl⟩ := List.mem_map.mp hc'
    by_cases hm : c.id = (t.withCell now key).2.id
    · rw [if_pos hm] at hslot hwaiters
      exact absurd hwaiters (hused c hslot)
    · rw [if_neg hm] at hid'
      exact absurd (hid'.trans hn) hm
  · obtain ⟨c, hc, hid', hrest⟩ := h.of_change_of_ne hid hn
    rcases t.withCell_cases now key with ⟨_, _, heq⟩ | ⟨_, heq⟩
    · rw [heq] at hc
      exact ⟨c, hc, hid', hrest⟩
    · rw [heq] at hc hn
      rcases List.mem_append.mp hc with hc | hc
      · exact ⟨c, hc, hid', hrest⟩
      · rw [List.mem_singleton.mp hc] at hid'
        exact absurd hid'.symm hn

/-- A task that finds a value ready removes the cell unless somebody waits there. -/
theorem of_takeReady (h : t'.LeftOver n) (hhosts : t.Hosts crowd queue) {key : String} {a : α}
    (ht : t.takeReady? key = some (a, t')) : t.LeftOver n := by
  obtain ⟨c, d, hc, -, -, rfl⟩ := takeReady?_eq_some ht
  have hknown := mem_known_of_mem_cells (find?_eq_some hc).1
  split at h
  · exact h.of_remove
  · next hwaiters =>
    refine h.of_change (fun _ => rfl) fun b hb hid _ hnone => ?_
    rw [hhosts.eq_of_id (mem_known_of_mem_cells hb) hknown hid] at hnone
    exact absurd hnone hwaiters

/-- The last of the waiting tasks removes the cell when it takes the value. -/
theorem of_takeAwaited {id : TaskId} (h : (t'.leave m id).LeftOver n)
    (hhosts : t.Hosts crowd queue) {a : α} (ht : t.takeAwaited? m = some (a, t')) :
    t.LeftOver n := by
  obtain ⟨c, d, hc, -, -, rfl⟩ := takeAwaited?_eq_some ht
  obtain ⟨hknown, hid⟩ := cell?_eq_some hc
  have hleft : ((if c.waiters ≤ 1 then t.remove m else t.change m Cell.clear).change m
      fun c => c.leave id).LeftOver n := h
  split at hleft
  · refine of_remove (hleft.of_change (fun _ => rfl) fun b hb hb' => ?_)
    have hne := (List.mem_filter.mp hb).2
    exact absurd hb' (by simpa using hne)
  · next hmore =>
    -- Somebody else is left at the cell.
    have hcount {b : Cell α} (hb : b ∈ t.cells) (hb' : b.id = m) : 1 < b.waiters := by
      rw [hhosts.eq_of_id (mem_known_of_mem_cells hb) hknown (hb'.trans hid.symm)]
      exact Nat.lt_of_not_le hmore
    refine (hleft.of_change (fun _ => rfl) fun b' hb' hbid _ hnone => ?_).of_change
      (fun _ => rfl) fun b hb hb' _ hnone => ?_
    · obtain ⟨b, hb, rfl⟩ := List.mem_map.mp hb'
      by_cases hbm : b.id = m
      · rw [if_pos hbm] at hnone
        have hmany := hcount hb hbm
        have hless : b.waiters - 1 = 0 := hnone
        omega
      · rw [if_neg hbm] at hbid
        exact absurd hbid hbm
    · have hmany := hcount hb hb'
      have hnobody : b.waiters = 0 := hnone
      omega

theorem of_sleep {id : TaskId} (h : (t.change m fun c => c.sleep id).LeftOver n) :
    t.LeftOver n := by
  refine h.of_change (fun c => c.id_sleep id) fun c _ _ hslot hwaiters => ?_
  rw [c.slot_sleep] at hslot
  rw [c.waiters_sleep] at hwaiters
  exact ⟨hslot, hwaiters⟩

theorem of_leave {id : TaskId} (h : (t.leave m id).LeftOver n) (hne : n ≠ m) : t.LeftOver n :=
  of_change_of_ne (f := fun c => c.leave id) h (fun _ => rfl) hne

theorem of_deposit {now : Nat} {key : String} {a : α} (h : (t.deposit now key a).1.LeftOver n) :
    t.LeftOver n := by
  rw [fst_deposit] at h
  exact of_withCell (f := fun c => c.fill now a) h (fun _ => rfl)
    fun c hslot => by simp [Cell.fill] at hslot

theorem of_sweepTimes {now times : Nat} (h : (t.sweepTimes now times).1.LeftOver n) :
    t.LeftOver n := by
  cases times with
  | zero => exact h
  | succ times => exact h.of_sweptFrom (sweptFrom_sweep t now).sweepTimes

end LeftOver
end Table

namespace WaitingRoom

open Table

/-! ## Who left a cell last -/

/-- A task that waits at a cell has its last turn. -/
def Leaves (w : WaitingRoom α) (m : Move α) (id : TaskId) (n : Nat) : Prop :=
  m = .turn id ∧ (∃ wait, w.task? id = some (.waiting wait) ∧ wait.cell = n) ∧
    (w.move m).task? id = none

/-- The task is dropped at its turn, or returns a timeout. -/
def GoesWithout (w : WaitingRoom α) (m : Move α) (id : TaskId) : Prop :=
  id ∈ w.aborted ∨
    ∃ key waited, (w.move m).results = w.results ++ [(id, some (.timeout key waited))]

/-- The last task that left a cell went without a value. -/
def ForsakenAt (p : Retention) (moves : List (Move α)) (n : Nat) : Prop :=
  ∃ before m rest, moves = before ++ m :: rest ∧
    (∃ id, (after p before).Leaves m id n ∧ (after p before).GoesWithout m id) ∧
    ∀ more m', more ++ [m'] <+: rest → ∀ id, ¬(after p (before ++ m :: more)).Leaves m' id n

variable {p : Retention} {moves : List (Move α)} {m : Move α} {n : Nat}

theorem forsakenAt_of_leaves {id : TaskId} (h : (after p moves).Leaves m id n)
    (hwithout : (after p moves).GoesWithout m id) : ForsakenAt p (moves ++ [m]) n := by
  refine ⟨moves, m, [], rfl, ⟨id, h, hwithout⟩, fun more m' hp => ?_⟩
  simpa using hp.length_le

theorem ForsakenAt.append (h : ForsakenAt p moves n)
    (hnobody : ∀ id, ¬(after p moves).Leaves m id n) : ForsakenAt p (moves ++ [m]) n := by
  obtain ⟨before, m₀, rest, rfl, hleft, hlater⟩ := h
  refine ⟨before, m₀, rest ++ [m], by simp, hleft, fun more m' hp => ?_⟩
  rcases List.prefix_concat_iff.mp hp with heq | hp
  · obtain ⟨rfl, rfl⟩ := List.append_inj' heq rfl |>.imp_right List.singleton_inj.mp
    exact hnobody
  · exact hlater more m' hp

/-! ## What moves leave over -/

theorem task?_close (w : WaitingRoom α) (id : TaskId) (t : Table α)
    (results : List (Option (Outcome α))) : (w.close id t results).task? id = none := by
  refine List.lookup_eq_none_iff.mpr fun e he => ?_
  have hne := (mem_tasks_close (w := w) he).2
  simpa using Ne.symm hne

/-- A turn leaves a cell over only when its task goes without a value. -/
theorem Turned.leftOver {orders : List RoomTask} {w v : WaitingRoom α} (hw : w.Orderly orders)
    {id : TaskId} (h : Turned w id v) (hn : v.shared.table.LeftOver n) :
    w.shared.table.LeftOver n ∨
      (∃ wait, w.task? id = some (.waiting wait) ∧ wait.cell = n) ∧ v.task? id = none ∧
        (id ∈ w.aborted ∨
          ∃ key waited, v.results = w.results ++ [(id, some (.timeout key waited))]) := by
  cases h with
  | nobody _ | dropped task _ _ _ | idled sweeper _ _ _ => exact .inl hn
  | withdrawn wait htask ha =>
    by_cases hne : n = wait.cell
    · exact .inr ⟨⟨wait, htask, hne.symm⟩, task?_close _ _ _ _, .inl ha⟩
    · exact .inl (LeftOver.of_leave hn hne)
  | fetched key limit a t _ _ ht =>
    have hn : t.LeftOver n := hn
    exact .inl (hn.of_takeReady hw.hosts ht)
  | entered key limit _ _ _ =>
    exact .inl (LeftOver.of_withCell (f := fun c => c.enter id) hn (fun _ => rfl)
      fun c _ => Nat.succ_ne_zero c.waiters)
  | received wait a t _ _ ht =>
    have hn : (t.leave wait.cell id).LeftOver n := hn
    exact .inl (hn.of_takeAwaited hw.hosts ht)
  | timedOut wait htask _ _ _ =>
    by_cases hne : n = wait.cell
    · exact .inr ⟨⟨wait, htask, hne.symm⟩, task?_close _ _ _ _, .inr ⟨_, _, rfl⟩⟩
    · exact .inl (LeftOver.of_leave hn hne)
  | stayed wait _ _ _ _ => exact .inl (LeftOver.of_sleep hn)
  | ticked sweeper _ _ _ => exact .inl (LeftOver.of_sweepTimes hn)

/-- So does every move. -/
theorem leftOver_move {orders : List RoomTask} {w : WaitingRoom α} (hw : w.Orderly orders)
    (hn : (w.move m).shared.table.LeftOver n) :
    w.shared.table.LeftOver n ∨ ∃ id, w.Leaves m id n ∧ w.GoesWithout m id := by
  cases m with
  | fetch key limit | startSweeper period | advance ms => exact .inl hn
  | deposit key a =>
    rw [move, table_deposit] at hn
    exact .inl hn.of_deposit
  | sweep offset =>
    rw [move, table_sweep] at hn
    exact .inl (hn.of_sweptFrom (sweptFrom_sweep _ _))
  | abort id =>
    rw [shared_abort] at hn
    exact .inl hn
  | turn id =>
    refine ((turned w id).leftOver hw hn).imp_right ?_
    rintro ⟨hleft, hgone, hwithout⟩
    exact ⟨id, ⟨rfl, hleft, hgone⟩, hwithout⟩
  | ring =>
    rw [shared_ring] at hn
    exact .inl hn

/-- A cell is left over by the last task that left it, which went without a value. -/
theorem forsakenAt_of_leftOver (hn : (after p moves).shared.table.LeftOver n) :
    ForsakenAt p moves n := by
  induction moves using List.reverseRecOn with
  | nil =>
    obtain ⟨c, hc, -⟩ := hn
    simp [start, Scheduler.start, Table.empty] at hc
  | append_singleton moves m ih =>
    rw [after_append] at hn
    have hw := orderly_after p moves
    rcases leftOver_move hw hn with hbefore | ⟨id, hleft, hwithout⟩
    · -- Nobody was at the cell who could leave it now.
      refine (ih hbefore).append fun id hleaves => ?_
      obtain ⟨-, ⟨wait, htask, hcell⟩, -⟩ := hleaves
      have hmem := mem_crowdOf.mpr (Scheduler.mem_of_lookup htask)
      exact hbefore.nobody hw.hosts _ hmem hcell
    · exact forsakenAt_of_leaves hleft hwithout

/-! ## Runs in which nobody goes without -/

theorem mem_results_move {w : WaitingRoom α} {r : TaskId × Option (Outcome α)}
    (hr : r ∈ w.results) (m : Move α) : r ∈ (w.move m).results := by
  by_cases hm : ∃ id, m = .turn id
  · obtain ⟨id, rfl⟩ := hm
    rcases (turned w id).results_eq with heq | ⟨-, -, results, heq⟩
    · rw [heq]
      exact hr
    · rw [heq]
      exact List.mem_append_left _ hr
  · rw [(tasks_and_results_of_not_turn w (not_exists.mp hm)).1]
    exact hr

/-- What a task has returned stays returned. -/
theorem mem_results_after {before : List (Move α)} {r : TaskId × Option (Outcome α)}
    (hr : r ∈ (after p before).results) (rest : List (Move α)) :
    r ∈ (after p (before ++ rest)).results := by
  induction rest using List.reverseRecOn with
  | nil => rwa [List.append_nil]
  | append_singleton rest m ih =>
    rw [← List.append_assoc, after_append]
    exact mem_results_move ih m

/-- Only a task that was told to be dropped is dropped. -/
theorem abort_mem_of_aborted {id : TaskId} (h : id ∈ (after p moves).aborted) :
    Move.abort id ∈ moves := by
  induction moves using List.reverseRecOn with
  | nil => simp [start, Scheduler.start] at h
  | append_singleton moves m ih =>
    rw [after_append] at h
    rw [List.mem_append, List.mem_singleton]
    cases m with
    | fetch key limit | startSweeper period | advance ms => exact .inl (ih h)
    | deposit key a =>
      simp only [move, deposit, Scheduler.change, Scheduler.callAll_eq] at h
      exact .inl (ih h)
    | sweep offset =>
      simp only [move, sweep, Scheduler.change, Scheduler.callAll_eq] at h
      exact .inl (ih h)
    | abort j =>
      rcases Scheduler.mem_aborted_abort.mp h with h | ⟨rfl, -⟩
      · exact .inl (ih h)
      · exact .inr rfl
    | turn j => exact .inl (ih ((turned _ j).aborted_subset h))
    | ring =>
      simp only [move, Scheduler.ring, Scheduler.callAll_eq] at h
      exact .inl (ih h)

/-- None of the tasks that fetch was dropped, none returned a timeout, and none is left. -/
structure AllServed (p : Retention) (moves : List (Move α)) : Prop where
  kept : ∀ id key limit, (started moves)[id]? = some (.fetching key limit) → .abort id ∉ moves
  in_time : ∀ id key waited, (id, some (.timeout key waited)) ∉ (after p moves).results
  ended : ∀ id key limit, (started moves)[id]? = some (.fetching key limit) →
    (after p moves).task? id = none

namespace AllServed

theorem not_forsakenAt (h : AllServed p moves) (n : Nat) : ¬ForsakenAt p moves n := by
  rintro ⟨before, m, rest, rfl, ⟨id, ⟨-, ⟨wait, htask, -⟩, -⟩, hdropped | ⟨key, waited, heq⟩⟩, -⟩
  · obtain ⟨order, horder, limit, rfl, -⟩ :=
      (orderly_after p before).stems _ (Scheduler.mem_of_lookup htask)
    refine h.kept id wait.key limit ?_ (List.mem_append_left _ (abort_mem_of_aborted hdropped))
    exact getElem?_started_of_prefix (List.prefix_append _ _) horder
  · refine h.in_time id key waited ?_
    have hresult : (id, some (.timeout key waited)) ∈ (after p (before ++ [m])).results := by
      rw [after_append, heq]
      exact List.mem_append_right _ (List.mem_singleton_self _)
    simpa using mem_results_after hresult rest

theorem crowd_eq_nil (h : AllServed p moves) : (after p moves).crowd = [] := by
  have hw := orderly_after p moves
  refine List.eq_nil_iff_forall_not_mem.mpr fun e he => ?_
  have hmem := mem_crowdOf.mp he
  obtain ⟨order, horder, limit, rfl, -⟩ := hw.stems _ hmem
  have hnone := h.ended e.1 e.2.key limit horder
  rw [hw.task?_eq_some_iff.mpr hmem] at hnone
  simp at hnone

theorem exists_slot (h : AllServed p moves) :
    ∀ c ∈ (after p moves).shared.table.cells, ∃ d, c.slot = some d := by
  intro c hc
  by_contra hslot
  have hnone : c.slot = none := Option.eq_none_iff_forall_ne_some.mpr (not_exists.mp hslot)
  have hwaiters : c.waiters = 0 := by
    rw [(orderly_after p moves).hosts.waiters_eq c (mem_known_of_mem_cells hc), h.crowd_eq_nil]
    rfl
  exact h.not_forsakenAt c.id (forsakenAt_of_leftOver ⟨c, hc, rfl, hnone, hwaiters⟩)

end AllServed

/-- A value that lies under its key was brought there, and nobody has returned it. -/
theorem unclaimed_of_valueAt? {key : String} {d : Deposit (Nat × α)}
    (hd : (after p (numbered moves)).shared.table.valueAt? key = some d) :
    ∃ n a, moves[n]? = some (.deposit key a) ∧ d = ⟨(n, a), timeOf p moves n⟩ ∧
      ∀ id, (id, n, a) ∉ (after p (numbered moves)).returned := by
  have hhosts := (orderly_after p (numbered moves)).hosts
  have htraced := traced p (labelled_numbered moves)
  obtain ⟨c, hc, hkey, hslot⟩ := hhosts.valueAt?_eq_some_iff.mp hd
  have hstored : (after p (numbered moves)).shared.table.Stores c.id key d :=
    ⟨c, mem_known_of_mem_cells hc, rfl, hkey, hslot⟩
  obtain ⟨hmove, htime⟩ := htraced.stored _ _ _ hstored
  rw [timeOf_numbered] at htime
  refine ⟨d.value.1, d.value.2, (deposit_of_numbered hmove).2, ?_, fun id hid => ?_⟩
  · rw [← htime]
  · exact htraced.apart _ _ _ hstored (List.mem_map.mpr ⟨_, hid, rfl⟩)

/-- Every cell in reach holds a value, or somebody waits at it, or the last task that left it went
without a value. So when nobody is left in a run in which no task was dropped and none returned a
timeout, each cell in reach holds a value, and the keys with a cell are those under which a value
lies that was brought and that nobody has returned. -/
theorem cell_used_or_forsaken (p : Retention) (moves : List (Move α)) :
    (∀ c ∈ (after p moves).shared.table.cells,
      (∃ d, c.slot = some d) ∨ 0 < c.waiters ∨ ForsakenAt p moves c.id) ∧
    (AllServed p moves → (∀ c ∈ (after p moves).shared.table.cells, ∃ d, c.slot = some d) ∧
      ∀ key, (after p moves).shared.table.contains key = true ↔
        ∃ n a, moves[n]? = some (.deposit key a) ∧
          (after p (numbered moves)).shared.table.valueAt? key =
            some ⟨(n, a), timeOf p moves n⟩ ∧
          ∀ id, (id, n, a) ∉ (after p (numbered moves)).returned) := by
  refine ⟨fun c hc => ?_, fun h => ⟨h.exists_slot, fun key => ?_⟩⟩
  · by_cases hslot : ∃ d, c.slot = some d
    · exact .inl hslot
    have hnone : c.slot = none := Option.eq_none_iff_forall_ne_some.mpr (not_exists.mp hslot)
    rcases Nat.eq_zero_or_pos c.waiters with hwaiters | hwaiters
    · exact .inr (.inr (forsakenAt_of_leftOver ⟨c, hc, rfl, hnone, hwaiters⟩))
    · exact .inr (.inl hwaiters)
  · have htable : (after p moves).shared.table =
        (after p (numbered moves)).shared.table.map Prod.snd := by
      rw [← map_snd_after_numbered]
      rfl
    rw [contains, htable, find?_map, Option.isSome_map, Option.isSome_iff_exists]
    constructor
    · rintro ⟨c, hc⟩
      have hmem : c.map Prod.snd ∈ (after p moves).shared.table.cells := by
        rw [htable]
        exact List.mem_map_of_mem (find?_eq_some hc).1
      obtain ⟨d', hd'⟩ := h.exists_slot _ hmem
      obtain ⟨d, hd, -⟩ := Option.map_eq_some_iff.mp hd'
      have hvalue : (after p (numbered moves)).shared.table.valueAt? key = some d := by
        rw [valueAt?, hc, Option.bind_some, hd]
      obtain ⟨n, a, hmove, rfl, hunclaimed⟩ := unclaimed_of_valueAt? hvalue
      exact ⟨n, a, hmove, hvalue, hunclaimed⟩
    · rintro ⟨n, a, -, hvalue, -⟩
      obtain ⟨c, hc, -⟩ := Option.bind_eq_some_iff.mp hvalue
      exact ⟨c, hc⟩

/-- Two tasks wait for one value, and a third one that comes later takes it before them. Each of the
others gets a value of its own. A value of another key is fetched by nobody. -/
def overtaken : List (Move Nat) :=
  [.fetch "k" 0, .fetch "k" 9, .turn 0, .turn 1, .deposit "k" 1, .fetch "k" 0, .turn 2, .turn 1,
    .turn 0, .deposit "k" 2, .deposit "l" 3, .turn 0, .deposit "k" 4, .turn 1]

/-- A task waits until its limit has passed. -/
def givenUp : List (Move Nat) := [.fetch "k" 5, .turn 0, .advance 5, .ring, .turn 0]

/-- Only the cell with the value that nobody fetched is there at the end of the first run. At the end
of the second one the cell of the task that gave up is. -/
theorem overtaken_and_given_up :
    (AllServed ⟨10, none⟩ overtaken ∧
      (after ⟨10, none⟩ overtaken).shared.table.contains "k" = false ∧
      ∃ n a, overtaken[n]? = some (.deposit "l" a) ∧
        ∀ id, (id, n, a) ∉ (after ⟨10, none⟩ (numbered overtaken)).returned) ∧
    ∃ c ∈ (after ⟨10, none⟩ givenUp).shared.table.cells,
      c.slot = none ∧ c.waiters = 0 ∧ ForsakenAt ⟨10, none⟩ givenUp c.id := by
  have hserved : AllServed ⟨10, none⟩ overtaken := by
    have hresults : (after ⟨10, none⟩ overtaken).results =
        [(2, some (.value 1)), (0, some (.value 2)), (1, some (.value 4))] := by decide
    have htasks : (after ⟨10, none⟩ overtaken).tasks = [] := by decide
    refine ⟨fun id key limit _ => by simp [overtaken], fun id key waited => by simp [hresults],
      fun id key limit _ => ?_⟩
    rw [Scheduler.task?, htasks, List.lookup_nil]
  obtain ⟨n, a, hmove, -, hunclaimed⟩ :=
    (((cell_used_or_forsaken ⟨10, none⟩ overtaken).2 hserved).2 "l").mp (by decide)
  obtain ⟨c, hc, hslot, hwaiters⟩ : ∃ c ∈ (after ⟨10, none⟩ givenUp).shared.table.cells,
      c.slot = none ∧ c.waiters = 0 := by decide +kernel
  have hcell := (cell_used_or_forsaken ⟨10, none⟩ givenUp).1 c hc
  rw [hslot, hwaiters] at hcell
  have hforsaken := hcell.resolve_left (by simp) |>.resolve_left (Nat.lt_irrefl 0)
  exact ⟨⟨hserved, by decide, n, a, hmove, hunclaimed⟩, c, hc, hslot, hwaiters, hforsaken⟩

end WaitingRoom
end EbmsMessaging.Correlation
