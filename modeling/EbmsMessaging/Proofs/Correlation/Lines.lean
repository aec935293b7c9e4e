import EbmsMessaging.Proofs.Correlation.Delivery
import EbmsMessaging.Proofs.Correlation.Detachment
import EbmsMessaging.Proofs.Correlation.OtherKeys
import EbmsMessaging.Proofs.Correlation.Sleepers
import Mathlib.Tactic.IntervalCases

/-!
# Waiting in line

Tasks that wait for one key stand in line. A value calls all of them, the first one takes it, and
the others go back to sleep, each behind the one before it. So the line is the same as before, less
its first task, and the next value goes to the next one. Whoever takes a value keeps the cell for
those behind and removes it when nobody is left.

The tasks need not sleep in the order of the line at first: those that were once called in another
order have gone back to sleep in that order. The first value brings them in line.
-/
namespace EbmsMessaging.Correlation

variable {α : Type}

namespace Table

theorem mem_cells_change {t : Table α} {c : Cell α} (hc : c ∈ t.cells) (f : Cell α → Cell α) :
    f c ∈ (t.change c.id f).cells := List.mem_map.mpr ⟨c, hc, if_pos rfl⟩

/-- A task takes the value of a cell and leaves. The last one removes the cell. -/
theorem leave_of_takeAwaited {t t' : Table α} {crowd : Crowd} {queue : List TaskId}
    (h : t.Hosts crowd queue) {c : Cell α} {d : Deposit α} {a : α} (hc : c ∈ t.cells)
    (hslot : c.slot = some d) (ht : t.takeAwaited? c.id = some (a, t')) (id : TaskId) :
    a = d.value ∧ (c.waiters ≤ 1 → (t'.leave c.id id).find? c.key = none) ∧
      (1 < c.waiters → c.clear.leave id ∈ (t'.leave c.id id).cells) := by
  obtain ⟨c', d', hc', hslot', rfl, rfl⟩ := takeAwaited?_eq_some ht
  rw [h.cell?_eq_some_iff.mpr ⟨mem_known_of_mem_cells hc, rfl⟩, Option.some.injEq] at hc'
  subst hc'
  refine ⟨congrArg Deposit.value (Option.some.inj (hslot'.symm.trans hslot)), fun hlast => ?_,
    fun hmore => ?_⟩
  · rw [if_pos hlast]
    refine find?_eq_none.mpr fun b' hb' hkey => ?_
    obtain ⟨b, hb, rfl⟩ := List.mem_map.mp hb'
    obtain ⟨hb, hid⟩ := List.mem_filter.mp hb
    have hne : b.id ≠ c.id := by simpa using hid
    rw [if_neg hne] at hkey
    exact hne (congrArg Cell.id (h.eq_of_key hb hc hkey))
  · rw [if_neg (Nat.not_le_of_gt hmore)]
    exact mem_cells_change (mem_cells_change hc Cell.clear) fun c => c.leave id

end Table

/-- The value that a move brings for a key. -/
def Move.valueFor? (key : String) : Move α → Option α
  | .deposit key' a => if key' = key then some a else none
  | _ => none

/-- The values that a run brings for a key, one after the other. -/
def valuesFor (key : String) (moves : List (Move α)) : List α :=
  moves.filterMap (Move.valueFor? key)

namespace WaitingRoom

open Table

/-! ## The line -/

/-- Where the tasks of a line stand, and the value that lies ready for the first of them. They sleep
in the order of the row. -/
inductive Standing (w : WaitingRoom α) (key : String) (row line : List TaskId) :
    Option α → Prop where
  /-- All were called for a value. -/
  | called (c : Cell α) (d : Deposit α) (hne : line ≠ [])
    (hc : w.shared.table.find? key = some c) (hslot : c.slot = some d)
    (hqueue : ∀ j ∈ line, j ∈ w.queue) : Standing w key row line (some d.value)
  /-- Some sleep. The others were called for a value that is gone, and stand behind them. From then
  on the row is the line. -/
  | waiting (called : List TaskId) (c : Cell α) (hne : line ≠ [])
    (hc : w.shared.table.find? key = some c) (hslot : c.slot = none)
    (hrow : c.sleepers ++ called = row) (horder : called ≠ [] → row = line)
    (hqueue : ∀ j ∈ called, j ∈ w.queue) : Standing w key row line none
  /-- Nobody is left. -/
  | nobody (hnil : line = []) (hnone : w.shared.table.find? key = none) :
    Standing w key row line none

theorem Standing.of_some {w : WaitingRoom α} {key : String} {row line : List TaskId} {a : α}
    (h : w.Standing key row line (some a)) : ∃ c d, w.shared.table.find? key = some c ∧
      c.slot = some d ∧ d.value = a ∧ ∀ j ∈ line, j ∈ w.queue := by
  cases h with
  | called c d _ hc hslot hqueue => exact ⟨c, d, hc, hslot, rfl, hqueue⟩

theorem Standing.of_none {w : WaitingRoom α} {key : String} {row line : List TaskId}
    (h : w.Standing key row line none) (hne : line ≠ []) : ∃ called c,
      w.shared.table.find? key = some c ∧ c.slot = none ∧ c.sleepers ++ called = row ∧
        (called ≠ [] → row = line) ∧ ∀ j ∈ called, j ∈ w.queue := by
  cases h with
  | waiting called c _ hc hslot hrow horder hqueue =>
    exact ⟨called, c, hc, hslot, hrow, horder, hqueue⟩
  | nobody hnil _ => exact absurd hnil hne

/-- Only the tasks of a line want values of a key, and they all wait at its cell. -/
structure InLine (w : WaitingRoom α) (key : String) (row line : List TaskId) (ready : Option α) :
    Prop where
  nodup : line.Nodup
  perm : row.Perm line
  only : ∀ e ∈ w.tasks, e.2.Fetches key → e.1 ∈ line
  waits : ∀ id ∈ line, ∃ wait, (id, .waiting wait) ∈ w.tasks ∧ wait.key = key ∧
    ∀ c, w.shared.table.find? key = some c → wait.cell = c.id
  kept : ∀ id ∈ line, id ∉ w.aborted
  standing : w.Standing key row line ready

/-- What some tasks have returned. -/
def resultsOf (w : WaitingRoom α) (ids : List TaskId) : List (TaskId × Option (Outcome α)) :=
  w.results.filter fun r => r.1 ∈ ids

/-- Nobody joins a line or drops one of its tasks, and a value comes only when none of them is
called. Those that are called have their turns in the order of the line. None of them gives up, and
no sweep takes the cell away from them. -/
structure KeepsLine (w : WaitingRoom α) (key : String) (line : List TaskId) (m : Move α) :
    Prop where
  nobody_joins : ∀ task ∈ m.started?, ¬task.Fetches key
  settled : ∀ a ∈ m.valueFor? key, ∀ id ∈ line, id ∉ w.queue
  kept : ∀ id ∈ line, m ≠ .abort id
  in_order : ∀ id ∈ line, m = .turn id → ∀ j ∈ line, [j, id].Sublist line → j ∉ w.queue
  in_time : ∀ r ∈ (w.move m).resultsOf line, (fetched? r.2).isSome
  reach : ∀ c, w.shared.table.find? key = some c → ¬w.CutsOff m c.id

/-- Those before a task that has its turn are not called. -/
theorem KeepsLine.not_mem_queue {w : WaitingRoom α} {key : String}
    {line before behind : List TaskId} {id : TaskId} (h : w.KeepsLine key line (.turn id))
    (hline : line = before ++ id :: behind) : ∀ j ∈ before, j ∉ w.queue := by
  subst hline
  intro j hj
  have hsub : [j, id].Sublist (before ++ id :: behind) :=
    (List.singleton_sublist.mpr hj).append (List.singleton_sublist.mpr List.mem_cons_self)
  exact h.in_order id (by simp) rfl j (List.mem_append_left _ hj) hsub

namespace InLine

variable {orders : List RoomTask} {w v : WaitingRoom α} {key : String}
  {row line ids : List TaskId} {ready : Option α}

/-- The cell counts the tasks of the line. -/
theorem waiters_eq (h : w.InLine key row line ready) (hw : w.Orderly orders) {c : Cell α}
    (hc : w.shared.table.find? key = some c) : c.waiters = line.length := by
  obtain ⟨hmem, hckey⟩ := hw.hosts.find?_eq_some_iff.mp hc
  have hknown := Table.mem_known_of_mem_cells hmem
  rw [hw.hosts.waiters_eq c hknown, Crowd.countAt, List.countP_eq_length_filter,
    ← List.length_map Prod.fst]
  refine List.Perm.length_eq ((List.perm_ext_iff_of_nodup ?_ h.nodup).mpr fun id => ?_)
  · exact hw.hosts.tasks_nodup.sublist (List.filter_sublist.map _)
  · constructor
    · intro hid
      obtain ⟨e, he, rfl⟩ := List.mem_map.mp hid
      obtain ⟨he, hcell⟩ := List.mem_filter.mp he
      obtain ⟨d, hd, hdid, hdkey, -⟩ := hw.hosts.placed e he
      have hdc := hw.hosts.eq_of_id hd hknown (hdid.trans (by simpa using hcell))
      refine h.only (e.1, .waiting e.2) (mem_crowdOf.mp he) ?_
      exact (hdkey.symm.trans (congrArg Cell.key hdc)).trans hckey
    · intro hid
      obtain ⟨wait, hwait, -, hcell⟩ := h.waits id hid
      exact List.mem_map.mpr ⟨(id, wait), List.mem_filter.mpr
        ⟨mem_crowdOf.mpr hwait, by simpa using hcell c hc⟩, rfl⟩

/-- What does not concern the key leaves the line as it is. -/
theorem pass (h : w.InLine key row line ready)
    (hfind : v.shared.table.find? key = w.shared.table.find? key)
    (honly : ∀ e ∈ v.tasks, e.2.Fetches key → e.1 ∈ line)
    (htasks : ∀ e ∈ w.tasks, e.1 ∈ line → e ∈ v.tasks)
    (hqueue : ∀ j ∈ line, j ∈ w.queue → j ∈ v.queue)
    (hkept : ∀ j ∈ line, j ∈ v.aborted → j ∈ w.aborted) : v.InLine key row line ready where
  nodup := h.nodup
  perm := h.perm
  only := honly
  waits id hid := by
    obtain ⟨wait, hwait, hkey, hcell⟩ := h.waits id hid
    exact ⟨wait, htasks _ hwait hid, hkey, fun c hc => hcell c (hfind.symm.trans hc)⟩
  kept id hid ha := h.kept id hid (hkept id hid ha)
  standing := by
    cases h.standing with
    | called c d hne hc hslot hcalled =>
      exact .called c d hne (hfind.trans hc) hslot fun j hj => hqueue j hj (hcalled j hj)
    | waiting called c hne hc hslot hrow horder hcalled =>
      refine .waiting called c hne (hfind.trans hc) hslot hrow horder fun j hj => ?_
      have hrow' : j ∈ row := hrow ▸ List.mem_append_right _ hj
      exact hqueue j (h.perm.mem_iff.mp hrow') (hcalled j hj)
    | nobody hnil hnone => exact .nobody hnil (hfind.trans hnone)

/-- The cell of a line stays where it is when no sweep takes it away from its tasks. -/
theorem not_swept (h : w.InLine key row line ready) (hw : w.Orderly orders) {m : Move α}
    (hreach : ∀ c, w.shared.table.find? key = some c → ¬w.CutsOff m c.id) {asOf : Int}
    (hs : w.SweepsAsOf m asOf) : ∀ c ∈ w.shared.table.cells, c.key = key →
      c.isExpired w.shared.table.retention asOf = false ∧
        c.isUnused w.shared.table.retention asOf = false := by
  intro c hc hkey
  have hfind := hw.hosts.find?_eq_some_iff.mpr ⟨hc, hkey⟩
  have hwaiters : c.waiters ≠ 0 := by
    rw [h.waiters_eq hw hfind, ne_eq, List.length_eq_zero_iff]
    cases h.standing with
    | called _ _ hne _ _ _ => exact hne
    | waiting _ _ hne _ _ _ _ _ => exact hne
    | nobody _ hnone => simp [hnone] at hfind
  constructor
  · rw [← Bool.not_eq_true]
    exact fun hx => hreach c hfind ⟨asOf, hs, c, hc, rfl, hx, hwaiters⟩
  · rw [← Bool.not_eq_true]
    unfold Cell.isUnused
    split <;> simp [hwaiters]

/-- The turn of a task that does not stand in the line. -/
theorem turn_other (h : w.InLine key row line ready) (hw : w.Orderly orders) {id : TaskId}
    (hid : id ∉ line) (hm : w.KeepsLine key ids (.turn id)) :
    (w.move (.turn id)).InLine key row line ready := by
  have hv := WaitingRoom.turned w id
  have hsame := hv.sameAt hw (fun task htask hkey =>
    hid (h.only _ (hw.task?_eq_some_iff.mp htask) hkey)) fun asOf => h.not_swept hw hm.reach
  refine h.pass (hsame.find?_eq hw.hosts (hw.turned hv).hosts) (hv.only hw h.only) ?_ ?_ ?_
  · intro e he hline
    exact (hv.mem_tasks_iff fun heq => hid (heq ▸ hline)).mpr he
  · intro j hj hqueue
    rw [(tasks_and_queue_turned hv).1]
    exact Orderly.mem_erase (fun heq => hid (heq ▸ hj)) hqueue
  · intro j _ ha
    exact hv.aborted_subset ha

/-- A task leaves the head of the line at its turn. -/
theorem first_leaves (hw : w.Orderly orders) {id : TaskId} {behind : List TaskId}
    (h : w.InLine key row (id :: behind) ready) (hv : Turned w id v)
    (hgone : ∀ e ∈ v.tasks, e.1 ≠ id)
    (hfind : ∀ c', v.shared.table.find? key = some c' →
      ∃ c, w.shared.table.find? key = some c ∧ c.id = c'.id)
    (hstanding : v.Standing key behind behind none) : v.InLine key behind behind none := by
  obtain ⟨hne, hnodup⟩ := List.nodup_cons.mp h.nodup
  refine ⟨hnodup, .refl behind, fun e he hkey => ?_, fun j hj => ?_, fun j hj ha => ?_, hstanding⟩
  · exact (List.mem_cons.mp (hv.only hw h.only e he hkey)).resolve_left (hgone e he)
  · obtain ⟨wait, hwait, hkey, hcell⟩ := h.waits j (List.mem_cons_of_mem id hj)
    refine ⟨wait, (hv.mem_tasks_iff fun heq => hne (heq ▸ hj)).mpr hwait, hkey, fun c' hc' => ?_⟩
    obtain ⟨c, hc, hid⟩ := hfind c' hc'
    exact (hcell c hc).trans hid
  · exact h.kept j (List.mem_cons_of_mem id hj) (hv.aborted_subset ha)

/-- The first task of the line takes the value that lies there. It removes the cell if nobody stands
behind it, and those who do go to sleep in the order of the line. -/
theorem turn_first (hw : w.Orderly orders) {id : TaskId} {behind : List TaskId} {a : α}
    (h : w.InLine key row (id :: behind) (some a)) :
    (w.move (.turn id)).InLine key behind behind none ∧
      (w.move (.turn id)).results = w.results ++ [(id, some (.value a))] := by
  have hne := (List.nodup_cons.mp h.nodup).1
  obtain ⟨wait, hwait, -, hcell⟩ := h.waits id List.mem_cons_self
  obtain ⟨c, d, hc, hslot, rfl, hqueue⟩ := h.standing.of_some
  have hwaiters := h.waiters_eq hw hc
  obtain ⟨hmem, hkey⟩ := hw.hosts.find?_eq_some_iff.mp hc
  have hknown := Table.mem_known_of_mem_cells hmem
  have hcell? : w.shared.table.cell? wait.cell = some c :=
    hw.hosts.cell?_eq_some_iff.mpr ⟨hknown, (hcell c hc).symm⟩
  have hv := WaitingRoom.turned w id
  have hhosts := (hw.turned hv).hosts
  rcases hv.of_waiting (hw.task?_eq_some_iff.mpr hwait) (h.kept id List.mem_cons_self) with
    ⟨a, t, ht, heq⟩ | ⟨hnone, -⟩
  · rw [heq] at hv hhosts ⊢
    rw [hcell c hc] at ht hv hhosts ⊢
    obtain ⟨rfl, hlast, hmore⟩ := leave_of_takeAwaited hw.hosts hmem hslot ht id
    rw [hkey] at hlast
    refine ⟨?_, rfl⟩
    cases behind with
    | nil =>
      have hnone := hlast (Nat.le_of_eq hwaiters)
      refine h.first_leaves hw hv (fun e he => (mem_tasks_close he).2) (fun c' hc' => ?_)
        (.nobody rfl hnone)
      exact absurd (hnone.symm.trans hc') (by simp)
    | cons j behind =>
      have hfind := hhosts.find?_eq_some_iff.mpr ⟨hmore (by simp [hwaiters]), hkey⟩
      refine h.first_leaves hw hv (fun e he => (mem_tasks_close he).2) (fun c' hc' => ⟨c, hc, ?_⟩)
        (.waiting (j :: behind) _ (List.cons_ne_nil _ _) hfind rfl ?_ (fun _ => rfl) fun i hi => ?_)
      · have hc' : c.clear.leave id = c' := Option.some.inj (hfind.symm.trans hc')
        subst hc'
        rfl
      · have hawake := hw.hosts.awake c hknown (by simp [Cell.hasValue, hslot])
        simp [Cell.leave, Cell.clear, hawake]
      · exact Orderly.mem_erase (fun heq => hne (heq ▸ hi)) (hqueue i (List.mem_cons_of_mem id hi))
  · simp [takeAwaited?_eq_none.mp hnone c hcell?] at hslot

/-- The first of the tasks that were called goes to sleep behind the sleepers. -/
theorem row_sleep {c : Cell α} {called : List TaskId} {id : TaskId} (hnodup : row.Nodup)
    (hrow : c.sleepers ++ called = row) (hid : id ∈ row)
    (hfirst : ∀ before behind, called = before ++ id :: behind → before = []) :
    ∃ called', (c.sleep id).sleepers ++ called' = row ∧ ∀ j ∈ called', j ∈ called ∧ j ≠ id := by
  subst hrow
  obtain ⟨-, hcalled, hdisjoint⟩ := List.nodup_append.mp hnodup
  rw [Cell.sleep]
  split
  · next hasleep => exact ⟨called, rfl, fun j hj => ⟨hj, (hdisjoint id hasleep j hj).symm⟩⟩
  · next hawake =>
    obtain ⟨before, behind, rfl⟩ :=
      List.append_of_mem ((List.mem_append.mp hid).resolve_left hawake)
    obtain rfl := hfirst before behind rfl
    refine ⟨behind, by simp, fun j hj => ⟨List.mem_cons_of_mem id hj, fun heq => ?_⟩⟩
    exact (List.nodup_cons.mp hcalled).1 (heq ▸ hj)

/-- A task that goes on waiting keeps its place, behind the sleepers. -/
theorem stays (hw : w.Orderly orders) (h : w.InLine key row line none) {id : TaskId} {wait : Wait}
    (hid : id ∈ line) (hwait : (id, .waiting wait) ∈ w.tasks) {c : Cell α} {called : List TaskId}
    (hc : w.shared.table.find? key = some c) (hslot : c.slot = none)
    (hrow : c.sleepers ++ called = row) (horder : called ≠ [] → row = line)
    (hqueue : ∀ j ∈ called, j ∈ w.queue)
    (hfirst : ∀ before behind, called = before ++ id :: behind → before = [])
    (hv : Turned w id v) (heq : v = w.rest id (.waiting wait) w.alarms
      ⟨w.shared.table.change c.id fun c => c.sleep id, w.shared.reports⟩) :
    v.InLine key row line none := by
  obtain ⟨hmem, hckey⟩ := hw.hosts.find?_eq_some_iff.mp hc
  have hfind : v.shared.table.find? key = some (c.sleep id) := by
    refine (hw.turned hv).hosts.find?_eq_some_iff.mpr ⟨?_, (c.key_sleep id).trans hckey⟩
    rw [heq]
    exact mem_cells_change hmem fun c => c.sleep id
  refine ⟨h.nodup, h.perm, hv.only hw h.only, fun j hj => ?_, fun j hj ha => ?_, ?_⟩
  · obtain ⟨wait', hwait', hkey', hcell'⟩ := h.waits j hj
    refine ⟨wait', ?_, hkey', fun c' hc' => ?_⟩
    · by_cases heqj : j = id
      · subst heqj
        obtain rfl : wait' = wait := by
          simpa using ((hw.task?_eq_some_iff.mpr hwait').symm.trans
            (hw.task?_eq_some_iff.mpr hwait))
        rw [heq]
        exact List.mem_map.mpr ⟨_, hwait, if_pos rfl⟩
      · exact (hv.mem_tasks_iff (e := (j, _)) heqj).mpr hwait'
    · rw [hfind, Option.some.injEq] at hc'
      rw [hcell' c hc, ← hc', Cell.id_sleep]
  · exact h.kept j hj (hv.aborted_subset ha)
  · obtain ⟨called', hrow', hsub⟩ :=
      row_sleep (h.perm.nodup_iff.mpr h.nodup) hrow (h.perm.mem_iff.mpr hid) hfirst
    refine .waiting called' _ (List.ne_nil_of_mem hid) hfind ((c.slot_sleep id).trans hslot)
      hrow' (fun hne => ?_) fun j hj => ?_
    · obtain ⟨j, hj⟩ := List.exists_mem_of_ne_nil called' hne
      exact horder (List.ne_nil_of_mem (hsub j hj).1)
    rw [(tasks_and_queue_turned hv).1]
    exact Orderly.mem_erase (hsub j hj).2 (hqueue j (hsub j hj).1)

/-- A task that was called for a value that is gone goes back to sleep, behind those before it. -/
theorem turn_again (hw : w.Orderly orders) {id : TaskId} {served : List TaskId}
    (h : w.InLine key row line none) (hid : id ∈ line)
    (hm : w.KeepsLine key (served ++ line) (.turn id)) :
    (w.move (.turn id)).InLine key row line none ∧ (w.move (.turn id)).results = w.results := by
  obtain ⟨wait, hwait, hkey, hcell⟩ := h.waits id hid
  obtain ⟨called, c, hc, hslot, hrow, horder, hqueue⟩ :=
    h.standing.of_none (List.ne_nil_of_mem hid)
  have hv := WaitingRoom.turned w id
  rcases hv.of_waiting (hw.task?_eq_some_iff.mpr hwait) (h.kept id hid) with
    ⟨a, t, ht, -⟩ | ⟨-, heq | heq⟩
  · obtain ⟨c', d, hc', hslot', -, -⟩ := takeAwaited?_eq_some ht
    obtain ⟨hc', hid'⟩ := hw.hosts.cell?_eq_some_iff.mp hc'
    have hmem := (hw.hosts.find?_eq_some_iff.mp hc).1
    rw [hw.hosts.eq_of_id hc' (Table.mem_known_of_mem_cells hmem) (hid'.trans (hcell c hc)),
      hslot] at hslot'
    simp at hslot'
  · refine absurd (hm.in_time (id, some (.timeout wait.key (w.now - wait.startedAt)))
      (List.mem_filter.mpr ⟨?_, by simp [hid]⟩)) (by simp [fetched?])
    rw [heq]
    exact List.mem_append_right _ (List.mem_singleton_self _)
  · rw [hcell c hc] at heq
    refine ⟨h.stays hw hid hwait hc hslot hrow horder hqueue (fun before behind hbefore => ?_) hv
      heq, by rw [heq]; rfl⟩
    refine List.eq_nil_iff_forall_not_mem.mpr fun j hj => ?_
    have hids : served ++ line = (served ++ c.sleepers ++ before) ++ id :: behind := by
      rw [← horder (by simp [hbefore]), ← hrow, hbefore]
      simp
    exact hm.not_mem_queue hids j (List.mem_append_right _ hj)
      (hqueue j (hbefore ▸ List.mem_append_left _ hj))

/-- Once nobody is called all sleep, in the order of the row. -/
theorem sleepers_eq (h : w.InLine key row line none) (hne : line ≠ [])
    (huncalled : ∀ id ∈ line, id ∉ w.queue) :
    ∃ c, w.shared.table.find? key = some c ∧ c.slot = none ∧ c.sleepers = row := by
  obtain ⟨called, c, hc, hslot, hrow, -, hqueue⟩ := h.standing.of_none hne
  have hcalled : called = [] := List.eq_nil_iff_forall_not_mem.mpr fun j hj => by
    have hrow' : j ∈ row := hrow ▸ List.mem_append_right _ hj
    exact huncalled j (h.perm.mem_iff.mp hrow') (hqueue j hj)
  rw [hcalled, List.append_nil] at hrow
  exact ⟨c, hc, hslot, hrow⟩

/-- A value comes when nobody of the line is called, and calls all of it. In whatever order they
slept, from now on they stand as the line says. -/
theorem deposit (hw : w.Orderly orders) (h : w.InLine key row line none) (hne : line ≠ [])
    (huncalled : ∀ id ∈ line, id ∉ w.queue) (a : α) :
    (w.move (.deposit key a)).InLine key line line (some a) ∧ (w.deposit key a).1 = true ∧
      (w.deposit key a).2.shared.table.stats.replaced = w.shared.table.stats.replaced := by
  obtain ⟨c, hc, hslot, hrow⟩ := h.sleepers_eq hne huncalled
  have hcell : w.shared.table.withCell w.now key = (w.shared.table, c) := by
    rw [Table.withCell, hc]
  obtain ⟨hmem, hkey⟩ := hw.hosts.find?_eq_some_iff.mp hc
  obtain ⟨-, htasks⟩ := tasks_and_results_of_not_turn w (m := .deposit key a) (by simp)
  have htasks : (w.move (.deposit key a)).tasks = w.tasks := htasks.trans (List.append_nil _)
  have haborted : (w.move (.deposit key a)).aborted = w.aborted := by
    simp only [WaitingRoom.move, WaitingRoom.deposit, Scheduler.change, Scheduler.callAll_eq]
  have hfind : (w.move (.deposit key a)).shared.table.find? key = some (c.fill w.now a) := by
    refine (hw.move (.deposit key a)).hosts.find?_eq_some_iff.mpr ⟨?_, hkey⟩
    rw [WaitingRoom.move, table_deposit, fst_deposit, hcell]
    exact mem_cells_change hmem fun c => c.fill w.now a
  refine ⟨⟨h.nodup, .refl line, ?_, fun j hj => ?_, ?_, ?_⟩, ?_, ?_⟩
  · rw [htasks]
    exact h.only
  · obtain ⟨wait, hwait, hwkey, hwcell⟩ := h.waits j hj
    refine ⟨wait, htasks.symm ▸ hwait, hwkey, fun c' hc' => ?_⟩
    rw [hfind, Option.some.injEq] at hc'
    rw [hwcell c hc, ← hc']
    rfl
  · rw [haborted]
    exact h.kept
  · refine .called _ ⟨a, w.now⟩ hne hfind rfl fun j hj => ?_
    rw [WaitingRoom.move, queue_deposit, hcell, hrow]
    exact Scheduler.mem_enqueue.mpr (.inr (h.perm.mem_iff.mpr hj))
  · rw [fst_deposit_eq_decide, hcell, decide_eq_true_iff, h.waiters_eq hw hc]
    exact List.length_pos_of_ne_nil hne
  · have hempty : ¬c.hasValue = true := by simp [Cell.hasValue, hslot]
    rw [table_deposit, fst_deposit, hcell]
    change w.shared.table.stats.replaced + (if c.hasValue = true then 1 else 0) = _
    rw [if_neg hempty, Nat.add_zero]

/-- Neither a turn nor a value for the key changes what lies there for the line. -/
theorem sameAt_move (hw : w.Orderly orders) (h : w.InLine key row line ready)
    (hsub : ∀ id ∈ line, id ∈ ids) {m : Move α} (hm : w.KeepsLine key ids m)
    (hturn : ∀ id, m ≠ .turn id) (hdeposit : ∀ a, m ≠ .deposit key a) :
    SameAt key (w.move m).shared.table w.shared.table ∧
      (∀ j ∈ w.queue, j ∈ (w.move m).queue) ∧
      ∀ j ∈ line, j ∈ (w.move m).aborted → j ∈ w.aborted := by
  cases m with
  | fetch key' limit =>
    exact ⟨.refl key _, fun j hj => List.mem_append_left _ hj, fun j _ ha => ha⟩
  | startSweeper period =>
    exact ⟨.refl key _, fun j hj => List.mem_append_left _ hj, fun j _ ha => ha⟩
  | deposit key' a =>
    have hne : key' ≠ key := fun heq => hdeposit a (by rw [heq])
    refine ⟨?_, fun j hj => ?_, fun j _ ha => ?_⟩
    · rw [WaitingRoom.move, table_deposit]
      exact .deposit hw.hosts hne w.now a
    · rw [WaitingRoom.move, queue_deposit]
      exact Scheduler.mem_enqueue.mpr (.inl hj)
    · simpa only [WaitingRoom.move, WaitingRoom.deposit, Scheduler.change,
        Scheduler.callAll_eq] using ha
  | sweep offset =>
    have hs : w.SweepsAsOf (.sweep offset) (w.now + offset) := rfl
    exact ⟨.sweptFrom (sweptFrom_move hs) (h.not_swept hw hm.reach hs), fun j hj => hj,
      fun j _ ha => ha⟩
  | advance ms => exact ⟨.refl key _, fun j hj => hj, fun j _ ha => ha⟩
  | abort id =>
    refine ⟨shared_abort w id ▸ .refl key _, fun j hj => ?_, fun j hj ha => ?_⟩
    · rcases Scheduler.abort_cases w id with heq | heq
      all_goals rw [WaitingRoom.move, heq]
      · exact hj
      · exact Scheduler.mem_enqueue.mpr (.inl hj)
    · refine (Scheduler.mem_aborted_abort.mp ha).resolve_right fun hdropped => ?_
      exact hm.kept j (hsub j hj) (by rw [hdropped.1])
  | turn id => exact absurd rfl (hturn id)
  | ring =>
    refine ⟨shared_ring w ▸ .refl key _, fun j hj => ?_, fun j _ ha => ?_⟩
    · rw [WaitingRoom.move, Scheduler.ring, Scheduler.callAll_eq]
      exact Scheduler.mem_enqueue.mpr (.inl hj)
    · simpa only [WaitingRoom.move, Scheduler.ring, Scheduler.callAll_eq] using ha

theorem move_other (hw : w.Orderly orders) (h : w.InLine key row line ready)
    (hsub : ∀ id ∈ line, id ∈ ids) {m : Move α} (hm : w.KeepsLine key ids m)
    (hturn : ∀ id, m ≠ .turn id) (hdeposit : ∀ a, m ≠ .deposit key a) :
    (w.move m).InLine key row line ready := by
  obtain ⟨-, htasks⟩ := tasks_and_results_of_not_turn w hturn
  obtain ⟨hsame, hqueue, haborted⟩ := h.sameAt_move hw hsub hm hturn hdeposit
  refine h.pass (hsame.find?_eq hw.hosts (hw.move m).hosts) (fun e he hkey => ?_)
    (fun e he _ => ?_) (fun j _ hj => hqueue j hj) haborted
  · rw [htasks] at he
    rcases List.mem_append.mp he with he | he
    · exact h.only e he hkey
    · obtain ⟨task, hstarted, rfl⟩ := List.mem_map.mp he
      exact absurd hkey (hm.nobody_joins task (Option.mem_toList.mp hstarted))
  · rw [htasks]
    exact List.mem_append_left _ he

/-- A value lies ready only for those who were called. -/
theorem ready_eq_none (h : w.InLine key row line ready) (huncalled : ∀ id ∈ line, id ∉ w.queue) :
    ready = none := by
  cases h.standing with
  | waiting _ _ _ _ _ _ _ _ => rfl
  | nobody _ _ => rfl
  | called c d hne _ _ hqueue =>
    obtain ⟨j, behind, hj⟩ := List.exists_cons_of_ne_nil hne
    have hmem : j ∈ line := hj ▸ List.mem_cons_self
    exact absurd (hqueue j hmem) (huncalled j hmem)

end InLine

/-! ## A line is served -/

/-- The order in which the tasks of a line sleep: as they did at first until a value comes, and that
of the line from then on. -/
def rowAfter (first line : List TaskId) (values : List α) : List TaskId :=
  if values.isEmpty then first else line

@[simp] theorem rowAfter_concat (first line : List TaskId) (values : List α) (a : α) :
    rowAfter first line (values ++ [a]) = line := by simp [rowAfter]

/-- The first tasks of a line have returned the first values. The next value lies ready, or it has
not come yet. -/
structure Progress (key : String) (first ids : List TaskId) (w v : WaitingRoom α)
    (served line : List TaskId) (taken : List α) (ready : Option α) : Prop where
  ids_eq : ids = served ++ line
  length_eq : taken.length = served.length
  inLine : v.InLine key (rowAfter first line (taken ++ ready.toList)) line ready
  results_eq : v.resultsOf ids = w.resultsOf ids ++
    (served.zip taken).map fun e => (e.1, some (.value e.2))

namespace Progress

variable {orders : List RoomTask} {key : String} {w v v' : WaitingRoom α}
  {first ids served line : List TaskId} {taken : List α} {ready ready' : Option α}

/-- The line goes on with what it had. -/
theorem keep (h : Progress key first ids w v served line taken ready)
    (hline : v'.InLine key (rowAfter first line (taken ++ ready'.toList)) line ready')
    (hresults : v'.resultsOf ids = v.resultsOf ids) :
    Progress key first ids w v' served line taken ready' :=
  ⟨h.ids_eq, h.length_eq, hline, hresults.trans h.results_eq⟩

/-- A value comes only to an empty cell where somebody waits. -/
theorem awaits (h : Progress key first ids w v served line taken ready) {a : α}
    (hm : v.KeepsLine key ids (.deposit key a))
    (hcount : (taken ++ ready.toList).length < ids.length) :
    ready = none ∧ line ≠ [] ∧ ∀ id ∈ line, id ∉ v.queue := by
  have huncalled (id : TaskId) (hid : id ∈ line) : id ∉ v.queue :=
    hm.settled a (if_pos rfl) id (h.ids_eq ▸ List.mem_append_right _ hid)
  have hready := h.inLine.ready_eq_none huncalled
  refine ⟨hready, fun hnil => ?_, huncalled⟩
  rw [hready, h.ids_eq, hnil] at hcount
  simp [h.length_eq] at hcount

/-- A task of the line has its turn. If a value lies there it is the first one and takes it. -/
theorem turn (h : Progress key first ids w v served line taken ready) (hv : v.Orderly orders)
    {id : TaskId} (hid : id ∈ line) (hm : v.KeepsLine key ids (.turn id)) :
    ∃ served line taken' ready', taken' ++ ready'.toList = taken ++ ready.toList ∧
      Progress key first ids w (v.move (.turn id)) served line taken' ready' := by
  have hids := h.ids_eq
  have hline := h.inLine
  cases ready with
  | none =>
    obtain ⟨hagain, hresults⟩ := hline.turn_again hv hid (hids ▸ hm)
    exact ⟨served, line, taken, none, rfl, h.keep hagain (by rw [resultsOf, hresults]; rfl)⟩
  | some a =>
    obtain ⟨before, behind, rfl⟩ := List.append_of_mem hid
    obtain ⟨c, d, -, -, -, hqueue⟩ := hline.standing.of_some
    have hfirst : before = [] := List.eq_nil_iff_forall_not_mem.mpr fun j hj =>
      hm.not_mem_queue (by rw [hids, List.append_assoc]) j (List.mem_append_right served hj)
        (hqueue j (List.mem_append_left _ hj))
    subst hfirst
    obtain ⟨hnext, hresults⟩ := hline.turn_first hv
    refine ⟨served ++ [id], behind, taken ++ [a], none, List.append_nil _, ?_, ?_, by simpa, ?_⟩
    · rw [hids]
      simp
    · simp [h.length_eq]
    · have hmem : id ∈ ids := hids ▸ by simp
      rw [resultsOf, hresults, List.filter_append, ← resultsOf, h.results_eq,
        List.zip_append h.length_eq.symm]
      simp [hmem]

/-- Another task has its turn. It returns nothing for a task of the line. -/
theorem turn_other (h : Progress key first ids w v served line taken ready) (hv : v.Orderly orders)
    (hfetch : ∀ e ∈ v.tasks, e.1 ∈ ids → e.2.Fetches key) {id : TaskId} (hid : id ∉ line)
    (hm : v.KeepsLine key ids (.turn id)) :
    Progress key first ids w (v.move (.turn id)) served line taken ready := by
  refine h.keep (h.inLine.turn_other hv hid hm) ?_
  rcases (WaitingRoom.turned v id).results_eq with heq | ⟨task, htask, results, heq⟩
  · rw [resultsOf, heq]
    rfl
  · have hnot : id ∉ ids := fun hmem => hid (h.inLine.only _ htask (hfetch _ htask hmem))
    rw [resultsOf, heq, List.filter_append, ← resultsOf]
    simp [hnot]

/-- Every move that keeps to the line serves it. -/
theorem move (h : Progress key first ids w v served line taken ready) (hv : v.Orderly orders)
    (hfetch : ∀ e ∈ v.tasks, e.1 ∈ ids → e.2.Fetches key) {m : Move α}
    (hm : v.KeepsLine key ids m)
    (hcount : (taken ++ ready.toList ++ (m.valueFor? key).toList).length ≤ ids.length) :
    ∃ served line taken' ready',
      taken ++ ready.toList ++ (m.valueFor? key).toList = taken' ++ ready'.toList ∧
      Progress key first ids w (v.move m) served line taken' ready' := by
  by_cases hturn : ∃ id, m = .turn id
  · obtain ⟨id, rfl⟩ := hturn
    by_cases hid : id ∈ line
    · obtain ⟨served', line', taken', ready', heq, hnext⟩ := h.turn hv hid hm
      exact ⟨served', line', taken', ready', by simp [Move.valueFor?, heq], hnext⟩
    · exact ⟨served, line, taken, ready, by simp [Move.valueFor?], h.turn_other hv hfetch hid hm⟩
  have hkept : (v.move m).resultsOf ids = v.resultsOf ids := by
    rw [resultsOf, (tasks_and_results_of_not_turn v (not_exists.mp hturn)).1]
    rfl
  by_cases hdeposit : ∃ a, m = .deposit key a
  · obtain ⟨a, rfl⟩ := hdeposit
    have hnew : Move.valueFor? key (.deposit key a) = some a := if_pos rfl
    rw [hnew, Option.toList_some, List.length_append, List.length_singleton] at hcount
    obtain ⟨rfl, hne, huncalled⟩ := h.awaits hm hcount
    have hcalled := (h.inLine.deposit hv hne huncalled a).1
    exact ⟨served, line, taken, some a, by simp [hnew], h.keep (by simpa) hkept⟩
  · have hnone : m.valueFor? key = none := by
      cases m with
      | deposit key' a => exact if_neg fun hkey => hdeposit ⟨a, by rw [hkey]⟩
      | fetch _ _ | startSweeper _ | sweep _ | advance _ | abort _ | turn _ | ring => rfl
    refine ⟨served, line, taken, ready, by simp [hnone], h.keep ?_ hkept⟩
    exact h.inLine.move_other hv (fun id hid => h.ids_eq ▸ List.mem_append_right _ hid) hm
      (not_exists.mp hturn) (not_exists.mp hdeposit)

end Progress

/-- Those who sleep for a key do so in the order of a line. -/
def SleepInOrder (w : WaitingRoom α) (key : String) (line : List TaskId) : Prop :=
  ∀ c, w.shared.table.find? key = some c → c.sleepers = line

/-- The tasks of a line are all that want values of a key. They sleep at its cell, in whatever
order, and nobody has called them. -/
structure WaitsInLine (w : WaitingRoom α) (key : String) (line : List TaskId) : Prop where
  only : ∀ e ∈ w.tasks, e.2.Fetches key → e.1 ∈ line
  kept : ∀ id ∈ line, id ∉ w.aborted
  uncalled : ∀ id ∈ line, id ∉ w.queue
  asleep : ∀ c, w.shared.table.find? key = some c → c.sleepers.Perm line ∧ line ≠ []
  reach : w.shared.table.find? key = none → line = []

theorem WaitsInLine.inLine {orders : List RoomTask} {w : WaitingRoom α} {key : String}
    {line : List TaskId} (h : w.WaitsInLine key line) (hw : w.Orderly orders) (hl : w.Lodged)
    (honce : w.shared.table.SleepsOnce) :
    ∃ row, w.InLine key row line none ∧ w.SleepInOrder key row := by
  cases hfind : w.shared.table.find? key with
  | none =>
    obtain rfl := h.reach hfind
    exact ⟨[], ⟨List.nodup_nil, .refl [], h.only, by simp, by simp, .nobody rfl hfind⟩,
      by simp [SleepInOrder, hfind]⟩
  | some c =>
    obtain ⟨hperm, hne⟩ := h.asleep c hfind
    obtain ⟨hmem, hkey⟩ := hw.hosts.find?_eq_some_iff.mp hfind
    have hknown := Table.mem_known_of_mem_cells hmem
    have hslot : c.slot = none := by
      by_contra hslot
      have hawake := hw.hosts.awake c hknown (Option.isSome_iff_ne_none.mpr hslot)
      exact hne (List.nil_perm.mp (hawake ▸ hperm))
    refine ⟨c.sleepers, ⟨hperm.nodup_iff.mp (honce c hknown), hperm, h.only, fun id hid => ?_,
      h.kept, ?_⟩, fun c' hc' => ?_⟩
    · obtain ⟨⟨j, wait⟩, he, rfl, hcell⟩ := hl c hknown id (hperm.mem_iff.mpr hid)
      obtain ⟨d, hd, hdid, hdkey, -⟩ := hw.hosts.placed _ he
      have hdc := hw.hosts.eq_of_id hd hknown (hdid.trans hcell)
      refine ⟨wait, mem_crowdOf.mp he, hdkey.symm.trans (hdc ▸ hkey), fun c' hc' => ?_⟩
      rw [hfind, Option.some.injEq] at hc'
      exact hcell.trans (congrArg Cell.id hc')
    · exact .waiting [] c hne hfind hslot (List.append_nil _) (absurd rfl) (by simp)
    · rw [Option.some.inj (hfind.symm.trans hc')]

/-- Those who wait in line sleep in one order only. -/
theorem WaitsInLine.eq_of_sleepInOrder {w : WaitingRoom α} {key : String} {row line : List TaskId}
    (h : w.WaitsInLine key line) (hperm : row.Perm line) (hrow : w.SleepInOrder key row)
    (hline : w.SleepInOrder key line) : row = line := by
  cases hfind : w.shared.table.find? key with
  | none =>
    obtain rfl := h.reach hfind
    exact hperm.eq_nil
  | some c => exact (hrow c hfind).symm.trans (hline c hfind)

/-- Once nobody is called the line is as it was at first, less those that have been served. -/
theorem InLine.waitsInLine {w : WaitingRoom α} {key : String} {row line : List TaskId}
    {ready : Option α} (h : w.InLine key row line ready)
    (huncalled : ∀ id ∈ line, id ∉ w.queue) :
    ready = none ∧ w.WaitsInLine key line ∧ w.SleepInOrder key row := by
  obtain rfl := h.ready_eq_none huncalled
  by_cases hne : line = []
  · have hnone : w.shared.table.find? key = none := by
      cases h.standing with
      | waiting _ _ hne' _ _ _ _ _ => exact absurd hne hne'
      | nobody _ hnone => exact hnone
    exact ⟨rfl, ⟨h.only, h.kept, huncalled, by simp [hnone], fun _ => hne⟩,
      by simp [SleepInOrder, hnone]⟩
  · obtain ⟨c, hc, -, hrow⟩ := h.sleepers_eq hne huncalled
    have hsleep : w.SleepInOrder key row := fun c' hc' =>
      (congrArg Cell.sleepers (Option.some.inj (hc'.symm.trans hc))).trans hrow
    exact ⟨rfl, ⟨h.only, h.kept, huncalled, fun c' hc' => ⟨hsleep c' hc' ▸ h.perm, hne⟩,
      by simp [hc]⟩, hsleep⟩

variable {p : Retention} {before moves : List (Move α)} {key : String} {ids : List TaskId}

theorem valuesFor_append (key : String) (moves : List (Move α)) (m : Move α) :
    valuesFor key (moves ++ [m]) = valuesFor key moves ++ (m.valueFor? key).toList := by
  rw [valuesFor, List.filterMap_append]
  cases hm : m.valueFor? key <;> simp [valuesFor, hm]

/-- The tasks of a line were started for its key. -/
theorem fetches_of_mem {row : List TaskId} {ready : Option α}
    (hline : (after p before).InLine key row ids ready)
    (more : List (Move α)) :
    ∀ e ∈ (after p (before ++ more)).tasks, e.1 ∈ ids → e.2.Fetches key := by
  intro e he hid
  obtain ⟨wait, hwait, hkey, -⟩ := hline.waits e.1 hid
  obtain ⟨order, horder, hstem⟩ := (orderly_after p before).stems _ hwait
  obtain ⟨order', horder', hstem'⟩ := (orderly_after p (before ++ more)).stems e he
  have hsame := getElem?_started_of_prefix (List.prefix_append before more) horder
  obtain rfl : order = order' := Option.some.inj (hsame.symm.trans horder')
  exact (fetches_of_stemsFrom hstem').mpr ((fetches_of_stemsFrom hstem).mp hkey)

/-- A run serves a line for as long as every move keeps to it. -/
theorem progress_run {first : List TaskId} (hline : (after p before).InLine key first ids none)
    (hkeeps : ∀ more m, more ++ [m] <+: moves → (after p (before ++ more)).KeepsLine key ids m)
    (hcount : (valuesFor key moves).length ≤ ids.length) :
    ∃ served line taken ready, valuesFor key moves = taken ++ ready.toList ∧
      Progress key first ids (after p before) (after p (before ++ moves)) served line taken
        ready := by
  induction moves using List.reverseRecOn with
  | nil =>
    rw [List.append_nil]
    exact ⟨[], ids, [], none, rfl, rfl, rfl, hline, by simp⟩
  | append_singleton moves m ih =>
    rw [valuesFor_append, List.length_append] at hcount
    obtain ⟨served, line, taken, ready, hvalues, h⟩ :=
      ih (fun more m' hp => hkeeps more m' (hp.trans (List.prefix_append _ _))) (by omega)
    rw [hvalues, ← List.length_append] at hcount
    rw [valuesFor_append, hvalues, ← List.append_assoc before, after_append]
    exact h.move (orderly_after p (before ++ moves)) (fetches_of_mem hline moves)
      (hkeeps moves m List.prefix_rfl) hcount

/-- The cell of a line is there as long as somebody stands in it. -/
theorem InLine.contains_iff {w : WaitingRoom α} {row line : List TaskId} {ready : Option α}
    (h : w.InLine key row line ready) : w.shared.table.contains key = true ↔ line ≠ [] := by
  rw [Table.contains]
  cases h.standing with
  | called c d hne hc _ _ => simp [hc, hne]
  | waiting called c hne hc _ _ _ _ => simp [hc, hne]
  | nobody hnil hnone => simp [hnil, hnone]

theorem InLine.exists_task_iff {w : WaitingRoom α} {row line : List TaskId} {ready : Option α}
    (h : w.InLine key row line ready) (hsub : ∀ id ∈ line, id ∈ ids)
    (hfetch : ∀ e ∈ w.tasks, e.1 ∈ ids → e.2.Fetches key) :
    (∃ e ∈ w.tasks, e.1 ∈ ids) ↔ line ≠ [] := by
  constructor
  · rintro ⟨e, he, hid⟩
    exact List.ne_nil_of_mem (h.only e he (hfetch e he hid))
  · intro hne
    obtain ⟨id, behind, rfl⟩ := List.exists_cons_of_ne_nil hne
    obtain ⟨wait, hwait, -⟩ := h.waits id List.mem_cons_self
    exact ⟨_, hwait, hsub id List.mem_cons_self⟩

/-- Where nobody who wants a value of a key is called, nobody is to be dropped and nobody was cut
off, those who wait stand in line, in any order one likes. -/
theorem waitsInLine_of_mem_iff {line : List TaskId} (hnodup : line.Nodup)
    (hline : ∀ id, id ∈ line ↔
      ∃ task, (id, task) ∈ (after p moves).tasks ∧ task.Fetches key)
    (huncalled : ∀ id ∈ line, id ∉ (after p moves).queue ∧ id ∉ (after p moves).aborted)
    (hreach : ∀ e ∈ (after p moves).crowd, e.2.key = key → ¬SweptAway p moves e.2.cell)
    (hsome : ∃ e ∈ (after p moves).crowd, e.2.key = key) :
    (after p moves).WaitsInLine key line := by
  have hw := orderly_after p moves
  obtain ⟨e, he, rfl⟩ := hsome
  obtain ⟨c, -, -, -, hfind⟩ := find?_key_iff he
  have hfind := hfind.mpr (hreach e he rfl)
  have hknown := Table.mem_known_of_mem_cells (Table.find?_eq_some hfind).1
  have hsleepers (id : TaskId) : id ∈ c.sleepers ↔
      ∃ task, (id, task) ∈ (after p moves).tasks ∧ task.Fetches e.2.key := by
    constructor
    · intro hid
      obtain ⟨⟨j, wait⟩, hwait, rfl, hcell⟩ := lodged_after p moves c hknown id hid
      exact ⟨.waiting wait, mem_crowdOf.mp hwait, ((cell_eq_iff hfind hwait).mp hcell).1⟩
    · rintro ⟨task, htask, hkey⟩
      have hidle := (huncalled id ((hline id).mpr ⟨task, htask, hkey⟩)).1
      cases task with
      | fetching key' limit => exact absurd (hw.unbegun id key' limit htask) hidle
      | waiting wait =>
        have hwait := mem_crowdOf.mpr htask
        have hcell := (cell_eq_iff hfind hwait).mpr ⟨hkey, hreach _ hwait hkey⟩
        obtain ⟨d, hd, hid, -, hs⟩ := hw.hosts.placed _ hwait
        obtain rfl := hw.hosts.eq_of_id hd hknown (hid.trans hcell)
        exact hs.resolve_right hidle
      | sweeping sweeper => exact hkey.elim
  refine ⟨fun e' he' hkey => (hline e'.1).mpr ⟨e'.2, he', hkey⟩, fun id hid => (huncalled id hid).2,
    fun id hid => (huncalled id hid).1, fun c' hc' => ?_, by simp [hfind]⟩
  obtain rfl : c = c' := Option.some.inj (hfind.symm.trans hc')
  refine ⟨(List.perm_ext_iff_of_nodup (sleepsOnce_after p moves c hknown) hnodup).mpr fun id =>
    (hsleepers id).trans (hline id).symm, ?_⟩
  exact List.ne_nil_of_mem ((hline e.1).mpr ⟨.waiting e.2, mem_crowdOf.mp he, rfl⟩)

/-- Some tasks wait for values of a key. They stand in any line, such as that in which they began to
wait, and no more values come than there are tasks. Each of them finds somebody waiting and replaces
nothing. The cell is there as long as one of the tasks is. When nobody is called, the first value
has been returned by the first task, the second one by the second and so on, and the others wait in
line as before. Once a value has come they also sleep in that order. -/
theorem values_served_in_order (hline : (after p before).WaitsInLine key ids)
    (hkeeps : ∀ more m, more ++ [m] <+: moves → (after p (before ++ more)).KeepsLine key ids m)
    (hcount : (valuesFor key moves).length ≤ ids.length) :
    (∀ more a, more ++ [.deposit key a] <+: moves →
      ((after p (before ++ more)).deposit key a).1 = true ∧
      ((after p (before ++ more)).deposit key a).2.shared.table.stats.replaced =
        (after p (before ++ more)).shared.table.stats.replaced) ∧
    ((after p (before ++ moves)).shared.table.contains key = true ↔
      ∃ e ∈ (after p (before ++ moves)).tasks, e.1 ∈ ids) ∧
    ((∀ id ∈ ids, id ∉ (after p (before ++ moves)).queue) →
      (after p (before ++ moves)).resultsOf ids = (after p before).resultsOf ids ++
        (ids.zip (valuesFor key moves)).map (fun e => (e.1, some (.value e.2))) ∧
      (after p (before ++ moves)).WaitsInLine key (ids.drop (valuesFor key moves).length) ∧
      (valuesFor key moves ≠ [] ∨ (after p before).SleepInOrder key ids →
        (after p (before ++ moves)).SleepInOrder key (ids.drop (valuesFor key moves).length)) ∧
      ((after p (before ++ moves)).shared.table.contains key = true ↔
        (valuesFor key moves).length < ids.length)) := by
  obtain ⟨first, hstart, hfirst⟩ := hline.inLine (orderly_after p before) (lodged_after p before)
    (sleepsOnce_after p before)
  obtain ⟨served, line, taken, ready, hvalues, h⟩ := progress_run hstart hkeeps hcount
  have hsub : ∀ id ∈ line, id ∈ ids := fun id hid => h.ids_eq ▸ List.mem_append_right _ hid
  have hcontains := h.inLine.contains_iff
  refine ⟨fun more a hp => ?_, ?_, fun huncalled => ?_⟩
  · have hmore := Nat.le_trans (hp.filterMap (Move.valueFor? key)).length_le hcount
    rw [← valuesFor, valuesFor_append, List.length_append] at hmore
    obtain ⟨served, line, taken, ready, hvalues, h⟩ := progress_run hstart
      (fun more' m hp' => hkeeps more' m (hp'.trans ((List.prefix_append _ _).trans hp))) (by omega)
    have hone : (Move.valueFor? key (.deposit key a)).toList = [a] := by simp [Move.valueFor?]
    rw [hone, hvalues, List.length_singleton] at hmore
    obtain ⟨rfl, hne, huncalled⟩ := h.awaits (hkeeps more _ hp) hmore
    exact (h.inLine.deposit (orderly_after p (before ++ more)) hne huncalled a).2
  · exact hcontains.trans (h.inLine.exists_task_iff hsub (fetches_of_mem hstart moves)).symm
  · obtain ⟨rfl, hwaits, hsleep⟩ :=
      h.inLine.waitsInLine fun id hid => huncalled id (hsub id hid)
    rw [Option.toList_none, List.append_nil] at hvalues hsleep
    have hlength := h.length_eq
    have hdrop : ids.drop taken.length = line := by rw [hlength, h.ids_eq, List.drop_left]
    rw [hcontains, hvalues, h.results_eq, hdrop]
    refine ⟨?_, hwaits, fun horder => ?_, ?_⟩
    · have hzip : (served ++ line).zip taken = served.zip taken := by
        calc (served ++ line).zip taken = (served ++ line).zip (taken ++ []) := by
              rw [List.append_nil]
          _ = served.zip taken ++ line.zip [] := List.zip_append hlength.symm
          _ = served.zip taken := by rw [List.zip_nil_right, List.append_nil]
      rw [h.ids_eq, hzip]
    · cases taken with
      | nil =>
        obtain rfl : ids = line := hdrop
        rwa [← hline.eq_of_sleepInOrder hstart.perm hfirst (horder.resolve_left (absurd rfl))]
      | cons a taken => exact hsleep
    · rw [h.ids_eq, hlength, List.length_append, Nat.lt_add_right_iff_pos, List.length_pos_iff]

/-- Where no sweeper was started only sweeps from outside cut tasks off. -/
theorem not_cutsOff_of_started {m : Move α} {n : Nat} (hm : ∀ offset, m ≠ .sweep offset)
    (hstarted : ∀ sweeper, .sweeping sweeper ∉ started moves) : ¬(after p moves).CutsOff m n := by
  rintro ⟨asOf, hs, -⟩
  cases m with
  | sweep offset => exact hm offset rfl
  | turn id =>
    obtain ⟨-, -, sweeper, htask, -⟩ := hs
    obtain ⟨order, horder, sweeper', rfl⟩ :=
      (orderly_after p moves).stems _ (Scheduler.mem_of_lookup htask)
    exact hstarted sweeper' (List.mem_of_getElem? horder)
  | fetch _ _ | startSweeper _ | deposit _ _ | advance _ | abort _ | ring => exact hs

/-- Four tasks begin to wait for one key. The second one takes the value that comes, and the others
go back to sleep from the last to the first. -/
def threeWait : List (Move Nat) :=
  [.fetch "k" 0, .fetch "k" 0, .fetch "k" 0, .fetch "k" 0, .turn 0, .turn 1, .turn 2, .turn 3,
    .deposit "k" 4, .turn 1, .turn 3, .turn 2, .turn 0]

/-- Two values come, and a third one for another key in between. -/
def twoCome : List (Move Nat) :=
  [.deposit "k" 5, .fetch "j" 0, .turn 0, .turn 2, .turn 4, .turn 3, .deposit "j" 6, .turn 4,
    .deposit "k" 7, .turn 2, .turn 3]

/-- The two that began to wait first return the two values in this order, although they slept behind
the third one, which waits on. -/
theorem two_of_three_served :
    (after ⟨10, none⟩ threeWait).SleepInOrder "k" [3, 2, 0] ∧
      (after ⟨10, none⟩ threeWait).WaitsInLine "k" [0, 2, 3] ∧
      (after ⟨10, none⟩ (threeWait ++ twoCome)).results =
        [(1, some (.value 4)), (0, some (.value 5)), (4, some (.value 6)), (2, some (.value 7))] ∧
      (after ⟨10, none⟩ (threeWait ++ twoCome)).WaitsInLine "k" [3] := by
  have hfind : (after ⟨10, none⟩ threeWait).shared.table.find? "k" =
      some ⟨0, "k", none, 0, 3, [3, 2, 0]⟩ := by decide
  have hline : (after ⟨10, none⟩ threeWait).WaitsInLine "k" [0, 2, 3] :=
    ⟨by decide, by decide, by decide, by rw [hfind]; decide, by simp [hfind]⟩
  have hkeeps : ∀ more m, more ++ [m] <+: twoCome →
      (after ⟨10, none⟩ (threeWait ++ more)).KeepsLine "k" [0, 2, 3] m := by
    intro more m hp
    have hlt : more.length < 11 := by simpa [twoCome, Nat.lt_succ_iff] using hp.length_le
    have hm : twoCome[more.length]? = some m := by
      rw [List.prefix_iff_getElem?.mp hp more.length (by simp), List.getElem_concat_length rfl]
    rw [List.prefix_iff_eq_take.mp ((List.prefix_append more [m]).trans hp)]
    generalize more.length = i at hlt hm
    interval_cases i
    all_goals
      obtain rfl := Option.some.inj hm
      refine ⟨by decide, by decide, by decide, by decide, by decide, fun c _ => ?_⟩
      exact not_cutsOff_of_started (by simp) (by simp [started, threeWait, twoCome, Move.started?])
  exact ⟨by simp [SleepInOrder, hfind], hline, by decide,
    ((values_served_in_order hline hkeeps (by decide)).2.2 (by decide)).2.1⟩

end WaitingRoom
end EbmsMessaging.Correlation
