import EbmsMessaging.Proofs.Correlation.Evolution
import EbmsMessaging.Proofs.Correlation.Settling

/-!
# What happens to other keys

An operation on another key leaves the cell of a key exactly as it is, sleepers included. So does
the turn of a task that wants nothing of the key, unless it sweeps the cell away. And a turn changes
no task but the one that has it.
-/
namespace EbmsMessaging.Correlation

variable {α : Type}

namespace Table

/-- A later table has the same cell for a key. -/
def SameAt (key : String) (t' t : Table α) : Prop :=
  ∀ c, c.key = key → (c ∈ t'.cells ↔ c ∈ t.cells)

/-- No cell in reach of a key has the number. -/
def Elsewhere (key : String) (n : Nat) (t : Table α) : Prop := ∀ c ∈ t.cells, c.id = n → c.key ≠ key

namespace SameAt

variable {key key' : String} {t t' t'' : Table α} {n : Nat} {a : α}

theorem refl (key : String) (t : Table α) : SameAt key t t := fun _ _ => Iff.rfl

theorem trans (h' : SameAt key t'' t') (h : SameAt key t' t) : SameAt key t'' t :=
  fun c hc => (h' c hc).trans (h c hc)

theorem elsewhere (h : SameAt key t' t) (hn : Elsewhere key n t) : Elsewhere key n t' :=
  fun c hc hid hkey => hn c ((h c hkey).mp hc) hid hkey

theorem countStats (t : Table α) (f : Stats → Stats) : SameAt key (t.countStats f) t := refl key t

theorem change (hn : Elsewhere key n t) {f : Cell α → Cell α} (hf : ∀ c, (f c).key = c.key) :
    SameAt key (t.change n f) t := by
  intro c hkey
  constructor
  · intro hc
    obtain ⟨b, hb, rfl⟩ := List.mem_map.mp hc
    by_cases hid : b.id = n
    · rw [if_pos hid, hf] at hkey
      exact absurd hkey (hn b hb hid)
    · rwa [if_neg hid]
  · intro hc
    exact List.mem_map.mpr ⟨c, hc, if_neg fun hid => hn c hc hid hkey⟩

theorem remove (hn : Elsewhere key n t) : SameAt key (t.remove n) t := by
  intro c hkey
  refine ⟨fun hc => (List.mem_filter.mp hc).1, fun hc => List.mem_filter.mpr ⟨hc, ?_⟩⟩
  simpa using fun hid => hn c hc hid hkey

theorem leave (hn : Elsewhere key n t) (id : TaskId) : SameAt key (t.leave n id) t :=
  (change hn fun _ => rfl : SameAt key (t.change n fun c => c.leave id) t)

theorem withCell (hne : key' ≠ key) (t : Table α) (now : Nat) :
    SameAt key (t.withCell now key').1 t := by
  rcases t.withCell_cases now key' with ⟨c, -, heq⟩ | ⟨-, heq⟩
  · rw [heq]
    exact refl key t
  · rw [heq]
    intro c hkey
    refine ⟨fun hc => (List.mem_append.mp hc).resolve_right fun hnew => ?_,
      fun hc => List.mem_append_left _ hc⟩
    rw [List.mem_singleton.mp hnew] at hkey
    exact hne hkey

variable {crowd : Crowd} {queue : List TaskId}

theorem elsewhere_of_find? (h : t.Hosts crowd queue) {c : Cell α} (hc : t.find? key' = some c)
    (hne : key' ≠ key) : Elsewhere key c.id t := by
  intro b hb hid hkey
  obtain ⟨hmem, hckey⟩ := h.find?_eq_some_iff.mp hc
  have hbc := h.eq_of_id (mem_known_of_mem_cells hb) (mem_known_of_mem_cells hmem) hid
  exact hne (hckey.symm.trans (hbc ▸ hkey))

theorem elsewhere_of_wait (h : t.Hosts crowd queue) {e : TaskId × Wait} (he : e ∈ crowd)
    (hne : e.2.key ≠ key) : Elsewhere key e.2.cell t := by
  intro b hb hid hkey
  obtain ⟨d, hd, hdid, hdkey, -⟩ := h.placed e he
  have hbd := h.eq_of_id (mem_known_of_mem_cells hb) hd (hid.trans hdid.symm)
  exact hne (hdkey.symm.trans (hbd ▸ hkey))

theorem deposit (h : t.Hosts crowd queue) (hne : key' ≠ key) (now : Nat) (a : α) :
    SameAt key (t.deposit now key' a).1 t := by
  rw [fst_deposit]
  have hcell := elsewhere_of_find? (h.withCell now key') (find?_withCell t now key') hne
  refine trans (trans (countStats _ _) ?_) (withCell hne t now)
  exact change (f := fun c => c.fill now a) hcell fun _ => rfl

theorem takeReady (h : t.Hosts crowd queue) (hne : key' ≠ key)
    (ht : t.takeReady? key' = some (a, t')) : SameAt key t' t := by
  obtain ⟨c, d, hc, -, -, rfl⟩ := takeReady?_eq_some ht
  have hcell := elsewhere_of_find? h hc hne
  split
  · exact remove hcell
  · exact change hcell fun _ => rfl

theorem takeAwaited (hn : Elsewhere key n t) (ht : t.takeAwaited? n = some (a, t')) :
    SameAt key t' t := by
  obtain ⟨c, d, -, -, -, rfl⟩ := takeAwaited?_eq_some ht
  split
  · exact remove hn
  · exact change hn fun _ => rfl

theorem sweptFrom {asOf : Int} (h : SweptFrom asOf t' t) (hkept : ∀ c ∈ t.cells, c.key = key →
    c.isExpired t.retention asOf = false ∧ c.isUnused t.retention asOf = false) :
    SameAt key t' t := by
  intro c hkey
  rw [h.mem_cells]
  exact ⟨fun hc => hc.1, fun hc => ⟨hc, hkept c hc hkey⟩⟩

theorem find?_eq (h : SameAt key t' t) (ht : t.Hosts crowd queue) {crowd' : Crowd}
    {queue' : List TaskId} (ht' : t'.Hosts crowd' queue') : t'.find? key = t.find? key := by
  refine Option.ext fun c => ?_
  rw [ht'.find?_eq_some_iff, ht.find?_eq_some_iff]
  exact ⟨fun ⟨hc, hkey⟩ => ⟨(h c hkey).mp hc, hkey⟩, fun ⟨hc, hkey⟩ => ⟨(h c hkey).mpr hc, hkey⟩⟩

end SameAt

end Table

/-- A task that wants a value of a key. -/
def RoomTask.Fetches (key : String) : RoomTask → Prop
  | .fetching key' _ => key' = key
  | .waiting wait => wait.key = key
  | .sweeping _ => False

instance (key : String) (task : RoomTask) : Decidable (task.Fetches key) :=
  match task with
  | .fetching key' _ => inferInstanceAs (Decidable (key' = key))
  | .waiting wait => inferInstanceAs (Decidable (wait.key = key))
  | .sweeping _ => inferInstanceAs (Decidable False)

namespace WaitingRoom

open Table

/-- The turn of a task that wants nothing of a key leaves the cell of the key alone, unless it sweeps
this cell away. -/
theorem Turned.sameAt {orders : List RoomTask} {w v : WaitingRoom α} {id : TaskId}
    {key : String} (hw : w.Orderly orders) (h : Turned w id v)
    (htask : ∀ task, w.task? id = some task → ¬task.Fetches key)
    (hkept : ∀ asOf, w.SweepsAsOf (.turn id) asOf → ∀ c ∈ w.shared.table.cells, c.key = key →
      c.isExpired w.shared.table.retention asOf = false ∧
        c.isUnused w.shared.table.retention asOf = false) :
    SameAt key v.shared.table w.shared.table := by
  have hcell {wait : Wait} (hwait : w.task? id = some (.waiting wait)) :
      Elsewhere key wait.cell w.shared.table :=
    SameAt.elsewhere_of_wait hw.hosts (mem_crowdOf.mpr (hw.task?_eq_some_iff.mp hwait))
      (htask _ hwait)
  by_cases hs : ∃ asOf, w.SweepsAsOf (.turn id) asOf
  · obtain ⟨asOf, hs⟩ := hs
    exact SameAt.sweptFrom (h.sweptFrom hs) (hkept asOf hs)
  cases h with
  | nobody _ => exact .refl key _
  | withdrawn wait hid _ => exact .leave (hcell hid) id
  | dropped _ _ _ _ => exact .refl key _
  | fetched key' _ a t hid _ ht =>
    exact SameAt.trans (.countStats t _) (.takeReady hw.hosts (htask _ hid) ht)
  | entered key' limit hid _ _ =>
    refine SameAt.trans (.change ?_ fun _ => rfl) (.withCell (htask _ hid) _ w.now)
    exact SameAt.elsewhere_of_find? (hw.hosts.withCell w.now key') (find?_withCell _ _ _)
      (htask _ hid)
  | received wait a t hid _ ht =>
    have htaken := SameAt.takeAwaited (hcell hid) ht
    exact SameAt.trans (.countStats _ _)
      (.trans (.leave (htaken.elsewhere (hcell hid)) id) htaken)
  | timedOut wait hid _ _ _ => exact .leave (hcell hid) id
  | stayed wait hid _ _ _ =>
    exact .change (hcell hid) fun c => c.key_sleep id
  | idled _ _ _ _ => exact .refl key _
  | ticked sweeper hid ha hp =>
    have hnone : (sweeper.tick w.clock).1 = 0 := by
      by_contra hne
      exact hs ⟨w.now, rfl, ha, sweeper, hid, hp, hne⟩
    rw [table_rest, hnone]
    exact .refl key _

theorem fetches_of_stemsFrom {key : String} {order task : RoomTask} (h : StemsFrom order task) :
    task.Fetches key ↔ order.Fetches key := by
  cases task with
  | fetching key' limit => rw [h]
  | waiting wait =>
    obtain ⟨limit, rfl, -⟩ := h
    exact Iff.rfl
  | sweeping sweeper =>
    obtain ⟨sweeper', rfl⟩ := h
    exact Iff.rfl

section Turned

variable {orders : List RoomTask} {w v : WaitingRoom α} {id : TaskId}

/-- A turn starts no task. -/
theorem Turned.exists_task (h : Turned w id v) {e : TaskId × RoomTask} (he : e ∈ v.tasks) :
    ∃ task, (e.1, task) ∈ w.tasks := by
  rcases h.closed_or_rested with rfl | ⟨-, -, ⟨t, results, rfl⟩ | ⟨task, alarms, room, rfl⟩⟩
  · exact ⟨e.2, he⟩
  · exact ⟨e.2, (mem_tasks_close he).1⟩
  · have hfst := List.mem_map_of_mem (f := Prod.fst) he
    rw [Alarmed.map_fst_tasks_rest] at hfst
    obtain ⟨e', he', heq⟩ := List.mem_map.mp hfst
    exact ⟨e'.2, heq ▸ he'⟩

/-- The other tasks are what they were. -/
theorem Turned.mem_tasks_iff (h : Turned w id v) {e : TaskId × RoomTask} (hne : e.1 ≠ id) :
    e ∈ v.tasks ↔ e ∈ w.tasks := by
  rcases h.closed_or_rested with rfl | ⟨-, -, ⟨t, results, rfl⟩ | ⟨task, alarms, room, rfl⟩⟩
  · exact Iff.rfl
  · exact ⟨fun he => (mem_tasks_close he).1, fun he => List.mem_filter.mpr ⟨he, by simpa using hne⟩⟩
  · refine ⟨fun he => ?_, fun he => List.mem_map.mpr ⟨e, he, if_neg hne⟩⟩
    rcases mem_tasks_rest he with rfl | ⟨he, -⟩
    · exact absurd rfl hne
    · exact he

theorem Turned.aborted_subset (h : Turned w id v) {j : TaskId} (hj : j ∈ v.aborted) :
    j ∈ w.aborted := by
  rcases h.closed_or_rested with rfl | ⟨-, -, ⟨t, results, rfl⟩ | ⟨task, alarms, room, rfl⟩⟩
  · exact hj
  · exact (List.mem_filter.mp hj).1
  · exact hj

/-- Only a task that has its turn returns something. -/
theorem Turned.results_eq (h : Turned w id v) : v.results = w.results ∨
    ∃ task, (id, task) ∈ w.tasks ∧ ∃ results : List (Option (Outcome α)),
      v.results = w.results ++ results.map fun r => (id, r) := by
  rcases h.closed_or_rested with rfl | ⟨task, htask, ⟨t, results, rfl⟩ | ⟨task, alarms, room, rfl⟩⟩
  · exact .inl rfl
  · exact .inr ⟨task, Scheduler.mem_of_lookup htask, results, rfl⟩
  · exact .inl rfl

/-- No task comes to want a value of a key. -/
theorem Turned.only (h : Turned w id v) (hw : w.Orderly orders) {key : String}
    {line : List TaskId} (honly : ∀ e ∈ w.tasks, e.2.Fetches key → e.1 ∈ line) :
    ∀ e ∈ v.tasks, e.2.Fetches key → e.1 ∈ line := by
  intro e he hkey
  obtain ⟨task, htask⟩ := h.exists_task he
  obtain ⟨order, horder, hstem⟩ := (hw.turned h).stems e he
  obtain ⟨order', horder', hstem'⟩ := hw.stems _ htask
  obtain rfl : order = order' := Option.some.inj (horder.symm.trans horder')
  refine honly (e.1, task) htask ((fetches_of_stemsFrom hstem').mpr ?_)
  exact (fetches_of_stemsFrom hstem).mp hkey

end Turned

end WaitingRoom
end EbmsMessaging.Correlation
