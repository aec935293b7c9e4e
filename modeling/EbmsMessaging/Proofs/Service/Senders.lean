import EbmsMessaging.Proofs.Service.Exchanges

/-!
# What becomes of a sender

A sender does not get lost. It has not transmitted yet, or it waits, or its exchange has ended, or
it was dropped.
-/
namespace EbmsMessaging

/-- A task that waited is dropped. -/
def Deed.isWithdrawal : Deed → Bool
  | withdrawn _ _ => true
  | _ => false

/-- A sender goes on, or its exchange has ended. -/
theorem Sender.Told.goes {settings : ExchangeSettings} {id : TaskId} {r : SendRequest}
    {journal : List (Clock × Deed)} {trail : List StageChange}
    {next : Next ServiceTask ServiceResult} (h : Told settings id r journal trail next) :
    (∃ task, next.task? = some task ∧ task.IsSender) ∨
      ∃ result, next.result? = some (.exchanged result) := by
  rcases h.cases with ⟨result, rfl, -⟩ | ⟨x, w, htask, -⟩
  · exact .inr ⟨result, rfl⟩
  · exact .inl ⟨_, htask, trivial⟩

namespace Service

open Correlation Sender

/-- What has become of a sender. One that was dropped had done nothing, or it waited. -/
inductive Whereabouts (s : Service) (moves : List Move) (id : TaskId) : Prop where
  | present (task : ServiceTask) (h : (id, task) ∈ (s.run moves).scheduler.tasks)
    (hsender : task.IsSender)
  | ended (result : Except ExchangeFailure Confirmation)
    (h : (id, .exchanged result) ∈ (s.run moves).scheduler.results)
  | dropped (hlt : id < (s.run moves).scheduler.nextTask)
    (hgone : id ∉ (s.run moves).scheduler.tasks.map Prod.fst)
    (hjournal : s.journal moves id = [] ∨ ∃ e ∈ s.journal moves id, e.2.isWithdrawal)

section Moves

variable {s : Service} {moves : List Move} {m : Move} {id : TaskId} {r : SendRequest}

theorem Requested.of_concat (h : s.Requested (moves ++ [m]) id r) :
    s.Requested moves id r ∨ (m = .send r ∧ (s.run moves).scheduler.nextTask = id) := by
  obtain ⟨before, hbefore, hid⟩ := h
  rcases List.prefix_concat_iff.mp hbefore with heq | hbefore
  · obtain ⟨rfl, hm⟩ := List.append_inj' heq rfl
    exact .inr ⟨(List.singleton_inj.mp hm).symm, hid⟩
  · exact .inl ⟨before, hbefore, hid⟩

/-- The new task of a request is a sender. -/
theorem Whereabouts.fresh (s : Service) (moves : List Move) (r : SendRequest) :
    Whereabouts s (moves ++ [.send r]) (s.run moves).scheduler.nextTask := by
  refine .present (.sending r) ?_ trivial
  rw [run_concat]
  exact List.mem_append_right _ List.mem_cons_self

/-- A sender that is dropped had done nothing, or its wait is withdrawn. -/
theorem Known.journal_dropped {task : ServiceTask} (h : s.Known moves id task)
    (hsender : task.IsSender) (htask : (s.run moves).scheduler.task? id = some task)
    (ha : id ∈ (s.run moves).scheduler.aborted) : s.journal (moves ++ [.turn id]) id = [] ∨
      ∃ e ∈ s.journal (moves ++ [.turn id]) id, e.2.isWithdrawal := by
  rw [Service.journal_dropped htask ha]
  cases task with
  | sending r =>
    refine .inl ?_
    rw [h.2.1]
    rfl
  | awaiting x w =>
    exact .inr ⟨((s.run moves).scheduler.clock, .withdrawn id w),
      List.mem_append_right _ List.mem_cons_self, rfl⟩
  | _ => exact hsender.elim

namespace Whereabouts

/-- While others have their turns nothing happens to a sender. -/
theorem spared (h : Whereabouts s moves id) (hn : Numbered (s.run moves).scheduler)
    (hm : m ≠ .turn id) : Whereabouts s (moves ++ [m]) id := by
  have hspares := spares_move hn hm
  have hrun : (s.run (moves ++ [m])).scheduler = ((s.run moves).move m).scheduler := by
    rw [run_concat]
  rw [← hrun] at hspares
  cases h with
  | present task h hsender => exact .present task (hspares.task task h) hsender
  | ended result h => exact .ended result (hspares.result _ h)
  | dropped hlt hgone hjournal =>
    refine .dropped (Nat.lt_of_lt_of_le hlt hspares.nextTask) (hspares.gone hlt hgone) ?_
    rwa [journal_other s moves hm]

/-- A sender that has its turn goes on, ends or is dropped. -/
theorem of_present {task : ServiceTask} (hmem : (id, task) ∈ (s.run moves).scheduler.tasks)
    (hsender : task.IsSender) (hn : Numbered (s.run moves).scheduler)
    (hknown : s.Known moves id task) : Whereabouts s (moves ++ [.turn id]) id := by
  have htask := hn.task?_eq_some_iff.mpr hmem
  by_cases ha : id ∈ (s.run moves).scheduler.aborted
  · have hv := scheduler_turn s moves id
    rw [Scheduler.attend_of_mem_aborted htask ha] at hv
    refine .dropped ?_ ?_ (hknown.journal_dropped hsender htask ha)
    · rw [hv]
      exact hn.task_lt _ hmem
    · rw [hv, List.mem_map]
      rintro ⟨e, he, rfl⟩
      exact of_decide_eq_true (List.mem_filter.mp he).2 rfl
  · have hturn := Scheduler.attended (b := ServiceTask.behaviour) hn.nodup hn.task_lt htask ha
    rw [← scheduler_turn] at hturn
    obtain ⟨r, -, htold⟩ := hknown.told hsender htask ha
    rcases htold.goes with ⟨next, hgoes, hsender⟩ | ⟨result, hresult⟩
    · exact .present next ((Numbered.mem_tasks_attended hturn).mpr (.inr (.inl ⟨rfl, hgoes⟩)))
        hsender
    · exact .ended result ((Numbered.mem_results_attended hturn).mpr (.inr ⟨rfl, hresult⟩))

theorem turn (h : Whereabouts s moves id) (hn : Numbered (s.run moves).scheduler)
    (hknown : Chronicled s moves) : Whereabouts s (moves ++ [.turn id]) id := by
  cases h with
  | present task hmem hsender => exact of_present hmem hsender hn (hknown.tasks _ hmem)
  | ended result h =>
    refine .ended result ?_
    rw [scheduler_turn]
    exact (hn.turned id).mem_results h
  | dropped hlt hgone hjournal =>
    have hnone : (s.run moves).scheduler.task? id = none := Scheduler.lookup_eq_none_iff.mpr hgone
    have hv := scheduler_turn s moves id
    rw [Scheduler.attend_nobody hnone] at hv
    refine .dropped ?_ ?_ ?_
    · rw [hv]
      exact hlt
    · rw [hv]
      exact hgone
    · rw [journal_nobody hnone]
      exact hjournal

end Whereabouts

theorem whereabouts_run (settings : ExchangeSettings) (gateway : Option Gateway) (draws : Draws)
    (h : (opened settings gateway draws).Requested moves id r) :
    Whereabouts (opened settings gateway draws) moves id := by
  induction moves using List.reverseRecOn with
  | nil =>
    obtain ⟨before, hbefore, -⟩ := h
    simp at hbefore
  | append_singleton moves m ih =>
    rcases h.of_concat with hbefore | ⟨rfl, rfl⟩
    · have hn := numbered_run settings gateway draws moves
      by_cases hm : m = .turn id
      · subst hm
        exact (ih hbefore).turn hn (chronicled_run settings gateway draws moves)
      · exact (ih hbefore).spared hn hm
    · exact .fresh _ moves r

/-- A sender that has transmitted waits, unless its exchange has ended or it was dropped. -/
theorem waiting_of_transmitted (settings : ExchangeSettings) (gateway : Option Gateway)
    (draws : Draws) (h : (opened settings gateway draws).Requested moves id r)
    (hsent : (opened settings gateway draws).journal moves id ≠ []) :
    (∃ x w, (id, .awaiting x w) ∈ ((opened settings gateway draws).run moves).scheduler.tasks) ∨
      (∃ result, (id, .exchanged result) ∈
        ((opened settings gateway draws).run moves).scheduler.results) ∨
      ∃ e ∈ (opened settings gateway draws).journal moves id, e.2.isWithdrawal := by
  cases whereabouts_run settings gateway draws h with
  | ended result h => exact .inr (.inl ⟨result, h⟩)
  | dropped _ _ hjournal => exact .inr (.inr (hjournal.resolve_left hsent))
  | present task hmem hsender =>
    cases task with
    | sending r =>
      exact absurd ((chronicled_run settings gateway draws moves).tasks _ hmem).2.1 hsent
    | awaiting x w => exact .inl ⟨x, w, hmem⟩
    | _ => exact hsender.elim

end Moves
end Service
end EbmsMessaging
