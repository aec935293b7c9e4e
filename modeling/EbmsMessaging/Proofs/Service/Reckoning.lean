import EbmsMessaging.Proofs.Service.Counting
import EbmsMessaging.Proofs.Service.Strays
import Mathlib.Data.List.Count

/-!
# The counters account for every run

The events of a run make up its ledger. Every counter can be read off the ledger, and so can the
statistics of the table and the senders that are on their way: the counters agree with what a service
has answered, and with what is left to do.
-/
namespace EbmsMessaging

open Correlation

theorem Hop.text_injective : Function.Injective Hop.text := by
  intro hop hop' h
  cases hop <;> cases hop' <;> first | rfl | exact absurd h (by decide)

namespace ServiceTask

/-- A sender before its first turn. -/
def isUnbegun : ServiceTask → Bool
  | sending _ => true
  | _ => false

/-- A sender that waits. -/
def isUnderway : ServiceTask → Bool
  | awaiting _ _ => true
  | _ => false

end ServiceTask

/-- How senders come and go with events. -/
structure Shifts (before : List ServiceTask) (es : List Event) (after : List ServiceTask) :
    Prop where
  unbegun : after.countP ServiceTask.isUnbegun + es.count .begun + es.count .discarded =
    before.countP ServiceTask.isUnbegun + es.count .requested
  underway : after.countP ServiceTask.isUnderway + (endingsOf es).length + es.count .dropped =
    before.countP ServiceTask.isUnderway + es.count .begun

namespace Shifts

variable {before between after : List ServiceTask} {es es' : List Event}

theorem refl (tasks : List ServiceTask) : Shifts tasks [] tasks := ⟨rfl, rfl⟩

theorem trans (h : Shifts before es between) (h' : Shifts between es' after) :
    Shifts before (es ++ es') after := by
  obtain ⟨hunbegun, hunderway⟩ := h
  obtain ⟨hunbegun', hunderway'⟩ := h'
  constructor
  · rw [List.count_append, List.count_append, List.count_append]
    omega
  · rw [endingsOf, List.filterMap_append, List.length_append, ← endingsOf, ← endingsOf,
      List.count_append, List.count_append]
    omega

/-- The others stay as they are. -/
theorem frame (h : Shifts before es after) (others : List ServiceTask) :
    Shifts (before ++ others) es (after ++ others) := by
  obtain ⟨hunbegun, hunderway⟩ := h
  constructor
  · rw [List.countP_append, List.countP_append]
    omega
  · rw [List.countP_append, List.countP_append]
    omega

theorem perm (h : Shifts before es after) {before' after' : List ServiceTask}
    (hbefore : before'.Perm before) (hafter : after'.Perm after) : Shifts before' es after' := by
  constructor
  · rw [hbefore.countP_eq, hafter.countP_eq]
    exact h.unbegun
  · rw [hbefore.countP_eq, hafter.countP_eq]
    exact h.underway

end Shifts

/-- Whether an event is one of a sender. -/
def Event.isSenders : Event → Bool
  | received _ => false
  | deposited _ => false
  | swept _ => false
  | cleared _ => false
  | _ => true

section Aside

variable {es : List Event} (h : ∀ e ∈ es, e.isSenders = false)
include h

theorem count_eq_zero_of_aside {e : Event} (he : e.isSenders = true) : es.count e = 0 :=
  List.count_eq_zero.mpr fun hmem => Bool.false_ne_true ((h e hmem).symm.trans he)

theorem endingsOf_eq_nil_of_aside : endingsOf es = [] := by
  refine List.filterMap_eq_nil_iff.mpr fun e hmem => ?_
  cases e with
  | ended result => exact absurd (h _ hmem) nofun
  | _ => rfl

/-- Events that are not about senders do not change how many there are. -/
theorem shifts_of_aside {before after : List ServiceTask} (hbefore : ∀ t ∈ before, ¬t.IsSender)
    (hafter : ∀ t ∈ after, ¬t.IsSender) : Shifts before es after := by
  have hnone {p : ServiceTask → Bool} (hp : ∀ t, p t → t.IsSender) {tasks : List ServiceTask}
      (htasks : ∀ t ∈ tasks, ¬t.IsSender) : tasks.countP p = 0 :=
    List.countP_eq_zero.mpr fun t ht hpt => htasks t ht (hp t hpt)
  have hunbegun (t : ServiceTask) (ht : t.isUnbegun) : t.IsSender := by cases t <;> trivial
  have hunderway (t : ServiceTask) (ht : t.isUnderway) : t.IsSender := by cases t <;> trivial
  constructor
  · rw [hnone hunbegun hbefore, hnone hunbegun hafter, count_eq_zero_of_aside h rfl,
      count_eq_zero_of_aside h rfl, count_eq_zero_of_aside h rfl]
  · rw [hnone hunderway hbefore, hnone hunderway hafter, endingsOf_eq_nil_of_aside h,
      count_eq_zero_of_aside h rfl, count_eq_zero_of_aside h rfl]
    rfl

end Aside

/-! ## The senders at a turn -/

/-- How the senders change at a turn, and how it ends. -/
structure Paces (task : ServiceTask) (es : List Event) (next : Next ServiceTask ServiceResult) :
    Prop where
  shifts : Shifts [task] es next.task?.toList
  endings : (next.result?.bind ServiceResult.exchanged?).toList = endingsOf es
  requested : es.count .requested = 0
  begun : ∀ t, next.task? = some t → t.isUnbegun = false

namespace ServiceState

variable (s : ServiceState) (clock : Clock) (id : TaskId)

theorem GoesOn.begun {s v : ServiceState} {next : Next ServiceTask ServiceResult}
    (h : GoesOn s v next) (t : ServiceTask) (ht : next.task? = some t) : t.isUnbegun = false := by
  cases h with
  | sleeps _ => exact Option.some.inj ht ▸ rfl
  | rests _ => exact Option.some.inj ht ▸ rfl
  | ends _ => exact absurd ht nofun

/-- A sender that begins is one that waits then, or has ended. -/
theorem GoesOn.begins {s v : ServiceState} {next : Next ServiceTask ServiceResult}
    (h : GoesOn s v next) (r : SendRequest) (ds : List Deed) :
    Paces (.sending r) (.begun :: depositEvents ds ++ endingEvents next) next := by
  have haside : ∀ e ∈ depositEvents ds, e.isSenders = false :=
    List.forall_mem_map.mpr fun _ _ => rfl
  have hcount {e : Event} (he : e.isSenders = true) :
      (.begun :: depositEvents ds ++ endingEvents next).count e =
        (.begun :: endingEvents next).count e := by
    rw [List.cons_append, List.count_cons, List.count_append, count_eq_zero_of_aside haside he,
      Nat.zero_add, List.count_cons]
  have hendings : endingsOf (.begun :: depositEvents ds ++ endingEvents next) =
      endingsOf (endingEvents next) := by
    have hnone := endingsOf_eq_nil_of_aside haside
    rw [endingsOf] at hnone
    rw [endingsOf, List.cons_append, List.filterMap_cons_none rfl, List.filterMap_append, hnone,
      List.nil_append, endingsOf]
  refine ⟨⟨?_, ?_⟩, ?_, ?_, h.begun⟩
  · rw [hcount rfl, hcount rfl, hcount rfl]
    cases h <;> rfl
  · rw [hcount rfl, hcount rfl, hendings]
    cases h <;> rfl
  · rw [hendings]
    cases h <;> rfl
  · rw [hcount rfl]
    cases h <;> rfl

theorem GoesOn.paces {s v : ServiceState} {next : Next ServiceTask ServiceResult}
    (h : GoesOn s v next) (x : OpenExchange) (w : Wait) :
    Paces (.awaiting x w) (endingEvents next) next := by
  refine ⟨⟨?_, ?_⟩, ?_, ?_, h.begun⟩ <;> cases h <;> rfl

/-- Other tasks go on as such. -/
theorem paces_of_aside {task : ServiceTask} {es : List Event}
    {next : Next ServiceTask ServiceResult} (htask : ¬task.IsSender)
    (hes : ∀ e ∈ es, e.isSenders = false) (hnext : ∀ t, next.task? = some t → ¬t.IsSender)
    (hresult : next.result?.bind ServiceResult.exchanged? = none) : Paces task es next where
  shifts := shifts_of_aside hes (List.forall_mem_singleton.mpr htask) fun t ht =>
    hnext t (Option.mem_toList.mp ht)
  endings := by
    rw [hresult, endingsOf_eq_nil_of_aside hes]
    rfl
  requested := count_eq_zero_of_aside hes rfl
  begun t ht := by
    have haside := hnext t ht
    cases t with
    | sending r => exact absurd trivial haside
    | _ => rfl

section Others

variable {task : ServiceTask} (h : ¬task.IsSender)
include h

theorem events_of_aside : ∀ e ∈ s.events clock id task, e.isSenders = false := by
  cases task with
  | sending r => exact absurd trivial h
  | awaiting x w => exact absurd trivial h
  | sweeping w => exact List.forall_mem_map.mpr fun _ _ => rfl
  | answering a => exact List.forall_mem_map.mpr fun _ _ => rfl
  | _ => exact List.forall_mem_nil _

/-- Nobody else becomes a sender, or ends as one. -/
theorem next_of_aside :
    (∀ t, (ServiceTask.behaviour.turn clock id task s).next.task? = some t → ¬t.IsSender) ∧
      (ServiceTask.behaviour.turn clock id task s).next.result?.bind ServiceResult.exchanged? =
        none := by
  cases task with
  | sending r => exact absurd trivial h
  | awaiting x w => exact absurd trivial h
  | transmitting r =>
    simp only [ServiceTask.behaviour, transmitTo]
    split <;> simp [Next.task?, Next.result?, ServiceResult.exchanged?]
  | fetching key limit =>
    simp only [ServiceTask.behaviour, afterAttempt]
    split <;> simp [Next.task?, Next.result?, ServiceResult.exchanged?, ServiceTask.IsSender]
  | waiting w =>
    simp only [ServiceTask.behaviour, afterAttempt]
    split <;> simp [Next.task?, Next.result?, ServiceResult.exchanged?, ServiceTask.IsSender]
  | sweeping w =>
    simp only [ServiceTask.behaviour, afterTick]
    split <;> simp [Next.task?, Next.result?, ServiceResult.exchanged?, ServiceTask.IsSender]
  | answering a =>
    simp only [ServiceTask.behaviour, continueAnswer]
    split
    · simp [Next.task?, Next.result?, ServiceTask.IsSender]
    · split
      · simp [Next.task?, Next.result?, ServiceResult.exchanged?]
      · split <;> simp [Next.task?, Next.result?, ServiceResult.exchanged?, ServiceTask.IsSender]

end Others

theorem paces_turn (task : ServiceTask) : Paces task (s.events clock id task)
    (ServiceTask.behaviour.turn clock id task s).next := by
  by_cases h : task.IsSender
  · cases task with
    | sending r =>
      obtain ⟨v, -, hnext⟩ := s.begins_beginExchange clock.now id r
      exact hnext.begins r _
    | awaiting x w => exact (s.goesOn_resumeExchange clock id x w).paces x w
    | _ => exact h.elim
  · obtain ⟨hnext, hresult⟩ := s.next_of_aside clock id h
    exact paces_of_aside h (s.events_of_aside clock id h) hnext hresult

theorem shifts_drop (task : ServiceTask) : Shifts [task] (dropEvents task) [] := by
  cases task <;> exact ⟨rfl, rfl⟩

theorem endingsOf_dropEvents (task : ServiceTask) : endingsOf (dropEvents task) = [] := by
  cases task <;> rfl

end ServiceState

/-! ## The ledger of a run -/

namespace Service

def Move.isSend : Move → Bool
  | send _ => true
  | _ => false

/-- The events of a move. -/
def events (s : Service) : Move → List Event
  | .send _ => [.requested]
  | .receive i => [.received (s.receive i).1]
  | .deposit a => [.deposited a]
  | .sweep offset => [.cleared (s.sweep offset).1]
  | .turn id =>
    match s.scheduler.task? id with
    | none => []
    | some task =>
      if id ∈ s.scheduler.aborted then ServiceState.dropEvents task
      else s.state.events s.scheduler.clock id task
  | _ => []

/-- The events of a run. -/
def ledger (s : Service) : List Move → List Event
  | [] => []
  | m :: moves => s.events m ++ (s.move m).ledger moves

def metrics (s : Service) : Metrics := s.state.intake.metrics

/-- The tasks that have not ended. -/
def present (s : Service) : List ServiceTask := s.scheduler.tasks.map Prod.snd

/-- How many senders have not had a turn. -/
def unbegun (s : Service) : Nat := s.present.countP ServiceTask.isUnbegun

/-- How many senders have begun and wait. -/
def underway (s : Service) : Nat := s.present.countP ServiceTask.isUnderway

/-- How exchanges have ended, in order. -/
def endings (s : Service) : List (Except ExchangeFailure Confirmation) :=
  s.scheduler.results.filterMap fun e => e.2.exchanged?

/-- Events lead from one service to another: counters and statistics, senders and endings are what they
make of them. -/
structure Reckons (s : Service) (es : List Event) (v : Service) : Prop where
  counts : Counts s.state es v.state
  shifts : Shifts s.present es v.present
  endings : v.endings = s.endings ++ endingsOf es

namespace Reckons

variable {s v u : Service} {es es' : List Event}

theorem refl (s : Service) : Reckons s [] s := ⟨.refl _, .refl _, (List.append_nil _).symm⟩

theorem trans (h : Reckons s es v) (h' : Reckons v es' u) : Reckons s (es ++ es') u where
  counts := h.counts.trans h'.counts
  shifts := h.shifts.trans h'.shifts
  endings := by
    rw [h'.endings, h.endings, List.append_assoc, endingsOf, endingsOf, endingsOf,
      List.filterMap_append]

end Reckons

section Moves

variable {s : Service}

/-- The senders after a turn are the one that had it, if it goes on, and the others. -/
theorem shifts_attended {id : TaskId} {task : ServiceTask} {es : List Event} {v : Scheduling}
    (h : Numbered s.scheduler) (htask : s.scheduler.task? id = some task)
    (hv : Scheduler.Attended s.scheduler id
      (ServiceTask.behaviour.turn s.scheduler.clock id task s.state) v)
    (hshifts : Shifts [task] es
      (ServiceTask.behaviour.turn s.scheduler.clock id task s.state).next.task?.toList) :
    Shifts s.present es (v.tasks.map Prod.snd) := by
  have hbefore := (Scheduler.perm_of_lookup h.nodup htask).map Prod.snd
  have hafter := hv.tasks.map Prod.snd
  generalize hturn : ServiceTask.behaviour.turn s.scheduler.clock id task s.state = turn at *
  have hstarted : Shifts [] [] ((Scheduler.numberedFrom s.scheduler.nextTask turn.started).map
      Prod.snd) := by
    refine shifts_of_aside (List.forall_mem_nil _) (List.forall_mem_nil _)
      (List.forall_mem_map.mpr fun e he => ?_)
    obtain ⟨a, ha⟩ := started_of_turn s.scheduler.clock id task s.state e.2
      (hturn ▸ (Scheduler.mem_numberedFrom he).2.2)
    rw [ha]
    exact not_false
  rw [List.map_append, List.map_append, List.map_map, Function.comp_def, List.map_id'] at hafter
  let others := (s.scheduler.tasks.filter fun e => e.1 ≠ id).map Prod.snd
  have hall := (hshifts.frame others).trans (hstarted.frame (turn.next.task?.toList ++ others))
  rw [List.append_nil] at hall
  exact hall.perm hbefore hafter

/-- The result of a turn comes behind the others. -/
theorem endings_attended {s v : Scheduling} {id : TaskId} {turn : ServiceTurn}
    (hv : Scheduler.Attended s id turn v) : v.results.filterMap (fun e => e.2.exchanged?) =
      s.results.filterMap (fun e => e.2.exchanged?) ++
        (turn.next.result?.bind ServiceResult.exchanged?).toList := by
  rw [hv.results, List.filterMap_append]
  refine congrArg _ ?_
  cases turn.next.result? with
  | none => rfl
  | some r => cases r <;> rfl

theorem reckons_turn (h : Numbered s.scheduler) (id : TaskId) :
    Reckons s (s.events (.turn id)) (s.move (.turn id)) := by
  have hturned := h.turned id
  rw [events]
  change Reckons s _ ⟨s.scheduler.attend ServiceTask.behaviour id, s.sweeper⟩
  generalize s.scheduler.attend ServiceTask.behaviour id = v at hturned
  cases hturned with
  | nobody hnone =>
    rw [hnone]
    exact ⟨.refl _, .refl _, (List.append_nil _).symm⟩
  | dropped task htask ha =>
    have hperm := (Scheduler.perm_of_lookup h.nodup htask).map Prod.snd
    simp only [htask, if_pos ha]
    refine ⟨s.state.counts_drop s.now id task, ?_, ?_⟩
    · exact ((ServiceState.shifts_drop task).frame _).perm hperm (.refl _)
    · rw [ServiceState.endingsOf_dropEvents, List.append_nil]
      rfl
  | attended task htask ha hv =>
    have hpaces := s.state.paces_turn s.scheduler.clock id task
    simp only [htask, if_neg ha]
    refine ⟨?_, ?_, ?_⟩
    · change Counts _ _ v.shared
      rw [hv.shared]
      exact s.state.counts_turn s.scheduler.clock id task
    · exact shifts_attended h htask hv hpaces.shifts
    · rw [← hpaces.endings]
      exact endings_attended hv

theorem counts_of_not_turn (s : Service) {m : Move} (hm : ∀ id, m ≠ .turn id) :
    Counts s.state (s.events m) (s.move m).state := by
  cases m with
  | receive i =>
    rw [move, receive, state_change]
    exact s.state.counts_receive s.now i
  | deposit a =>
    rw [move, deposit, state_change]
    exact s.state.counts_deposit s.now a
  | sweep offset =>
    rw [move, sweep, state_change]
    exact s.state.counts_clear (s.now + offset)
  | turn id => exact absurd rfl (hm id)
  | start hasScheduler =>
    rw [move, start]
    cases s.isRunning <;> cases hasScheduler <;> exact .same rfl rfl
  | stop =>
    rw [move, stop]
    cases s.sweeper with
    | none => exact .refl s.state
    | some id =>
      have hsame := s.state_abort id
      exact .same (congrArg (·.intake.metrics) hsame) (congrArg ServiceState.table hsame)
  | abort id =>
    rw [move, state_abort]
    exact .refl s.state
  | ring =>
    rw [state_ring]
    exact .refl s.state
  | changeHandlers f =>
    rw [move, changeHandlers, state_change]
    exact .same rfl rfl
  | changeGateway f =>
    rw [move, changeGateway, state_change]
    exact .same rfl rfl
  | redraw draws =>
    rw [move, state_change]
    exact .same rfl rfl
  | send r => exact {}
  | transmit r => exact .same rfl rfl
  | fetch key limit => exact .same rfl rfl
  | advance ms => exact .same rfl rfl

/-- Senders come by requests only. -/
theorem shifts_of_not_turn (s : Service) {m : Move} (hm : ∀ id, m ≠ .turn id) :
    Shifts [] (s.events m) (s.started? m).toList := by
  cases m with
  | turn id => exact absurd rfl (hm id)
  | start hasScheduler =>
    rw [started?]
    split <;> exact ⟨rfl, rfl⟩
  | _ => exact ⟨rfl, rfl⟩

theorem endingsOf_of_not_turn (s : Service) {m : Move} (hm : ∀ id, m ≠ .turn id) :
    endingsOf (s.events m) = [] := by
  cases m with
  | turn id => exact absurd rfl (hm id)
  | _ => rfl

theorem reckons_of_not_turn {m : Move} (hm : ∀ id, m ≠ .turn id) :
    Reckons s (s.events m) (s.move m) := by
  have hpassed := passed_of_not_turn s hm
  refine ⟨counts_of_not_turn s hm, ?_, ?_⟩
  · have hafter : (s.move m).present = s.present ++ (s.started? m).toList := by
      rw [present, hpassed.tasks, List.map_append, List.map_map, Function.comp_def, List.map_id']
      rfl
    rw [hafter]
    exact ((shifts_of_not_turn s hm).frame s.present).perm (by simp) List.perm_append_comm
  · rw [endingsOf_of_not_turn s hm, List.append_nil, endings, hpassed.results]
    rfl

theorem reckons_move (h : Numbered s.scheduler) (m : Move) : Reckons s (s.events m) (s.move m) := by
  by_cases hm : ∃ id, m = .turn id
  · obtain ⟨id, rfl⟩ := hm
    exact reckons_turn h id
  · exact reckons_of_not_turn fun id heq => hm ⟨id, heq⟩

/-- The ledger of a run tells what becomes of the counters. -/
theorem reckons_run (h : Numbered s.scheduler) (moves : List Move) :
    Reckons s (s.ledger moves) (s.run moves) := by
  induction moves generalizing s with
  | nil => exact .refl s
  | cons m moves ih => exact (reckons_move h m).trans (ih (numbered_move h m))

end Moves

theorem ledger_append (s : Service) (moves more : List Move) :
    s.ledger (moves ++ more) = s.ledger moves ++ (s.run moves).ledger more := by
  induction moves generalizing s with
  | nil => rfl
  | cons m moves ih =>
    rw [List.cons_append, ledger, ih, ledger, List.append_assoc]
    rfl

/-- Requests are what is sent. -/
theorem count_requested_ledger (s : Service) (moves : List Move) :
    (s.ledger moves).count .requested = moves.countP Move.isSend := by
  have hmove (s : Service) (m : Move) :
      (s.events m).count .requested = if m.isSend then 1 else 0 := by
    cases m with
    | turn id =>
      rw [events]
      cases s.scheduler.task? id with
      | none => rfl
      | some task =>
        simp only
        split
        · cases task <;> rfl
        · exact (s.state.paces_turn _ id task).requested
    | _ => rfl
  induction moves generalizing s with
  | nil => rfl
  | cons m moves ih => rw [ledger, List.count_append, hmove, ih, List.countP_cons, Nat.add_comm]

/-! ## Senders that have not begun -/

/-- Senders that have not had a turn stand in the queue. -/
def Ready (s : Scheduling) : Prop := ∀ e ∈ s.tasks, e.2.isUnbegun = true → e.1 ∈ s.queue

theorem Ready.passed {s v : Scheduling} {new : Option ServiceTask} (h : Ready s)
    (hv : Passed s v new) : Ready v := by
  intro e he hunbegun
  rw [hv.tasks, List.mem_append] at he
  rcases he with he | he
  · exact hv.queue _ (.inl (h e he hunbegun))
  · obtain ⟨t, ht, rfl⟩ := List.mem_map.mp he
    exact hv.queue _ (.inr ⟨Option.isSome_of_mem (Option.mem_toList.mp ht), rfl⟩)

theorem Ready.turned {s v : Scheduling} {id : TaskId} (h : Ready s) (hn : Numbered s)
    (hv : Turned s id v) : Ready v := by
  cases hv with
  | nobody hnone =>
    intro e he hunbegun
    have hne : e.1 ≠ id := by
      rintro rfl
      exact absurd (hnone.symm.trans (hn.task?_eq_some_iff.mpr he)) nofun
    exact (List.mem_erase_of_ne hne).mpr (h e he hunbegun)
  | dropped task htask ha =>
    intro e he hunbegun
    obtain ⟨he, hne⟩ := List.mem_filter.mp he
    exact (List.mem_erase_of_ne (of_decide_eq_true hne)).mpr (h e he hunbegun)
  | attended task htask ha hturn =>
    intro e he hunbegun
    rw [hturn.queue, List.mem_append, Scheduler.mem_enqueue]
    rcases (Numbered.mem_tasks_attended hturn).mp he with hnew | ⟨-, hnext⟩ | ⟨hold, hne⟩
    · obtain ⟨a, hanswer⟩ := started_of_turn _ _ _ _ _ (Scheduler.mem_numberedFrom hnew).2.2
      rw [hanswer] at hunbegun
      exact absurd hunbegun nofun
    · have hbegun := (s.shared.paces_turn s.clock id task).begun _ hnext
      exact absurd (hbegun.symm.trans hunbegun) nofun
    · exact .inl (.inl ((List.mem_erase_of_ne hne).mpr (h e hold hunbegun)))

theorem ready_run {s : Service} (hn : Numbered s.scheduler) (h : Ready s.scheduler)
    (moves : List Move) : Ready (s.run moves).scheduler := by
  induction moves generalizing s with
  | nil => exact h
  | cons m moves ih =>
    refine ih (numbered_move hn m) ?_
    by_cases hm : ∃ id, m = .turn id
    · obtain ⟨id, rfl⟩ := hm
      exact h.turned hn (hn.turned id)
    · exact h.passed (passed_of_not_turn s fun id heq => hm ⟨id, heq⟩)

/-! ## The account of a run -/

/-- No sender is dropped. -/
def KeepsSenders (s : Service) (moves : List Move) : Prop :=
  .discarded ∉ s.ledger moves ∧ .dropped ∉ s.ledger moves

instance (s : Service) (moves : List Move) : Decidable (s.KeepsSenders moves) :=
  inferInstanceAs (Decidable (_ ∧ _))

/-- Acknowledgements reach the table by arriving, and not otherwise. -/
def FilledByArrivals (s : Service) (moves : List Move) : Prop :=
  ∀ e ∈ s.ledger moves, e.deposited? = none

instance (s : Service) (moves : List Move) : Decidable (s.FilledByArrivals moves) :=
  inferInstanceAs (Decidable (∀ e ∈ _, _))

/-- Nobody sweeps but the sweeper of the service. -/
def SweptBySweeper (s : Service) (moves : List Move) : Prop :=
  ∀ e ∈ s.ledger moves, e.isCleared = false

instance (s : Service) (moves : List Move) : Decidable (s.SweptBySweeper moves) :=
  inferInstanceAs (Decidable (∀ e ∈ _, _))

/-- What became of the transmissions of a run. -/
def receptions (s : Service) (moves : List Move) : List Reception := receptionsOf (s.ledger moves)

/-- The counters after a run agree with everything else that is known of it. -/
structure Reckoned (s : Service) (moves : List Move) : Prop where
  /-- Every sender that has begun waits, or has ended and was counted once. -/
  exchanges : (s.run moves).metrics.exchangesStarted =
    (s.run moves).metrics.outcomes.total + (s.run moves).underway
  requests : moves.countP Move.isSend =
    (s.run moves).metrics.exchangesStarted + (s.run moves).unbegun
  settled : (s.run moves).scheduler.IsSettled ServiceTask.behaviour → (s.run moves).unbegun = 0
  /-- Every result was counted under its own label. -/
  outcomes : ∀ label, (s.run moves).metrics.outcomes.count label =
    (s.run moves).endings.countP fun r => ServiceState.endingLabel r = label
  completed : (s.run moves).metrics.outcomes.total = (s.run moves).endings.length
  acknowledgements : ∀ hop : Hop, (s.run moves).metrics.acknowledgements.count hop.text =
    (s.receptions moves).countP fun r => r.hop? = some hop
  deposited : s.FilledByArrivals moves →
    (s.run moves).metrics.acknowledgements.total = (s.run moves).state.table.stats.deposited
  refusals : (s.run moves).metrics.refusals = (s.receptions moves).countP Reception.isRejected
  delivered : (s.run moves).metrics.messagesDelivered =
    (s.receptions moves).countP Reception.isDelivered
  failures : (s.run moves).metrics.handlerFailures.count "error" +
    (s.run moves).metrics.handlerFailures.count "panic" =
      ((s.receptions moves).filterMap Reception.failures?).sum
  removals : s.SweptBySweeper moves →
    (s.run moves).metrics.removals = (s.run moves).state.table.stats.removals

section Opened

variable {settings : ExchangeSettings} {gateway : Option Gateway} {draws : Draws}
  {es : List Event} {v : Service}

theorem Reckons.endings_eq (h : Reckons (opened settings gateway draws) es v) :
    v.endings = endingsOf es := h.endings

theorem Reckons.outcomes_total (h : Reckons (opened settings gateway draws) es v) :
    v.metrics.outcomes.total = v.endings.length := by
  rw [metrics, h.counts.outcomes, Tally.total_markAll, List.length_map, h.endings_eq]
  exact Nat.zero_add _

theorem Reckons.outcomes_count (h : Reckons (opened settings gateway draws) es v)
    (label : String) : v.metrics.outcomes.count label =
      v.endings.countP fun r => ServiceState.endingLabel r = label := by
  rw [metrics, h.counts.outcomes, Tally.count_markAll, h.endings_eq, List.count_eq_countP,
    List.countP_map]
  exact Nat.zero_add _

/-- What was dropped is missing. -/
theorem Reckons.exchanges (h : Reckons (opened settings gateway draws) es v) :
    v.metrics.exchangesStarted =
      v.metrics.outcomes.total + v.underway + es.count .dropped := by
  have hunderway := h.shifts.underway
  have hstarted := h.counts.started
  have hzero : (opened settings gateway draws).present.countP ServiceTask.isUnderway = 0 := rfl
  have hzero' : (opened settings gateway draws).state.intake.metrics.exchangesStarted = 0 := rfl
  rw [hzero] at hunderway
  rw [hzero'] at hstarted
  rw [h.outcomes_total, h.endings_eq, underway, metrics]
  omega

theorem Reckons.requests (h : Reckons (opened settings gateway draws) es v) :
    es.count .requested = v.metrics.exchangesStarted + v.unbegun + es.count .discarded := by
  have hunbegun := h.shifts.unbegun
  have hstarted := h.counts.started
  have hzero : (opened settings gateway draws).present.countP ServiceTask.isUnbegun = 0 := rfl
  have hzero' : (opened settings gateway draws).state.intake.metrics.exchangesStarted = 0 := rfl
  rw [hzero] at hunbegun
  rw [hzero'] at hstarted
  rw [unbegun, metrics]
  omega

theorem Reckons.acknowledgements (h : Reckons (opened settings gateway draws) es v) (hop : Hop) :
    v.metrics.acknowledgements.count hop.text =
      (receptionsOf es).countP fun r => r.hop? = some hop := by
  rw [metrics, h.counts.acknowledgements, Tally.count_markAll,
    List.count_map_of_injective _ _ Hop.text_injective, hopsOf, List.count_filterMap]
  refine (Nat.zero_add _).trans (List.countP_congr fun r _ => ?_)
  simp

/-- Every acknowledgement that has reached the table was counted, unless it was put there. -/
theorem Reckons.deposited (h : Reckons (opened settings gateway draws) es v) :
    v.state.table.stats.deposited =
      v.metrics.acknowledgements.total + (es.filterMap Event.deposited?).length := by
  rw [metrics, h.counts.acknowledgements, Tally.total_markAll, List.length_map, h.counts.deposited,
    Nat.add_assoc]
  rfl

theorem Reckons.removals (h : Reckons (opened settings gateway draws) es v)
    (hes : ∀ e ∈ es, e.isCleared = false) :
    v.metrics.removals = v.state.table.stats.removals := by
  have hsame : es.filterMap Event.swept? = es.filterMap Event.removed? := by
    refine List.filterMap_congr fun e he => ?_
    cases e with
    | cleared r => exact absurd (hes _ he) nofun
    | _ => rfl
  rw [metrics, h.counts.swept, h.counts.removed, hsame]
  rfl

end Opened

/-- At every time of a run that drops no sender, the counters agree with what the service has answered, with
the statistics of its table, and with the senders that are on their way. -/
theorem metrics_account_for_run (settings : ExchangeSettings) (gateway : Option Gateway)
    (draws : Draws) (moves : List Move) (h : (opened settings gateway draws).KeepsSenders moves) :
    ∀ before, before <+: moves → Reckoned (opened settings gateway draws) before := by
  rintro before ⟨after, rfl⟩
  rw [KeepsSenders, ledger_append, List.mem_append, List.mem_append, not_or, not_or] at h
  obtain ⟨⟨hdiscarded, -⟩, hdropped, -⟩ := h
  have hn : Numbered (opened settings gateway draws).scheduler :=
    numbered_run settings gateway draws []
  have hreckons := reckons_run hn before
  have hready := ready_run hn (List.forall_mem_nil _) before
  constructor
  case exchanges => rw [hreckons.exchanges, List.count_eq_zero_of_not_mem hdropped, Nat.add_zero]
  case requests =>
    rw [← count_requested_ledger (opened settings gateway draws), hreckons.requests,
      List.count_eq_zero_of_not_mem hdiscarded, Nat.add_zero]
  case settled =>
    intro hsettled
    have hqueue := ((Scheduler.isSettled_iff _ _).mp hsettled).1
    refine List.countP_eq_zero.mpr (List.forall_mem_map.mpr fun e he hunbegun => ?_)
    have hmem := hready e he hunbegun
    rw [hqueue] at hmem
    exact List.not_mem_nil hmem
  case outcomes => exact hreckons.outcomes_count
  case completed => exact hreckons.outcomes_total
  case acknowledgements => exact hreckons.acknowledgements
  case deposited =>
    intro hes
    rw [hreckons.deposited, List.filterMap_eq_nil_iff.mpr hes]
    rfl
  case refusals => exact hreckons.counts.refusals.trans (Nat.zero_add _)
  case delivered =>
    refine (hreckons.counts.delivered.trans (Nat.zero_add _)).trans ?_
    exact List.length_filterMap_eq_countP
  case failures => exact hreckons.counts.failed.trans (Nat.zero_add _)
  case removals => exact hreckons.removals

/-- One exchange succeeds and one waits; a handler crashes, something cannot be read, and the sweeper
removes an acknowledgement that nobody fetches. -/
def busyMoves : List Move :=
  [.start true, .turn 0,
    .changeHandlers fun h => (h.introduce "audit" .crash).register "audit",
    .send patientRequest, .turn 1,
    .receive (.ok (.message ⟨Agreement.misleadingMessage, "m", "c", []⟩)),
    .receive (.error (.framing (.missingBoundary "text/plain"))),
    .receive (.ok (.acknowledgement (.positive .submission sampleId (some "relayed")))), .turn 1,
    .receive (.ok (.acknowledgement (.positive .relay "relayed" none))), .turn 1,
    .send patientRequest, .turn 2,
    .receive (.ok (.acknowledgement (.positive .relay "stray" none))),
    .advance 700000, .ring, .turn 0]

theorem busy_run_accounted_for :
    openedStandard.KeepsSenders busyMoves ∧ Reckoned openedStandard busyMoves ∧
      (openedStandard.run busyMoves).metrics.exchangesStarted = 2 ∧
      (openedStandard.run busyMoves).underway = 1 ∧
      (openedStandard.run busyMoves).metrics.outcomes.count "success" = 1 ∧
      (openedStandard.run busyMoves).metrics.acknowledgements.total = 3 ∧
      (openedStandard.run busyMoves).state.table.stats.deposited = 3 ∧
      (openedStandard.run busyMoves).metrics.removals = ⟨1, 0⟩ ∧
      (openedStandard.run busyMoves).state.table.stats.removals = ⟨1, 0⟩ := by
  have hkeeps : openedStandard.KeepsSenders busyMoves := by decide +kernel
  have hall := metrics_account_for_run .standard none sampleDraws busyMoves hkeeps busyMoves
    List.prefix_rfl
  have htotal : (openedStandard.run busyMoves).metrics.acknowledgements.total = 3 := by
    decide +kernel
  have hremovals : (openedStandard.run busyMoves).metrics.removals = ⟨1, 0⟩ := by decide +kernel
  have hfilled : openedStandard.FilledByArrivals busyMoves := by decide +kernel
  have hswept : openedStandard.SweptBySweeper busyMoves := by decide +kernel
  exact ⟨hkeeps, hall, by decide +kernel, by decide +kernel, by decide +kernel, htotal,
    (hall.deposited hfilled).symm.trans htotal, hremovals,
    (hall.removals hswept).symm.trans hremovals⟩

end Service
end EbmsMessaging
