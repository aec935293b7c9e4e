import EbmsMessaging.Proofs.Service.Moves
import Mathlib.Data.List.Chain

/-!
# Stages that have been passed

Which stages an exchange has been in is told by how it ended, or by whether its submission has been
accepted while its sender waits. Stages follow directly on each other, and so do the changes that
are reported on the way. Nobody but a sender at its turn reports any.
-/
namespace EbmsMessaging

open Correlation

namespace ExchangeStage

/-- The stages up to the first acknowledgement. -/
def untilSubmission : List ExchangeStage := [created, prepared, transmitted, awaitingSubmission]

/-- The stages up to the second acknowledgement. -/
def untilRelay : List ExchangeStage := untilSubmission ++ [submissionAccepted, awaitingRelay]

/-- The stages that an exchange has been in when it ends. -/
def passed : Except ExchangeFailure Confirmation → List ExchangeStage
  | .ok _ => untilRelay ++ [relayAccepted]
  | .error e =>
    match e with
    | .unusableRoute _ => [created]
    | .preparation _ => [created]
    | .transport _ _ => [created, prepared]
    | .rejected _ _ => [created, prepared]
    | .timeout .submission _ _ => untilSubmission
    | .unexpectedAcknowledgement _ .submission _ => untilSubmission
    | .submissionFailed _ _ => untilSubmission ++ [submissionRejected]
    | .malformedAcknowledgement _ => untilSubmission ++ [submissionAccepted]
    | .timeout .relay _ _ => untilRelay
    | .unexpectedAcknowledgement _ .relay _ => untilRelay
    | .receiptMissing _ _ _ => untilRelay ++ [relayRejected]
    | .relayFailed _ _ _ => untilRelay ++ [relayRejected]

/-- An acknowledgement is waited for here. -/
def isAwaiting (s : ExchangeStage) : Bool := s = awaitingSubmission ∨ s = awaitingRelay

/-- Every stage follows directly on the one before. -/
theorem isChain_passed (result : Except ExchangeFailure Confirmation) :
    (passed result).IsChain fun s t => s.leadsTo t := by
  rcases result with e | c
  · cases e with
    | timeout hop _ _ => cases hop <;> simp [passed] <;> decide
    | unexpectedAcknowledgement _ expected _ => cases expected <;> simp [passed] <;> decide
    | _ => simp [passed] <;> decide
  · simp only [passed]
    decide

end ExchangeStage

namespace OpenExchange

/-- The stages that an exchange has been in while its sender waits. -/
def passed (x : OpenExchange) : List ExchangeStage :=
  match x.relayMessageId with
  | none => ExchangeStage.untilSubmission
  | some _ => ExchangeStage.untilRelay

theorem isChain_passed (x : OpenExchange) : x.passed.IsChain fun s t => s.leadsTo t := by
  unfold passed
  split <;> decide

end OpenExchange

namespace StageChange

variable {task : TaskId} {messageId : String} {stages : List ExchangeStage} {c : StageChange}

theorem task_of_mem_along (h : c ∈ along task messageId stages) : c.task = task := by
  fun_induction along task messageId stages with
  | case1 s t stages ih =>
    rcases List.mem_cons.mp h with rfl | h
    · rfl
    · exact ih h
  | case2 stages _ => simp at h

/-- Where stages follow directly on each other every change is one that an exchange can make. -/
theorem leadsTo_of_mem_along (hchain : stages.IsChain fun s t => s.leadsTo t)
    (h : c ∈ along task messageId stages) : c.before.leadsTo c.after := by
  fun_induction along task messageId stages with
  | case1 s t stages ih =>
    obtain ⟨hfirst, hrest⟩ := List.isChain_cons_cons.mp hchain
    rcases List.mem_cons.mp h with rfl | h
    · exact hfirst
    · exact ih hrest h
  | case2 stages _ => simp at h

end StageChange

/-! ## Who reports a change -/

/-- A task that sends a message, before it transmits or while it waits. -/
def ServiceTask.IsSender : ServiceTask → Prop
  | sending _ => True
  | awaiting _ _ => True
  | _ => False

namespace ServiceState

variable (s : ServiceState) (now : Nat)

theorem stageChanges_depositAll (as : List Acknowledgement) :
    (s.depositAll now as).1.stageChanges = s.stageChanges := by
  induction as generalizing s with
  | nil => rfl
  | cons a as ih => exact ih (s.deposit now a).1

theorem stageChanges_handOver (t : Transmission) (reply : ArrangedReply) :
    (s.handOver now t reply).state.stageChanges = s.stageChanges := by
  unfold handOver
  cases s.gateway with
  | some g => rfl
  | none => exact stageChanges_depositAll _ now _

theorem stageChanges_receive (i : Except ArrivalError Arrival) :
    (s.receive now i).1.stageChanges = s.stageChanges := by
  rw [receive]

theorem stageChanges_answer (a : GatewayAnswer) :
    (s.answer now a).1.stageChanges = s.stageChanges := by
  unfold answer
  split
  · rfl
  · rw [receiveFromGateway, stageChanges_receive]
    rfl

theorem stageChanges_drop (id : TaskId) (task : ServiceTask) :
    (s.drop now id task).stageChanges = s.stageChanges := by
  cases task <;> rfl

theorem stageChanges_afterAttempt (r : Table Acknowledgement × Attempt Acknowledgement) :
    (s.afterAttempt r).shared.stageChanges = s.stageChanges := by
  obtain ⟨t, attempt⟩ := r
  cases attempt <;> rfl

/-- A task that is no sender reports nothing. -/
theorem stageChanges_turn (clock : Clock) (id : TaskId) {task : ServiceTask}
    (h : ¬task.IsSender) :
    (ServiceTask.behaviour.turn clock id task s).shared.stageChanges = s.stageChanges := by
  cases task with
  | sending r => exact absurd trivial h
  | awaiting x w => exact absurd trivial h
  | transmitting r =>
    simp only [ServiceTask.behaviour, transmitTo]
    split
    · rfl
    · exact stageChanges_handOver _ clock.now _ _
  | fetching key limit => exact s.stageChanges_afterAttempt _
  | waiting w => exact s.stageChanges_afterAttempt _
  | sweeping w =>
    simp only [ServiceTask.behaviour, afterTick]
    split <;> rfl
  | answering a =>
    simp only [ServiceTask.behaviour, continueAnswer]
    split
    · rfl
    · split
      · exact s.stageChanges_answer clock.now a
      · split
        · exact s.stageChanges_answer clock.now a
        · exact (stageChanges_answer _ clock.now _).trans (s.stageChanges_answer clock.now a)

end ServiceState

namespace Service

/-- Where no task has a turn nothing is reported. -/
theorem stageChanges_move (s : Service) {m : Move} (hm : ∀ id, m ≠ .turn id) :
    (s.move m).state.stageChanges = s.state.stageChanges := by
  cases m with
  | turn id => exact absurd rfl (hm id)
  | receive i => rw [move, receive, state_change]; rfl
  | deposit a => rw [move, deposit, state_change]; rfl
  | sweep offset => rw [move, sweep, state_change]; rfl
  | changeHandlers f => rw [move, changeHandlers, state_change]
  | changeGateway f => rw [move, changeGateway, state_change]
  | redraw draws => rw [move, state_change]
  | start hasScheduler =>
    rw [move, start]
    cases s.isRunning <;> cases hasScheduler <;> rfl
  | stop =>
    rw [move, stop]
    cases s.sweeper with
    | none => rfl
    | some id => exact congrArg ServiceState.stageChanges (s.state_abort id)
  | abort id => rw [move, state_abort]
  | ring => rw [state_ring]
  | send r => rfl
  | transmit r => rfl
  | fetch key limit => rfl
  | advance ms => rfl

end Service
end EbmsMessaging
