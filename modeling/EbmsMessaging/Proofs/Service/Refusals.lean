import EbmsMessaging.Proofs.Scheduler.Overlooked
import EbmsMessaging.Proofs.Service.Moves

/-!
# Nobody looks at the count of refusals

Whether or not something was refused before, each task has the same turn, and what is asked of a service
gets the same answer and leaves it the same, with that count as it was.
-/
namespace EbmsMessaging

open Correlation

namespace ServiceState

/-- So many transmissions more have been refused. -/
def refuse (n : Nat) (s : ServiceState) : ServiceState :=
  s.countMetrics fun m => { m with refusals := m.refusals + n }

variable (n : Nat) (s : ServiceState) (now : Nat) (clock : Clock) (i : TaskId) (x : OpenExchange)

theorem takeStamp_refuse : (s.refuse n).takeStamp = s.takeStamp.map id (refuse n) := rfl

theorem takeUuid_refuse : (s.refuse n).takeUuid = s.takeUuid.map id (refuse n) := rfl

theorem advance_refuse (stages : List ExchangeStage) :
    (s.refuse n).advance i x stages = (s.advance i x stages).map (refuse n) id := rfl

theorem deposit_refuse (a : Acknowledgement) :
    (s.refuse n).deposit now a = (s.deposit now a).map (refuse n) id := rfl

theorem depositAll_refuse (as : List Acknowledgement) :
    (s.refuse n).depositAll now as = (s.depositAll now as).map (refuse n) id := by
  induction as generalizing s with
  | nil => rfl
  | cons a as ih =>
    rw [depositAll, depositAll, deposit_refuse]
    dsimp only [Prod.map]
    rw [ih]
    rfl

theorem receive_refuse (arrival : Except ArrivalError Arrival) :
    (s.refuse n).receive now arrival = (s.receive now arrival).map (refuse n) id := by
  match arrival with
  | .ok (.message m) => rfl
  | .ok (.acknowledgement a) => rfl
  | .error cause =>
    have hcount : s.intake.metrics.refusals + n + 1 = s.intake.metrics.refusals + 1 + n :=
      Nat.add_right_comm _ _ _
    simp only [receive, Intake.receive, Intake.countRefusal, refuse, countMetrics, hcount]
    rfl

theorem receiveFromGateway_refuse (a : Acknowledgement) :
    (s.refuse n).receiveFromGateway now a =
      (s.receiveFromGateway now a).map (refuse n) id := by
  simp only [receiveFromGateway, takeStamp_refuse, takeUuid_refuse, receive_refuse, Prod.map, id]

/-- A transmission is recorded. -/
def record (t : Transmission) : ServiceState := { s with transmissions := s.transmissions ++ [t] }

theorem handOver_eq (t : Transmission) (reply : ArrangedReply) : s.handOver now t reply =
    match s.gateway with
    | some g =>
      let (relay, v) := (s.record t).takeUuid
      ⟨v, [], (g.accept relay t).2, (g.accept relay t).1⟩
    | none =>
      let (v, called) := (s.record t).depositAll now
        (reply.acknowledgements.map fun a => a (s.record t).transmissions)
      ⟨v, called, none, reply.report (s.record t).transmissions⟩ := by
  obtain ⟨settings, intake, gateway, transmissions, draws, changes⟩ := s
  cases gateway <;> rfl

/-- What comes of a handover after refusals. -/
def Handover.refuse (n : Nat) (h : Handover) : Handover := { h with state := h.state.refuse n }

theorem handOver_refuse (t : Transmission) (reply : ArrangedReply) :
    (s.refuse n).handOver now t reply = (s.handOver now t reply).refuse n := by
  have hgateway : (s.refuse n).gateway = s.gateway := rfl
  have hrecord : (s.refuse n).record t = (s.record t).refuse n := rfl
  have htransmissions : ((s.record t).refuse n).transmissions = (s.record t).transmissions := rfl
  rw [handOver_eq, handOver_eq, hgateway, hrecord, htransmissions, takeUuid_refuse,
    depositAll_refuse]
  cases s.gateway <;> rfl

theorem afterRelay_refuse (relay : String) (r : Table Acknowledgement × Attempt Acknowledgement) :
    (s.refuse n).afterRelay now i x relay r = (s.afterRelay now i x relay r).map (refuse n) id := by
  obtain ⟨t, attempt⟩ := r
  cases attempt <;> rfl

theorem afterSubmission_refuse (r : Table Acknowledgement × Attempt Acknowledgement) :
    (s.refuse n).afterSubmission now i x r = (s.afterSubmission now i x r).map (refuse n) id := by
  obtain ⟨t, attempt⟩ := r
  cases attempt with
  | entered w => rfl
  | waiting w => rfl
  | ended o =>
    simp only [afterSubmission_ended]
    cases x.afterSubmission o with
    | error e => rfl
    | ok relay =>
      let judged := (s.withTable t).advance i x (OpenExchange.judged .submission x.messageId o)
      let advanced := judged.1.advance i judged.2 [.awaitingRelay]
      exact afterRelay_refuse n advanced.1 now i advanced.2 relay
        (advanced.1.table.fetch now i relay x.limit)

theorem afterHandover_refuse (h : Handover) : afterHandover now i x (h.refuse n) =
    (afterHandover now i x h).mapShared (refuse n) := by
  have hreport : (h.refuse n).report = h.report := rfl
  simp only [afterHandover, hreport]
  rcases h.report with cause | (_ | fault)
  · rfl
  · let advanced := h.state.advance i x [.transmitted, .awaitingSubmission]
    have hfetched := afterSubmission_refuse n advanced.1 now i advanced.2
      (advanced.1.table.fetch now i x.messageId x.limit)
    have hadvanced : (h.refuse n).state.advance i x [.transmitted, .awaitingSubmission] =
        (advanced.1.refuse n, advanced.2) := rfl
    have htable : (advanced.1.refuse n).table = advanced.1.table := rfl
    simp only [hadvanced, htable]
    exact congrArg (fun r => Turn.mk r.1 h.called (h.answer.toList.map .answering) r.2) hfetched
  · rfl

theorem beginExchange_refuse (r : SendRequest) : (s.refuse n).beginExchange now i r =
    (s.beginExchange now i r).mapShared (refuse n) := by
  have hstart : (s.refuse n).countStart = s.countStart.refuse n := rfl
  simp only [beginExchange, hstart, takeStamp_refuse]
  cases r.route.endpoint with
  | error cause => rfl
  | ok endpoint =>
    have hagreement : (s.countStart.takeStamp.2.refuse n).agreement =
        s.countStart.takeStamp.2.agreement := rfl
    simp only [Prod.map_fst, Prod.map_snd, id, hagreement]
    cases s.countStart.takeStamp.2.agreement.prepare s.countStart.takeStamp.1 r.route r.message with
    | error cause => rfl
    | ok prepared =>
      have hopening : (s.countStart.takeStamp.2.refuse n).opening now r prepared =
          s.countStart.takeStamp.2.opening now r prepared := rfl
      simp only [hopening, advance_refuse, Prod.map_fst, Prod.map_snd, id, handOver_refuse]
      exact afterHandover_refuse n now i _ _

theorem transmitTo_refuse (r : TransmitRequest) : (s.refuse n).transmitTo now i r =
    (s.transmitTo now i r).mapShared (refuse n) := by
  have hagreement : (s.takeStamp.2.refuse n).agreement = s.takeStamp.2.agreement := rfl
  simp only [transmitTo, takeStamp_refuse, Prod.map_fst, Prod.map_snd, id, hagreement]
  cases s.takeStamp.2.agreement.prepare s.takeStamp.1 r.route r.message with
  | error cause => rfl
  | ok prepared =>
    simp only [handOver_refuse]
    rfl

theorem resumeExchange_refuse (w : Wait) : (s.refuse n).resumeExchange clock i x w =
    (s.resumeExchange clock i x w).mapShared (refuse n) := by
  have htable : (s.refuse n).table = s.table := rfl
  simp only [resumeExchange, htable]
  cases x.relayMessageId with
  | none =>
    simp only [afterSubmission_refuse]
    rfl
  | some relay =>
    simp only [afterRelay_refuse]
    rfl

theorem afterAttempt_refuse (r : Table Acknowledgement × Attempt Acknowledgement) :
    (s.refuse n).afterAttempt r = (s.afterAttempt r).mapShared (refuse n) := by
  obtain ⟨t, attempt⟩ := r
  cases attempt <;> rfl

theorem afterTick_refuse (w : Sweeper) :
    (s.refuse n).afterTick clock w = (s.afterTick clock w).mapShared (refuse n) := by
  -- Sweeps are counted elsewhere, however many there are.
  have hcount (reports : List Removals) (size : Nat) (m : Metrics) :
      reports.foldl (fun m r => m.countSweep r size) { m with refusals := m.refusals + n } =
        (let swept := reports.foldl (fun m r => m.countSweep r size) m
        { swept with refusals := swept.refusals + n }) := by
    induction reports generalizing m with
    | nil => rfl
    | cons r reports ih => exact ih (m.countSweep r size)
  have htable : (s.refuse n).table = s.table := rfl
  simp only [afterTick, htable]
  split
  · rfl
  · simp only [refuse, countMetrics, withTable, hcount]
    rfl

theorem answer_refuse (a : GatewayAnswer) :
    (s.refuse n).answer now a = (s.answer now a).map (refuse n) id := by
  unfold answer
  cases a.acknowledgement? with
  | none => rfl
  | some k => exact receiveFromGateway_refuse n s now k

theorem continueAnswer_refuse (a : GatewayAnswer) : (s.refuse n).continueAnswer clock a =
    (s.continueAnswer clock a).mapShared (refuse n) := by
  simp only [continueAnswer, answer_refuse, Prod.map_fst, Prod.map_snd, id]
  split
  · rfl
  · cases a.next? with
    | none => rfl
    | some b =>
      simp only
      split <;> rfl

theorem drop_refuse (t : ServiceTask) : (s.refuse n).drop now i t = (s.drop now i t).refuse n := by
  cases t <;> rfl

end ServiceState

/-- No task of a service looks at the count of refusals. -/
theorem ServiceTask.overlooks_refuse (n : Nat) :
    behaviour.Overlooks (ServiceState.refuse n) where
  turn clock i t s := by
    cases t with
    | sending r => exact s.beginExchange_refuse n clock.now i r
    | awaiting x w => exact s.resumeExchange_refuse n clock i x w
    | transmitting r => exact s.transmitTo_refuse n clock.now i r
    | fetching key limit => exact s.afterAttempt_refuse n _
    | waiting w => exact s.afterAttempt_refuse n _
    | sweeping w => exact s.afterTick_refuse n clock w
    | answering a => exact s.continueAnswer_refuse n clock a
  drop now i t s := s.drop_refuse n now i t

namespace Service

/-- So many transmissions more have been refused. -/
def refuse (n : Nat) (s : Service) : Service :=
  { s with scheduler := s.scheduler.mapShared (ServiceState.refuse n) }

variable (s : Service) (n : Nat)

theorem change_refuse {f f' : ServiceState → ServiceState × List TaskId}
    (h : f' (s.state.refuse n) = (f s.state).map (ServiceState.refuse n) id) :
    (s.refuse n).change f' = (s.change f).refuse n :=
  congrArg (Service.mk · s.sweeper) (Scheduler.change_mapShared _ s.scheduler h)

theorem receive_refuse (arrival : Except ArrivalError Arrival) :
    (s.refuse n).receive arrival = (s.receive arrival).map id (refuse n) := by
  have hreceived := s.state.receive_refuse n s.now arrival
  have hstate : (s.refuse n).state.receive (s.refuse n).now arrival =
      (s.state.refuse n).receive s.now arrival := rfl
  simp only [receive, hstate, hreceived]
  exact Prod.ext rfl (change_refuse s n rfl)

theorem deposit_refuse (a : Acknowledgement) :
    (s.refuse n).deposit a = (s.deposit a).map id (refuse n) :=
  Prod.ext rfl (change_refuse s n rfl)

theorem sweep_refuse (offset : Int) :
    (s.refuse n).sweep offset = (s.sweep offset).map id (refuse n) :=
  Prod.ext rfl (change_refuse s n rfl)

theorem receiveAcknowledgement_refuse (a : Acknowledgement) :
    (s.refuse n).receiveAcknowledgement a = (s.receiveAcknowledgement a).map id (refuse n) := by
  have hredrawn : ((s.refuse n).change fun _ => ((s.refuse n).state.takeStamp.2, [])) =
      (s.change fun _ => (s.state.takeStamp.2, [])).refuse n := change_refuse s n rfl
  simp only [receiveAcknowledgement, hredrawn]
  exact receive_refuse _ n _

theorem receiveMessage_refuse (r : Route) (m : BusinessMessage) : (s.refuse n).receiveMessage r m =
    (s.receiveMessage r m).map (Prod.map id (Prod.map id (refuse n))) := by
  have hredrawn : ((s.refuse n).change fun _ => ((s.refuse n).state.takeStamp.2.takeUuid.2, [])) =
      (s.change fun _ => (s.state.takeStamp.2.takeUuid.2, [])).refuse n := change_refuse s n rfl
  have hprepared : (s.refuse n).state.takeStamp.2.takeUuid.2.agreement.prepare
      (s.refuse n).state.takeStamp.1 r m =
        s.state.takeStamp.2.takeUuid.2.agreement.prepare s.state.takeStamp.1 r m := rfl
  have huuid : (s.refuse n).state.takeStamp.2.takeUuid.1 = s.state.takeStamp.2.takeUuid.1 := rfl
  simp only [receiveMessage, hredrawn, hprepared, huuid, receive_refuse]
  cases s.state.takeStamp.2.takeUuid.2.agreement.prepare s.state.takeStamp.1 r m <;> rfl

theorem start_refuse (hasScheduler : Bool) :
    (s.refuse n).start hasScheduler = (s.start hasScheduler).map (refuse n) := by
  obtain ⟨scheduler, sweeper⟩ := s
  cases sweeper <;> cases hasScheduler <;> rfl

theorem stop_refuse : (s.refuse n).stop = s.stop.refuse n := by
  obtain ⟨scheduler, sweeper⟩ := s
  cases sweeper with
  | none => rfl
  | some i => exact congrArg (Service.mk · none) (Scheduler.abort_mapShared _ scheduler i)

theorem move_refuse (m : Move) : (s.refuse n).move m = (s.move m).refuse n := by
  cases m with
  | send r => rfl
  | transmit r => rfl
  | fetch key limit => rfl
  | receive arrival => exact congrArg Prod.snd (receive_refuse s n arrival)
  | deposit a => exact congrArg Prod.snd (deposit_refuse s n a)
  | sweep offset => exact congrArg Prod.snd (sweep_refuse s n offset)
  | changeHandlers f => exact change_refuse s n rfl
  | changeGateway f => exact change_refuse s n rfl
  | redraw draws => exact change_refuse s n rfl
  | start hasScheduler =>
    simp only [move, start_refuse]
    cases s.start hasScheduler <;> rfl
  | stop => exact stop_refuse s n
  | advance ms => rfl
  | abort i => exact congrArg (Service.mk · s.sweeper) (Scheduler.abort_mapShared _ s.scheduler i)
  | turn i =>
    exact congrArg (Service.mk · s.sweeper)
      (Scheduler.attend_mapShared s.scheduler (ServiceTask.overlooks_refuse n) i)
  | ring => exact congrArg (Service.mk · s.sweeper) (Scheduler.ring_mapShared _ s.scheduler)

theorem settle_refuse : (s.refuse n).settle = s.settle.refuse n :=
  congrArg (Service.mk · s.sweeper)
    (Scheduler.settle_mapShared s.scheduler (ServiceTask.overlooks_refuse n))

theorem deregister_refuse (name : String) :
    (s.refuse n).deregister name = (s.deregister name).map id (refuse n) :=
  Prod.ext rfl (change_refuse s n rfl)

theorem takeCalls_refuse : (s.refuse n).takeCalls = s.takeCalls.map id (refuse n) :=
  Prod.ext rfl (change_refuse s n rfl)

end Service
end EbmsMessaging
