import EbmsMessaging.Proofs.Multipart.Acknowledgements
import EbmsMessaging.Proofs.Service.Moves

/-!
# What no turn changes

Turns change a good deal of what the tasks of a service share, but not its gateway. No turn draws an
identifier twice or forgets a transmission, and whatever the gateway sends is readable, so that no
turn brings anything that has to be refused.
-/
namespace EbmsMessaging

open Correlation

/-- A service goes on with the same settings, the same gateway and the same supply of identifiers,
forgets no transmission, and refuses nothing that arrives. -/
structure ServiceState.Continues (s v : ServiceState) : Prop where
  settings : v.settings = s.settings
  gateway : v.gateway = s.gateway
  uuid : v.draws.uuid = s.draws.uuid
  drawn : s.draws.drawn ≤ v.draws.drawn
  refusals : v.intake.metrics.refusals = s.intake.metrics.refusals
  transmissions : s.transmissions ⊆ v.transmissions

/-- What the gateway sends is an acknowledgement of one of the two kinds. -/
theorem GatewayAnswer.definite {a : GatewayAnswer} {k : Acknowledgement}
    (h : a.acknowledgement? = some k) : k.Definite := by
  have hdefinite {o : HopAnswer} {hop : Hop} {key : String} {messageId : Option String}
      (h : o.acknowledgement? hop key messageId = some k) : k.Definite := by
    cases o with
    | accept =>
      obtain rfl := Option.some.inj h
      exact Acknowledgement.definite_positive hop key messageId
    | reject detail =>
      obtain rfl := Option.some.inj h
      exact Acknowledgement.definite_negative hop key messageId detail
    | silent => simp [HopAnswer.acknowledgement?] at h
  unfold acknowledgement? at h
  split at h
  · exact hdefinite h
  · exact hdefinite h

namespace ServiceState

/-- Every acknowledgement of the gateway arrives as it was sent. -/
theorem receiveFromGateway_eq (s : ServiceState) (now : Nat) {k : Acknowledgement}
    (h : k.Definite) : s.receiveFromGateway now k =
      (let (intake, _, called) := s.intake.deposit now k
      ({ s with intake := intake.countAcknowledgement k.hop,
                draws := { s.draws with drawn := s.draws.drawn + 3 } }, called)) := by
  have harrives : Arrival.ofBody (Gateway.frame s.takeStamp.1 s.takeStamp.2.takeUuid.1 k) =
      .ok (.acknowledgement k) := Gateway.agreement.ofBody_acknowledgementEnvelope _ h _
  simp only [receiveFromGateway, harrives]
  rfl

namespace Continues

theorem refl (s : ServiceState) : s.Continues s :=
  ⟨rfl, rfl, rfl, Nat.le_refl _, rfl, List.Subset.refl _⟩

theorem trans {s v u : ServiceState} (h : s.Continues v) (h' : v.Continues u) : s.Continues u :=
  ⟨h'.settings.trans h.settings, h'.gateway.trans h.gateway, h'.uuid.trans h.uuid,
    Nat.le_trans h.drawn h'.drawn, h'.refusals.trans h.refusals,
    List.Subset.trans h.transmissions h'.transmissions⟩

variable (s : ServiceState) (now : Nat) (clock : Clock) (id : TaskId) (x : OpenExchange)

theorem withTable (t : Table Acknowledgement) : s.Continues (s.withTable t) :=
  ⟨rfl, rfl, rfl, Nat.le_refl _, rfl, List.Subset.refl _⟩

theorem conclude (startedAt : Nat) (r : Except ExchangeFailure Confirmation) :
    s.Continues (s.conclude now startedAt r).1 :=
  ⟨rfl, rfl, rfl, Nat.le_refl _, rfl, List.Subset.refl _⟩

theorem takeStamp : s.Continues s.takeStamp.2 :=
  ⟨rfl, rfl, rfl, Nat.le_add_right _ 2, rfl, List.Subset.refl _⟩

theorem advance (stages : List ExchangeStage) : s.Continues (s.advance id x stages).1 :=
  ⟨rfl, rfl, rfl, Nat.le_refl _, rfl, List.Subset.refl _⟩

theorem depositAll (as : List Acknowledgement) : s.Continues (s.depositAll now as).1 := by
  induction as generalizing s with
  | nil => exact refl s
  | cons a as ih =>
    have hfirst : s.Continues (s.deposit now a).1 :=
      ⟨rfl, rfl, rfl, Nat.le_refl _, rfl, List.Subset.refl _⟩
    rw [ServiceState.depositAll]
    exact hfirst.trans (ih _)

theorem handOver (t : Transmission) (reply : ArrangedReply) :
    s.Continues (s.handOver now t reply).state := by
  have hsent : s.Continues { s with transmissions := s.transmissions ++ [t] } :=
    ⟨rfl, rfl, rfl, Nat.le_refl _, rfl, List.subset_append_left _ _⟩
  refine hsent.trans ?_
  unfold ServiceState.handOver
  obtain ⟨settings, intake, gateway, transmissions, draws, changes⟩ := s
  cases gateway with
  | none => exact depositAll _ now _
  | some g => exact ⟨rfl, rfl, rfl, Nat.le_succ _, rfl, List.Subset.refl _⟩

theorem afterRelay (relay : String) (t : Table Acknowledgement)
    (attempt : Attempt Acknowledgement) :
    s.Continues (s.afterRelay now id x relay (t, attempt)).1 := by
  cases attempt with
  | entered w => exact withTable s t
  | waiting w => exact withTable s t
  | ended o =>
    have hjudged := advance (s.withTable t) id x (OpenExchange.judged .relay relay o)
    exact ((withTable s t).trans hjudged).trans (conclude _ now _ _)

theorem afterSubmission (t : Table Acknowledgement) (attempt : Attempt Acknowledgement) :
    s.Continues (s.afterSubmission now id x (t, attempt)).1 := by
  cases attempt with
  | entered w => exact withTable s t
  | waiting w => exact withTable s t
  | ended o =>
    have hjudged := advance (s.withTable t) id x (OpenExchange.judged .submission x.messageId o)
    refine ((withTable s t).trans hjudged).trans ?_
    simp only [afterSubmission_ended]
    cases x.afterSubmission o with
    | error e => exact conclude _ now _ _
    | ok relay => exact (advance _ id _ _).trans (afterRelay _ now id _ relay _ _)

theorem afterHandover (h : Handover) :
    h.state.Continues (ServiceState.afterHandover now id x h).shared := by
  unfold ServiceState.afterHandover
  rcases h.report with cause | (_ | fault)
  · exact conclude _ now _ _
  · exact (advance h.state id x _).trans (afterSubmission _ now id _ _ _)
  · exact conclude _ now _ _

theorem beginExchange (r : SendRequest) : s.Continues (s.beginExchange now id r).shared := by
  have hstart : s.Continues s.countStart :=
    ⟨rfl, rfl, rfl, Nat.le_refl _, rfl, List.Subset.refl _⟩
  simp only [ServiceState.beginExchange]
  cases r.route.endpoint with
  | error cause => exact hstart.trans (conclude _ now _ _)
  | ok endpoint =>
    have hstamp := hstart.trans (takeStamp s.countStart)
    cases s.countStart.takeStamp.2.agreement.prepare s.countStart.takeStamp.1 r.route r.message with
    | error cause => exact hstamp.trans (conclude _ now _ _)
    | ok prepared =>
      have hopened := advance s.countStart.takeStamp.2 id
        (s.countStart.takeStamp.2.opening now r prepared) [.prepared]
      exact ((hstamp.trans hopened).trans (handOver _ now _ r.reply)).trans
        (afterHandover now id _ _)

theorem transmitTo (r : TransmitRequest) : s.Continues (s.transmitTo now id r).shared := by
  simp only [ServiceState.transmitTo]
  cases s.takeStamp.2.agreement.prepare s.takeStamp.1 r.route r.message with
  | error cause => exact takeStamp s
  | ok prepared => exact (takeStamp s).trans (handOver _ now _ .silence)

theorem resumeExchange (w : Wait) : s.Continues (s.resumeExchange clock id x w).shared := by
  unfold ServiceState.resumeExchange
  cases x.relayMessageId with
  | none => exact afterSubmission s clock.now id x _ _
  | some relay => exact afterRelay s clock.now id x relay _ _

theorem afterAttempt (t : Table Acknowledgement) (attempt : Attempt Acknowledgement) :
    s.Continues (s.afterAttempt (t, attempt)).shared := by
  cases attempt <;> exact withTable s t

theorem afterTick (w : Sweeper) : s.Continues (s.afterTick clock w).shared := by
  have hcount (reports : List Removals) (size : Nat) (m : Metrics) :
      (reports.foldl (fun m r => m.countSweep r size) m).refusals = m.refusals := by
    induction reports generalizing m with
    | nil => rfl
    | cons r reports ih => exact ih (m.countSweep r size)
  unfold ServiceState.afterTick
  split
  · exact refl s
  · exact ⟨rfl, rfl, rfl, Nat.le_refl _, hcount _ _ _, List.Subset.refl _⟩

theorem answer (a : GatewayAnswer) : s.Continues (s.answer now a).1 := by
  unfold ServiceState.answer
  cases ha : a.acknowledgement? with
  | none => exact refl s
  | some k =>
    simp only [s.receiveFromGateway_eq now (GatewayAnswer.definite ha)]
    exact ⟨rfl, rfl, rfl, Nat.le_add_right _ 3, rfl, List.Subset.refl _⟩

theorem continueAnswer (a : GatewayAnswer) : s.Continues (s.continueAnswer clock a).shared := by
  unfold ServiceState.continueAnswer
  have hfirst := answer s clock.now a
  split
  · exact refl s
  · cases a.next? with
    | none => exact hfirst
    | some b =>
      simp only
      split
      · exact hfirst
      · exact hfirst.trans (answer _ clock.now b)

theorem turn (task : ServiceTask) :
    s.Continues (ServiceTask.behaviour.turn clock id task s).shared := by
  cases task with
  | sending r => exact beginExchange s clock.now id r
  | awaiting x w => exact resumeExchange s clock id x w
  | transmitting r => exact transmitTo s clock.now id r
  | fetching key limit => exact afterAttempt s _ _
  | waiting w => exact afterAttempt s _ _
  | sweeping w => exact afterTick s clock w
  | answering a => exact continueAnswer s clock a

theorem drop (task : ServiceTask) : s.Continues (s.drop now id task) := by
  cases task <;> exact ⟨rfl, rfl, rfl, Nat.le_refl _, rfl, List.Subset.refl _⟩

end Continues
end ServiceState

theorem Service.continues_turn (s : Service) (id : TaskId) :
    s.state.Continues (s.move (.turn id)).state := by
  simp only [state, move, Scheduler.shared_attend]
  split
  · exact .refl _
  · split
    · exact .drop _ _ id _
    · exact .turn _ _ id _

end EbmsMessaging
