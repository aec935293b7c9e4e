import EbmsMessaging.Proofs.Correlation.Offers
import EbmsMessaging.Proofs.Service.Exchanges
import EbmsMessaging.Proofs.Service.Phases
import EbmsMessaging.Proofs.Service.Seating
import EbmsMessaging.Proofs.Uuid
import Mathlib.Data.Set.Operations
import Mathlib.Order.Interval.Set.Defs

/-!
# Turns of senders and of the gateway

What a sender without a time limit does at its turn is told by what the table offers, and what the
gateway does by the acknowledgements that it still has to send. Either way the exchange comes to
another phase, and no other key of the table is touched.
-/
namespace EbmsMessaging

open Correlation

/-- What the table offers when the gateway has sent its next acknowledgement. -/
theorem ServiceState.offers_answer (s : ServiceState) (now : Nat) {a : GatewayAnswer}
    {f : String → Option Acknowledgement} {crowd : Crowd} {queue : List TaskId}
    (h : s.table.Offers f) (hhosts : s.table.Hosts crowd queue) :
    (s.answer now a).1.table.Offers (a.post f) ∧
      ∃ queue', (s.answer now a).1.table.Hosts crowd queue' := by
  unfold answer GatewayAnswer.post
  cases ha : a.acknowledgement? with
  | none => exact ⟨h, queue, hhosts⟩
  | some k =>
    simp only [s.receiveFromGateway_eq now (GatewayAnswer.definite ha)]
    exact ⟨h.deposit hhosts now k.key k, queue ++ (s.table.deposit now k.key k).2.2,
      hhosts.deposit now k.key k (fun j hj => List.mem_append_left _ hj)
        fun j hj => List.mem_append_right _ hj⟩

namespace Dispatch

variable {d : Dispatch} {stand : Standing} {next : Option GatewayAnswer}
  {f f' : String → Option Acknowledgement} {crowd : Crowd} {queue : List TaskId}
  {t : Table Acknowledgement} {attempt : Attempt Acknowledgement}

/-- How a sender goes on that stands here. -/
def Goes (d : Dispatch) : Standing → Next ServiceTask ServiceResult → Prop
  | .awaiting hop, next => ∃ w, w.key = d.key hop ∧ w.deadline = none ∧
      next.task? = some (.awaiting (d.exchange hop) w)
  | .finished result, next => next = .ended (.exchanged result)

/-- How the gateway goes on that has this to send. -/
def GatewayGoes : Option GatewayAnswer → Next ServiceTask ServiceResult → Prop
  | none, next => next.task? = none
  | some g, next => ∃ a : GatewayAnswer, a.undated = g ∧ next.task? = some (.answering a)

/-- What the table offers for other messages stays. -/
def Spares (d : Dispatch) (f f' : String → Option Acknowledgement) : Prop :=
  ∀ key, (∀ hop, key ≠ d.key hop) → f' key = f key

theorem Spares.refl (d : Dispatch) (f : String → Option Acknowledgement) : d.Spares f f :=
  fun _ _ => rfl

theorem Spares.trans {f'' : String → Option Acknowledgement} (h : d.Spares f f')
    (h' : d.Spares f' f'') : d.Spares f f'' :=
  fun key hkey => (h' key hkey).trans (h key hkey)

theorem Spares.update (d : Dispatch) (hop : Hop) (f : String → Option Acknowledgement)
    (v : Option Acknowledgement) : d.Spares f (Function.update f (d.key hop) v) :=
  fun _ hkey => Function.update_of_ne (hkey hop) v f

theorem Spares.post {a : GatewayAnswer}
    (h : ∀ k, a.acknowledgement? = some k → ∃ hop, k.key = d.key hop)
    (f : String → Option Acknowledgement) : d.Spares f (a.post f) := by
  intro key hkey
  refine a.post_of_ne (fun k hk heq => ?_) f
  obtain ⟨hop, hhop⟩ := h k hk
  exact hkey hop (heq.symm.trans hhop)

/-- A sender leaves the exchange in another phase. -/
def Proceeds (d : Dispatch) (next : Option GatewayAnswer) (f : String → Option Acknowledgement)
    (v : ServiceState) (n : Next ServiceTask ServiceResult) : Prop :=
  ∃ stand f', Phase d stand next (f' (d.key .submission)) (f' (d.key .relay)) ∧
    v.table.Offers f' ∧ d.Spares f f' ∧ d.Goes stand n

theorem proceeds_afterRelay (s : ServiceState) (now : Nat) {x : OpenExchange}
    (hx : { x with relayMessageId := some d.relay } = d.exchange .relay)
    (hphase : Phase d (.awaiting .relay) next (f (d.key .submission)) (f (d.key .relay)))
    (hne : d.key .submission ≠ d.key .relay)
    (h : Table.Offers.Tries f (d.key .relay) (t, attempt)) :
    d.Proceeds next f (s.afterRelay now d.task x d.relay (t, attempt)).1
      (s.afterRelay now d.task x d.relay (t, attempt)).2 := by
  cases h with
  | @taken _ a hvalue hoffers =>
    rw [hvalue] at hphase
    refine ⟨.finished _, _, ?_, hoffers, .update d .relay f none, rfl⟩
    rw [Function.update_of_ne hne, Function.update_self]
    have hend : x.afterRelay now d.relay (.value a) =
        (d.exchange .relay).afterRelay now d.relay (.value a) := by
      rw [← hx]
      rfl
    rw [OpenExchange.afterRelay_advance, hend]
    exact hphase.takeRelay now
  | @entered _ w hvalue hkey hdeadline hoffers =>
    refine ⟨_, f, hphase, hoffers, .refl d f, w, hkey, hdeadline, ?_⟩
    rw [← hx]
    rfl
  | @waiting _ w hvalue hkey hdeadline hoffers =>
    refine ⟨_, f, hphase, hoffers, .refl d f, w, hkey, hdeadline, ?_⟩
    rw [← hx]
    rfl

theorem proceeds_afterSubmission (s : ServiceState) (now : Nat)
    (hphase : Phase d (.awaiting .submission) next (f (d.key .submission)) (f (d.key .relay)))
    (hne : d.key .submission ≠ d.key .relay)
    (hhosts : f (d.key .submission) ≠ none → ∃ crowd queue, t.Hosts crowd queue)
    (h : Table.Offers.Tries f (d.key .submission) (t, attempt)) :
    d.Proceeds next f (s.afterSubmission now d.task (d.exchange .submission) (t, attempt)).1
      (s.afterSubmission now d.task (d.exchange .submission) (t, attempt)).2 := by
  cases h with
  | entered hvalue hkey hdeadline hoffers =>
    exact ⟨_, f, hphase, hoffers, .refl d f, _, hkey, hdeadline, rfl⟩
  | waiting hvalue hkey hdeadline hoffers =>
    exact ⟨_, f, hphase, hoffers, .refl d f, _, hkey, hdeadline, rfl⟩
  | taken hvalue hoffers =>
    have hspares := Spares.update d .submission f none
    rw [hvalue] at hphase
    simp only [ServiceState.afterSubmission_ended]
    rcases hphase.takeSubmission with ⟨e, hends, hover⟩ | ⟨hgoes, hrelay⟩
    · rw [hends]
      refine ⟨.finished _, _, ?_, hoffers, hspares, rfl⟩
      rw [Function.update_self, Function.update_of_ne (Ne.symm hne)]
      exact hover
    · rw [hgoes]
      -- The relay's acknowledgement is fetched in the same turn.
      obtain ⟨_, _, hhosted⟩ := hhosts (by simp [hvalue])
      have hfetch := hoffers.tries_fetch hhosted now d.task (d.key .relay)
      have hrelay' : Phase d (.awaiting .relay) next
          (Function.update f (d.key .submission) none (d.key .submission))
          (Function.update f (d.key .submission) none (d.key .relay)) := by
        rw [Function.update_self, Function.update_of_ne (Ne.symm hne)]
        exact hrelay
      let x := ((d.exchange .submission).advance [.submissionAccepted]).advance [.awaitingRelay]
      have hx : { x with relayMessageId := some d.relay } = d.exchange .relay := rfl
      obtain ⟨stand, f', hphase', hoffers', hspares', hgoes'⟩ :=
        proceeds_afterRelay _ now hx hrelay' hne hfetch
      exact ⟨stand, f', hphase', hoffers', hspares.trans hspares', hgoes'⟩

/-- A sender that waits has its turn. -/
theorem proceeds_resume (s : ServiceState) (clock : Clock) {hop : Hop} {w : Wait}
    (hphase : Phase d (.awaiting hop) next (f (d.key .submission)) (f (d.key .relay)))
    (hne : d.key .submission ≠ d.key .relay) (hoffers : s.table.Offers f)
    (hhosts : s.table.Hosts crowd queue) (hw : (d.task, w) ∈ crowd) (hkey : w.key = d.key hop)
    (hdeadline : w.deadline = none) :
    d.Proceeds next f (s.resumeExchange clock d.task (d.exchange hop) w).shared
      (s.resumeExchange clock d.task (d.exchange hop) w).next := by
  have hresume := hoffers.tries_resume hhosts clock hw hdeadline
  rw [hkey] at hresume
  cases hop with
  | submission =>
    have hhosts' := Deed.hosts (d := .resumed d.task w (s.table.resume clock d.task w).2) hhosts
      rfl hw (fun j hj _ => hj) (List.forall_mem_nil _)
    exact proceeds_afterSubmission s clock.now hphase hne (fun _ => ⟨_, _, hhosts'⟩) hresume
  | relay => exact proceeds_afterRelay s clock.now rfl hphase hne hresume

/-- The gateway sends its next acknowledgement. -/
theorem answer_proceeds (s : ServiceState) (now : Nat) {a : GatewayAnswer}
    (hphase : Phase d stand (some a.undated) (f (d.key .submission)) (f (d.key .relay)))
    (hne : d.key .submission ≠ d.key .relay) (hoffers : s.table.Offers f)
    (hhosts : s.table.Hosts crowd queue) :
    Phase d stand a.next? (a.post f (d.key .submission)) (a.post f (d.key .relay)) ∧
      (s.answer now a).1.table.Offers (a.post f) ∧ d.Spares f (a.post f) ∧
      ∃ queue', (s.answer now a).1.table.Hosts crowd queue' := by
  obtain ⟨hoffers', hhosts'⟩ := s.offers_answer now hoffers hhosts (a := a)
  exact ⟨hphase.post hne rfl rfl, hoffers', .post (fun k hk => hphase.key_of_post hk) f, hhosts'⟩

/-- The gateway has its turn. -/
theorem continueAnswer_proceeds (s : ServiceState) (clock : Clock) {a : GatewayAnswer}
    (hphase : Phase d stand (some a.undated) (f (d.key .submission)) (f (d.key .relay)))
    (hne : d.key .submission ≠ d.key .relay) (hoffers : s.table.Offers f)
    (hhosts : s.table.Hosts crowd queue) :
    (s.continueAnswer clock a).started = [] ∧
    ∃ next f', Phase d stand next (f' (d.key .submission)) (f' (d.key .relay)) ∧
      (s.continueAnswer clock a).shared.table.Offers f' ∧ d.Spares f f' ∧
      GatewayGoes next (s.continueAnswer clock a).next := by
  unfold ServiceState.continueAnswer
  by_cases hdue : clock.rung < a.dueAt clock.now
  · simp only [if_pos hdue]
    refine ⟨trivial, _, f, hphase, hoffers, .refl d f, ?_⟩
    exact ⟨{ a with due := some (a.dueAt clock.now) }, rfl, rfl⟩
  · simp only [if_neg hdue]
    obtain ⟨hphase, hoffers, hspares, _, hhosts⟩ :=
      answer_proceeds s clock.now hphase hne hoffers hhosts
    cases hnext : a.next? with
    | none =>
      rw [hnext] at hphase
      exact ⟨rfl, _, _, hphase, hoffers, hspares, rfl⟩
    | some b =>
      rw [hnext, ← GatewayAnswer.undated_of_next? hnext] at hphase
      by_cases hdue' : clock.rung < b.dueAt clock.now
      · simp only [if_pos hdue']
        refine ⟨trivial, _, _, hphase, hoffers, hspares, ?_⟩
        exact ⟨{ b with due := some (b.dueAt clock.now) }, rfl, rfl⟩
      · simp only [if_neg hdue']
        obtain ⟨hphase', hoffers', hspares', -⟩ :=
          answer_proceeds (s.answer clock.now a).1 clock.now hphase hne hoffers hhosts
        rw [GatewayAnswer.next?_next? hnext] at hphase'
        exact ⟨trivial, _, _, hphase', hoffers', hspares.trans hspares', rfl⟩

/-! ## The first turn -/

/-- The place of a hop's identifier among those that are drawn for one message. The one of the
conversation is drawn between them. -/
def place : Hop → Nat
  | .submission => 0
  | .relay => 2

theorem place_le (hop : Hop) : place hop ≤ 2 := by cases hop <;> decide

theorem place_inj {hop hop' : Hop} (h : place hop = place hop') : hop = hop' := by
  cases hop <;> cases hop' <;> first | rfl | exact absurd h (by decide)

/-- Both identifiers of a message are random, and were drawn from this place on. -/
def DrawnFrom (d : Dispatch) (uuid : Nat → Uuid) (n : Nat) : Prop :=
  ∀ hop, ∃ domain, d.key hop = messageIdOf (uuid (n + place hop)) domain

/-- Where no identifier is drawn twice, one tells when it was drawn. -/
theorem DrawnFrom.place_eq {d' : Dispatch} {uuid : Nat → Uuid} {n n' bound : Nat}
    (h : d.DrawnFrom uuid n) (h' : d'.DrawnFrom uuid n') (hinj : Set.InjOn uuid (Set.Iio bound))
    (hn : n + 2 < bound) (hn' : n' + 2 < bound) {hop hop' : Hop}
    (heq : d.key hop = d'.key hop') : n + place hop = n' + place hop' := by
  obtain ⟨domain, hkey⟩ := h hop
  obtain ⟨domain', hkey'⟩ := h' hop'
  rw [hkey, hkey'] at heq
  refine hinj ?_ ?_ (messageIdOf_inj heq)
  · exact Nat.lt_of_le_of_lt (Nat.add_le_add_left (place_le hop) n) hn
  · exact Nat.lt_of_le_of_lt (Nat.add_le_add_left (place_le hop') n') hn'

/-- What a sender hands to a gateway with this plan. -/
def opened (s : ServiceState) (now : Nat) (id : TaskId) (r : SendRequest) (endpoint : Endpoint)
    (p : GatewayPlan) : Dispatch where
  transmission := ⟨id, ⟨s.agreement.messageEnvelope s.takeStamp.1 r.route r.message,
    r.message.payloads.map Payload.attachment⟩, endpoint⟩
  plan := p
  relay := messageIdOf (s.draws.uuid (s.draws.drawn + 2)) Gateway.agreement.domain
  startedAt := now

theorem drawnFrom_opened (s : ServiceState) (now : Nat) (id : TaskId) (r : SendRequest)
    (endpoint : Endpoint) (p : GatewayPlan) :
    (opened s now id r endpoint p).DrawnFrom s.draws.uuid s.draws.drawn := by
  intro hop
  cases hop with
  | submission => exact ⟨_, rfl⟩
  | relay => exact ⟨_, rfl⟩

/-- The exchange when its message has been prepared. -/
def prepared (d : Dispatch) : OpenExchange :=
  Sender.exchangeOf d.transmission d.startedAt 0 none .prepared

/-- The state in which a message is handed over. -/
def handing (d : Dispatch) (s : ServiceState) : ServiceState :=
  { s.countStart with
    transmissions := s.transmissions ++ [d.transmission]
    draws := { s.draws with drawn := s.draws.drawn + 3 }
    stageChanges := s.stageChanges ++
      StageChange.along d.task (d.key .submission) [.created, .prepared] }

section Begin

variable (s : ServiceState) (now : Nat) (id : TaskId) (r : SendRequest) {p : GatewayPlan}
  {endpoint : Endpoint} (hgateway : s.gateway = some ⟨p, true⟩)
  (hlimit : Sender.limitOf s.settings r = 0) (hroute : r.route.endpoint = .ok endpoint)
  (hpayloads : r.message.payloads ≠ [])

include hroute hpayloads in
theorem sends_opened :
    Sender.Sends s.settings id r (opened s now id r endpoint p).transmission where
  task := rfl
  route := hroute
  message := ⟨s.takeStamp.1, if_neg hpayloads⟩

include hgateway hlimit hroute hpayloads

theorem beginExchange_eq : s.beginExchange now id r = ServiceState.afterHandover now id
    (opened s now id r endpoint p).prepared
    ⟨(opened s now id r endpoint p).handing s, [],
      (Gateway.accept ⟨p, true⟩ (s.draws.uuid (s.draws.drawn + 2))
        (opened s now id r endpoint p).transmission).2,
      (Gateway.accept ⟨p, true⟩ (s.draws.uuid (s.draws.drawn + 2))
        (opened s now id r endpoint p).transmission).1⟩ := by
  have hprepare : s.countStart.takeStamp.2.agreement.prepare s.countStart.takeStamp.1 r.route
      r.message = .ok (opened s now id r endpoint p).transmission.message := if_neg hpayloads
  simp only [ServiceState.beginExchange, hroute, hprepare]
  show ServiceState.afterHandover now id ⟨now, _, _, Sender.limitOf s.settings r, none, _⟩ _ = _
  rw [hlimit]
  obtain ⟨settings, intake, gateway, transmissions, draws, changes⟩ := s
  obtain rfl : gateway = some ⟨p, true⟩ := hgateway
  rfl

theorem handing_continues :
    ((opened s now id r endpoint p).handing s).Continues (s.beginExchange now id r).shared := by
  rw [beginExchange_eq s now id r hgateway hlimit hroute hpayloads]
  exact ServiceState.Continues.afterHandover now id _
    ⟨(opened s now id r endpoint p).handing s, [], _, _⟩

/-- A sender has its first turn, and the gateway is connected. -/
theorem begins (hoffers : s.table.Offers f) (hhosts : s.table.Hosts crowd queue)
    (hfresh : ∀ hop, f ((opened s now id r endpoint p).key hop) = none)
    (hne : (opened s now id r endpoint p).key .submission ≠
      (opened s now id r endpoint p).key .relay) :
    ∃ next, (opened s now id r endpoint p).Proceeds next f (s.beginExchange now id r).shared
        (s.beginExchange now id r).next ∧
      (s.beginExchange now id r).started = next.toList.map .answering := by
  rw [beginExchange_eq s now id r hgateway hlimit hroute hpayloads]
  have hplan : (opened s now id r endpoint p).plan = p := rfl
  have htask : (opened s now id r endpoint p).task = id := rfl
  have hanswer : (opened s now id r endpoint p).answer = ⟨p, (opened s now id r endpoint p).key
    .submission, messageIdOf (s.draws.uuid (s.draws.drawn + 2)) Gateway.agreement.domain,
    .submission, none⟩ := rfl
  generalize opened s now id r endpoint p = d at *
  have hoffers' : (d.handing s).table.Offers f := hoffers
  simp only [Gateway.accept]
  cases hfault : p.fault with
  | some fault =>
    refine ⟨none, ⟨.finished _, f, ?_, hoffers', .refl d f, rfl⟩, rfl⟩
    rw [hfresh, hfresh]
    have hending : d.ending now =
        some (.error (.rejected d.transmission.message.messageId fault.detail)) := by
      rw [ending, GatewayPlan.ending, hplan, hfault]
    exact .finished hending
  | none =>
    have hphase : Phase d (.awaiting .submission) (some d.answer) (f (d.key .submission))
        (f (d.key .relay)) := by
      rw [hfresh, hfresh]
      exact .accepted (hplan ▸ hfault)
    let v := ((d.handing s).advance id d.prepared [.transmitted, .awaitingSubmission]).1
    have htries : Table.Offers.Tries f (d.key .submission)
        (v.table.fetch now id (d.key .submission) 0) := hoffers'.tries_fetch hhosts now id _
    have hproceeds := proceeds_afterSubmission v now hphase hne
      (fun hsome => absurd (hfresh _) hsome) htries
    refine ⟨some d.answer, ?_, ?_⟩
    · rw [htask] at hproceeds
      exact hproceeds
    · rw [hanswer]
      rfl

end Begin
end Dispatch
end EbmsMessaging
