import EbmsMessaging.Proofs.Service.Continuity
import EbmsMessaging.Proofs.Service.Course
import Mathlib.Logic.Function.Basic

/-!
# A message between its sender and the gateway

A message that a gateway accepted is answered by the plan of that time, while its sender waits for
one acknowledgement after the other. At any time the exchange is in one of a few phases, and these
tell where the sender stands, what the gateway still has to send, and which acknowledgements lie in
the table. Whatever the sender takes and whatever the gateway sends leads from one phase to another.
-/
namespace EbmsMessaging

open Correlation

namespace GatewayPlan

/-- How the exchange of a message ends under a plan, if it does. -/
def ending (p : GatewayPlan) (m : PreparedMessage) (relay : String) (elapsed : Nat) :
    Option (Except ExchangeFailure Confirmation) :=
  match p.fault with
  | some fault => some (.error (.rejected m.messageId fault.detail))
  | none =>
    match p.submission with
    | .silent => none
    | .reject detail => some (.error (.submissionFailed m.messageId detail))
    | .accept =>
      if p.isChained then
        match p.relay with
        | .silent => none
        | .reject detail =>
          if detail.code = "EBMS:0301" then some (.error (.receiptMissing m.messageId relay detail))
          else some (.error (.relayFailed m.messageId relay detail))
        | .accept => some (.ok ⟨m.messageId, relay, m.conversationId, elapsed⟩)
      else some (.error (.malformedAcknowledgement m.messageId))

/-- The hop that a message reaches last is never acknowledged. -/
def IsSilent (p : GatewayPlan) : Prop :=
  p.fault = none ∧ (p.submission = .silent ∨
    (p.submission = .accept ∧ p.isChained = true ∧ p.relay = .silent))

theorem ending_eq_none_iff {p : GatewayPlan} {m : PreparedMessage} {relay : String}
    {elapsed : Nat} : p.ending m relay elapsed = none ↔ p.IsSilent := by
  obtain ⟨fault, submission, relayed, isChained, delay⟩ := p
  unfold ending IsSilent
  cases fault with
  | some fault => simp
  | none =>
    cases submission with
    | silent => simp
    | reject detail => simp
    | accept =>
      cases isChained with
      | false => simp
      | true =>
        cases relayed with
        | silent => simp
        | accept => simp
        | reject detail =>
          simp only [if_true]
          split <;> simp

end GatewayPlan

namespace GatewayAnswer

variable {a : GatewayAnswer}

/-- An answer whose next acknowledgement is not due at a certain time. -/
def undated (a : GatewayAnswer) : GatewayAnswer := { a with due := none }

theorem eq_of_next? {b : GatewayAnswer} (h : a.next? = some b) :
    b = { a with hop := .relay, due := none } := by
  unfold next? at h
  split at h
  · exact (Option.some.inj h).symm
  · simp at h

theorem undated_of_next? {b : GatewayAnswer} (h : a.next? = some b) : b.undated = b := by
  rw [eq_of_next? h]
  rfl

/-- Nothing comes after the relay. -/
theorem next?_next? {b : GatewayAnswer} (h : a.next? = some b) : b.next? = none := by
  rw [eq_of_next? h]
  rfl

end GatewayAnswer

/-- A message that was handed to a gateway, with the plan of that time and the identifier that was
drawn for its relay. -/
structure Dispatch where
  transmission : Transmission
  plan : GatewayPlan
  relay : String
  startedAt : Nat

namespace Dispatch

/-- The sender. -/
def task (d : Dispatch) : TaskId := d.transmission.task

/-- The identifier under which a hop is acknowledged. -/
def key (d : Dispatch) : Hop → String
  | .submission => d.transmission.message.messageId
  | .relay => d.relay

/-- All that the gateway has to send. -/
def answer (d : Dispatch) : GatewayAnswer := ⟨d.plan, d.key .submission, d.relay, .submission, none⟩

/-- The exchange while its sender waits for the acknowledgement of a hop. -/
def exchange (d : Dispatch) : Hop → OpenExchange
  | .submission => Sender.exchangeOf d.transmission d.startedAt 0 none .awaitingSubmission
  | .relay => Sender.exchangeOf d.transmission d.startedAt 0 (some d.relay) .awaitingRelay

/-- How the exchange ends if it ends now. -/
def ending (d : Dispatch) (now : Nat) : Option (Except ExchangeFailure Confirmation) :=
  d.plan.ending d.transmission.message d.relay (now - d.startedAt)

section Answers

variable {d : Dispatch} {a b : Acknowledgement} {g : GatewayAnswer}

theorem key_of_answer (h : d.answer.acknowledgement? = some a) : a.key = d.key .submission := by
  obtain ⟨transmission, ⟨fault, submission, relayed, isChained, delay⟩, relay, startedAt⟩ := d
  cases submission with
  | silent => simp [answer, GatewayAnswer.acknowledgement?, HopAnswer.acknowledgement?] at h
  | accept =>
    obtain rfl := Option.some.inj h
    rfl
  | reject detail =>
    obtain rfl := Option.some.inj h
    rfl

/-- The relay is acknowledged only if the submission was accepted. -/
theorem next?_answer (h : d.answer.next? = some g) :
    d.plan.submission = .accept ∧ d.plan.isChained = true ∧
      g = { d.answer with hop := .relay } := by
  simp only [answer, GatewayAnswer.next?, Option.ite_none_right_eq_some, true_and,
    Option.some.injEq] at h
  exact ⟨h.1.1, h.1.2, h.2.symm⟩

theorem key_of_next (h : d.answer.next? = some g) (ha : g.acknowledgement? = some a) :
    a.key = d.key .relay := by
  obtain ⟨-, -, rfl⟩ := next?_answer h
  simp only [GatewayAnswer.acknowledgement?, answer] at ha
  cases hrelay : d.plan.relay with
  | silent => simp [hrelay, HopAnswer.acknowledgement?] at ha
  | accept =>
    simp only [hrelay, HopAnswer.acknowledgement?, Option.some.injEq] at ha
    rw [← ha]
    rfl
  | reject detail =>
    simp only [hrelay, HopAnswer.acknowledgement?, Option.some.injEq] at ha
    rw [← ha]
    rfl

/-- What the first acknowledgement comes to. Either it ends the exchange as planned, or it names the
identifier for the relay. -/
theorem afterSubmission_answer (hfault : d.plan.fault = none)
    (ha : d.answer.acknowledgement? = some a) :
    (d.answer.next? = none ∧ ∃ e, (d.exchange .submission).afterSubmission (.value a) = .error e ∧
      ∀ now, d.ending now = some (.error e)) ∨
    ((d.answer.next?).isSome ∧
      (d.exchange .submission).afterSubmission (.value a) = .ok d.relay) := by
  obtain ⟨transmission, ⟨fault, submission, relayed, isChained, delay⟩, relay, startedAt⟩ := d
  obtain rfl : fault = none := hfault
  cases submission with
  | silent => simp [answer, GatewayAnswer.acknowledgement?, HopAnswer.acknowledgement?] at ha
  | reject detail =>
    obtain rfl := Option.some.inj ha
    exact .inl ⟨rfl, _, rfl, fun now => rfl⟩
  | accept =>
    obtain rfl := Option.some.inj ha
    cases isChained with
    | false => exact .inl ⟨rfl, _, rfl, fun now => rfl⟩
    | true => exact .inr ⟨rfl, rfl⟩

theorem exists_acknowledgement_of_next? (h : d.answer.next? = some g) :
    ∃ a, d.answer.acknowledgement? = some a := by
  obtain ⟨haccept, -, -⟩ := next?_answer h
  simp only [answer, GatewayAnswer.acknowledgement?, haccept]
  exact ⟨_, rfl⟩

/-- What the second acknowledgement comes to. -/
theorem afterRelay_answer (hfault : d.plan.fault = none) (h : d.answer.next? = some g)
    (hb : g.acknowledgement? = some b) (now : Nat) :
    d.ending now = some ((d.exchange .relay).afterRelay now d.relay (.value b)) := by
  obtain ⟨haccept, hchained, rfl⟩ := next?_answer h
  obtain ⟨transmission, ⟨fault, submission, relayed, isChained, delay⟩, relay, startedAt⟩ := d
  obtain rfl : fault = none := hfault
  obtain rfl : submission = .accept := haccept
  obtain rfl : isChained = true := hchained
  cases relayed with
  | silent => simp [answer, GatewayAnswer.acknowledgement?, HopAnswer.acknowledgement?] at hb
  | accept =>
    obtain rfl := Option.some.inj hb
    rfl
  | reject detail =>
    obtain rfl := Option.some.inj hb
    show (if detail.code = "EBMS:0301" then _ else _) =
      some (Except.error (if detail.code = "EBMS:0301" then _ else _))
    split <;> rfl

end Answers

/-! ## Phases -/

/-- Where the sender of a message stands. -/
inductive Standing where
  | awaiting (hop : Hop)
  | finished (result : Except ExchangeFailure Confirmation)

/-- The phases of an exchange: where the sender stands, what the gateway does next, and which
acknowledgements of submission and relay lie in the table. -/
inductive Phase (d : Dispatch) : Standing → Option GatewayAnswer → Option Acknowledgement →
    Option Acknowledgement → Prop where
  | accepted (hfault : d.plan.fault = none) :
    Phase d (.awaiting .submission) (some d.answer) none none
  | answered (hfault : d.plan.fault = none) {next : Option GatewayAnswer}
    {v : Option Acknowledgement} (hnext : d.answer.next? = next)
    (hv : d.answer.acknowledgement? = v) : Phase d (.awaiting .submission) next v none
  | answeredTwice (hfault : d.plan.fault = none) {g : GatewayAnswer}
    {v w : Option Acknowledgement} (hnext : d.answer.next? = some g)
    (hv : d.answer.acknowledgement? = v) (hw : g.acknowledgement? = w) :
    Phase d (.awaiting .submission) none v w
  | relayAwaited (hfault : d.plan.fault = none) {g : GatewayAnswer}
    (hnext : d.answer.next? = some g) : Phase d (.awaiting .relay) (some g) none none
  | relayAnswered (hfault : d.plan.fault = none) {g : GatewayAnswer} {w : Option Acknowledgement}
    (hnext : d.answer.next? = some g) (hw : g.acknowledgement? = w) :
    Phase d (.awaiting .relay) none none w
  | finished {now : Nat} {result : Except ExchangeFailure Confirmation}
    (h : d.ending now = some result) : Phase d (.finished result) none none none

end Dispatch

/-- What is offered when the gateway has sent its next acknowledgement. -/
def GatewayAnswer.post (a : GatewayAnswer) (f : String → Option Acknowledgement) :
    String → Option Acknowledgement :=
  match a.acknowledgement? with
  | none => f
  | some k => Function.update f k.key (some k)

theorem GatewayAnswer.post_of_ne {a : GatewayAnswer} {key : String}
    (h : ∀ k, a.acknowledgement? = some k → k.key ≠ key) (f : String → Option Acknowledgement) :
    a.post f key = f key := by
  unfold post
  cases ha : a.acknowledgement? with
  | none => rfl
  | some k => exact Function.update_of_ne (Ne.symm (h k ha)) _ f

theorem GatewayAnswer.post_of_key {a : GatewayAnswer} {key : String}
    (h : ∀ k, a.acknowledgement? = some k → k.key = key) {f : String → Option Acknowledgement}
    (hnone : f key = none) : a.post f key = a.acknowledgement? := by
  unfold post
  cases ha : a.acknowledgement? with
  | none => exact hnone
  | some k =>
    rw [← h k ha]
    exact Function.update_self k.key (some k) f

namespace Dispatch.Phase

variable {d : Dispatch} {stand : Standing} {g : GatewayAnswer} {next : Option GatewayAnswer}
  {a : Acknowledgement} {v w : Option Acknowledgement}

/-- The gateway sends its next acknowledgement. -/
theorem post (h : Phase d stand (some g) v w) (hne : d.key .submission ≠ d.key .relay)
    {f : String → Option Acknowledgement} (hv : f (d.key .submission) = v)
    (hw : f (d.key .relay) = w) :
    Phase d stand g.next? (g.post f (d.key .submission)) (g.post f (d.key .relay)) := by
  have hrelay {g : GatewayAnswer} (hnext : d.answer.next? = some g) :
      g.post f (d.key .submission) = f (d.key .submission) ∧
        (f (d.key .relay) = none → g.post f (d.key .relay) = g.acknowledgement?) := by
    refine ⟨g.post_of_ne (fun k hk => ?_) f, g.post_of_key fun k hk => key_of_next hnext hk⟩
    rw [key_of_next hnext hk]
    exact Ne.symm hne
  cases h with
  | accepted hfault =>
    have hother : d.answer.post f (d.key .relay) = f (d.key .relay) :=
      d.answer.post_of_ne (fun k hk => (key_of_answer hk).trans_ne hne) f
    rw [d.answer.post_of_key (fun k hk => key_of_answer hk) hv, hother, hw]
    exact .answered hfault rfl rfl
  | answered hfault hnext hv' =>
    rw [(hrelay hnext).1, (hrelay hnext).2 hw, hv, GatewayAnswer.next?_next? hnext]
    exact .answeredTwice hfault hnext hv' rfl
  | relayAwaited hfault hnext =>
    rw [(hrelay hnext).1, (hrelay hnext).2 hw, hv, GatewayAnswer.next?_next? hnext]
    exact .relayAnswered hfault hnext rfl

/-- The gateway sends nothing under other keys. -/
theorem key_of_post (h : Phase d stand (some g) v w) (hk : g.acknowledgement? = some a) :
    ∃ hop, a.key = d.key hop := by
  cases h with
  | accepted _ => exact ⟨.submission, key_of_answer hk⟩
  | answered _ hnext _ => exact ⟨.relay, key_of_next hnext hk⟩
  | relayAwaited _ hnext => exact ⟨.relay, key_of_next hnext hk⟩

/-- The sender takes the acknowledgement of the submission. -/
theorem takeSubmission (h : Phase d (.awaiting .submission) next (some a) w) :
    (∃ e, (d.exchange .submission).afterSubmission (.value a) = .error e ∧
      Phase d (.finished (.error e)) next none w) ∨
    ((d.exchange .submission).afterSubmission (.value a) = .ok d.relay ∧
      Phase d (.awaiting .relay) next none w) := by
  cases h with
  | answered hfault hnext hv =>
    rcases afterSubmission_answer hfault hv with ⟨hlast, e, hends, hending⟩ | ⟨hgoes, hrelay⟩
    · rw [← hnext, hlast]
      exact .inl ⟨e, hends, .finished (hending 0)⟩
    · obtain ⟨g, hg⟩ := Option.isSome_iff_exists.mp hgoes
      rw [← hnext, hg]
      exact .inr ⟨hrelay, .relayAwaited hfault hg⟩
  | answeredTwice hfault hnext hv hw =>
    rcases afterSubmission_answer hfault hv with ⟨hlast, -⟩ | ⟨-, hrelay⟩
    · simp [hnext] at hlast
    · exact .inr ⟨hrelay, .relayAnswered hfault hnext hw⟩

/-- The sender takes the acknowledgement of the relay. -/
theorem takeRelay (h : Phase d (.awaiting .relay) next v (some a)) (now : Nat) :
    Phase d (.finished ((d.exchange .relay).afterRelay now d.relay (.value a))) next v none := by
  cases h with
  | relayAnswered hfault hnext hw => exact .finished (afterRelay_answer hfault hnext hw now)

/-- The gateway answers this message. -/
theorem messageId_eq (h : Phase d stand (some g) v w) : g.messageId = d.key .submission := by
  have hrelay {g : GatewayAnswer} (hnext : d.answer.next? = some g) :
      g.messageId = d.key .submission := by
    rw [GatewayAnswer.eq_of_next? hnext]
    rfl
  cases h with
  | accepted _ => rfl
  | answered _ hnext _ => exact hrelay hnext
  | relayAwaited _ hnext => exact hrelay hnext

/-- When the next acknowledgement is due is settled later. -/
theorem undated_eq (h : Phase d stand (some g) v w) : g.undated = g := by
  cases h with
  | accepted _ => rfl
  | answered _ hnext _ => exact GatewayAnswer.undated_of_next? hnext
  | relayAwaited _ hnext => exact GatewayAnswer.undated_of_next? hnext

/-- When the gateway has nothing left to send, a sender that still waits finds an acknowledgement
unless its plan is silent. -/
theorem offered_or_isSilent {hop : Hop} (h : Phase d (.awaiting hop) none v w) :
    (if hop = .submission then v else w).isSome ∨ d.plan.IsSilent := by
  have hrelay {g : GatewayAnswer} (hfault : d.plan.fault = none) (hnext : d.answer.next? = some g)
      (hw : g.acknowledgement? = w) : w.isSome ∨ d.plan.IsSilent := by
    obtain ⟨haccept, hchained, rfl⟩ := next?_answer hnext
    rw [← hw]
    simp only [GatewayAnswer.acknowledgement?, answer]
    cases hrelay : d.plan.relay with
    | silent => exact .inr ⟨hfault, .inr ⟨haccept, hchained, hrelay⟩⟩
    | accept => exact .inl rfl
    | reject detail => exact .inl rfl
  cases h with
  | answered hfault hnext hv =>
    rw [← hv]
    simp only [GatewayAnswer.acknowledgement?, answer]
    cases hsubmission : d.plan.submission with
    | silent => exact .inr ⟨hfault, .inl hsubmission⟩
    | accept => exact .inl rfl
    | reject detail => exact .inl rfl
  | answeredTwice hfault hnext hv _ =>
    obtain ⟨a, ha⟩ := exists_acknowledgement_of_next? hnext
    rw [← hv, ha]
    exact .inl rfl
  | relayAnswered hfault hnext hw => exact hrelay hfault hnext hw

/-- A sender waits only as long as nothing came back at once. -/
theorem fault_eq_none {hop : Hop} (h : Phase d (.awaiting hop) next v w) :
    d.plan.fault = none := by
  cases h <;> assumption

/-- An exchange is over when it has ended as planned, and it leaves nothing behind. -/
theorem of_finished {result : Except ExchangeFailure Confirmation}
    (h : Phase d (.finished result) next v w) :
    (∃ now, d.ending now = some result) ∧ v = none ∧ w = none := by
  cases h with
  | finished h => exact ⟨⟨_, h⟩, rfl, rfl⟩

end Dispatch.Phase
end EbmsMessaging
