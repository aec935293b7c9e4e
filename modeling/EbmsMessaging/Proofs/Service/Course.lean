import EbmsMessaging.Proofs.Service.Deeds
import EbmsMessaging.Proofs.Service.Stages

/-!
# The course of an exchange

A sender is refused before anything is done, or it transmits its message once and then goes from one
acknowledgement to the next until something ends its exchange. `Course` tells all the ways in which
this can go, with what was done on the way and how the exchange ends. Whatever else happens in a
run, every exchange that has ended took one of them.
-/
namespace EbmsMessaging

open Correlation

/-- An acknowledgement of the submission that names the identifier for the relay. -/
structure Acknowledgement.Accepts (a : Acknowledgement) (relay : String) : Prop where
  hop : a.hop = .submission
  verdict : a.verdict = .receipt
  messageId : a.messageId = some relay

namespace Sender

section Attempts

variable (id : TaskId) (key : String) (limit : Nat)

/-- A task began to fetch the value of a key and waits. -/
inductive Pending : List Deed → Wait → Prop where
  | entered {w : Wait} (hkey : w.key = key) : Pending [.fetched id key limit (.entered w)] w
  | again {ds : List Deed} {w : Wait} (h : Pending ds w) :
    Pending (ds ++ [.resumed id w (.waiting w)]) w

/-- A task fetched the value of a key, once, with this outcome. -/
inductive Obtained : List Deed → Outcome Acknowledgement → Prop where
  | atOnce (a : Acknowledgement) :
    Obtained [.fetched id key limit (.ended (.value a))] (.value a)
  | afterWait {ds : List Deed} {w : Wait} (a : Acknowledgement) (h : Pending id key limit ds w) :
    Obtained (ds ++ [.resumed id w (.ended (.value a))]) (.value a)
  | timedOut {ds : List Deed} {w : Wait} (waited : Nat) (h : Pending id key limit ds w) :
    Obtained (ds ++ [.resumed id w (.ended (.timeout key waited))]) (.timeout key waited)

/-- What was done for an attempt so far. -/
def Tried (ds : List Deed) : Attempt Acknowledgement → Prop
  | .ended o => Obtained id key limit ds o
  | .entered w => Pending id key limit ds w
  | .waiting w => Pending id key limit ds w

end Attempts

/-- Everything that a sender does from the transmission to the end of its exchange, and how that
ends after this time. -/
inductive Course (id : TaskId) (limit : Nat) (t : Transmission) (elapsed : Nat) :
    List Deed → Except ExchangeFailure Confirmation → Prop where
  | transportFailed (cause : TransportFailure) : Course id limit t elapsed
    [.transmitted t (.error cause)] (.error (.transport t.message.messageId cause))
  | rejected (fault : Fault) : Course id limit t elapsed
    [.transmitted t (.ok (some fault))] (.error (.rejected t.message.messageId fault.detail))
  | submissionTimedOut {ds : List Deed} {waited : Nat}
    (h : Obtained id t.message.messageId limit ds (.timeout t.message.messageId waited)) :
    Course id limit t elapsed (.transmitted t (.ok none) :: ds)
      (.error (.timeout .submission t.message.messageId waited))
  | submissionUnexpected {ds : List Deed} {a : Acknowledgement}
    (h : Obtained id t.message.messageId limit ds (.value a)) (hop : a.hop = .relay) :
    Course id limit t elapsed (.transmitted t (.ok none) :: ds)
      (.error (.unexpectedAcknowledgement t.message.messageId .submission .relay))
  | submissionFailed {ds : List Deed} {a : Acknowledgement}
    (h : Obtained id t.message.messageId limit ds (.value a)) (hop : a.hop = .submission)
    (verdict : a.verdict = .error) :
    Course id limit t elapsed (.transmitted t (.ok none) :: ds)
      (.error (.submissionFailed t.message.messageId (a.detail.getD .empty)))
  | malformed {ds : List Deed} {a : Acknowledgement}
    (h : Obtained id t.message.messageId limit ds (.value a)) (hop : a.hop = .submission)
    (verdict : a.verdict = .receipt) (unnamed : a.messageId = none) :
    Course id limit t elapsed (.transmitted t (.ok none) :: ds)
      (.error (.malformedAcknowledgement t.message.messageId))
  | relayTimedOut {ds es : List Deed} {a : Acknowledgement} {relay : String} {waited : Nat}
    (h : Obtained id t.message.messageId limit ds (.value a)) (ha : a.Accepts relay)
    (h' : Obtained id relay limit es (.timeout relay waited)) :
    Course id limit t elapsed (.transmitted t (.ok none) :: (ds ++ es))
      (.error (.timeout .relay relay waited))
  | relayUnexpected {ds es : List Deed} {a b : Acknowledgement} {relay : String}
    (h : Obtained id t.message.messageId limit ds (.value a)) (ha : a.Accepts relay)
    (h' : Obtained id relay limit es (.value b)) (hop : b.hop = .submission) :
    Course id limit t elapsed (.transmitted t (.ok none) :: (ds ++ es))
      (.error (.unexpectedAcknowledgement relay .relay .submission))
  | receiptMissing {ds es : List Deed} {a b : Acknowledgement} {relay : String}
    (h : Obtained id t.message.messageId limit ds (.value a)) (ha : a.Accepts relay)
    (h' : Obtained id relay limit es (.value b)) (hop : b.hop = .relay)
    (verdict : b.verdict = .error)
    (code : (b.detail.getD .empty).code = Vocabulary.missingReceipt) :
    Course id limit t elapsed (.transmitted t (.ok none) :: (ds ++ es))
      (.error (.receiptMissing t.message.messageId relay (b.detail.getD .empty)))
  | relayFailed {ds es : List Deed} {a b : Acknowledgement} {relay : String}
    (h : Obtained id t.message.messageId limit ds (.value a)) (ha : a.Accepts relay)
    (h' : Obtained id relay limit es (.value b)) (hop : b.hop = .relay)
    (verdict : b.verdict = .error)
    (code : (b.detail.getD .empty).code ≠ Vocabulary.missingReceipt) :
    Course id limit t elapsed (.transmitted t (.ok none) :: (ds ++ es))
      (.error (.relayFailed t.message.messageId relay (b.detail.getD .empty)))
  | confirmed {ds es : List Deed} {a b : Acknowledgement} {relay : String}
    (h : Obtained id t.message.messageId limit ds (.value a)) (ha : a.Accepts relay)
    (h' : Obtained id relay limit es (.value b)) (hop : b.hop = .relay)
    (verdict : b.verdict = .receipt) :
    Course id limit t elapsed (.transmitted t (.ok none) :: (ds ++ es))
      (.ok ⟨t.message.messageId, relay, t.message.conversationId, elapsed⟩)

/-- The exchange that a transmission belongs to. -/
def exchangeOf (t : Transmission) (startedAt limit : Nat) (relay : Option String)
    (stage : ExchangeStage) : OpenExchange :=
  ⟨startedAt, t.message.messageId, t.message.conversationId, limit, relay, stage⟩

/-- What a sender that waits has done so far. -/
inductive Underway (id : TaskId) (limit : Nat) (t : Transmission) (startedAt : Nat) :
    List Deed → OpenExchange → Wait → Prop where
  | submission {ds : List Deed} {w : Wait} (h : Pending id t.message.messageId limit ds w) :
    Underway id limit t startedAt (.transmitted t (.ok none) :: ds)
      (exchangeOf t startedAt limit none .awaitingSubmission) w
  | relay {ds es : List Deed} {w : Wait} {a : Acknowledgement} {relay : String}
    (h : Obtained id t.message.messageId limit ds (.value a)) (ha : a.Accepts relay)
    (h' : Pending id relay limit es w) :
    Underway id limit t startedAt (.transmitted t (.ok none) :: (ds ++ es))
      (exchangeOf t startedAt limit (some relay) .awaitingRelay) w

/-- What a sender does next fits what it has done so far, and the stages that it has been in. -/
def Leads (id : TaskId) (limit : Nat) (t : Transmission) (startedAt now : Nat) (ds : List Deed)
    (stages : List ExchangeStage) : Next ServiceTask ServiceResult → Prop
  | .ended (.exchanged result) =>
    Course id limit t (now - startedAt) ds result ∧ stages = ExchangeStage.passed result
  | .sleeping (.awaiting x w) _ => Underway id limit t startedAt ds x w ∧ stages = x.passed
  | .resting (.awaiting x w) => Underway id limit t startedAt ds x w ∧ stages = x.passed
  | _ => False

/-- A sender goes on. What it reports leads from the stages that it has been in to those that it has
been in then. -/
def Proceeds (id : TaskId) (limit : Nat) (t : Transmission) (startedAt now : Nat) (ds : List Deed)
    (s : ServiceState) (stages : List ExchangeStage)
    (r : ServiceState × Next ServiceTask ServiceResult) : Prop :=
  ∃ more stages', r.1.stageChanges = s.stageChanges ++ more ∧
    StageChange.along id t.message.messageId stages' =
      StageChange.along id t.message.messageId stages ++ more ∧
    Leads id limit t startedAt now ds stages' r.2

/-! ## One attempt -/

section Attempts

variable {id : TaskId} {key : String} {limit : Nat} {ds : List Deed} {w : Wait}

theorem Pending.key_eq (h : Pending id key limit ds w) : w.key = key := by
  induction h with
  | entered hkey => exact hkey
  | again _ ih => exact ih

theorem tried_fetch (id : TaskId) (key : String) (limit : Nat) (s : ServiceState) (now : Nat) :
    Tried id key limit [s.fetchDeed now id key limit] (s.table.fetch now id key limit).2 := by
  have hfetches := s.table.fetches now id key limit
  rw [ServiceState.fetchDeed]
  generalize (s.table.fetch now id key limit).2 = attempt at hfetches ⊢
  cases hfetches with
  | atOnce _ _ => exact .atOnce _
  | entered _ _ => exact .entered rfl

theorem Pending.tried_resume (h : Pending id key limit ds w) (t : Table Acknowledgement)
    (clock : Clock) : Tried id key limit (ds ++ [.resumed id w (t.resume clock id w).2])
      (t.resume clock id w).2 := by
  have hresumes := t.resumes clock id w
  generalize (t.resume clock id w).2 = attempt at hresumes ⊢
  cases hresumes with
  | value _ _ => exact .afterWait _ h
  | timeout _ _ _ =>
    rw [h.key_eq]
    exact .timedOut _ h
  | again _ _ => exact .again h

theorem Obtained.key_eq {key' : String} {waited : Nat}
    (h : Obtained id key limit ds (.timeout key' waited)) : key' = key := by
  cases h
  rfl

end Attempts

/-! ## What an acknowledgement comes to -/

theorem afterSubmission_value (x : OpenExchange) (a : Acknowledgement) :
    (a.hop = .relay ∧ x.afterSubmission (.value a) =
        .error (.unexpectedAcknowledgement x.messageId .submission .relay) ∧
      OpenExchange.judged .submission x.messageId (.value a) = []) ∨
    (a.hop = .submission ∧ a.verdict = .error ∧ x.afterSubmission (.value a) =
        .error (.submissionFailed x.messageId (a.detail.getD .empty)) ∧
      OpenExchange.judged .submission x.messageId (.value a) = [.submissionRejected]) ∨
    (a.hop = .submission ∧ a.verdict = .receipt ∧ a.messageId = none ∧
      x.afterSubmission (.value a) = .error (.malformedAcknowledgement x.messageId) ∧
      OpenExchange.judged .submission x.messageId (.value a) = [.submissionAccepted]) ∨
    ∃ relay, a.Accepts relay ∧ x.afterSubmission (.value a) = .ok relay ∧
      OpenExchange.judged .submission x.messageId (.value a) = [.submissionAccepted] := by
  obtain ⟨hop, key, messageId, verdict, detail⟩ := a
  cases hop with
  | relay => exact .inl ⟨rfl, rfl, rfl⟩
  | submission =>
    refine .inr ?_
    cases verdict with
    | error => exact .inl ⟨rfl, rfl, rfl, rfl⟩
    | receipt =>
      refine .inr ?_
      cases messageId with
      | none => exact .inl ⟨rfl, rfl, rfl, rfl, rfl⟩
      | some relay => exact .inr ⟨relay, ⟨rfl, rfl, rfl⟩, rfl, rfl⟩

theorem afterRelay_value (x : OpenExchange) (now : Nat) (relay : String) (b : Acknowledgement) :
    (b.hop = .submission ∧ x.afterRelay now relay (.value b) =
        .error (.unexpectedAcknowledgement relay .relay .submission) ∧
      OpenExchange.judged .relay relay (.value b) = []) ∨
    (b.hop = .relay ∧ b.verdict = .error ∧ x.afterRelay now relay (.value b) =
        .error (x.relayFailure relay (b.detail.getD .empty)) ∧
      OpenExchange.judged .relay relay (.value b) = [.relayRejected]) ∨
    (b.hop = .relay ∧ b.verdict = .receipt ∧ x.afterRelay now relay (.value b) =
        .ok ⟨x.messageId, relay, x.conversationId, now - x.startedAt⟩ ∧
      OpenExchange.judged .relay relay (.value b) = [.relayAccepted]) := by
  obtain ⟨hop, key, messageId, verdict, detail⟩ := b
  cases hop with
  | submission => exact .inl ⟨rfl, rfl, rfl⟩
  | relay =>
    refine .inr ?_
    cases verdict with
    | error => exact .inl ⟨rfl, rfl, rfl, rfl⟩
    | receipt => exact .inr ⟨rfl, rfl, rfl, rfl⟩

/-! ## From step to step -/

section Steps

variable {id : TaskId} {limit : Nat} {t : Transmission} {startedAt : Nat}

/-- A sender goes to sleep, and reports nothing. -/
theorem Proceeds.stays {now : Nat} {ds : List Deed} {s : ServiceState}
    {stages : List ExchangeStage} {r : ServiceState × Next ServiceTask ServiceResult}
    (hr : r.1.stageChanges = s.stageChanges) (h : Leads id limit t startedAt now ds stages r.2) :
    Proceeds id limit t startedAt now ds s stages r :=
  ⟨[], stages, hr.trans (List.append_nil _).symm, (List.append_nil _).symm, h⟩

/-- How a sender proceeds depends on what was reported before only. -/
theorem Proceeds.of_same {now : Nat} {ds : List Deed} {s v : ServiceState}
    {stages : List ExchangeStage} {r : ServiceState × Next ServiceTask ServiceResult}
    (h : Proceeds id limit t startedAt now ds v stages r) (hv : v.stageChanges = s.stageChanges) :
    Proceeds id limit t startedAt now ds s stages r := by
  obtain ⟨more, stages', hr, hrest⟩ := h
  exact ⟨more, stages', hv ▸ hr, hrest⟩

/-- A sender reports that its exchange is in some more stages, and goes on from there. -/
theorem Proceeds.advanced {now : Nat} {ds : List Deed} {s : ServiceState}
    {stages : List ExchangeStage} {r : ServiceState × Next ServiceTask ServiceResult}
    (x : OpenExchange) (new : List ExchangeStage)
    (hx : StageChange.along id t.message.messageId (stages ++ new) =
      StageChange.along id t.message.messageId stages ++ x.changes id new)
    (h : Proceeds id limit t startedAt now ds (s.advance id x new).1 (stages ++ new) r) :
    Proceeds id limit t startedAt now ds s stages r := by
  obtain ⟨more, stages', hr, halong, hleads⟩ := h
  refine ⟨x.changes id new ++ more, stages', hr.trans (List.append_assoc _ _ _), ?_, hleads⟩
  rw [halong, hx, List.append_assoc]

theorem proceeds_afterRelay (s : ServiceState) (now : Nat) (known : Option String)
    {ds es : List Deed} {a : Acknowledgement} {relay : String}
    (h : Obtained id t.message.messageId limit ds (.value a)) (ha : a.Accepts relay)
    (table : Table Acknowledgement) {attempt : Attempt Acknowledgement}
    (h' : Tried id relay limit es attempt) :
    Proceeds id limit t startedAt now (.transmitted t (.ok none) :: (ds ++ es)) s
      ExchangeStage.untilRelay (s.afterRelay now id
        (exchangeOf t startedAt limit known .awaitingRelay) relay (table, attempt)) := by
  cases attempt with
  | entered w => exact .stays rfl ⟨.relay h ha h', rfl⟩
  | waiting w => exact .stays rfl ⟨.relay h ha h', rfl⟩
  | ended o =>
    let x := exchangeOf t startedAt limit known .awaitingRelay
    refine .advanced x (OpenExchange.judged .relay relay o) rfl (.stays rfl ?_)
    show Course id limit t (now - startedAt) _ (x.afterRelay now relay o) ∧
      _ = ExchangeStage.passed (x.afterRelay now relay o)
    cases o with
    | timeout key waited =>
      obtain rfl := Obtained.key_eq h'
      exact ⟨.relayTimedOut h ha h', rfl⟩
    | value b =>
      rcases afterRelay_value x now relay b with
        ⟨hop, heq, hjudged⟩ | ⟨hop, hverdict, heq, hjudged⟩ | ⟨hop, hverdict, heq, hjudged⟩
      · rw [heq, hjudged]
        exact ⟨.relayUnexpected h ha h' hop, rfl⟩
      · rw [heq, hjudged, OpenExchange.relayFailure]
        by_cases hcode : (b.detail.getD .empty).code = Vocabulary.missingReceipt
        · rw [if_pos hcode]
          exact ⟨.receiptMissing h ha h' hop hverdict hcode, rfl⟩
        · rw [if_neg hcode]
          exact ⟨.relayFailed h ha h' hop hverdict hcode, rfl⟩
      · rw [heq, hjudged]
        exact ⟨.confirmed h ha h' hop hverdict, rfl⟩

theorem proceeds_afterSubmission (s : ServiceState) (now : Nat) {ds : List Deed}
    (table : Table Acknowledgement) {attempt : Attempt Acknowledgement}
    (h : Tried id t.message.messageId limit ds attempt) :
    Proceeds id limit t startedAt now (.transmitted t (.ok none) :: (ds ++
        (s.withTable table).submissionDeeds now id
          (exchangeOf t startedAt limit none .awaitingSubmission) attempt)) s
      ExchangeStage.untilSubmission (s.afterSubmission now id
        (exchangeOf t startedAt limit none .awaitingSubmission) (table, attempt)) := by
  cases attempt with
  | entered w =>
    simp only [ServiceState.submissionDeeds, List.append_nil]
    exact .stays rfl ⟨.submission h, rfl⟩
  | waiting w =>
    simp only [ServiceState.submissionDeeds, List.append_nil]
    exact .stays rfl ⟨.submission h, rfl⟩
  | ended o =>
    let x := exchangeOf t startedAt limit none .awaitingSubmission
    refine .advanced x (OpenExchange.judged .submission x.messageId o) rfl ?_
    simp only [ServiceState.submissionDeeds, ServiceState.afterSubmission_ended]
    cases o with
    | timeout key waited =>
      obtain rfl := Obtained.key_eq h
      rw [show (exchangeOf t startedAt limit none .awaitingSubmission).afterSubmission
        (.timeout _ waited) = .error (.timeout .submission t.message.messageId waited) from rfl]
      simp only [List.append_nil]
      exact .stays rfl ⟨.submissionTimedOut h, rfl⟩
    | value a =>
      rcases afterSubmission_value x a with ⟨hop, heq, hjudged⟩ |
        ⟨hop, hverdict, heq, hjudged⟩ | ⟨hop, hverdict, hnone, heq, hjudged⟩ |
        ⟨relay, ha, heq, hjudged⟩
      · simp only [x, heq, hjudged, List.append_nil]
        exact .stays rfl ⟨.submissionUnexpected h hop, rfl⟩
      · simp only [x, heq, hjudged, List.append_nil]
        exact .stays rfl ⟨.submissionFailed h hop hverdict, rfl⟩
      · simp only [x, heq, hjudged, List.append_nil]
        exact .stays rfl ⟨.malformed h hop hverdict hnone, rfl⟩
      · simp only [x, heq, hjudged]
        refine .advanced (x.advance [.submissionAccepted]) [.awaitingRelay] rfl ?_
        exact proceeds_afterRelay _ now none h ha _ (tried_fetch id relay limit _ now)

theorem proceeds_afterHandover (now : Nat) (h : ServiceState.Handover) :
    let turn := ServiceState.afterHandover now id (exchangeOf t startedAt limit none .prepared) h
    Proceeds id limit t startedAt now (.transmitted t h.report ::
        ServiceState.reportDeeds now id (exchangeOf t startedAt limit none .prepared) h)
      h.state [.created, .prepared] (turn.shared, turn.next) := by
  intro turn
  simp only [turn]
  unfold ServiceState.reportDeeds ServiceState.afterHandover
  cases h.report with
  | error cause => exact .stays rfl ⟨.transportFailed cause, rfl⟩
  | ok fault =>
    cases fault with
    | some fault => exact .stays rfl ⟨.rejected fault, rfl⟩
    | none =>
      refine .advanced (exchangeOf t startedAt limit none .prepared)
        [.transmitted, .awaitingSubmission] rfl ?_
      exact proceeds_afterSubmission _ now _ (tried_fetch id t.message.messageId limit _ now)

/-- A sender that waits goes on. -/
theorem Underway.proceeds {ds : List Deed} {x : OpenExchange} {w : Wait}
    (h : Underway id limit t startedAt ds x w) (s : ServiceState) (clock : Clock) :
    Proceeds id limit t startedAt clock.now (ds ++ s.resumeDeeds clock id x w) s x.passed
      ((s.resumeExchange clock id x w).shared, (s.resumeExchange clock id x w).next) := by
  cases h with
  | submission h =>
    have hgoes : Proceeds id limit t startedAt clock.now _ s _ _ := proceeds_afterSubmission s
      clock.now (s.table.resume clock id w).1 (h.tried_resume s.table clock)
    rw [List.append_assoc] at hgoes
    exact hgoes
  | @relay _ _ _ _ relay h ha h' =>
    have hgoes : Proceeds id limit t startedAt clock.now _ s _ _ := proceeds_afterRelay s clock.now
      (some relay) h ha (s.table.resume clock id w).1 (h'.tried_resume s.table clock)
    rw [← List.append_assoc] at hgoes
    exact hgoes

end Steps
end Sender

/-! ## What fits the stages -/

namespace Deed

def isTransmission : Deed → Bool
  | transmitted _ _ => true
  | _ => false

def isFetch : Deed → Bool
  | fetched _ _ _ _ => true
  | _ => false

end Deed

namespace Sender

/-- What was done fits the stages that the exchange has been in: the message that was prepared was
transmitted, and an acknowledgement was fetched wherever one is waited for. -/
structure Tracked (ds : List Deed) (result : Except ExchangeFailure Confirmation) : Prop where
  transmissions : ds.countP Deed.isTransmission = (ExchangeStage.passed result).count .prepared
  fetches : ds.countP Deed.isFetch = (ExchangeStage.passed result).countP ExchangeStage.isAwaiting

section Counts

variable {id : TaskId} {key : String} {limit : Nat} {ds : List Deed}

/-- An attempt is one fetch and no transmission. -/
theorem Pending.counts {w : Wait} (h : Pending id key limit ds w) :
    ds.countP Deed.isTransmission = 0 ∧ ds.countP Deed.isFetch = 1 := by
  induction h with
  | entered _ => exact ⟨rfl, rfl⟩
  | again _ ih =>
    rw [List.countP_append, List.countP_append, ih.1, ih.2]
    exact ⟨rfl, rfl⟩

theorem Obtained.counts {o : Outcome Acknowledgement} (h : Obtained id key limit ds o) :
    ds.countP Deed.isTransmission = 0 ∧ ds.countP Deed.isFetch = 1 := by
  cases h with
  | atOnce a => exact ⟨rfl, rfl⟩
  | afterWait a h =>
    rw [List.countP_append, List.countP_append, h.counts.1, h.counts.2]
    exact ⟨rfl, rfl⟩
  | timedOut waited h =>
    rw [List.countP_append, List.countP_append, h.counts.1, h.counts.2]
    exact ⟨rfl, rfl⟩

theorem tracked_of_none {t : Transmission} {report : TransportReport}
    {result : Except ExchangeFailure Confirmation}
    (h : ExchangeStage.passed result = [.created, .prepared]) :
    Tracked [.transmitted t report] result := by
  constructor <;> rw [h] <;> rfl

/-- One acknowledgement was fetched. -/
theorem Obtained.tracked {o : Outcome Acknowledgement} (h : Obtained id key limit ds o)
    {t : Transmission} {report : TransportReport} {result : Except ExchangeFailure Confirmation}
    (hprepared : (ExchangeStage.passed result).count .prepared = 1)
    (hawaiting : (ExchangeStage.passed result).countP ExchangeStage.isAwaiting = 1) :
    Tracked (.transmitted t report :: ds) result := by
  constructor
  · rw [List.countP_cons_of_pos rfl, h.counts.1, hprepared]
  · rw [List.countP_cons_of_neg Bool.false_ne_true, h.counts.2, hawaiting]

/-- Two acknowledgements were fetched. -/
theorem Obtained.tracked₂ {key' : String} {es : List Deed} {o o' : Outcome Acknowledgement}
    (h : Obtained id key limit ds o) (h' : Obtained id key' limit es o') {t : Transmission}
    {report : TransportReport} {result : Except ExchangeFailure Confirmation}
    (hprepared : (ExchangeStage.passed result).count .prepared = 1)
    (hawaiting : (ExchangeStage.passed result).countP ExchangeStage.isAwaiting = 2) :
    Tracked (.transmitted t report :: (ds ++ es)) result := by
  constructor
  · rw [List.countP_cons_of_pos rfl, List.countP_append, h.counts.1, h'.counts.1, hprepared]
  · rw [List.countP_cons_of_neg Bool.false_ne_true, List.countP_append, h.counts.2, h'.counts.2,
      hawaiting]

end Counts

theorem Course.tracked {id : TaskId} {limit elapsed : Nat} {t : Transmission} {ds : List Deed}
    {result : Except ExchangeFailure Confirmation} (h : Course id limit t elapsed ds result) :
    Tracked ds result := by
  cases h with
  | transportFailed cause => exact tracked_of_none rfl
  | rejected fault => exact tracked_of_none rfl
  | submissionTimedOut h => exact h.tracked rfl rfl
  | submissionUnexpected h _ => exact h.tracked rfl rfl
  | submissionFailed h _ _ => exact h.tracked rfl rfl
  | malformed h _ _ _ => exact h.tracked rfl rfl
  | relayTimedOut h _ h' => exact h.tracked₂ h' rfl rfl
  | relayUnexpected h _ h' _ => exact h.tracked₂ h' rfl rfl
  | receiptMissing h _ h' _ _ _ => exact h.tracked₂ h' rfl rfl
  | relayFailed h _ h' _ _ _ => exact h.tracked₂ h' rfl rfl
  | confirmed h _ h' _ _ => exact h.tracked₂ h' rfl rfl

end Sender
end EbmsMessaging
