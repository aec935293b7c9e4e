import EbmsMessaging.Proofs.Multipart.Acknowledgements
import EbmsMessaging.Proofs.Service.Exchanges
import EbmsMessaging.Proofs.Service.FanOut
import EbmsMessaging.Proofs.Service.Refusals

/-!
# What is refused leaves no trace

A transmission that cannot be read is counted and does nothing else, an acknowledgement goes into the
table and to no handler, and a business message to the handlers and not into the table. Since nobody looks
at the count, a run in which unreadable transmissions come, wherever and however many, is the run in which
they do not come.
-/
namespace EbmsMessaging

open Correlation

/-- A transmission: what was taken out of a frame before, or a frame. -/
inductive Incoming where
  | parts (raw : Bytes) (attachments : List Attachment)
  | body (b : MultipartBody)

namespace Incoming

def arrival : Incoming → Except ArrivalError Arrival
  | .parts raw attachments => Arrival.ofParts raw attachments
  | .body b => Arrival.ofBody b

/-- Nothing can be read from it. -/
def Unreadable (t : Incoming) : Prop := ∃ cause, t.arrival = .error cause

end Incoming

namespace Service

/-! ## One transmission -/

/-- What an acknowledgement does to a service when it arrives: it is deposited, and whom that calls stands
in the queue. No handler has anything to do with it. -/
structure Deposits (s : Service) (a : Acknowledgement) (waiting : Bool) (v : Service) : Prop where
  table : v.state.table = (s.state.table.deposit s.now a.key a).1
  waiting : waiting = (s.state.table.deposit s.now a.key a).2.1
  handlers : v.state.intake.handlers = s.state.intake.handlers
  calls : v.state.intake.calls = s.state.intake.calls
  scheduler : v.scheduler = { s.scheduler with
    shared := v.state
    queue := Scheduler.enqueue s.scheduler.queue (s.state.table.deposit s.now a.key a).2.2 }

/-- What a business message does to a service when it arrives: it goes to all handlers, and nobody is
called. -/
structure Delivers (s : Service) (m : ReceivedMessage) (v : Service) : Prop where
  table : v.state.table = s.state.table
  calls : v.state.intake.calls =
    s.state.intake.calls ++ s.state.intake.handlers.registered.map fun name => ⟨name, m.message⟩
  scheduler : v.scheduler = { s.scheduler with shared := v.state }

variable (s : Service)

theorem receive_error (cause : ArrivalError) :
    s.receive (.error cause) = (.rejected cause, s.refuse 1) := rfl

theorem receive_acknowledgement (a : Acknowledgement) : ∃ waiting,
    (s.receive (.ok (.acknowledgement a))).1 = .deposited a.hop a.key waiting ∧
      s.Deposits a waiting (s.receive (.ok (.acknowledgement a))).2 := by
  have hscheduler := Scheduler.callAll_eq { s.scheduler with
    shared := (s.state.receive s.now (.ok (.acknowledgement a))).1 }
    (s.state.table.deposit s.now a.key a).2.2
  have hstate : (s.receive (.ok (.acknowledgement a))).2.state =
      (s.state.receive s.now (.ok (.acknowledgement a))).1 := congrArg Scheduler.shared hscheduler
  refine ⟨_, rfl, congrArg ServiceState.table hstate, rfl,
    congrArg (fun v => v.intake.handlers) hstate, congrArg (fun v => v.intake.calls) hstate, ?_⟩
  rw [hstate]
  exact hscheduler

theorem receive_message (m : ReceivedMessage) :
    (∃ handlers failures, (s.receive (.ok (.message m))).1 =
      .delivered m.messageId handlers failures) ∧
      s.Delivers m (s.receive (.ok (.message m))).2 :=
  ⟨⟨_, _, rfl⟩, rfl, congrArg (s.state.intake.calls ++ ·) (Registry.fansOut_deliver ..).calls, rfl⟩

/-- The answer to a transmission tells what was read in it, and what was done. -/
structure Tells (s : Service) (arrival : Except ArrivalError Arrival) : Prop where
  unreadable : ∀ cause, (s.receive arrival).1 = .rejected cause ↔ arrival = .error cause
  rejected : ∀ cause, (s.receive arrival).1 = .rejected cause → (s.receive arrival).2 = s.refuse 1
  deposited : ∀ hop key waiting, (s.receive arrival).1 = .deposited hop key waiting →
    ∃ a, arrival = .ok (.acknowledgement a) ∧ a.hop = hop ∧ a.key = key ∧
      s.Deposits a waiting (s.receive arrival).2
  delivered : ∀ id handlers failures, (s.receive arrival).1 = .delivered id handlers failures →
    ∃ m, arrival = .ok (.message m) ∧ m.messageId = id ∧ s.Delivers m (s.receive arrival).2

theorem tells (arrival : Except ArrivalError Arrival) : s.Tells arrival := by
  match arrival with
  | .error cause =>
    constructor
    · intro cause'
      rw [receive_error, Reception.rejected.injEq, Except.error.injEq]
    · exact fun _ _ => rfl
    · nofun
    · nofun
  | .ok (.acknowledgement a) =>
    obtain ⟨waiting, hanswer, hdeposits⟩ := s.receive_acknowledgement a
    constructor
    · exact fun cause => iff_of_false (by rw [hanswer]; nofun) nofun
    · exact fun cause h => absurd (hanswer.symm.trans h) nofun
    · intro hop key waiting' h
      obtain ⟨rfl, rfl, rfl⟩ := Reception.deposited.inj (hanswer.symm.trans h)
      exact ⟨a, rfl, rfl, rfl, hdeposits⟩
    · exact fun id handlers failures h => absurd (hanswer.symm.trans h) nofun
  | .ok (.message m) =>
    obtain ⟨⟨handlers, failures, hanswer⟩, hdelivers⟩ := s.receive_message m
    constructor
    · exact fun cause => iff_of_false (by rw [hanswer]; nofun) nofun
    · exact fun cause h => absurd (hanswer.symm.trans h) nofun
    · exact fun hop key waiting h => absurd (hanswer.symm.trans h) nofun
    · intro id handlers' failures' h
      obtain ⟨rfl, -⟩ := Reception.delivered.inj (hanswer.symm.trans h)
      exact ⟨m, rfl, rfl, hdelivers⟩

/-! ## Runs with strays -/

/-- What is asked of a service, or goes on in it. -/
inductive Request where
  | move (m : Move)
  | take (t : Incoming)
  | takeAcknowledgement (a : Acknowledgement)
  | takeMessage (r : Route) (m : BusinessMessage)
  | deregister (name : String)
  | settle
  | takeResults
  | takeCalls

/-- What is answered. -/
inductive Answer where
  | nothing
  | task (id : TaskId)
  | flag (b : Bool)
  | reception (r : Reception)
  | message (r : Except PrepareError (PreparedMessage × Reception))
  | removals (r : Removals)
  | results (rs : List (TaskId × ServiceResult))
  | calls (cs : List HandlerCall)

def answer (s : Service) : Move → Answer
  | .send _ => .task s.scheduler.nextTask
  | .transmit _ => .task s.scheduler.nextTask
  | .fetch _ _ => .task s.scheduler.nextTask
  | .receive arrival => .reception (s.receive arrival).1
  | .deposit a => .flag (s.deposit a).1
  | .sweep offset => .removals (s.sweep offset).1
  | .start hasScheduler => .flag (s.start hasScheduler).toBool
  | _ => .nothing

def perform (s : Service) : Request → Answer × Service
  | .move m => (s.answer m, s.move m)
  | .take t => (s.receive t.arrival).map .reception id
  | .takeAcknowledgement a => (s.receiveAcknowledgement a).map .reception id
  | .takeMessage r m =>
    match s.receiveMessage r m with
    | .error cause => (.message (.error cause), s)
    | .ok (prepared, reception, v) => (.message (.ok (prepared, reception)), v)
  | .deregister name => (s.deregister name).map .flag id
  | .settle => (.nothing, s.settle)
  | .takeResults => s.takeResults.map .results id
  | .takeCalls => s.takeCalls.map .calls id

/-- The service but for its count of refusals. -/
def apart (s : Service) : Service :=
  { s with scheduler := s.scheduler.mapShared fun v =>
      v.countMetrics fun m => { m with refusals := 0 } }

/-- The answers to requests, each with the service after it but for its count of refusals, while strays
come in between. -/
def log (s : Service) : List (Request ⊕ Incoming) → List (Answer × Service)
  | [] => []
  | .inl r :: es => ((s.perform r).1, (s.perform r).2.apart) :: (s.perform r).2.log es
  | .inr t :: es => (s.receive t.arrival).2.log es

/-- The service after requests and strays. -/
def after (s : Service) : List (Request ⊕ Incoming) → Service
  | [] => s
  | .inl r :: es => (s.perform r).2.after es
  | .inr t :: es => (s.receive t.arrival).2.after es

variable (n : Nat)

theorem apart_refuse : (s.refuse n).apart = s.apart := rfl

theorem refuse_refuse (m : Nat) : (s.refuse m).refuse n = s.refuse (m + n) := by
  have hcount : s.state.intake.metrics.refusals + m + n =
      s.state.intake.metrics.refusals + (m + n) := Nat.add_assoc _ _ _
  simp only [state] at hcount
  simp only [refuse, Scheduler.mapShared, ServiceState.refuse, ServiceState.countMetrics, hcount]

theorem answer_refuse (m : Move) : (s.refuse n).answer m = s.answer m := by
  cases m with
  | receive arrival => exact congrArg (fun r => Answer.reception r.1) (receive_refuse s n arrival)
  | start hasScheduler =>
    simp only [answer, start_refuse]
    cases s.start hasScheduler <;> rfl
  | _ => rfl

theorem perform_refuse (r : Request) :
    (s.refuse n).perform r = (s.perform r).map id (refuse n) := by
  cases r with
  | move m => exact Prod.ext (answer_refuse s n m) (move_refuse s n m)
  | take t =>
    simp only [perform, receive_refuse, Prod.map_map]
    rfl
  | takeAcknowledgement a =>
    simp only [perform, receiveAcknowledgement_refuse, Prod.map_map]
    rfl
  | takeMessage r m =>
    simp only [perform, receiveMessage_refuse]
    rcases s.receiveMessage r m with cause | ⟨prepared, reception, v⟩ <;> rfl
  | deregister name =>
    simp only [perform, deregister_refuse, Prod.map_map]
    rfl
  | settle => exact Prod.ext rfl (settle_refuse s n)
  | takeResults => rfl
  | takeCalls =>
    simp only [perform, takeCalls_refuse, Prod.map_map]
    rfl

/-- What was refused before a run does not show in it. -/
theorem log_refuse (es : List (Request ⊕ Incoming)) : (s.refuse n).log es = s.log es := by
  induction es generalizing s with
  | nil => rfl
  | cons e es ih =>
    cases e with
    | inl r => simp only [log, perform_refuse, Prod.map_fst, Prod.map_snd, apart_refuse, ih, id]
    | inr t => simp only [log, receive_refuse, Prod.map_snd, ih]

theorem after_refuse (es : List (Request ⊕ Incoming)) :
    (s.refuse n).after es = (s.after es).refuse n := by
  induction es generalizing s with
  | nil => rfl
  | cons e es ih =>
    cases e with
    | inl r => simp only [after, perform_refuse, Prod.map_snd, ih]
    | inr t => simp only [after, receive_refuse, Prod.map_snd, ih]

/-- The run is the one without its strays, if nothing can be read from them. -/
theorem run_without_strays {es : List (Request ⊕ Incoming)}
    (h : ∀ t, .inr t ∈ es → t.Unreadable) :
    s.log es = s.log (es.filter Sum.isLeft) ∧
      s.after es = (s.after (es.filter Sum.isLeft)).refuse (es.countP Sum.isRight) := by
  induction es generalizing s with
  | nil => exact ⟨rfl, rfl⟩
  | cons e es ih =>
    have hlater : ∀ t, .inr t ∈ es → t.Unreadable := fun t ht => h t (List.mem_cons_of_mem _ ht)
    cases e with
    | inl r =>
      obtain ⟨hlog, hafter⟩ := ih (s.perform r).2 hlater
      simp only [List.filter_cons, List.countP_cons, Sum.isLeft_inl, Sum.isRight_inl, if_true, log,
        after, hlog, hafter, Bool.false_eq_true, if_false, Nat.add_zero, and_self]
    | inr t =>
      -- The stray only raises the count, which the rest of the run carries along unseen.
      obtain ⟨cause, hcause⟩ := h t List.mem_cons_self
      obtain ⟨hlog, hafter⟩ := ih s hlater
      simp only [List.filter_cons, List.countP_cons, Sum.isLeft_inr, Sum.isRight_inr, if_true, log,
        after, hcause, receive_error, log_refuse, after_refuse, hlog, hafter, refuse_refuse,
        Bool.false_eq_true, if_false, and_self]

/-- Whatever arrives, the answer tells what was done, which is nothing but to count it if nothing could be
read. Nothing else in a run depends on such transmissions, wherever and however many of them come: every
answer is as without them, and so is the service after it but for its count of refusals, which has grown by
their number. -/
theorem unreadable_transmissions_leave_no_trace (s : Service) :
    (∀ t : Incoming, s.Tells t.arrival) ∧
      ∀ es : List (Request ⊕ Incoming), (∀ t, .inr t ∈ es → t.Unreadable) →
        s.log es = s.log (es.filter Sum.isLeft) ∧
          s.after es = (s.after (es.filter Sum.isLeft)).refuse (es.countP Sum.isRight) :=
  ⟨fun t => s.tells t.arrival, fun _ h => s.run_without_strays h⟩

def garbledFrame : Incoming := .body ⟨"multipart/related", Utf8.encode "garbage"⟩

def cutEnvelope : Incoming := .parts (Utf8.encode "\x7b\"MessageInfo\":") []

def framedRejection : Incoming :=
  .body (Multipart.write (Multipart.boundaryOf sampleBoundary) sampleRejectionBytes [])

/-- Strays come before an acknowledgement, between it and the turns of the task that waits for it, and in
the end. -/
def straysAround : List (Request ⊕ Incoming) :=
  [.inl (.move (.fetch "" 0)), .inr garbledFrame, .inl .settle, .inr cutEnvelope,
    .inl (.take framedRejection), .inr garbledFrame, .inl .settle, .inl .takeResults,
    .inr cutEnvelope]

def openedStandard : Service := opened .standard none sampleDraws

theorem strays_around_leave_no_trace :
    (∀ t, .inr t ∈ straysAround → t.Unreadable) ∧
      openedStandard.log straysAround = openedStandard.log (straysAround.filter Sum.isLeft) ∧
      openedStandard.after straysAround =
        (openedStandard.after (straysAround.filter Sum.isLeft)).refuse 4 ∧
      openedStandard.Deposits sampleRejection false
        (openedStandard.receive framedRejection.arrival).2 := by
  have hgarbled : garbledFrame.arrival =
      .error (.framing (.missingBoundary "multipart/related")) := by decide +kernel
  have hcut : cutEnvelope.arrival = .error (.content (.malformedEnvelope .truncated)) := by
    decide +kernel
  have hstrays : ∀ t, .inr t ∈ straysAround → t.Unreadable := by
    intro t ht
    simp only [straysAround, List.mem_cons, List.not_mem_nil, reduceCtorEq, Sum.inr.injEq,
      false_or, or_false] at ht
    rcases ht with rfl | rfl | rfl | rfl
    · exact ⟨_, hgarbled⟩
    · exact ⟨_, hcut⟩
    · exact ⟨_, hgarbled⟩
    · exact ⟨_, hcut⟩
  obtain ⟨htells, hrun⟩ := unreadable_transmissions_leave_no_trace openedStandard
  obtain ⟨hlog, hafter⟩ := hrun straysAround hstrays
  refine ⟨hstrays, hlog, hafter, ?_⟩
  have hread : framedRejection.arrival = .ok (.acknowledgement sampleRejection) :=
    Agreement.standard.ofBody_acknowledgementEnvelope _ (by decide) _
  obtain ⟨a, ha, -, -, hdeposits⟩ := (htells framedRejection).deposited .relay "" false (by
    rw [hread]
    rfl)
  obtain rfl := Arrival.acknowledgement.inj (Except.ok.inj (hread.symm.trans ha))
  exact hdeposits

end Service
end EbmsMessaging
