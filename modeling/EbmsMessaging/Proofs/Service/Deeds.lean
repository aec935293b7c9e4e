import EbmsMessaging.Proofs.Service.Moves

/-!
# What is done in a run

Every move of a service is told as a list of deeds: messages handed to the transport, and everything
that is done to the correlation table, by which task and with which answer. Nothing else touches the
table or the record of transmissions: both are what the deeds make of them.
-/
namespace EbmsMessaging

open Correlation

namespace Correlation.Table

variable {α : Type} (t : Table α)

/-- How an attempt begins: the value is taken at once, or the task enters the cell of the key. -/
inductive Fetches (now : Nat) (id : TaskId) (key : String) (limit : Nat) : Attempt α → Prop where
  | atOnce {a : α} {t' : Table α} {g : Stats → Stats} (htake : t.takeReady? key = some (a, t'))
    (hnext : (t.fetch now id key limit).1 = t'.countStats g) :
    Fetches now id key limit (.ended (.value a))
  | entered {deadline : Option Nat} (htake : t.takeReady? key = none)
    (hnext : (t.fetch now id key limit).1 =
      (t.withCell now key).1.change (t.withCell now key).2.id fun c => c.enter id) :
    Fetches now id key limit (.entered ⟨key, (t.withCell now key).2.id, now, deadline⟩)

/-- How an attempt goes on: the value is taken, or it is too late, or the task sleeps again. -/
inductive Resumes (clock : Clock) (id : TaskId) (w : Wait) : Attempt α → Prop where
  | value {a : α} {t' : Table α} {g : Stats → Stats}
    (htake : t.takeAwaited? w.cell = some (a, t'))
    (hnext : (t.resume clock id w).1 = (t'.leave w.cell id).countStats g) :
    Resumes clock id w (.ended (.value a))
  | timeout {waited : Nat} {g : Stats → Stats} (htake : t.takeAwaited? w.cell = none)
    (hlate : w.deadline.any (· ≤ clock.rung))
    (hnext : (t.resume clock id w).1 = (t.leave w.cell id).countStats g) :
    Resumes clock id w (.ended (.timeout w.key waited))
  | again (htake : t.takeAwaited? w.cell = none)
    (hnext : (t.resume clock id w).1 = t.change w.cell fun c => c.sleep id) :
    Resumes clock id w (.waiting w)

theorem fetches (now : Nat) (id : TaskId) (key : String) (limit : Nat) :
    t.Fetches now id key limit (t.fetch now id key limit).2 := by
  cases h : t.takeReady? key with
  | some r =>
    obtain ⟨g, heq⟩ : ∃ g, t.fetch now id key limit =
        (r.2.countStats g, .ended (.value r.1)) := by
      rw [fetch, h]
      exact ⟨_, rfl⟩
    rw [heq]
    exact .atOnce h (congrArg Prod.fst heq)
  | none =>
    obtain ⟨deadline, heq⟩ : ∃ deadline, t.fetch now id key limit =
        ((t.withCell now key).1.change (t.withCell now key).2.id fun c => c.enter id,
          .entered ⟨key, (t.withCell now key).2.id, now, deadline⟩) := by
      rw [fetch, h]
      exact ⟨_, rfl⟩
    rw [heq]
    exact .entered h (congrArg Prod.fst heq)

theorem resumes (clock : Clock) (id : TaskId) (w : Wait) :
    t.Resumes clock id w (t.resume clock id w).2 := by
  cases h : t.takeAwaited? w.cell with
  | some r =>
    obtain ⟨g, heq⟩ : ∃ g, t.resume clock id w =
        ((r.2.leave w.cell id).countStats g, .ended (.value r.1)) := by
      rw [resume, h]
      exact ⟨_, rfl⟩
    rw [heq]
    exact .value h (congrArg Prod.fst heq)
  | none =>
    by_cases hlate : w.deadline.any (· ≤ clock.rung) = true
    · obtain ⟨g, heq⟩ : ∃ g, t.resume clock id w = ((t.leave w.cell id).countStats g,
          .ended (.timeout w.key (clock.now - w.startedAt))) := by
        rw [resume, h]
        exact ⟨_, if_pos hlate⟩
      rw [heq]
      exact .timeout h hlate (congrArg Prod.fst heq)
    · have heq : t.resume clock id w = (t.change w.cell fun c => c.sleep id, .waiting w) := by
        rw [resume, h]
        exact if_neg hlate
      rw [heq]
      exact .again h (congrArg Prod.fst heq)

end Correlation.Table

inductive Deed where
  | transmitted (transmission : Transmission) (report : TransportReport)
  | deposited (a : Acknowledgement)
  /-- A task begins to fetch the value of a key. -/
  | fetched (task : TaskId) (key : String) (limit : Nat) (attempt : Attempt Acknowledgement)
  /-- A waiting task has its turn. -/
  | resumed (task : TaskId) (wait : Wait) (attempt : Attempt Acknowledgement)
  /-- A waiting task is dropped. -/
  | withdrawn (task : TaskId) (wait : Wait)
  | swept (asOf : Int)

namespace Deed

/-- Whose deed it is. -/
def task? : Deed → Option TaskId
  | transmitted transmission _ => some transmission.task
  | fetched task _ _ _ => some task
  | resumed task _ _ => some task
  | withdrawn task _ => some task
  | deposited _ => none
  | swept _ => none

def transmission? : Deed → Option Transmission
  | transmitted transmission _ => some transmission
  | _ => none

/-- The table after a deed. -/
def enact (clock : Clock) (t : Table Acknowledgement) : Deed → Table Acknowledgement
  | transmitted _ _ => t
  | deposited a => (t.deposit clock.now a.key a).1
  | fetched task key limit _ => (t.fetch clock.now task key limit).1
  | resumed task wait _ => (t.resume clock task wait).1
  | withdrawn task wait => t.withdraw task wait
  | swept asOf => (t.sweep asOf).1

/-- The answer is the one that the table gives. -/
def Fits (clock : Clock) (t : Table Acknowledgement) : Deed → Prop
  | fetched task key limit attempt => (t.fetch clock.now task key limit).2 = attempt
  | resumed task wait attempt => (t.resume clock task wait).2 = attempt
  | _ => True

theorem Fits.fetches {clock : Clock} {t : Table Acknowledgement} {id : TaskId} {key : String}
    {limit : Nat} {attempt : Attempt Acknowledgement}
    (h : (fetched id key limit attempt).Fits clock t) :
    t.Fetches clock.now id key limit attempt := by
  obtain rfl : (t.fetch clock.now id key limit).2 = attempt := h
  exact t.fetches _ _ _ _

theorem Fits.resumes {clock : Clock} {t : Table Acknowledgement} {id : TaskId} {w : Wait}
    {attempt : Attempt Acknowledgement} (h : (resumed id w attempt).Fits clock t) :
    t.Resumes clock id w attempt := by
  obtain rfl : (t.resume clock id w).2 = attempt := h
  exact t.resumes _ _ _

/-- The tasks that a deed calls. -/
def calls (clock : Clock) (t : Table Acknowledgement) : Deed → List TaskId
  | deposited a => (t.deposit clock.now a.key a).2.2
  | _ => []

end Deed

/-- Every answer is the one that the table gives at its time. -/
def Fit (clock : Clock) : Table Acknowledgement → List Deed → Prop
  | _, [] => True
  | t, d :: ds => d.Fits clock t ∧ Fit clock (d.enact clock t) ds

/-- The tasks that are called by several deeds. -/
def callsOf (clock : Clock) : Table Acknowledgement → List Deed → List TaskId
  | _, [] => []
  | t, d :: ds => d.calls clock t ++ callsOf clock (d.enact clock t) ds

section Append

variable {clock : Clock} {t : Table Acknowledgement} {ds es : List Deed}

theorem fit_append :
    Fit clock t (ds ++ es) ↔ Fit clock t ds ∧ Fit clock (ds.foldl (Deed.enact clock) t) es := by
  induction ds generalizing t with
  | nil => simp [Fit]
  | cons d ds ih => simp [Fit, ih, and_assoc]

theorem callsOf_append : callsOf clock t (ds ++ es) =
    callsOf clock t ds ++ callsOf clock (ds.foldl (Deed.enact clock) t) es := by
  induction ds generalizing t with
  | nil => simp [callsOf]
  | cons d ds ih => simp [callsOf, ih]

end Append

/-- Deeds lead from one state to another: the table and the record of transmissions are what they
make of them, the tasks that are called are called by them, and the settings stay. -/
structure Enacts (clock : Clock) (s : ServiceState) (ds : List Deed) (called : List TaskId)
    (v : ServiceState) : Prop where
  table : v.table = ds.foldl (Deed.enact clock) s.table
  transmissions : v.transmissions = s.transmissions ++ ds.filterMap Deed.transmission?
  settings : v.settings = s.settings
  fit : Fit clock s.table ds
  called : called = callsOf clock s.table ds

namespace Enacts

variable {clock : Clock} {s v u : ServiceState} {ds es : List Deed} {d : Deed}
  {called more : List TaskId}

/-- Nothing is done to the table, and nothing is transmitted. -/
theorem none (htable : v.table = s.table) (htransmissions : v.transmissions = s.transmissions)
    (hsettings : v.settings = s.settings) : Enacts clock s [] [] v :=
  ⟨htable, by simp [htransmissions], hsettings, trivial, rfl⟩

theorem one (htable : v.table = d.enact clock s.table)
    (htransmissions : v.transmissions = s.transmissions ++ d.transmission?.toList)
    (hsettings : v.settings = s.settings) (hfit : d.Fits clock s.table) :
    Enacts clock s [d] (d.calls clock s.table) v :=
  ⟨htable, by
    rw [htransmissions]
    cases hd : d.transmission? <;> simp [hd], hsettings, ⟨hfit, trivial⟩, (List.append_nil _).symm⟩

theorem append (h : Enacts clock s ds called v) (h' : Enacts clock v es more u) :
    Enacts clock s (ds ++ es) (called ++ more) u where
  table := by rw [h'.table, h.table, List.foldl_append]
  transmissions := by
    rw [h'.transmissions, h.transmissions, List.filterMap_append, List.append_assoc]
  settings := h'.settings.trans h.settings
  fit := fit_append.mpr ⟨h.fit, h.table ▸ h'.fit⟩
  called := by rw [callsOf_append, ← h.called, h'.called, h.table]

/-- Nothing that matters comes before. -/
theorem after (htable : v.table = s.table) (htransmissions : v.transmissions = s.transmissions)
    (hsettings : v.settings = s.settings) (h : Enacts clock v ds called u) :
    Enacts clock s ds called u :=
  (none htable htransmissions hsettings : Enacts clock s [] [] v).append h

/-- To go on to another stage is no deed. -/
theorem advanced (id : TaskId) (x : OpenExchange) (stages : List ExchangeStage)
    (h : Enacts clock (s.advance id x stages).1 ds called u) : Enacts clock s ds called u :=
  .after (v := (s.advance id x stages).1) rfl rfl rfl h

theorem cons (h : Enacts clock s [d] called v) (h' : Enacts clock v ds more u) :
    Enacts clock s (d :: ds) (called ++ more) u := h.append h'

/-- Nothing that matters comes behind. -/
theorem before (h : Enacts clock s ds called v) (h' : Enacts clock v es [] u) :
    Enacts clock s (ds ++ es) called u := by
  have hboth := h.append h'
  rwa [List.append_nil] at hboth

end Enacts

/-! ## The deeds of a turn -/

namespace ServiceState

/-- What arrives in a transmission. -/
def arrivalDeeds : Except ArrivalError Arrival → List Deed
  | .ok (.acknowledgement a) => [.deposited a]
  | _ => []

/-- A message is handed to the transport, and acknowledgements may arrive meanwhile. -/
def handOverDeeds (s : ServiceState) (now : Nat) (t : Transmission) (reply : ArrangedReply) :
    List Deed :=
  .transmitted t (s.handOver now t reply).report :: match s.gateway with
    | some _ => []
    | none => reply.acknowledgements.map fun a => .deposited (a (s.transmissions ++ [t]))

def fetchDeed (s : ServiceState) (now : Nat) (id : TaskId) (key : String) (limit : Nat) : Deed :=
  .fetched id key limit (s.table.fetch now id key limit).2

/-- After the first acknowledgement the second one may be fetched. -/
def submissionDeeds (s : ServiceState) (now : Nat) (id : TaskId) (x : OpenExchange) :
    Attempt Acknowledgement → List Deed
  | .ended o =>
    match x.afterSubmission o with
    | .ok relay => [s.fetchDeed now id relay x.limit]
    | .error _ => []
  | _ => []

/-- After the transport's report the first acknowledgement may be fetched. -/
def reportDeeds (now : Nat) (id : TaskId) (x : OpenExchange) (h : Handover) : List Deed :=
  match h.report with
  | .ok none =>
    let (s, x) := h.state.advance id x [.transmitted, .awaitingSubmission]
    let (t, attempt) := s.table.fetch now id x.messageId x.limit
    s.fetchDeed now id x.messageId x.limit :: (s.withTable t).submissionDeeds now id x attempt
  | _ => []

def sendingDeeds (s : ServiceState) (now : Nat) (id : TaskId) (r : SendRequest) : List Deed :=
  match r.route.endpoint with
  | .error _ => []
  | .ok endpoint =>
    let (stamp, s) := s.countStart.takeStamp
    match s.agreement.prepare stamp r.route r.message with
    | .error _ => []
    | .ok prepared =>
      let t : Transmission := ⟨id, prepared, endpoint⟩
      let (s, x) := s.advance id (s.opening now r prepared) [.prepared]
      s.handOverDeeds now t r.reply ++ reportDeeds now id x (s.handOver now t r.reply)

def resumeDeeds (s : ServiceState) (clock : Clock) (id : TaskId) (x : OpenExchange) (w : Wait) :
    List Deed :=
  let (t, attempt) := s.table.resume clock id w
  .resumed id w attempt :: match x.relayMessageId with
    | none => (s.withTable t).submissionDeeds clock.now id x attempt
    | some _ => []

def transmittingDeeds (s : ServiceState) (now : Nat) (id : TaskId) (r : TransmitRequest) :
    List Deed :=
  let (stamp, s) := s.takeStamp
  match s.agreement.prepare stamp r.route r.message with
  | .error _ => []
  | .ok prepared => s.handOverDeeds now ⟨id, prepared, r.endpoint⟩ .silence

/-- A sweeper that has several ticks to make up for sweeps several times. -/
def tickDeeds (clock : Clock) (w : Sweeper) : List Deed :=
  if w.period = 0 then [] else List.replicate (w.tick clock).1 (.swept clock.now)

def answerDeeds (s : ServiceState) (a : GatewayAnswer) : List Deed :=
  match a.acknowledgement? with
  | none => []
  | some k =>
    let (stamp, s) := s.takeStamp
    let (boundary, _) := s.takeUuid
    arrivalDeeds (Arrival.ofBody (Gateway.frame stamp boundary k))

def answeringDeeds (s : ServiceState) (clock : Clock) (a : GatewayAnswer) : List Deed :=
  if clock.rung < a.dueAt clock.now then []
  else s.answerDeeds a ++ match a.next? with
    | none => []
    | some b =>
      if clock.rung < b.dueAt clock.now then [] else (s.answer clock.now a).1.answerDeeds b

/-- The deeds of a task at its turn. -/
def deeds (s : ServiceState) (clock : Clock) (id : TaskId) : ServiceTask → List Deed
  | .sending r => s.sendingDeeds clock.now id r
  | .awaiting x w => s.resumeDeeds clock id x w
  | .transmitting r => s.transmittingDeeds clock.now id r
  | .fetching key limit => [s.fetchDeed clock.now id key limit]
  | .waiting w => [.resumed id w (s.table.resume clock id w).2]
  | .sweeping w => tickDeeds clock w
  | .answering a => s.answeringDeeds clock a

/-- The deed of a task that is dropped. -/
def dropDeeds (id : TaskId) : ServiceTask → List Deed
  | .awaiting _ w => [.withdrawn id w]
  | .waiting w => [.withdrawn id w]
  | _ => []

/-! ## The table is what the deeds make of it -/

section Turns

variable (s : ServiceState) (clock : Clock) (id : TaskId)

theorem enacts_arrival (i : Except ArrivalError Arrival) :
    Enacts clock s (arrivalDeeds i) (s.receive clock.now i).2.2 (s.receive clock.now i).1 := by
  rcases i with cause | m | a
  · exact .none rfl rfl rfl
  · exact .none rfl rfl rfl
  · exact .one rfl (List.append_nil _).symm rfl trivial

theorem enacts_depositAll (as : List Acknowledgement) :
    Enacts clock s (as.map .deposited) (s.depositAll clock.now as).2
      (s.depositAll clock.now as).1 := by
  induction as generalizing s with
  | nil => exact .none rfl rfl rfl
  | cons a as ih =>
    have hone : Enacts clock s [.deposited a] (s.deposit clock.now a).2.2
        (s.deposit clock.now a).1 := .one rfl (List.append_nil _).symm rfl trivial
    exact hone.cons (ih _)

theorem enacts_handOver (t : Transmission) (reply : ArrangedReply) :
    Enacts clock s (s.handOverDeeds clock.now t reply) (s.handOver clock.now t reply).called
      (s.handOver clock.now t reply).state := by
  obtain ⟨settings, intake, gateway, transmissions, draws, changes⟩ := s
  cases gateway with
  | some g => exact .one rfl rfl rfl trivial
  | none =>
    let transmitted : ServiceState := ⟨settings, intake, none, transmissions ++ [t], draws, changes⟩
    have hdeposited := transmitted.enacts_depositAll clock
      (reply.acknowledgements.map fun a => a (transmissions ++ [t]))
    rw [List.map_map] at hdeposited
    have htransmitted : Enacts clock ⟨settings, intake, none, transmissions, draws, changes⟩
        [.transmitted t (reply.report (transmissions ++ [t]))] [] transmitted :=
      .one rfl rfl rfl trivial
    exact htransmitted.cons hdeposited

theorem enacts_fetch (key : String) (limit : Nat) :
    Enacts clock s [s.fetchDeed clock.now id key limit] []
      (s.withTable (s.table.fetch clock.now id key limit).1) :=
  .one rfl (List.append_nil _).symm rfl rfl

theorem enacts_resume (w : Wait) :
    Enacts clock s [.resumed id w (s.table.resume clock id w).2] []
      (s.withTable (s.table.resume clock id w).1) :=
  .one rfl (List.append_nil _).symm rfl rfl

theorem enacts_afterRelay (x : OpenExchange) (relay : String) (t : Table Acknowledgement)
    (attempt : Attempt Acknowledgement) :
    Enacts clock (s.withTable t) [] [] (s.afterRelay clock.now id x relay (t, attempt)).1 := by
  cases attempt with
  | ended o => exact .none rfl rfl rfl
  | entered w => exact .none rfl rfl rfl
  | waiting w => exact .none rfl rfl rfl

theorem enacts_afterSubmission (x : OpenExchange) (t : Table Acknowledgement)
    (attempt : Attempt Acknowledgement) :
    Enacts clock (s.withTable t) ((s.withTable t).submissionDeeds clock.now id x attempt) []
      (s.afterSubmission clock.now id x (t, attempt)).1 := by
  cases attempt with
  | entered w => exact .none rfl rfl rfl
  | waiting w => exact .none rfl rfl rfl
  | ended o =>
    simp only [submissionDeeds, afterSubmission_ended]
    cases x.afterSubmission o with
    | error e => exact .none rfl rfl rfl
    | ok relay =>
      refine .advanced id x (OpenExchange.judged .submission x.messageId o)
        (.advanced id (x.advance (OpenExchange.judged .submission x.messageId o))
          [.awaitingRelay] ?_)
      exact (enacts_fetch _ clock id relay x.limit).append
        (enacts_afterRelay _ clock id _ relay _ _)

theorem enacts_report (x : OpenExchange) (h : Handover) :
    Enacts clock h.state (reportDeeds clock.now id x h) []
      (afterHandover clock.now id x h).shared := by
  unfold reportDeeds afterHandover
  cases h.report with
  | error cause => exact .none rfl rfl rfl
  | ok fault =>
    cases fault with
    | some fault => exact .none rfl rfl rfl
    | none =>
      refine .advanced id x [.transmitted, .awaitingSubmission] ?_
      exact (enacts_fetch _ clock id x.messageId x.limit).cons
        (enacts_afterSubmission _ clock id _ _ _)

theorem enacts_sending (r : SendRequest) :
    Enacts clock s (s.sendingDeeds clock.now id r) (s.beginExchange clock.now id r).called
      (s.beginExchange clock.now id r).shared := by
  unfold sendingDeeds beginExchange
  cases r.route.endpoint with
  | error cause => exact .none rfl rfl rfl
  | ok endpoint =>
    simp only
    cases s.countStart.takeStamp.2.agreement.prepare s.countStart.takeStamp.1 r.route r.message with
    | error cause => exact .none rfl rfl rfl
    | ok prepared =>
      refine .after (v := s.countStart.takeStamp.2) rfl rfl rfl
        (.advanced id (s.countStart.takeStamp.2.opening clock.now r prepared) [.prepared] ?_)
      exact (enacts_handOver _ clock ⟨id, prepared, endpoint⟩ r.reply).before
        (enacts_report clock id _ _)

theorem enacts_awaiting (x : OpenExchange) (w : Wait) :
    Enacts clock s (s.resumeDeeds clock id x w) (s.resumeExchange clock id x w).called
      (s.resumeExchange clock id x w).shared := by
  unfold resumeDeeds resumeExchange
  refine (s.enacts_resume clock id w).cons ?_
  cases x.relayMessageId with
  | none => exact s.enacts_afterSubmission clock id x _ _
  | some relay => exact s.enacts_afterRelay clock id x relay _ _

theorem enacts_transmitting (r : TransmitRequest) :
    Enacts clock s (s.transmittingDeeds clock.now id r) (s.transmitTo clock.now id r).called
      (s.transmitTo clock.now id r).shared := by
  simp only [transmittingDeeds, transmitTo]
  cases s.takeStamp.2.agreement.prepare s.takeStamp.1 r.route r.message with
  | error cause => exact .none rfl rfl rfl
  | ok prepared =>
    refine .after (v := s.takeStamp.2) rfl rfl rfl ?_
    exact s.takeStamp.2.enacts_handOver clock ⟨id, prepared, r.endpoint⟩ .silence

theorem table_sweepTimes (t : Table Acknowledgement) (n : Nat) : (t.sweepTimes clock.now n).1 =
    (List.replicate n (Deed.swept clock.now)).foldl (Deed.enact clock) t := by
  induction n generalizing t with
  | zero => rfl
  | succ n ih => exact ih _

theorem fit_of_swept (t : Table Acknowledgement) (n : Nat) (asOf : Int) :
    Fit clock t (List.replicate n (.swept asOf)) := by
  induction n generalizing t with
  | zero => trivial
  | succ n ih => exact ⟨trivial, ih _⟩

theorem callsOf_swept (t : Table Acknowledgement) (n : Nat) (asOf : Int) :
    callsOf clock t (List.replicate n (.swept asOf)) = [] := by
  induction n generalizing t with
  | zero => rfl
  | succ n ih => exact ih _

theorem enacts_sweeping (w : Sweeper) :
    Enacts clock s (tickDeeds clock w) (s.afterTick clock w).called
      (s.afterTick clock w).shared := by
  unfold tickDeeds afterTick
  by_cases hp : w.period = 0
  · rw [if_pos hp, if_pos hp]
    exact .none rfl rfl rfl
  · rw [if_neg hp, if_neg hp]
    refine ⟨table_sweepTimes clock s.table _, ?_, rfl, fit_of_swept clock _ _ _,
      (callsOf_swept clock _ _ _).symm⟩
    have hsilent : (List.replicate (w.tick clock).1 (Deed.swept clock.now)).filterMap
        Deed.transmission? = [] := by
      rw [List.filterMap_eq_nil_iff]
      intro d hd
      rw [List.eq_of_mem_replicate hd]
      rfl
    rw [hsilent, List.append_nil]
    rfl

theorem enacts_answer (a : GatewayAnswer) :
    Enacts clock s (s.answerDeeds a) (s.answer clock.now a).2 (s.answer clock.now a).1 := by
  simp only [answerDeeds, answer, receiveFromGateway]
  cases a.acknowledgement? with
  | none => exact .none rfl rfl rfl
  | some k =>
    simp only
    generalize Arrival.ofBody _ = i
    exact .after (v := s.takeStamp.2.takeUuid.2) rfl rfl rfl (enacts_arrival _ clock i)

theorem enacts_answering (a : GatewayAnswer) :
    Enacts clock s (s.answeringDeeds clock a) (s.continueAnswer clock a).called
      (s.continueAnswer clock a).shared := by
  unfold answeringDeeds continueAnswer
  by_cases hdue : clock.rung < a.dueAt clock.now
  · simp only [if_pos hdue]
    exact .none rfl rfl rfl
  · simp only [if_neg hdue]
    have hfirst := s.enacts_answer clock a
    cases a.next? with
    | none =>
      rw [List.append_nil]
      exact hfirst
    | some b =>
      simp only
      by_cases hdue' : clock.rung < b.dueAt clock.now
      · rw [if_pos hdue', if_pos hdue', List.append_nil]
        exact hfirst
      · rw [if_neg hdue', if_neg hdue']
        exact hfirst.append (enacts_answer _ clock b)

theorem enacts_turn (task : ServiceTask) : Enacts clock s (s.deeds clock id task)
    (ServiceTask.behaviour.turn clock id task s).called
    (ServiceTask.behaviour.turn clock id task s).shared := by
  cases task with
  | sending r => exact s.enacts_sending clock id r
  | awaiting x w => exact s.enacts_awaiting clock id x w
  | transmitting r => exact s.enacts_transmitting clock id r
  | fetching key limit =>
    have h := s.enacts_fetch clock id key limit
    simp only [ServiceTask.behaviour, deeds]
    rcases hattempt : s.table.fetch clock.now id key limit with ⟨t, attempt⟩
    rw [hattempt] at h
    cases attempt <;> exact h
  | waiting w =>
    have h := s.enacts_resume clock id w
    simp only [ServiceTask.behaviour, deeds]
    rcases hattempt : s.table.resume clock id w with ⟨t, attempt⟩
    rw [hattempt] at h
    cases attempt <;> exact h
  | sweeping w => exact s.enacts_sweeping clock w
  | answering a => exact s.enacts_answering clock a

theorem enacts_drop (task : ServiceTask) :
    Enacts clock s (dropDeeds id task) [] (s.drop clock.now id task) := by
  cases task with
  | awaiting x w => exact .one rfl (List.append_nil _).symm rfl trivial
  | waiting w => exact .one rfl (List.append_nil _).symm rfl trivial
  | _ => exact .none rfl rfl rfl

end Turns
end ServiceState

/-! ## The deeds of a run -/

namespace Service

/-- The deeds of a move. -/
def deeds (s : Service) : Move → List Deed
  | .receive i => ServiceState.arrivalDeeds i
  | .deposit a => [.deposited a]
  | .sweep offset => [.swept (s.now + offset)]
  | .turn id =>
    match s.scheduler.task? id with
    | none => []
    | some task =>
      if id ∈ s.scheduler.aborted then ServiceState.dropDeeds id task
      else s.state.deeds s.scheduler.clock id task
  | _ => []

section Turn

variable {s : Service} {id : TaskId} {task : ServiceTask}

theorem deeds_nobody (h : s.scheduler.task? id = none) : s.deeds (.turn id) = [] := by
  rw [deeds, h]

theorem deeds_dropped (h : s.scheduler.task? id = some task) (ha : id ∈ s.scheduler.aborted) :
    s.deeds (.turn id) = ServiceState.dropDeeds id task := by
  rw [deeds, h]
  exact if_pos ha

theorem deeds_attended (h : s.scheduler.task? id = some task) (ha : id ∉ s.scheduler.aborted) :
    s.deeds (.turn id) = s.state.deeds s.scheduler.clock id task := by
  rw [deeds, h]
  exact if_neg ha

end Turn

theorem enacts_attend (s : Service) (id : TaskId) : ∃ called,
    Enacts s.scheduler.clock s.state (s.deeds (.turn id)) called (s.move (.turn id)).state := by
  change ∃ called, Enacts _ _ _ called (s.scheduler.attend ServiceTask.behaviour id).shared
  rw [Scheduler.shared_attend]
  cases htask : s.scheduler.task? id with
  | none =>
    rw [deeds_nobody htask]
    exact ⟨_, .none rfl rfl rfl⟩
  | some task =>
    by_cases ha : id ∈ s.scheduler.aborted
    · simp only [deeds_dropped htask ha, if_pos ha]
      exact ⟨_, s.state.enacts_drop s.scheduler.clock id task⟩
    · simp only [deeds_attended htask ha, if_neg ha]
      exact ⟨_, s.state.enacts_turn s.scheduler.clock id task⟩

/-- The table and the record of transmissions after a move are what its deeds make of them. -/
theorem enacts_move (s : Service) (m : Move) : ∃ called,
    Enacts s.scheduler.clock s.state (s.deeds m) called (s.move m).state := by
  have hnone (v : Service) (htable : v.state.table = s.state.table)
      (htransmissions : v.state.transmissions = s.state.transmissions)
      (hsettings : v.state.settings = s.state.settings) :
      ∃ called, Enacts s.scheduler.clock s.state [] called v.state :=
    ⟨[], .none htable htransmissions hsettings⟩
  cases m with
  | receive i =>
    rw [move, receive, state_change]
    exact ⟨_, s.state.enacts_arrival s.scheduler.clock i⟩
  | deposit a =>
    rw [move, deposit, state_change]
    exact ⟨_, .one rfl (List.append_nil _).symm rfl trivial⟩
  | sweep offset =>
    rw [move, sweep, state_change]
    exact ⟨_, .one rfl (List.append_nil _).symm rfl trivial⟩
  | turn id => exact s.enacts_attend id
  | start hasScheduler =>
    rw [move, start]
    cases s.isRunning <;> cases hasScheduler <;> exact hnone _ rfl rfl rfl
  | stop =>
    rw [move, stop]
    cases s.sweeper with
    | none => exact hnone _ rfl rfl rfl
    | some id =>
      have hsame := s.state_abort id
      exact hnone _ (congrArg ServiceState.table hsame)
        (congrArg ServiceState.transmissions hsame) (congrArg ServiceState.settings hsame)
  | abort id =>
    rw [move, state_abort]
    exact hnone _ rfl rfl rfl
  | ring =>
    rw [state_ring]
    exact hnone _ rfl rfl rfl
  | changeHandlers f =>
    rw [move, changeHandlers, state_change]
    exact ⟨_, .none rfl rfl rfl⟩
  | changeGateway f =>
    rw [move, changeGateway, state_change]
    exact ⟨_, .none rfl rfl rfl⟩
  | redraw draws =>
    rw [move, state_change]
    exact ⟨_, .none rfl rfl rfl⟩
  | send r => exact hnone _ rfl rfl rfl
  | transmit r => exact hnone _ rfl rfl rfl
  | fetch key limit => exact hnone _ rfl rfl rfl
  | advance ms => exact hnone _ rfl rfl rfl

end Service
end EbmsMessaging
