import EbmsMessaging.Proofs.Correlation.Balance
import EbmsMessaging.Proofs.Scheduler.Turns
import EbmsMessaging.Proofs.Service.Trace

/-!
# What is counted

What is worth counting is told as events: senders begin and end, transmissions arrive, the table is
filled and swept. Whatever a task does at its turn, its events say how far the counters of the service
and the statistics of the table have gone up.
-/
namespace EbmsMessaging

open Correlation

namespace Tally

/-- Counts one event under each label. -/
def markAll (t : Tally) (labels : List String) : Tally := labels.foldl mark t

theorem markAll_append (t : Tally) (labels more : List String) :
    t.markAll (labels ++ more) = (t.markAll labels).markAll more := List.foldl_append

theorem count_markAll (t : Tally) (labels : List String) (label : String) :
    (t.markAll labels).count label = t.count label + labels.count label := by
  induction labels generalizing t with
  | nil => rfl
  | cons l labels ih =>
    have hmark : (t.mark l).count label = t.count label + if label = l then 1 else 0 :=
      t.count_add l label 1
    have hrest : (t.markAll (l :: labels)).count label = _ := ih (t.mark l)
    rw [hrest, hmark, List.count_cons]
    by_cases h : label = l
    · simp [h]
      omega
    · simp [h, Ne.symm h]

theorem total_markAll (t : Tally) (labels : List String) :
    (t.markAll labels).total = t.total + labels.length := by
  induction labels generalizing t with
  | nil => rfl
  | cons l labels ih =>
    have hmark : (t.mark l).total = t.total + 1 := t.total_add l 1
    have hrest : (t.markAll (l :: labels)).total = _ := ih (t.mark l)
    rw [hrest, hmark, List.length_cons]
    omega

end Tally

/-- Two sweeps after the other, or some after what was removed before. -/
theorem Correlation.Removals.sum_cons_sum (reports more : List Removals) :
    sum (sum reports :: more) = sum (reports ++ more) := by
  simp [sum]

namespace Metrics

/-- What the periodic sweeps have removed. -/
def removals (m : Metrics) : Removals :=
  ⟨m.sweepRemovals.count "fulfilled", m.sweepRemovals.count "abandoned"⟩

/-- How often handlers have failed, one way or the other. -/
def failed (m : Metrics) : Nat := m.handlerFailures.count "error" + m.handlerFailures.count "panic"

theorem removals_countSweep (m : Metrics) (r : Removals) (cells : Nat) :
    (m.countSweep r cells).removals = .sum [m.removals, r] := by
  simp [countSweep, removals, Removals.sum, Tally.count_add]

/-- Every failure of a handler counts under one of the two labels. -/
theorem failed_countDelivery (i : Intake) (failures : List HandlerFailure) :
    (i.countDelivery failures).metrics.failed = i.metrics.failed + failures.length := by
  have hlabels (fs : List HandlerFailure) : (fs.map HandlerFailure.label).count "error" +
      (fs.map HandlerFailure.label).count "panic" = fs.length := by
    induction fs with
    | nil => rfl
    | cons f fs ih => cases f <;> simp [HandlerFailure.label] <;> omega
  have hmarked : (i.countDelivery failures).metrics.handlerFailures =
      i.metrics.handlerFailures.markAll (failures.map HandlerFailure.label) :=
    List.foldl_map.symm
  rw [failed, hmarked, Tally.count_markAll, Tally.count_markAll, failed, ← hlabels]
  omega

end Metrics

/-! ## Events -/

namespace Reception

/-- The hop of an acknowledgement that reached the table. -/
def hop? : Reception → Option Hop
  | deposited hop _ _ => some hop
  | _ => none

/-- The failures of the handlers of a delivered message. -/
def failures? : Reception → Option Nat
  | delivered _ _ failures => some failures
  | _ => none

def isDelivered (r : Reception) : Bool := r.failures?.isSome

def isRejected : Reception → Bool
  | rejected _ => true
  | _ => false

end Reception

/-- Something that is worth counting. -/
inductive Event where
  /-- Somebody wants a message sent. -/
  | requested
  /-- A sender has its first turn. -/
  | begun
  | ended (result : Except ExchangeFailure Confirmation)
  /-- A sender is dropped before its first turn. -/
  | discarded
  /-- A sender is dropped while it waits. -/
  | dropped
  | received (r : Reception)
  /-- An acknowledgement reaches the table without having arrived. -/
  | deposited (a : Acknowledgement)
  /-- The sweeper of the service has swept. -/
  | swept (r : Removals)
  /-- Somebody else has swept. -/
  | cleared (r : Removals)
deriving DecidableEq, Repr

namespace Event

def ended? : Event → Option (Except ExchangeFailure Confirmation)
  | ended result => some result
  | _ => none

def received? : Event → Option Reception
  | received r => some r
  | _ => none

def deposited? : Event → Option Acknowledgement
  | deposited a => some a
  | _ => none

def swept? : Event → Option Removals
  | swept r => some r
  | _ => none

def isCleared : Event → Bool
  | cleared _ => true
  | _ => false

/-- What a sweep has removed, whoever swept. -/
def removed? : Event → Option Removals
  | swept r => some r
  | cleared r => some r
  | _ => none

end Event

/-- How exchanges ended, in order. -/
def endingsOf (es : List Event) : List (Except ExchangeFailure Confirmation) :=
  es.filterMap Event.ended?

/-- What became of transmissions, in order. -/
def receptionsOf (es : List Event) : List Reception := es.filterMap Event.received?

/-- The hops of the acknowledgements that arrived and reached the table. -/
def hopsOf (es : List Event) : List Hop := (receptionsOf es).filterMap Reception.hop?

/-- For each delivered message how many of its handlers failed. -/
def failuresOf (es : List Event) : List Nat := (receptionsOf es).filterMap Reception.failures?

/-- The counters and statistics go up with the events. -/
structure Counts (s : ServiceState) (es : List Event) (v : ServiceState) : Prop where
  started : v.intake.metrics.exchangesStarted =
    s.intake.metrics.exchangesStarted + es.count .begun := by rfl
  outcomes : v.intake.metrics.outcomes =
    s.intake.metrics.outcomes.markAll ((endingsOf es).map ServiceState.endingLabel) := by rfl
  acknowledgements : v.intake.metrics.acknowledgements =
    s.intake.metrics.acknowledgements.markAll ((hopsOf es).map Hop.text) := by rfl
  delivered : v.intake.metrics.messagesDelivered =
    s.intake.metrics.messagesDelivered + (failuresOf es).length := by rfl
  refusals : v.intake.metrics.refusals =
    s.intake.metrics.refusals + (receptionsOf es).countP Reception.isRejected := by rfl
  failed : v.intake.metrics.failed = s.intake.metrics.failed + (failuresOf es).sum := by rfl
  swept : v.intake.metrics.removals =
    .sum (s.intake.metrics.removals :: es.filterMap Event.swept?) := by rfl
  deposited : v.table.stats.deposited = s.table.stats.deposited +
    ((hopsOf es).length + (es.filterMap Event.deposited?).length) := by rfl
  removed : v.table.stats.removals =
    .sum (s.table.stats.removals :: es.filterMap Event.removed?) := by rfl

namespace Counts

variable {s v u : ServiceState} {es es' : List Event}

/-- Nothing that is counted changes. -/
theorem same (hmetrics : v.intake.metrics = s.intake.metrics) (htable : v.table = s.table) :
    Counts s [] v := by
  constructor
  all_goals simp only [hmetrics, htable]
  all_goals rfl

theorem refl (s : ServiceState) : Counts s [] s := same rfl rfl

theorem trans (h : Counts s es v) (h' : Counts v es' u) : Counts s (es ++ es') u where
  started := by rw [h'.started, h.started, List.count_append, Nat.add_assoc]
  outcomes := by
    rw [h'.outcomes, h.outcomes, ← Tally.markAll_append, ← List.map_append, endingsOf, endingsOf,
      endingsOf, List.filterMap_append]
  acknowledgements := by
    rw [h'.acknowledgements, h.acknowledgements, ← Tally.markAll_append, ← List.map_append, hopsOf,
      hopsOf, hopsOf, receptionsOf, receptionsOf, receptionsOf, List.filterMap_append,
      List.filterMap_append]
  delivered := by
    simp only [h'.delivered, h.delivered, failuresOf, receptionsOf, List.filterMap_append,
      List.length_append, Nat.add_assoc]
  refusals := by
    simp only [h'.refusals, h.refusals, receptionsOf, List.filterMap_append, List.countP_append,
      Nat.add_assoc]
  failed := by
    simp only [h'.failed, h.failed, failuresOf, receptionsOf, List.filterMap_append,
      List.sum_append, Nat.add_assoc]
  swept := by
    rw [h'.swept, h.swept, Removals.sum_cons_sum, List.filterMap_append, List.cons_append]
  deposited := by
    simp only [h'.deposited, h.deposited, hopsOf, receptionsOf, List.filterMap_append,
      List.length_append]
    omega
  removed := by
    rw [h'.removed, h.removed, Removals.sum_cons_sum, List.filterMap_append, List.cons_append]

end Counts

/-! ## What waiting leaves alone -/

namespace Correlation.Table

variable {α : Type} (t : Table α)

/-- Nothing was put into the table, and nothing was swept. -/
structure Calm (t t' : Table α) : Prop where
  deposited : t'.stats.deposited = t.stats.deposited
  removals : t'.stats.removals = t.stats.removals

theorem deposited_deposit (now : Nat) (key : String) (a : α) :
    (t.deposit now key a).1.stats.deposited = t.stats.deposited + 1 := by
  rw [fst_deposit, stats_countStats, stats_change, stats_withCell]

theorem removals_deposit (now : Nat) (key : String) (a : α) :
    (t.deposit now key a).1.stats.removals = t.stats.removals := by
  rw [fst_deposit, stats_countStats, stats_change, stats_withCell]
  rfl

theorem calm_fetch (now : Nat) (id : TaskId) (key : String) (limit : Nat) :
    t.Calm (t.fetch now id key limit).1 := by
  unfold fetch
  cases h : t.takeReady? key with
  | some r =>
    have hstats := stats_takeReady h
    exact ⟨(congrArg Stats.deposited hstats :), (congrArg Stats.removals hstats :)⟩
  | none =>
    have hstats := t.stats_withCell now key
    exact ⟨(congrArg Stats.deposited hstats :), (congrArg Stats.removals hstats :)⟩

theorem calm_resume (clock : Clock) (id : TaskId) (w : Wait) :
    t.Calm (t.resume clock id w).1 := by
  unfold resume
  cases h : t.takeAwaited? w.cell with
  | some r =>
    have hstats := stats_takeAwaited h
    exact ⟨(congrArg Stats.deposited hstats :), (congrArg Stats.removals hstats :)⟩
  | none =>
    simp only
    split <;> exact ⟨rfl, rfl⟩

end Correlation.Table

/-! ## The events of a turn -/

/-- The acknowledgement that a deed puts into the table. -/
def Deed.deposited? : Deed → Option Acknowledgement
  | deposited a => some a
  | _ => none

/-- The acknowledgements that deeds put into the table. -/
def depositEvents (ds : List Deed) : List Event := (ds.filterMap Deed.deposited?).map .deposited

def ServiceResult.exchanged? : ServiceResult → Option (Except ExchangeFailure Confirmation)
  | exchanged result => some result
  | _ => none

/-- The end of an exchange. -/
def endingEvents (next : Next ServiceTask ServiceResult) : List Event :=
  (next.result?.bind ServiceResult.exchanged?).toList.map .ended

namespace ServiceState

/-- The reports of a sweeper's turn. -/
def reports (s : ServiceState) (clock : Clock) (w : Sweeper) : List Removals :=
  if w.period = 0 then [] else (s.table.sweepTimes clock.now (w.tick clock).1).2

/-- What becomes of the gateway's next acknowledgement, unless it is silent. -/
def answerReceptions (s : ServiceState) (now : Nat) (a : GatewayAnswer) : List Reception :=
  match a.acknowledgement? with
  | none => []
  | some k =>
    let (stamp, s) := s.takeStamp
    let (boundary, s) := s.takeUuid
    [(s.receive now (Arrival.ofBody (Gateway.frame stamp boundary k))).2.1]

def answeringReceptions (s : ServiceState) (clock : Clock) (a : GatewayAnswer) : List Reception :=
  if clock.rung < a.dueAt clock.now then []
  else s.answerReceptions clock.now a ++ match a.next? with
    | none => []
    | some b =>
      if clock.rung < b.dueAt clock.now then []
      else (s.answer clock.now a).1.answerReceptions clock.now b

/-- The events of a task at its turn. -/
def events (s : ServiceState) (clock : Clock) (id : TaskId) : ServiceTask → List Event
  | .sending r => .begun :: depositEvents (s.sendingDeeds clock.now id r) ++
      endingEvents (s.beginExchange clock.now id r).next
  | .awaiting x w => endingEvents (s.resumeExchange clock id x w).next
  | .sweeping w => (s.reports clock w).map .swept
  | .answering a => (s.answeringReceptions clock a).map .received
  | _ => []

/-- The event of a task that is dropped. -/
def dropEvents : ServiceTask → List Event
  | .sending _ => [.discarded]
  | .awaiting _ _ => [.dropped]
  | _ => []

section Steps

variable (s : ServiceState) (now : Nat) (clock : Clock) (id : TaskId)

theorem counts_withTable {t : Table Acknowledgement} (h : s.table.Calm t) :
    Counts s [] (s.withTable t) :=
  { deposited := h.deposited, removed := h.removals }

theorem counts_deposit (a : Acknowledgement) : Counts s [.deposited a] (s.deposit now a).1 :=
  { deposited := s.table.deposited_deposit now a.key a
    removed := s.table.removals_deposit now a.key a }

theorem counts_depositAll (as : List Acknowledgement) :
    Counts s (as.map .deposited) (s.depositAll now as).1 := by
  induction as generalizing s with
  | nil => exact .refl s
  | cons a as ih => exact (s.counts_deposit now a).trans (ih _)

theorem counts_receive (i : Except ArrivalError Arrival) :
    Counts s [.received (s.receive now i).2.1] (s.receive now i).1 := by
  rcases i with cause | m | a
  · exact {}
  · exact { failed := Metrics.failed_countDelivery _ _ }
  · exact { deposited := s.table.deposited_deposit now a.key a
            removed := s.table.removals_deposit now a.key a }

theorem filterMap_deposited?_map (as : List Acknowledgement) :
    (as.map Deed.deposited).filterMap Deed.deposited? = as := by
  rw [List.filterMap_map]
  exact List.filterMap_some

theorem filterMap_deposited?_eq_nil {ds : List Deed} (h : ∀ d ∈ ds, d.task? = some id) :
    ds.filterMap Deed.deposited? = [] := by
  refine List.filterMap_eq_nil_iff.mpr fun d hd => ?_
  cases d with
  | deposited a => exact absurd (h _ hd) nofun
  | _ => rfl

/-- While a message is handed over, acknowledgements may reach the table, and nothing else is counted. -/
theorem counts_handOver (t : Transmission) (reply : ArrangedReply) :
    Counts s (depositEvents (s.handOverDeeds now t reply)) (s.handOver now t reply).state := by
  obtain ⟨settings, intake, gateway, transmissions, draws, changes⟩ := s
  cases gateway with
  | some g => exact .same rfl rfl
  | none =>
    let transmitted : ServiceState := ⟨settings, intake, none, transmissions ++ [t], draws, changes⟩
    have hall := transmitted.counts_depositAll now
      (reply.acknowledgements.map fun a => a (transmissions ++ [t]))
    have hdeeds : depositEvents
        (handOverDeeds ⟨settings, intake, none, transmissions, draws, changes⟩ now t reply) =
          (reply.acknowledgements.map fun a => a (transmissions ++ [t])).map .deposited := by
      rw [depositEvents, ← filterMap_deposited?_map (reply.acknowledgements.map _), List.map_map]
      rfl
    have hsent : Counts ⟨settings, intake, none, transmissions, draws, changes⟩ [] transmitted :=
      .same rfl rfl
    rw [hdeeds]
    exact hsent.trans hall

/-! ### Senders -/

/-- What becomes of a sender at its turn. It waits, or it ends and this is counted. -/
inductive GoesOn (s : ServiceState) : ServiceState → Next ServiceTask ServiceResult → Prop where
  | sleeps {v : ServiceState} {x : OpenExchange} {w : Wait} {alarm : Option Nat}
    (h : Counts s [] v) : GoesOn s v (.sleeping (.awaiting x w) alarm)
  | rests {v : ServiceState} {x : OpenExchange} {w : Wait} (h : Counts s [] v) :
    GoesOn s v (.resting (.awaiting x w))
  | ends {v : ServiceState} {result : Except ExchangeFailure Confirmation}
    (h : Counts s [.ended result] v) : GoesOn s v (.ended (.exchanged result))

theorem GoesOn.after {s v u : ServiceState} {next : Next ServiceTask ServiceResult}
    (h : Counts s [] v) (hnext : GoesOn v u next) : GoesOn s u next := by
  cases hnext with
  | sleeps hv => exact .sleeps (h.trans hv)
  | rests hv => exact .rests (h.trans hv)
  | ends hv => exact .ends (h.trans hv)

theorem GoesOn.counts {s v : ServiceState} {next : Next ServiceTask ServiceResult}
    (h : GoesOn s v next) : Counts s (endingEvents next) v := by
  cases h with
  | sleeps h => exact h
  | rests h => exact h
  | ends h => exact h

variable (x : OpenExchange)

/-- A stage is not counted. -/
theorem counts_advance (stages : List ExchangeStage) : Counts s [] (s.advance id x stages).1 :=
  .same rfl rfl

theorem goesOn_conclude (startedAt : Nat) (r : Except ExchangeFailure Confirmation) :
    GoesOn s (s.conclude now startedAt r).1 (s.conclude now startedAt r).2 :=
  .ends {}

theorem goesOn_afterRelay (relay : String) {t : Table Acknowledgement} (h : s.table.Calm t)
    (attempt : Attempt Acknowledgement) :
    GoesOn s (s.afterRelay now id x relay (t, attempt)).1
      (s.afterRelay now id x relay (t, attempt)).2 := by
  have hcalm := s.counts_withTable h
  cases attempt with
  | entered w => exact .sleeps hcalm
  | waiting w => exact .rests hcalm
  | ended o => exact .after (hcalm.trans (counts_advance _ id x _)) (goesOn_conclude _ now _ _)

theorem goesOn_afterSubmission {t : Table Acknowledgement} (h : s.table.Calm t)
    (attempt : Attempt Acknowledgement) :
    GoesOn s (s.afterSubmission now id x (t, attempt)).1
      (s.afterSubmission now id x (t, attempt)).2 := by
  have hcalm := s.counts_withTable h
  cases attempt with
  | entered w => exact .sleeps hcalm
  | waiting w => exact .rests hcalm
  | ended o =>
    have hjudged := hcalm.trans
      (counts_advance _ id x (OpenExchange.judged .submission x.messageId o))
    simp only [afterSubmission_ended]
    cases x.afterSubmission o with
    | error e => exact .after hjudged (goesOn_conclude _ now _ _)
    | ok relay =>
      exact .after (hjudged.trans (counts_advance _ id _ [.awaitingRelay]))
        (goesOn_afterRelay _ now id _ relay (Table.calm_fetch _ now id relay _) _)

theorem goesOn_afterHandover (h : Handover) :
    GoesOn h.state (afterHandover now id x h).shared (afterHandover now id x h).next := by
  unfold afterHandover
  rcases h.report with cause | (_ | fault)
  · exact goesOn_conclude _ now _ _
  · exact .after (counts_advance _ id x [.transmitted, .awaitingSubmission])
      (goesOn_afterSubmission _ now id _ (Table.calm_fetch _ now id x.messageId _) _)
  · exact goesOn_conclude _ now _ _

/-- A sender begins, acknowledgements may reach the table meanwhile, and then it waits or ends. -/
theorem begins_beginExchange (r : SendRequest) : ∃ v,
    Counts s (.begun :: depositEvents (s.sendingDeeds now id r)) v ∧
      GoesOn v (s.beginExchange now id r).shared (s.beginExchange now id r).next := by
  have hstart : Counts s [.begun] s.countStart := {}
  simp only [sendingDeeds, beginExchange]
  cases r.route.endpoint with
  | error cause => exact ⟨_, hstart, goesOn_conclude _ now _ _⟩
  | ok endpoint =>
    have hstamp : Counts s [.begun] s.countStart.takeStamp.2 := hstart.trans (.same rfl rfl)
    simp only
    cases s.countStart.takeStamp.2.agreement.prepare s.countStart.takeStamp.1 r.route r.message with
    | error cause => exact ⟨_, hstamp, goesOn_conclude _ now _ _⟩
    | ok prepared =>
      refine ⟨_, ?_, goesOn_afterHandover now id _ _⟩
      rw [depositEvents, List.filterMap_append, filterMap_deposited?_eq_nil id
        (task?_of_mem_reportDeeds now id _ _), List.append_nil]
      exact (hstamp.trans (counts_advance _ id _ [.prepared])).trans
        (counts_handOver _ now ⟨id, prepared, endpoint⟩ r.reply)

theorem goesOn_resumeExchange (w : Wait) :
    GoesOn s (s.resumeExchange clock id x w).shared (s.resumeExchange clock id x w).next := by
  have hcalm := s.table.calm_resume clock id w
  unfold resumeExchange
  cases x.relayMessageId with
  | none => exact goesOn_afterSubmission s clock.now id x hcalm _
  | some relay => exact goesOn_afterRelay s clock.now id x relay hcalm _

/-! ### The other tasks -/

theorem counts_transmitTo (r : TransmitRequest) : Counts s [] (s.transmitTo now id r).shared := by
  have hstamp : Counts s [] s.takeStamp.2 := .same rfl rfl
  simp only [transmitTo]
  cases s.takeStamp.2.agreement.prepare s.takeStamp.1 r.route r.message with
  | error cause => exact hstamp
  | ok prepared =>
    have hhanded := s.takeStamp.2.counts_handOver now ⟨id, prepared, r.endpoint⟩ .silence
    have hsilent : depositEvents
        (s.takeStamp.2.handOverDeeds now ⟨id, prepared, r.endpoint⟩ .silence) = [] := by
      rw [handOverDeeds]
      cases s.takeStamp.2.gateway <;> rfl
    rw [hsilent] at hhanded
    exact hstamp.trans hhanded

theorem counts_afterAttempt {t : Table Acknowledgement} (h : s.table.Calm t)
    (attempt : Attempt Acknowledgement) : Counts s [] (s.afterAttempt (t, attempt)).shared := by
  cases attempt <;> exact s.counts_withTable h

/-- A sweep from outside shows in the statistics of the table only. -/
theorem counts_clear (asOf : Int) : Counts s [.cleared (s.table.sweep asOf).2]
    (s.withTable (s.table.sweep asOf).1) := by
  have hremoved : (s.table.sweep asOf).1.stats.removals = .sum ([s.table.stats.removals] ++ [_]) :=
    Table.removals_sweep rfl asOf
  exact { removed := hremoved }

theorem counts_sweepTimes (n size : Nat) :
    Counts s ((s.table.sweepTimes now n).2.map .swept)
      ((s.withTable (s.table.sweepTimes now n).1).countMetrics fun m =>
        (s.table.sweepTimes now n).2.foldl (fun m r => m.countSweep r size) m) := by
  induction n generalizing s with
  | zero => exact .refl s
  | succ n ih =>
    let v := (s.withTable (s.table.sweep now).1).countMetrics fun m =>
      m.countSweep (s.table.sweep now).2 size
    have hcleared := s.counts_clear now
    have hfirst : Counts s [.swept (s.table.sweep now).2] v :=
      { swept := Metrics.removals_countSweep _ _ _, removed := hcleared.removed }
    exact hfirst.trans (ih v)

theorem counts_afterTick (w : Sweeper) :
    Counts s ((s.reports clock w).map .swept) (s.afterTick clock w).shared := by
  unfold reports afterTick
  split
  · exact .refl s
  · exact s.counts_sweepTimes clock.now _ _

theorem counts_answer (a : GatewayAnswer) :
    Counts s ((s.answerReceptions now a).map .received) (s.answer now a).1 := by
  simp only [answerReceptions, answer, receiveFromGateway]
  cases a.acknowledgement? with
  | none => exact .refl s
  | some k =>
    have hdrawn : Counts s [] s.takeStamp.2.takeUuid.2 := .same rfl rfl
    simp only
    generalize Arrival.ofBody _ = i
    exact hdrawn.trans (counts_receive _ now i)

theorem counts_continueAnswer (a : GatewayAnswer) :
    Counts s ((s.answeringReceptions clock a).map .received) (s.continueAnswer clock a).shared := by
  unfold answeringReceptions continueAnswer
  by_cases hdue : clock.rung < a.dueAt clock.now
  · simp only [if_pos hdue]
    exact .refl s
  · simp only [if_neg hdue, List.map_append]
    have hfirst := s.counts_answer clock.now a
    cases a.next? with
    | none =>
      rw [List.map_nil, List.append_nil]
      exact hfirst
    | some b =>
      simp only
      by_cases hdue' : clock.rung < b.dueAt clock.now
      · rw [if_pos hdue', if_pos hdue', List.map_nil, List.append_nil]
        exact hfirst
      · rw [if_neg hdue', if_neg hdue']
        exact hfirst.trans (counts_answer _ clock.now b)

theorem counts_turn (task : ServiceTask) : Counts s (s.events clock id task)
    (ServiceTask.behaviour.turn clock id task s).shared := by
  cases task with
  | sending r =>
    obtain ⟨v, hbegun, hnext⟩ := s.begins_beginExchange clock.now id r
    exact hbegun.trans hnext.counts
  | awaiting x w => exact (s.goesOn_resumeExchange clock id x w).counts
  | transmitting r => exact s.counts_transmitTo clock.now id r
  | fetching key limit => exact s.counts_afterAttempt (Table.calm_fetch _ _ id key limit) _
  | waiting w => exact s.counts_afterAttempt (Table.calm_resume _ clock id w) _
  | sweeping w => exact s.counts_afterTick clock w
  | answering a => exact s.counts_continueAnswer clock a

theorem counts_drop (task : ServiceTask) : Counts s (dropEvents task) (s.drop now id task) := by
  cases task <;> exact {}

end Steps
end ServiceState
end EbmsMessaging
