import EbmsMessaging.Proofs.Service.Watching

/-!
# A vigil begins

A sender that hands its message to the transport hears of the acknowledgements that arrive
meanwhile, and of what the transport reports. With that its vigil begins, unless the report ends the
exchange at once.
-/
namespace EbmsMessaging

open Correlation

/-- A sender has handed its message to the transport: the exchange for which it was prepared, the
report, and the acknowledgements under its identifiers that arrived meanwhile. -/
structure Departure where
  exchange : OpenExchange
  report : TransportReport
  arrived : List Acknowledgement
deriving DecidableEq

/-- The vigil of a sender that has not looked yet. -/
def Departure.watch (d : Departure) : Watch where
  now := d.exchange.startedAt
  vigil := match d.report with
    | .error cause => .closed (.error (.transport d.exchange.messageId cause))
    | .ok (some fault) => .closed (.error (.rejected d.exchange.messageId fault.detail))
    | .ok none =>
      .waiting (d.exchange.advance [.transmitted, .awaitingSubmission]) d.exchange.startedAt
        (d.arrived.foldl Vigil.post fun _ => none)

theorem Departure.limited_watch (d : Departure) (h : 0 < d.exchange.limit) : d.watch.Limited := by
  obtain ⟨x, report, arrived⟩ := d
  rcases report with cause | fault | fault
  · trivial
  · exact h
  · trivial

theorem Departure.sound_watch {mine : String → Prop} {p : Retention} (d : Departure)
    (hcovered : d.exchange.Covered mine p)
    (hnamed : ∀ a ∈ d.arrived, ∀ relay, a.Accepts relay → mine relay) : d.watch.Sound mine p := by
  obtain ⟨x, report, arrived⟩ := d
  rcases report with cause | fault | fault
  · trivial
  · refine Vigil.Sound.posts ⟨hcovered.advance _, Nat.le_refl _, Nat.le_add_right _ _,
      fun a ha => ?_⟩ hnamed
    simp at ha
  · trivial

/-- The first turn of a sender, if it transmits. -/
def ServiceState.departure? (mine : String → Prop) [DecidablePred mine] (s : ServiceState)
    (now : Nat) (id : TaskId) (r : SendRequest) : Option Departure :=
  match r.route.endpoint with
  | .error _ => none
  | .ok endpoint =>
    let (stamp, s) := s.countStart.takeStamp
    match s.agreement.prepare stamp r.route r.message with
    | .error _ => none
    | .ok prepared =>
      let t : Transmission := ⟨id, prepared, endpoint⟩
      let (s, x) := s.advance id (s.opening now r prepared) [.prepared]
      some ⟨x, (s.handOver now t r.reply).report,
        (s.handOverDeeds now t r.reply).filterMap (Deed.arrival? mine)⟩

/-- The turn of a task, if a sender transmits at it. -/
def Service.departure? (mine : String → Prop) [DecidablePred mine] (s : Service) (id : TaskId) :
    Option Departure :=
  match s.scheduler.task? id with
  | some (.sending r) =>
    if id ∈ s.scheduler.aborted then none else s.state.departure? mine s.now id r
  | _ => none

/-- What is done at a departure. -/
structure Departs (mine : String → Prop) [DecidablePred mine] (s : ServiceState) (now : Nat)
    (id : TaskId) (r : SendRequest) (d : Departure) (v : ServiceState) (t : Transmission) :
    Prop where
  table : v.table = s.table
  startedAt : d.exchange.startedAt = now
  unnamed : d.exchange.relayMessageId = none
  report : d.report = (v.handOver now t r.reply).report
  arrived : d.arrived = (v.handOverDeeds now t r.reply).filterMap (Deed.arrival? mine)
  deeds : s.sendingDeeds now id r = v.handOverDeeds now t r.reply ++
    ServiceState.reportDeeds now id d.exchange (v.handOver now t r.reply)
  turn : s.beginExchange now id r =
    ServiceState.afterHandover now id d.exchange (v.handOver now t r.reply)

section Turn

variable {mine : String → Prop} [DecidablePred mine] {now : Nat} {id : TaskId} {r : SendRequest}
  {d : Departure}

theorem ServiceState.departs {s : ServiceState} (h : s.departure? mine now id r = some d) :
    ∃ v t, Departs mine s now id r d v t := by
  unfold departure? at h
  cases hroute : r.route.endpoint with
  | error cause => simp [hroute] at h
  | ok endpoint =>
    simp only [hroute] at h
    cases hprepare : s.countStart.takeStamp.2.agreement.prepare s.countStart.takeStamp.1 r.route
      r.message with
    | error cause => simp [hprepare] at h
    | ok prepared =>
      simp only [hprepare, Option.some.injEq] at h
      subst h
      let v := s.countStart.takeStamp.2
      refine ⟨(v.advance id (v.opening now r prepared) [.prepared]).1, ⟨id, prepared, endpoint⟩,
        rfl, rfl, rfl, rfl, rfl, ?_, ?_⟩
      · simp only [sendingDeeds, hroute, hprepare]
        rfl
      · simp only [beginExchange, hroute, hprepare]
        rfl

/-- The vigil that begins tells what comes of the turn. -/
theorem Departs.describes {s v : ServiceState} {t : Transmission} {p : Retention} {crowd : Crowd}
    {queue : List TaskId} (h : Departs mine s now id r d v t)
    (hsound : d.watch.Sound mine p)
    (hinbox : Inbox mine now (d.arrived.foldl Vigil.post fun _ => none)
      (v.handOver now t r.reply).state.table)
    (hhosts : (v.handOver now t r.reply).state.table.Hosts crowd queue)
    (hid : d.report = .ok none → id ∉ crowd.map Prod.fst) :
    d.watch.look.vigil.Describes mine (s.beginExchange now id r).shared
      (s.beginExchange now id r).next := by
  rw [h.turn]
  obtain ⟨x, report, arrived⟩ := d
  obtain rfl : x.startedAt = now := h.startedAt
  obtain rfl : report = _ := h.report
  unfold ServiceState.afterHandover
  generalize v.handOver x.startedAt t r.reply = handover at *
  simp only [Departure.watch, Watch.look]
  cases hreport : handover.report with
  | error cause => rfl
  | ok fault =>
    cases fault with
    | some fault => rfl
    | none =>
      simp only [Departure.watch, Watch.Sound, hreport] at hsound
      let advanced := handover.state.advance id x [.transmitted, .awaitingSubmission]
      exact Vigil.describes_fetch (s := advanced.1) h.unnamed hsound hinbox hhosts (hid hreport)

end Turn

namespace Service

variable {mine : String → Prop} [DecidablePred mine] {settings : ExchangeSettings}
  {gateway : Option Gateway} {draws : Draws} {moves : List Move} {id : TaskId} {d : Departure}

theorem departs {s : Service} (h : s.departure? mine id = some d) : ∃ r v t,
    s.scheduler.task? id = some (.sending r) ∧ id ∉ s.scheduler.aborted ∧
      Departs mine s.state s.now id r d v t ∧
      s.deeds (.turn id) = v.handOverDeeds s.now t r.reply ++
        ServiceState.reportDeeds s.now id d.exchange (v.handOver s.now t r.reply) := by
  unfold departure? at h
  split at h
  · next r htask =>
    split at h
    · simp at h
    · next ha =>
      obtain ⟨v, t, hdeparts⟩ := ServiceState.departs h
      refine ⟨r, v, t, htask, ha, hdeparts, ?_⟩
      rw [deeds_attended htask ha]
      exact hdeparts.deeds
  · simp at h

/-- Before its first turn nothing lies in the table for a sender, if nothing has arrived for it. -/
theorem inbox_of_sending {r : SendRequest}
    (htask : ((opened settings gateway draws).run moves).scheduler.task? id = some (.sending r))
    (hyields : ∀ e ∈ (opened settings gateway draws).trace moves, e.2.Yields mine id)
    (hquiet : ∀ e ∈ (opened settings gateway draws).trace moves, e.2.arrival? mine = none)
    (since : Nat) :
    Inbox mine since (fun _ => none) (replay (.empty settings.sweep.retention)
      ((opened settings gateway draws).trace moves)) := by
  have hjournal := ((chronicled_run settings gateway draws moves).tasks _
    (Scheduler.mem_of_lookup htask)).2.1
  rw [journal, List.filter_eq_nil_iff] at hjournal
  have hstart : Inbox mine since (fun _ => none) (replay (.empty settings.sweep.retention) []) :=
    .empty mine since settings.sweep.retention
  have hall := hstart.foreign_deeds (fun _ hkey => hkey)
    (consistent_run settings gateway draws moves) hyields ?leaves ?arrives ?sweeps
  case leaves => exact fun e he htask => absurd (decide_eq_true htask) (hjournal e he)
  case arrives =>
    intro e he a ha
    simp [hquiet e he] at ha
  case sweeps => exact fun e he asOf _ => .inr ⟨fun _ _ => rfl, hquiet⟩
  rwa [List.filterMap_eq_nil_iff.mpr hquiet] at hall

/-- The transport's part of a turn is the end of the history so far. -/
theorem table_handOver {v : ServiceState} {clock : Clock} {p : Retention}
    {es : List (Clock × Deed)} (h : v.table = replay (.empty p) es) (t : Transmission)
    (reply : ArrangedReply) : (v.handOver clock.now t reply).state.table =
      replay (.empty p) (es ++ (v.handOverDeeds clock.now t reply).map fun d => (clock, d)) := by
  rw [replay_append, replay_turn, ← h]
  exact (v.enacts_handOver clock t reply).table

/-- What arrives while the message is with the transport lies in the table then. -/
theorem inbox_handOver (v : ServiceState) {clock : Clock} {p : Retention}
    {es : List (Clock × Deed)} {t : Transmission} {reply : ArrangedReply}
    (h : Inbox mine clock.now (fun _ => none) (replay (.empty p) es))
    (hc : Consistent p (es ++ (v.handOverDeeds clock.now t reply).map fun d => (clock, d)))
    (hyields : ∀ e ∈ es ++ (v.handOverDeeds clock.now t reply).map fun d => (clock, d),
      e.2.Yields mine id) :
    Inbox mine clock.now (((v.handOverDeeds clock.now t reply).filterMap
        (Deed.arrival? mine)).foldl Vigil.post fun _ => none)
      (replay (.empty p) (es ++ (v.handOverDeeds clock.now t reply).map fun d => (clock, d))) := by
  obtain ⟨as, has⟩ := v.handOverDeeds_eq clock.now t reply
  have hinbox := h.foreign_deeds (fun _ hkey => hkey) hc hyields ?leaves ?arrives ?sweeps
  case leaves =>
    rw [has]
    simp [Deed.taken?]
  case arrives =>
    intro e he a _
    obtain ⟨d, -, rfl⟩ := List.mem_map.mp he
    exact Nat.le_refl _
  case sweeps =>
    rw [has]
    simp
  rwa [List.filterMap_map] at hinbox

/-- After its departure a sender keeps its vigil. -/
theorem keeps_departure
    (hd : ((opened settings gateway draws).run moves).departure? mine id = some d)
    (hyields : ∀ e ∈ (opened settings gateway draws).trace (moves ++ [.turn id]),
      e.2.Yields mine id)
    (hquiet : ∀ e ∈ (opened settings gateway draws).trace moves, e.2.arrival? mine = none)
    (hcovered : d.exchange.Covered mine settings.sweep.retention)
    (hnamed : ∀ e ∈ (opened settings gateway draws).trace (moves ++ [.turn id]), ∀ a,
      e.2.arrival? mine = some a → ∀ relay, a.Accepts relay → mine relay) :
    Keeps mine settings.sweep.retention
      ((opened settings gateway draws).run (moves ++ [.turn id])) id d.watch.look := by
  obtain ⟨r, v, t, htask, ha, hdeparts, hdeeds⟩ := departs hd
  have hn := numbered_run settings gateway draws moves
  have hbefore := (accounts_run (opened settings gateway draws) moves).table
  have hc := consistent_run settings gateway draws (moves ++ [.turn id])
  have hnow := now_move ((opened settings gateway draws).run moves) (.turn id)
  rw [trace_concat, hdeeds, List.map_append, ← List.append_assoc] at hc hyields hnamed
  have hquietly := inbox_of_sending htask (fun e he => hyields e (List.mem_append_left _
    (List.mem_append_left _ he))) hquiet ((opened settings gateway draws).run moves).now
  rw [run_concat]
  generalize (opened settings gateway draws).run moves = s at *
  have hhandOver : (v.handOver s.now t r.reply).state.table =
      replay (.empty settings.sweep.retention) ((opened settings gateway draws).trace moves ++
        (v.handOverDeeds s.now t r.reply).map fun d => (s.scheduler.clock, d)) :=
    table_handOver (hdeparts.table.trans hbefore) t r.reply
  have hinbox := inbox_handOver v hquietly hc.of_append
    fun e he => hyields e (List.mem_append_left _ he)
  obtain ⟨queue, hhosts⟩ := hc.of_append.hosts
  rw [← hhandOver] at hhosts
  have hsound := d.sound_watch hcovered fun a ha => by
    rw [hdeparts.arrived] at ha
    obtain ⟨e, he, ha⟩ := List.mem_filterMap.mp ha
    exact hnamed (s.scheduler.clock, e) (List.mem_append_left _ (List.mem_append_right _
      (List.mem_map_of_mem he))) a ha
  refine ⟨?_, hsound.look, follows_of_describes hn htask ha ?_⟩
  · exact hdeparts.startedAt.trans hnow.symm
  · refine hdeparts.describes hsound (hdeparts.arrived ▸ hhandOver ▸ hinbox) hhosts
      fun hreport => ?_
    obtain ⟨rest, hrest⟩ : ∃ rest, ServiceState.reportDeeds s.now id d.exchange
        (v.handOver s.now t r.reply) = ServiceState.fetchDeed _ s.now id d.exchange.messageId
          d.exchange.limit :: rest := by
      rw [ServiceState.reportDeeds, ← hdeparts.report, hreport]
      exact ⟨_, rfl⟩
    rw [hrest] at hc
    exact hc.admitted _ (s.scheduler.clock, _) _ rfl

end Service
end EbmsMessaging
