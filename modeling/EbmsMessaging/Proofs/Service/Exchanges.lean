import EbmsMessaging.Proofs.Envelope.Business
import EbmsMessaging.Proofs.Service.Course
import EbmsMessaging.Proofs.Service.Trace

/-!
# Every exchange takes its course

The history of a request is told by the journal of its sender and by the changes of stage that it
reported. If the request is refused there are none of either. Otherwise the message that was prepared
for it was transmitted once and a course followed, from stage to stage. In every run, every exchange
that has ended has such a history.
-/
namespace EbmsMessaging

open Correlation

namespace Sender

/-- A request leads to a transmission. -/
structure Sends (settings : ExchangeSettings) (id : TaskId) (r : SendRequest) (t : Transmission) :
    Prop where
  task : t.task = id
  route : r.route.endpoint = .ok t.endpoint
  message : ∃ stamp, settings.agreement.prepare stamp r.route r.message = .ok t.message

/-- How long a sender waits for each acknowledgement. -/
def limitOf (settings : ExchangeSettings) (r : SendRequest) : Nat :=
  r.limit.getD settings.waitMs.toNat

section Histories

variable (settings : ExchangeSettings) (id : TaskId) (r : SendRequest)

/-- All that was done and reported for a request, and the result. An exchange lasts from its first
deed to its last one. -/
inductive History : List (Clock × Deed) → List StageChange → Except ExchangeFailure Confirmation →
    Prop where
  | unusableRoute {cause : RouteError} (h : r.route.endpoint = .error cause) :
    History [] [] (.error (.unusableRoute cause))
  | noPayloads {endpoint : Endpoint} (h : r.route.endpoint = .ok endpoint)
    (hm : r.message.payloads = []) : History [] [] (.error (.preparation .noPayloads))
  | sent {t : Transmission} {journal : List (Clock × Deed)} {trail : List StageChange}
    {first last : Clock × Deed} {result : Except ExchangeFailure Confirmation}
    (h : Sends settings id r t)
    (hfirst : journal.head? = some first) (hlast : journal.getLast? = some last)
    (hcourse : Course id (limitOf settings r) t (last.1.now - first.1.now) (journal.map Prod.snd)
      result)
    (htrail : trail = StageChange.along id t.message.messageId (ExchangeStage.passed result)) :
    History journal trail result

/-- A sender waits, and this was done and reported so far. -/
inductive InFlight : List (Clock × Deed) → List StageChange → OpenExchange → Wait → Prop where
  | sent {t : Transmission} {journal : List (Clock × Deed)} {trail : List StageChange}
    {first : Clock × Deed} {x : OpenExchange} {w : Wait} (h : Sends settings id r t)
    (hfirst : journal.head? = some first)
    (hunderway : Underway id (limitOf settings r) t first.1.now (journal.map Prod.snd) x w)
    (htrail : trail = StageChange.along id t.message.messageId x.passed) :
    InFlight journal trail x w

/-- What a sender does next continues its history. -/
def Told (journal : List (Clock × Deed)) (trail : List StageChange) :
    Next ServiceTask ServiceResult → Prop
  | .ended (.exchanged result) => History settings id r journal trail result
  | .sleeping (.awaiting x w) _ => InFlight settings id r journal trail x w
  | .resting (.awaiting x w) => InFlight settings id r journal trail x w
  | _ => False

end Histories

section Turns

variable {settings : ExchangeSettings} {id : TaskId} {r : SendRequest}
  {journal : List (Clock × Deed)} {trail : List StageChange}

theorem History.tracked {result : Except ExchangeFailure Confirmation}
    (h : History settings id r journal trail result) :
    Tracked (journal.map Prod.snd) result := by
  cases h with
  | unusableRoute _ => exact ⟨rfl, rfl⟩
  | noPayloads _ _ => exact ⟨rfl, rfl⟩
  | sent _ _ _ hcourse _ => exact hcourse.tracked

theorem told_of_leads {t : Transmission} {first last : Clock × Deed} {stages : List ExchangeStage}
    {next : Next ServiceTask ServiceResult} (h : Sends settings id r t)
    (hfirst : journal.head? = some first) (hlast : journal.getLast? = some last)
    (hleads : Leads id (limitOf settings r) t first.1.now last.1.now (journal.map Prod.snd) stages
      next) :
    Told settings id r journal (StageChange.along id t.message.messageId stages) next := by
  cases next with
  | ended result =>
    cases result with
    | exchanged result =>
      obtain ⟨hcourse, rfl⟩ := hleads
      exact .sent h hfirst hlast hcourse rfl
    | _ => exact hleads.elim
  | sleeping task alarm =>
    cases task with
    | awaiting x w =>
      obtain ⟨hunderway, rfl⟩ := hleads
      exact .sent h hfirst hunderway rfl
    | _ => exact hleads.elim
  | resting task =>
    cases task with
    | awaiting x w =>
      obtain ⟨hunderway, rfl⟩ := hleads
      exact .sent h hfirst hunderway rfl
    | _ => exact hleads.elim

/-- A sender that goes on has ended its exchange, or it waits. -/
theorem Told.cases {next : Next ServiceTask ServiceResult}
    (h : Told settings id r journal trail next) :
    (∃ result, next = .ended (.exchanged result) ∧ History settings id r journal trail result) ∨
      ∃ x w, next.task? = some (.awaiting x w) ∧ next.result? = none ∧
        InFlight settings id r journal trail x w := by
  cases next with
  | ended result =>
    cases result with
    | exchanged result => exact .inl ⟨result, rfl, h⟩
    | _ => exact h.elim
  | sleeping task alarm =>
    cases task with
    | awaiting x w => exact .inr ⟨x, w, rfl, rfl, h⟩
    | _ => exact h.elim
  | resting task =>
    cases task with
    | awaiting x w => exact .inr ⟨x, w, rfl, rfl, h⟩
    | _ => exact h.elim

/-- A sender reports its own changes only, and all of them are legal. -/
theorem Told.legal {next : Next ServiceTask ServiceResult}
    (h : Told settings id r journal trail next) :
    ∀ c ∈ trail, c.task = id ∧ c.before.leadsTo c.after := by
  have halong (messageId : String) {stages : List ExchangeStage}
      (hchain : stages.IsChain fun s t => s.leadsTo t) :
      ∀ c ∈ StageChange.along id messageId stages, c.task = id ∧ c.before.leadsTo c.after :=
    fun _ hc => ⟨StageChange.task_of_mem_along hc, StageChange.leadsTo_of_mem_along hchain hc⟩
  rcases h.cases with ⟨result, -, hhistory⟩ | ⟨x, w, -, -, hflight⟩
  · cases hhistory with
    | unusableRoute _ => exact List.forall_mem_nil _
    | noPayloads _ _ => exact List.forall_mem_nil _
    | sent _ _ _ _ htrail => exact htrail ▸ halong _ (ExchangeStage.isChain_passed result)
  · obtain ⟨-, -, -, rfl⟩ := hflight
    exact halong _ x.isChain_passed

theorem map_snd_turn (clock : Clock) (ds : List Deed) :
    (ds.map fun d => (clock, d)).map Prod.snd = ds := by
  rw [List.map_map]
  exact List.map_id' ds

/-- The last entry of a journal that grows by the deeds of one turn has the clock of this turn. -/
theorem getLast?_append_turn (journal : List (Clock × Deed)) (clock : Clock) (d : Deed)
    (ds : List Deed) : ∃ e : Deed,
      (journal ++ (d :: ds).map fun d => (clock, d)).getLast? = some (clock, e) := by
  obtain ⟨es, e, heq⟩ := (d :: ds).eq_nil_or_concat'.resolve_left (List.cons_ne_nil d ds)
  refine ⟨e, ?_⟩
  rw [heq, List.map_append, ← List.append_assoc]
  exact List.getLast?_concat

/-- What a sender does at its turn, and what it reports then, continues its history. -/
theorem told_of_proceeds {t : Transmission} {first last : Clock × Deed} {s : ServiceState}
    {stages : List ExchangeStage} {turn : ServiceTurn} (h : Sends settings id r t)
    (hfirst : journal.head? = some first) (hlast : journal.getLast? = some last)
    (hproceeds : Proceeds id (limitOf settings r) t first.1.now last.1.now
      (journal.map Prod.snd) s stages (turn.shared, turn.next)) :
    ∃ more, turn.shared.stageChanges = s.stageChanges ++ more ∧
      Told settings id r journal (StageChange.along id t.message.messageId stages ++ more)
        turn.next := by
  obtain ⟨more, stages', hchanges, halong, hleads⟩ := hproceeds
  exact ⟨more, hchanges, halong ▸ told_of_leads h hfirst hlast hleads⟩

theorem prepare_eq (a : Agreement) (stamp : Stamp) (route : Route) (m : BusinessMessage) :
    (m.payloads = [] ∧ a.prepare stamp route m = .error .noPayloads) ∨
      ∃ prepared, a.prepare stamp route m = .ok prepared := by
  unfold Agreement.prepare
  by_cases h : m.payloads = []
  · exact .inl ⟨h, if_pos h⟩
  · exact .inr ⟨_, if_neg h⟩

/-- A sender has its first turn. -/
theorem told_beginExchange (s : ServiceState) (clock : Clock) (id : TaskId) (r : SendRequest) :
    ∃ more, (s.beginExchange clock.now id r).shared.stageChanges = s.stageChanges ++ more ∧
      Told s.settings id r ((own id (s.sendingDeeds clock.now id r)).map fun d => (clock, d)) more
        (s.beginExchange clock.now id r).next := by
  unfold ServiceState.sendingDeeds ServiceState.beginExchange
  cases hroute : r.route.endpoint with
  | error cause => exact ⟨[], (List.append_nil _).symm, .unusableRoute hroute⟩
  | ok endpoint =>
    simp only
    rcases prepare_eq s.countStart.takeStamp.2.agreement s.countStart.takeStamp.1 r.route r.message
      with ⟨hm, heq⟩ | ⟨prepared, heq⟩
    · simp only [heq]
      exact ⟨[], (List.append_nil _).symm, .noPayloads hroute hm⟩
    · simp only [heq]
      let t : Transmission := ⟨id, prepared, endpoint⟩
      let x := s.countStart.takeStamp.2.opening clock.now r prepared
      let v := (s.countStart.takeStamp.2.advance id x [.prepared]).1
      have hown : ∀ ds : List Deed, (∀ d ∈ ds, d.task? = some id) →
          own id (v.handOverDeeds clock.now t r.reply ++ ds) =
            .transmitted t (v.handOver clock.now t r.reply).report :: ds := by
        intro ds hds
        have htransmitted := v.own_handOverDeeds clock.now t r.reply
        have hrest := own_eq_self hds
        rw [own] at htransmitted hrest
        rw [own, List.filter_append, hrest]
        exact congrArg (· ++ ds) htransmitted
      rw [hown _ (ServiceState.task?_of_mem_reportDeeds clock.now id _ _)]
      obtain ⟨e, hlast⟩ := getLast?_append_turn [] clock
        (.transmitted t (v.handOver clock.now t r.reply).report)
        (ServiceState.reportDeeds clock.now id (x.advance [.prepared])
          (v.handOver clock.now t r.reply))
      have hsends : Sends s.settings id r t := ⟨rfl, hroute, _, heq⟩
      let turn := ServiceState.afterHandover clock.now id (x.advance [.prepared])
        (v.handOver clock.now t r.reply)
      have hproceeds : Proceeds id (limitOf s.settings r) t clock.now clock.now _ s [.created]
          (turn.shared, turn.next) :=
        .advanced x [.prepared] rfl ((proceeds_afterHandover clock.now _).of_same
          (v.stageChanges_handOver clock.now t r.reply))
      rw [← map_snd_turn clock (Deed.transmitted t _ :: _)] at hproceeds
      exact told_of_proceeds hsends rfl hlast hproceeds

/-- A sender that waits has its turn. -/
theorem InFlight.told {x : OpenExchange} {w : Wait}
    (h : InFlight settings id r journal trail x w) (s : ServiceState) (clock : Clock) :
    ∃ more, (s.resumeExchange clock id x w).shared.stageChanges = s.stageChanges ++ more ∧
      Told settings id r (journal ++ (s.resumeDeeds clock id x w).map fun d => (clock, d))
        (trail ++ more) (s.resumeExchange clock id x w).next := by
  obtain @⟨t, journal, _, first, _, _, hsends, hfirst, hunderway, rfl⟩ := h
  obtain ⟨e, hlast⟩ : ∃ e : Deed, (journal ++ (s.resumeDeeds clock id x w).map
      fun d => (clock, d)).getLast? = some (clock, e) := getLast?_append_turn journal clock _ _
  have hfirst' : (journal ++ (s.resumeDeeds clock id x w).map fun d => (clock, d)).head? =
      some first := by
    rw [List.head?_append, hfirst]
    rfl
  refine told_of_proceeds hsends hfirst' hlast ?_
  rw [List.map_append, map_snd_turn]
  exact hunderway.proceeds s clock

end Turns
end Sender

namespace Service

open Sender

/-- A message was requested to be sent, and this is the task that was started for it. -/
def Requested (s : Service) (moves : List Move) (id : TaskId) (r : SendRequest) : Prop :=
  ∃ before, before ++ [.send r] <+: moves ∧ (s.run before).scheduler.nextTask = id

/-- The changes of stage that a task has reported. -/
def trail (s : Service) (moves : List Move) (id : TaskId) : List StageChange :=
  (s.run moves).state.stageChanges.filter fun c => c.task = id

/-- What is known of a task. -/
def Known (s : Service) (moves : List Move) (id : TaskId) : ServiceTask → Prop
  | .sending r => s.Requested moves id r ∧ s.journal moves id = [] ∧ s.trail moves id = []
  | .awaiting x w => ∃ r, s.Requested moves id r ∧
      InFlight s.state.settings id r (s.journal moves id) (s.trail moves id) x w
  | _ => True

/-- What is known of a result. -/
def Ended (s : Service) (moves : List Move) (id : TaskId) : ServiceResult → Prop
  | .exchanged result => ∃ r, s.Requested moves id r ∧
      History s.state.settings id r (s.journal moves id) (s.trail moves id) result
  | _ => True

/-- What is known after a run. -/
structure Chronicled (s : Service) (moves : List Move) : Prop where
  fresh : ∀ id, (s.run moves).scheduler.nextTask ≤ id →
    s.journal moves id = [] ∧ s.trail moves id = []
  tasks : ∀ e ∈ (s.run moves).scheduler.tasks, s.Known moves e.1 e.2
  results : ∀ e ∈ (s.run moves).scheduler.results, s.Ended moves e.1 e.2
  legal : ∀ c ∈ (s.run moves).state.stageChanges, c.before.leadsTo c.after

/-- At a move a task does nothing and reports nothing. -/
structure Silent (s : Service) (moves : List Move) (m : Move) (id : TaskId) : Prop where
  journal : s.journal (moves ++ [m]) id = s.journal moves id
  trail : s.trail (moves ++ [m]) id = s.trail moves id

section Moves

variable {s : Service} {moves : List Move} {m : Move} {id : TaskId}

theorem Requested.mono {r : SendRequest} (h : s.Requested moves id r) (m : Move) :
    s.Requested (moves ++ [m]) id r := by
  obtain ⟨before, hbefore, hid⟩ := h
  exact ⟨before, hbefore.trans (List.prefix_append moves [m]), hid⟩

theorem Known.mono {task : ServiceTask} (h : s.Known moves id task)
    (hsilent : s.Silent moves m id) : s.Known (moves ++ [m]) id task := by
  cases task with
  | sending r => exact ⟨h.1.mono m, hsilent.journal.trans h.2.1, hsilent.trail.trans h.2.2⟩
  | awaiting x w =>
    obtain ⟨r, hr, hflight⟩ := h
    exact ⟨r, hr.mono m, hsilent.journal ▸ hsilent.trail ▸ hflight⟩
  | _ => trivial

theorem Ended.mono {result : ServiceResult} (h : s.Ended moves id result)
    (hsilent : s.Silent moves m id) : s.Ended (moves ++ [m]) id result := by
  cases result with
  | exchanged result =>
    obtain ⟨r, hr, hhistory⟩ := h
    exact ⟨r, hr.mono m, hsilent.journal ▸ hsilent.trail ▸ hhistory⟩
  | _ => trivial

/-- Of all that is reported at a move a trail grows by the task's own part. -/
theorem trail_concat {more : List StageChange} (h : (s.run (moves ++ [m])).state.stageChanges =
      (s.run moves).state.stageChanges ++ more) (id : TaskId) :
    s.trail (moves ++ [m]) id = s.trail moves id ++ more.filter fun c => c.task = id := by
  rw [trail, h, List.filter_append]
  rfl

/-- Where no task has a turn all are silent. -/
theorem silent_of_not_turn (hm : ∀ id, m ≠ .turn id) (id : TaskId) : s.Silent moves m id where
  journal := journal_other s moves (hm id)
  trail := by rw [trail, run_concat, stageChanges_move _ hm, trail]

/-- What a sender does next is known. -/
theorem known_of_told {r : SendRequest} (hr : s.Requested moves id r)
    {next : Next ServiceTask ServiceResult}
    (h : Told s.state.settings id r (s.journal moves id) (s.trail moves id) next) :
    (∀ t, next.task? = some t → s.Known moves id t) ∧
      ∀ result, next.result? = some result → s.Ended moves id result := by
  rcases h.cases with ⟨result, rfl, hhistory⟩ | ⟨x, w, htask, hnone, hflight⟩
  · refine ⟨fun t ht => by simp [Next.task?] at ht, fun result' hresult => ?_⟩
    obtain rfl := Option.some.inj hresult
    exact ⟨r, hr, hhistory⟩
  · refine ⟨fun t ht => ?_, fun result hresult => by simp [hnone] at hresult⟩
    rw [htask, Option.some.injEq] at ht
    exact ht ▸ ⟨r, hr, hflight⟩

/-- Tasks that are no senders never become senders. -/
theorem known_of_other {next : Next ServiceTask ServiceResult}
    (htask : ∀ t, next.task? = some t → (∀ r, t ≠ .sending r) ∧ ∀ x w, t ≠ .awaiting x w)
    (hresult : ∀ result, next.result? = some result → ∀ e, result ≠ .exchanged e) :
    (∀ t, next.task? = some t → s.Known moves id t) ∧
      ∀ result, next.result? = some result → s.Ended moves id result := by
  refine ⟨fun t ht => ?_, fun result hr => ?_⟩
  · cases t with
    | sending r => exact absurd rfl ((htask _ ht).1 r)
    | awaiting x w => exact absurd rfl ((htask _ ht).2 x w)
    | _ => trivial
  · cases result with
    | exchanged e => exact absurd rfl (hresult _ hr e)
    | _ => trivial

/-- What a sender does and reports at its turn continues its history. -/
theorem Known.proceeds {task : ServiceTask} (h : s.Known moves id task) (hsender : task.IsSender)
    (htask : (s.run moves).scheduler.task? id = some task)
    (ha : id ∉ (s.run moves).scheduler.aborted) :
    ∃ r more, s.Requested moves id r ∧
      (s.run (moves ++ [.turn id])).state.stageChanges =
        (s.run moves).state.stageChanges ++ more ∧
      Told s.state.settings id r (s.journal (moves ++ [.turn id]) id) (s.trail moves id ++ more)
        (ServiceTask.behaviour.turn (s.run moves).scheduler.clock id task
          (s.run moves).scheduler.shared).next := by
  have hjournal := journal_attended htask ha
  have hsettings : (s.run moves).state.settings = s.state.settings :=
    (accounts_run s moves).settings
  have hstate := state_attended htask ha
  rw [← run_concat] at hstate
  cases task with
  | sending r =>
    obtain ⟨hr, hempty, hunreported⟩ := h
    obtain ⟨more, hchanges, htold⟩ :=
      told_beginExchange (s.run moves).state (s.run moves).scheduler.clock id r
    refine ⟨r, more, hr, hstate ▸ hchanges, ?_⟩
    rw [hjournal, hempty, hunreported, List.nil_append, List.nil_append, ← hsettings]
    exact htold
  | awaiting x w =>
    obtain ⟨r, hr, hflight⟩ := h
    obtain ⟨more, hchanges, htold⟩ :=
      hflight.told (s.run moves).state (s.run moves).scheduler.clock
    refine ⟨r, more, hr, hstate ▸ hchanges, ?_⟩
    have hown :
        own id ((s.run moves).state.deeds (s.run moves).scheduler.clock id (.awaiting x w)) =
          (s.run moves).state.resumeDeeds (s.run moves).scheduler.clock id x w :=
      own_eq_self (ServiceState.task?_of_mem_resumeDeeds _ _ id x w)
    rw [hjournal, hown]
    exact htold
  | _ => exact hsender.elim

/-- What a sender reports at its turn is its own. -/
theorem Known.told {task : ServiceTask} (h : s.Known moves id task) (hsender : task.IsSender)
    (htask : (s.run moves).scheduler.task? id = some task)
    (ha : id ∉ (s.run moves).scheduler.aborted) :
    ∃ r, s.Requested moves id r ∧
      Told s.state.settings id r (s.journal (moves ++ [.turn id]) id)
        (s.trail (moves ++ [.turn id]) id)
        (ServiceTask.behaviour.turn (s.run moves).scheduler.clock id task
          (s.run moves).scheduler.shared).next := by
  obtain ⟨r, more, hr, hchanges, htold⟩ := h.proceeds hsender htask ha
  have hown : (more.filter fun c => c.task = id) = more :=
    List.filter_eq_self.mpr fun c hc =>
      decide_eq_true (htold.legal c (List.mem_append_right _ hc)).1
  refine ⟨r, hr, ?_⟩
  rw [trail_concat hchanges, hown]
  exact htold

/-- All changes that are reported at the turn of a task are its own, and legal. -/
theorem Known.reports {task : ServiceTask} (h : s.Known moves id task)
    (htask : (s.run moves).scheduler.task? id = some task)
    (ha : id ∉ (s.run moves).scheduler.aborted) :
    ∃ more, (s.run (moves ++ [.turn id])).state.stageChanges =
        (s.run moves).state.stageChanges ++ more ∧
      ∀ c ∈ more, c.task = id ∧ c.before.leadsTo c.after := by
  by_cases hsender : task.IsSender
  · obtain ⟨r, more, -, hchanges, htold⟩ := h.proceeds hsender htask ha
    exact ⟨more, hchanges, fun c hc => htold.legal c (List.mem_append_right _ hc)⟩
  · refine ⟨[], ?_, List.forall_mem_nil _⟩
    rw [run_concat, state_attended htask ha, List.append_nil]
    exact ServiceState.stageChanges_turn _ _ id hsender

/-- What a task does next is known. -/
theorem known_of_turn {task : ServiceTask} (h : s.Known moves id task)
    (htask : (s.run moves).scheduler.task? id = some task)
    (ha : id ∉ (s.run moves).scheduler.aborted) {next : Next ServiceTask ServiceResult}
    (hnext : next = (ServiceTask.behaviour.turn (s.run moves).scheduler.clock id task
      (s.run moves).scheduler.shared).next) :
    (∀ t, next.task? = some t → s.Known (moves ++ [.turn id]) id t) ∧
      ∀ result, next.result? = some result → s.Ended (moves ++ [.turn id]) id result := by
  subst hnext
  cases task with
  | sending r =>
    obtain ⟨r, hr, htold⟩ := h.told trivial htask ha
    exact known_of_told (hr.mono _) htold
  | awaiting x w =>
    obtain ⟨r, hr, htold⟩ := h.told trivial htask ha
    exact known_of_told (hr.mono _) htold
  | transmitting r =>
    refine known_of_other ?_ ?_ <;> simp only [ServiceTask.behaviour, ServiceState.transmitTo] <;>
      split <;> simp [Next.task?, Next.result?]
  | fetching key limit =>
    refine known_of_other ?_ ?_ <;> simp only [ServiceTask.behaviour, ServiceState.afterAttempt] <;>
      split <;> simp [Next.task?, Next.result?]
  | waiting w =>
    refine known_of_other ?_ ?_ <;> simp only [ServiceTask.behaviour, ServiceState.afterAttempt] <;>
      split <;> simp [Next.task?, Next.result?]
  | sweeping w =>
    refine known_of_other ?_ ?_ <;> simp only [ServiceTask.behaviour, ServiceState.afterTick] <;>
      split <;> simp [Next.task?, Next.result?]
  | answering a =>
    refine known_of_other ?_ ?_ <;>
      simp only [ServiceTask.behaviour, ServiceState.continueAnswer] <;>
      split <;> (try split) <;> (try split) <;> simp [Next.task?, Next.result?]

namespace Chronicled

/-- What is known stays known of all who are silent, so only the others have to be told. -/
theorem extend (h : Chronicled s moves) {v : Scheduling}
    (hv : (s.run (moves ++ [m])).scheduler = v)
    (hnext : (s.run moves).scheduler.nextTask ≤ v.nextTask)
    (hfresh : ∀ j, (s.run moves).scheduler.nextTask ≤ j → s.Silent moves m j)
    (htasks : ∀ e ∈ v.tasks, (e ∈ (s.run moves).scheduler.tasks ∧ s.Silent moves m e.1) ∨
      s.Known (moves ++ [m]) e.1 e.2)
    (hresults : ∀ e ∈ v.results, (e ∈ (s.run moves).scheduler.results ∧ s.Silent moves m e.1) ∨
      s.Ended (moves ++ [m]) e.1 e.2) {more : List StageChange}
    (hmore : (s.run (moves ++ [m])).state.stageChanges =
      (s.run moves).state.stageChanges ++ more)
    (hlegal : ∀ c ∈ more, c.before.leadsTo c.after) : Chronicled s (moves ++ [m]) := by
  subst hv
  constructor
  case fresh =>
    intro j hj
    have hlater := Nat.le_trans hnext hj
    have hsilent := hfresh j hlater
    exact ⟨hsilent.journal.trans (h.fresh j hlater).1, hsilent.trail.trans (h.fresh j hlater).2⟩
  case tasks =>
    intro e he
    rcases htasks e he with ⟨hold, hsilent⟩ | hknown
    · exact (h.tasks e hold).mono hsilent
    · exact hknown
  case results =>
    intro e he
    rcases hresults e he with ⟨hold, hsilent⟩ | hended
    · exact (h.results e hold).mono hsilent
    · exact hended
  case legal =>
    rw [hmore]
    exact List.forall_mem_append.mpr ⟨h.legal, hlegal⟩

/-- A move that is no turn adds to no journal and no trail, and may start a sender. -/
theorem passed (h : Chronicled s moves) (hm : ∀ id, m ≠ .turn id) :
    Chronicled s (moves ++ [m]) := by
  have hpassed := passed_of_not_turn (s.run moves) hm
  have hsilent : ∀ id, s.Silent moves m id := silent_of_not_turn hm
  have hchanges : (s.run (moves ++ [m])).state.stageChanges =
      (s.run moves).state.stageChanges ++ [] := by
    rw [run_concat, stageChanges_move _ hm, List.append_nil]
  have hv : (s.run (moves ++ [m])).scheduler = ((s.run moves).move m).scheduler := by
    rw [run_concat]
  refine h.extend hv hpassed.le_nextTask (fun j _ => hsilent j) (fun e he => ?_)
    (fun e he => .inl ⟨hpassed.results ▸ he, hsilent e.1⟩) hchanges (List.forall_mem_nil _)
  rw [hpassed.tasks, List.mem_append, List.mem_map] at he
  rcases he with he | ⟨t, ht, rfl⟩
  · exact .inl ⟨he, hsilent e.1⟩
  · refine .inr ?_
    obtain ⟨hempty, hunreported⟩ := h.fresh _ (Nat.le_refl (s.run moves).scheduler.nextTask)
    rw [Option.mem_toList] at ht
    cases t with
    | sending r =>
      cases m with
      | send r' =>
        obtain rfl : r' = r := by simpa [started?] using ht
        exact ⟨⟨moves, List.prefix_rfl, rfl⟩, (hsilent _).journal.trans hempty,
          (hsilent _).trail.trans hunreported⟩
      | _ => simp [started?] at ht
    | awaiting x w => cases m <;> simp [started?] at ht
    | _ => trivial

/-- What a task reports at its turn, if it has one, is its own. -/
theorem reports (h : Chronicled s moves) (id : TaskId) :
    ∃ more, (s.run (moves ++ [.turn id])).state.stageChanges =
        (s.run moves).state.stageChanges ++ more ∧
      ∀ c ∈ more, c.task = id ∧ c.before.leadsTo c.after := by
  cases htask : (s.run moves).scheduler.task? id with
  | none =>
    refine ⟨[], ?_, List.forall_mem_nil _⟩
    rw [run_concat, state_nobody htask, List.append_nil]
  | some task =>
    by_cases ha : id ∈ (s.run moves).scheduler.aborted
    · refine ⟨[], ?_, List.forall_mem_nil _⟩
      rw [run_concat, state_dropped htask ha, List.append_nil]
      exact ServiceState.stageChanges_drop _ _ id task
    · exact (h.tasks _ (Scheduler.mem_of_lookup htask)).reports htask ha

/-- At its turn a task goes on with its own history. -/
theorem turn (h : Chronicled s moves) (hn : Numbered (s.run moves).scheduler) (id : TaskId) :
    Chronicled s (moves ++ [.turn id]) := by
  obtain ⟨more, hmore, hown⟩ := h.reports id
  have hlegal : ∀ c ∈ more, c.before.leadsTo c.after := fun c hc => (hown c hc).2
  have hsilent : ∀ j ≠ id, s.Silent moves (.turn id) j := by
    intro j hj
    refine ⟨journal_other s moves fun heq => hj (Move.turn.inj heq).symm, ?_⟩
    have hnone : (more.filter fun c => c.task = j) = [] :=
      List.filter_eq_nil_iff.mpr fun c hc => by simp [(hown c hc).1, Ne.symm hj]
    rw [trail_concat hmore, hnone, List.append_nil]
  have hturned := hn.turned id
  rw [← scheduler_turn] at hturned
  generalize hv : (s.run (moves ++ [.turn id])).scheduler = v at hturned
  -- The number of the task is taken, and it has no result yet.
  have hlater {task : ServiceTask} (htask : (s.run moves).scheduler.task? id = some task)
      (j : TaskId) (hj : (s.run moves).scheduler.nextTask ≤ j) : s.Silent moves (.turn id) j :=
    hsilent j (Nat.ne_of_gt (Nat.lt_of_lt_of_le
      (hn.task_lt _ (Scheduler.mem_of_lookup htask)) hj))
  have hbefore {task : ServiceTask} (htask : (s.run moves).scheduler.task? id = some task)
      (e : TaskId × ServiceResult) (he : e ∈ (s.run moves).scheduler.results) :
      s.Silent moves (.turn id) e.1 := by
    refine hsilent e.1 fun heq => hn.ended e he ?_
    rw [heq]
    exact List.mem_map_of_mem (Scheduler.mem_of_lookup htask)
  cases hturned with
  | nobody hnone =>
    have hall (j : TaskId) : s.Silent moves (.turn id) j := by
      refine ⟨journal_nobody hnone j, ?_⟩
      rw [trail, run_concat, state_nobody hnone, trail]
    exact h.extend hv (Nat.le_refl _) (fun j _ => hall j) (fun e he => .inl ⟨he, hall e.1⟩)
      (fun e he => .inl ⟨he, hall e.1⟩) hmore hlegal
  | dropped task htask ha =>
    refine h.extend hv (Nat.le_refl _) (hlater htask) (fun e he => .inl ?_)
      (fun e he => .inl ⟨he, hbefore htask e he⟩) hmore hlegal
    obtain ⟨he, hne⟩ := List.mem_filter.mp he
    exact ⟨he, hsilent e.1 (of_decide_eq_true hne)⟩
  | attended task htask ha hturn =>
    have hknown := known_of_turn (h.tasks _ (Scheduler.mem_of_lookup htask)) htask ha rfl
    have hnext : (s.run moves).scheduler.nextTask ≤ v.nextTask := by
      rw [hturn.nextTask]
      exact Nat.le_add_right _ _
    refine h.extend hv hnext (hlater htask) (fun e he => ?_) (fun e he => ?_) hmore hlegal
    · rcases (Numbered.mem_tasks_attended hturn).mp he with he | ⟨heq, hown⟩ | ⟨he, hne⟩
      · obtain ⟨a, ha⟩ := started_of_turn _ id task _ e.2 (Scheduler.mem_numberedFrom he).2.2
        refine .inr ?_
        rw [ha]
        trivial
      · refine .inr ?_
        rw [heq]
        exact hknown.1 e.2 hown
      · exact .inl ⟨he, hsilent e.1 hne⟩
    · rcases (Numbered.mem_results_attended hturn).mp he with he | ⟨heq, hown⟩
      · exact .inl ⟨he, hbefore htask e he⟩
      · refine .inr ?_
        rw [heq]
        exact hknown.2 e.2 hown

end Chronicled

theorem chronicled_run (settings : ExchangeSettings) (gateway : Option Gateway) (draws : Draws)
    (moves : List Move) : Chronicled (opened settings gateway draws) moves := by
  induction moves using List.reverseRecOn with
  | nil => exact ⟨fun _ _ => ⟨rfl, rfl⟩, List.forall_mem_nil _, List.forall_mem_nil _,
      List.forall_mem_nil _⟩
  | append_singleton moves m ih =>
    by_cases hm : ∃ id, m = .turn id
    · obtain ⟨id, rfl⟩ := hm
      exact ih.turn (numbered_run settings gateway draws moves) id
    · exact ih.passed fun id heq => hm ⟨id, heq⟩

/-- No exchange ever goes on to a stage that may not follow on the one before. -/
theorem stage_changes_are_legal (settings : ExchangeSettings) (gateway : Option Gateway)
    (draws : Draws) (moves : List Move) :
    ∀ c ∈ ((opened settings gateway draws).run moves).state.stageChanges,
      c.before.leadsTo c.after :=
  (chronicled_run settings gateway draws moves).legal

end Moves

/-- Every exchange that has ended was requested, and took its course from there. The trace accounts
for all that happened to the correlation table and to the transport, the journal is the part of it
that the sender did, and the stages that lead to the result are those that the sender reported; they
follow on each other and fit the journal. -/
theorem ended_exchange_has_history (settings : ExchangeSettings) (gateway : Option Gateway)
    (draws : Draws) (moves : List Move) (id : TaskId)
    (result : Except ExchangeFailure Confirmation)
    (h : (id, .exchanged result) ∈
      ((opened settings gateway draws).run moves).scheduler.results) :
    Accounts (opened settings gateway draws).state ((opened settings gateway draws).trace moves)
        ((opened settings gateway draws).run moves).state ∧
      (∃ r, (opened settings gateway draws).Requested moves id r ∧
        History settings id r ((opened settings gateway draws).journal moves id)
          ((opened settings gateway draws).trail moves id) result) ∧
      Tracked (((opened settings gateway draws).journal moves id).map Prod.snd) result ∧
      (ExchangeStage.passed result).IsChain fun s t => s.leadsTo t := by
  obtain ⟨r, hr, hhistory⟩ := (chronicled_run settings gateway draws moves).results _ h
  exact ⟨accounts_run _ moves, ⟨r, hr, hhistory⟩, hhistory.tracked,
    ExchangeStage.isChain_passed result⟩

def sampleRequest (reply : ArrangedReply) : SendRequest :=
  ⟨Agreement.sampleRoute, Agreement.misleadingMessage, some 10, reply⟩

/-- A request of a sender that waits as long as it takes. -/
def patientRequest : SendRequest :=
  ⟨Agreement.sampleRoute, Agreement.misleadingMessage, some 0, .silence⟩

def sampleDraws : Draws :=
  ⟨fun _ => Agreement.sampleStamp.message, fun _ => Agreement.sampleStamp.timestamp, 0⟩

/-- Every identifier is another one than those before. -/
def countingDraws : Draws :=
  ⟨fun n => ⟨⟨n % (1 <<< 122), Nat.mod_lt n (by decide)⟩⟩,
    fun _ => Agreement.sampleStamp.timestamp, 0⟩

/-- The identifier that these draws give to a message. -/
def sampleId : String := "00000000-0000-4000-8000-000000000000@as4.exchange"

/-- The relay is refused while the message is still being transmitted. -/
def hastyReply : ArrangedReply :=
  ⟨[fun _ => .negative .relay "relayed" none ⟨"EBMS:0004", none, none, none⟩], fun _ => .ok none⟩

def hastyMoves : List Move :=
  [.send (sampleRequest hastyReply), .turn 0, .advance 3,
    .deposit (.positive .submission sampleId (some "relayed")), .turn 0]

theorem hasty_exchange_has_history :
    (0, .exchanged (.error (.relayFailed sampleId "relayed" ⟨"EBMS:0004", none, none, none⟩))) ∈
        ((opened .standard none sampleDraws).run hastyMoves).scheduler.results ∧
      ∃ r, (opened .standard none sampleDraws).Requested hastyMoves 0 r ∧
        History .standard 0 r ((opened .standard none sampleDraws).journal hastyMoves 0)
          ((opened .standard none sampleDraws).trail hastyMoves 0)
          (.error (.relayFailed sampleId "relayed" ⟨"EBMS:0004", none, none, none⟩)) := by
  have hended : (0, .exchanged (.error (.relayFailed sampleId "relayed"
      ⟨"EBMS:0004", none, none, none⟩))) ∈
        ((opened .standard none sampleDraws).run hastyMoves).scheduler.results :=
    .head _
  exact ⟨hended, (ended_exchange_has_history _ _ _ _ _ _ hended).2.1⟩

end Service
end EbmsMessaging
