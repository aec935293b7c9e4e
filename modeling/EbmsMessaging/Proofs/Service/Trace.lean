import EbmsMessaging.Proofs.Service.Deeds
import EbmsMessaging.Proofs.Service.Tasks

/-!
# The trace of a run

All deeds of a run in their order, each with the clock of its turn. The correlation table and the
record of transmissions can be computed from the trace, and every answer in it is the one that the
table gave. The deeds of one task are its journal; a move adds to the journal of no more than one.
-/
namespace EbmsMessaging

open Correlation

/-- The table after a trace. -/
def replay (t : Table Acknowledgement) (es : List (Clock × Deed)) : Table Acknowledgement :=
  es.foldl (fun t e => e.2.enact e.1 t) t

theorem replay_append (t : Table Acknowledgement) (es es' : List (Clock × Deed)) :
    replay t (es ++ es') = replay (replay t es) es' := List.foldl_append

theorem replay_turn (t : Table Acknowledgement) (clock : Clock) (ds : List Deed) :
    replay t (ds.map fun d => (clock, d)) = ds.foldl (Deed.enact clock) t := List.foldl_map

/-- What an account of the deeds between two states says. The table and the record of transmissions
are what the deeds make of them, the answers are those of the table, and the settings stay. -/
structure Accounts (s : ServiceState) (es : List (Clock × Deed)) (v : ServiceState) : Prop where
  table : v.table = replay s.table es
  transmissions : v.transmissions = s.transmissions ++ es.filterMap fun e => e.2.transmission?
  settings : v.settings = s.settings
  /-- Wherever the account is cut, the next answer is the one of the table at that time. -/
  fits : ∀ before e after, es = before ++ e :: after →
    e.2.Fits e.1 (replay s.table before)

namespace Accounts

variable {s v u : ServiceState} {es es' : List (Clock × Deed)}

theorem refl (s : ServiceState) : Accounts s [] s :=
  ⟨rfl, (List.append_nil _).symm, rfl, fun before e after h => by simp at h⟩

theorem trans (h : Accounts s es v) (h' : Accounts v es' u) : Accounts s (es ++ es') u where
  table := by rw [h'.table, h.table, replay_append]
  transmissions := by
    rw [h'.transmissions, h.transmissions, List.filterMap_append, List.append_assoc]
  settings := h'.settings.trans h.settings
  fits before e after heq := by
    rcases List.append_eq_append_iff.mp heq with ⟨more, rfl, hmore⟩ | ⟨more, rfl, hmore⟩
    · rw [replay_append, ← h.table]
      exact h'.fits more e after hmore
    · cases more with
      | nil =>
        rw [List.append_nil] at h
        rw [← h.table]
        exact h'.fits [] e after (by simpa using hmore.symm)
      | cons e' more =>
        obtain ⟨rfl, rfl⟩ := List.cons.inj hmore
        exact h.fits before e more rfl

end Accounts

theorem Fit.fits {clock : Clock} {t : Table Acknowledgement} {ds before after : List Deed}
    {d : Deed} (h : Fit clock t ds) (heq : ds = before ++ d :: after) :
    d.Fits clock (before.foldl (Deed.enact clock) t) := by
  subst heq
  exact (fit_append.mp h).2.1

/-- The account of one turn. -/
theorem Enacts.accounts {clock : Clock} {s v : ServiceState} {ds : List Deed}
    {called : List TaskId} (h : Enacts clock s ds called v) :
    Accounts s (ds.map fun d => (clock, d)) v where
  table := by rw [h.table, replay_turn]
  transmissions := by rw [h.transmissions, List.filterMap_map]; rfl
  settings := h.settings
  fits before e after heq := by
    obtain ⟨ds₁, rest, rfl, rfl, hrest⟩ := List.map_eq_append_iff.mp heq
    obtain ⟨d, ds₂, rfl, rfl, rfl⟩ := List.map_eq_cons_iff.mp hrest
    rw [replay_turn]
    exact h.fit.fits rfl

namespace Service

/-- The deeds of a run, each with its clock. -/
def trace (s : Service) : List Move → List (Clock × Deed)
  | [] => []
  | m :: moves => (s.deeds m).map (fun d => (s.scheduler.clock, d)) ++ (s.move m).trace moves

@[simp] theorem trace_nil (s : Service) : s.trace [] = [] := rfl

theorem trace_concat (s : Service) (moves : List Move) (m : Move) : s.trace (moves ++ [m]) =
    s.trace moves ++ ((s.run moves).deeds m).map fun d => ((s.run moves).scheduler.clock, d) := by
  induction moves generalizing s with
  | nil => exact (List.append_nil _).trans (List.nil_append _).symm
  | cons m' moves ih =>
    rw [List.cons_append, trace, ih, trace, List.append_assoc]
    rfl

/-- The trace of a run accounts for it. -/
theorem accounts_run (s : Service) (moves : List Move) :
    Accounts s.state (s.trace moves) (s.run moves).state := by
  induction moves generalizing s with
  | nil => exact .refl s.state
  | cons m moves ih =>
    obtain ⟨called, hmove⟩ := s.enacts_move m
    exact hmove.accounts.trans (ih (s.move m))

/-- The deeds of one task. -/
def journal (s : Service) (moves : List Move) (id : TaskId) : List (Clock × Deed) :=
  (s.trace moves).filter fun e => e.2.task? = some id

theorem journal_concat (s : Service) (moves : List Move) (m : Move) (id : TaskId) :
    s.journal (moves ++ [m]) id = s.journal moves id ++
      (((s.run moves).deeds m).filter fun d => d.task? = some id).map
        fun d => ((s.run moves).scheduler.clock, d) := by
  rw [journal, trace_concat, List.filter_append, List.filter_map]
  rfl

end Service

/-! ## Whose deeds they are -/

/-- What is done by nobody arrives or is swept; all other deeds are this task's. -/
def DoneBy (id : TaskId) (ds : List Deed) : Prop := ∀ d ∈ ds, d.task? = none ∨ d.task? = some id

/-- The deeds of a task among others. -/
def own (id : TaskId) (ds : List Deed) : List Deed := ds.filter fun d => d.task? = some id

theorem own_eq_self {id : TaskId} {ds : List Deed} (h : ∀ d ∈ ds, d.task? = some id) :
    own id ds = ds :=
  List.filter_eq_self.mpr fun d hd => decide_eq_true (h d hd)

theorem own_eq_nil {id : TaskId} {ds : List Deed} (h : ∀ d ∈ ds, d.task? ≠ some id) :
    own id ds = [] :=
  List.filter_eq_nil_iff.mpr fun d hd => by simp [h d hd]

theorem DoneBy.task?_ne {id j : TaskId} {ds : List Deed} (h : DoneBy id ds) (hj : j ≠ id) :
    ∀ d ∈ ds, d.task? ≠ some j := by
  intro d hd
  rcases h d hd with hnone | hsome
  · simp [hnone]
  · simp [hsome, Ne.symm hj]

namespace ServiceState

variable (s : ServiceState) (now : Nat) (clock : Clock) (id : TaskId)

theorem task?_of_mem_arrivalDeeds (i : Except ArrivalError Arrival) :
    ∀ d ∈ arrivalDeeds i, d.task? = none := by
  rcases i with cause | m | a
  · exact List.forall_mem_nil _
  · exact List.forall_mem_nil _
  · exact List.forall_mem_singleton.mpr rfl

theorem handOverDeeds_eq (t : Transmission) (reply : ArrangedReply) : ∃ as : List Acknowledgement,
    s.handOverDeeds now t reply =
      .transmitted t (s.handOver now t reply).report :: as.map .deposited := by
  unfold handOverDeeds
  cases s.gateway with
  | some g => exact ⟨[], rfl⟩
  | none => exact ⟨reply.acknowledgements.map fun a => a (s.transmissions ++ [t]),
      congrArg _ (List.map_map ..).symm⟩

theorem own_handOverDeeds (t : Transmission) (reply : ArrangedReply) :
    own t.task (s.handOverDeeds now t reply) =
      [.transmitted t (s.handOver now t reply).report] := by
  obtain ⟨as, heq⟩ := s.handOverDeeds_eq now t reply
  rw [heq, own, List.filter_cons_of_pos (by simp [Deed.task?])]
  refine congrArg _ (own_eq_nil fun d hd => ?_)
  obtain ⟨a, -, rfl⟩ := List.mem_map.mp hd
  simp [Deed.task?]

theorem doneBy_handOverDeeds (t : Transmission) (reply : ArrangedReply) :
    DoneBy t.task (s.handOverDeeds now t reply) := by
  obtain ⟨as, heq⟩ := s.handOverDeeds_eq now t reply
  rw [heq]
  refine List.forall_mem_cons.mpr ⟨.inr rfl, fun d hd => ?_⟩
  obtain ⟨a, -, rfl⟩ := List.mem_map.mp hd
  exact .inl rfl

theorem task?_of_mem_submissionDeeds (x : OpenExchange) (attempt : Attempt Acknowledgement) :
    ∀ d ∈ s.submissionDeeds now id x attempt, d.task? = some id := by
  unfold submissionDeeds
  split
  · split
    · exact List.forall_mem_singleton.mpr rfl
    · exact List.forall_mem_nil _
  · exact List.forall_mem_nil _

theorem task?_of_mem_reportDeeds (x : OpenExchange) (h : Handover) :
    ∀ d ∈ reportDeeds now id x h, d.task? = some id := by
  unfold reportDeeds
  split
  · exact List.forall_mem_cons.mpr ⟨rfl, task?_of_mem_submissionDeeds _ now id x _⟩
  · exact List.forall_mem_nil _

theorem task?_of_mem_resumeDeeds (x : OpenExchange) (w : Wait) :
    ∀ d ∈ s.resumeDeeds clock id x w, d.task? = some id := by
  unfold resumeDeeds
  refine List.forall_mem_cons.mpr ⟨rfl, ?_⟩
  split
  · exact task?_of_mem_submissionDeeds _ _ id x _
  · exact List.forall_mem_nil _

theorem task?_of_mem_dropDeeds (task : ServiceTask) :
    ∀ d ∈ dropDeeds id task, d.task? = some id := by
  cases task <;> simp [dropDeeds, Deed.task?]

theorem task?_of_mem_answerDeeds (a : GatewayAnswer) : ∀ d ∈ s.answerDeeds a, d.task? = none := by
  unfold answerDeeds
  split
  · exact List.forall_mem_nil _
  · exact task?_of_mem_arrivalDeeds _

/-- What is done at a turn of the gateway belongs to one of its answers. -/
theorem mem_answeringDeeds {a : GatewayAnswer} {d : Deed} (h : d ∈ s.answeringDeeds clock a) :
    ∃ (v : ServiceState) (b : GatewayAnswer), d ∈ v.answerDeeds b := by
  unfold answeringDeeds at h
  split at h
  · exact absurd h List.not_mem_nil
  · rcases List.mem_append.mp h with h | h
    · exact ⟨s, a, h⟩
    · split at h
      · exact absurd h List.not_mem_nil
      · split at h
        · exact absurd h List.not_mem_nil
        · exact ⟨_, _, h⟩

theorem task?_of_mem_answeringDeeds (a : GatewayAnswer) :
    ∀ d ∈ s.answeringDeeds clock a, d.task? = none := by
  intro d hd
  obtain ⟨v, b, hd⟩ := s.mem_answeringDeeds clock hd
  exact v.task?_of_mem_answerDeeds b d hd

theorem task?_of_mem_tickDeeds (w : Sweeper) : ∀ d ∈ tickDeeds clock w, d.task? = none := by
  unfold tickDeeds
  split
  · exact List.forall_mem_nil _
  · intro d hd
    rw [List.eq_of_mem_replicate hd]
    rfl

/-- A sender does nothing, or it hands its message over and goes by the report. -/
theorem sendingDeeds_cases (r : SendRequest) : s.sendingDeeds now id r = [] ∨
    ∃ (v : ServiceState) (t : Transmission) (x : OpenExchange), t.task = id ∧
      s.sendingDeeds now id r =
        v.handOverDeeds now t r.reply ++ reportDeeds now id x (v.handOver now t r.reply) := by
  unfold sendingDeeds
  cases r.route.endpoint with
  | error cause => exact .inl rfl
  | ok endpoint =>
    simp only
    split
    · exact .inl rfl
    · exact .inr ⟨_, ⟨id, _, endpoint⟩, _, rfl, rfl⟩

theorem transmittingDeeds_cases (r : TransmitRequest) : s.transmittingDeeds now id r = [] ∨
    ∃ (v : ServiceState) (t : Transmission), t.task = id ∧
      s.transmittingDeeds now id r = v.handOverDeeds now t .silence := by
  simp only [transmittingDeeds]
  split
  · exact .inl rfl
  · exact .inr ⟨_, ⟨id, _, r.endpoint⟩, rfl, rfl⟩

theorem doneBy_sendingDeeds (r : SendRequest) : DoneBy id (s.sendingDeeds now id r) := by
  rcases s.sendingDeeds_cases now id r with heq | ⟨v, t, x, rfl, heq⟩
  · rw [heq]
    exact List.forall_mem_nil _
  · rw [heq]
    refine List.forall_mem_append.mpr ⟨v.doneBy_handOverDeeds now t r.reply, fun d hd => ?_⟩
    exact .inr (task?_of_mem_reportDeeds now t.task x _ d hd)

theorem doneBy_transmittingDeeds (r : TransmitRequest) :
    DoneBy id (s.transmittingDeeds now id r) := by
  rcases s.transmittingDeeds_cases now id r with heq | ⟨v, t, rfl, heq⟩
  · rw [heq]
    exact List.forall_mem_nil _
  · rw [heq]
    exact v.doneBy_handOverDeeds now t _

theorem doneBy_deeds (task : ServiceTask) : DoneBy id (s.deeds clock id task) := by
  cases task with
  | sending r => exact s.doneBy_sendingDeeds clock.now id r
  | awaiting x w => exact fun d hd => .inr (s.task?_of_mem_resumeDeeds clock id x w d hd)
  | transmitting r => exact s.doneBy_transmittingDeeds clock.now id r
  | fetching key limit => exact List.forall_mem_singleton.mpr (.inr rfl)
  | waiting w => exact List.forall_mem_singleton.mpr (.inr rfl)
  | sweeping w => exact fun d hd => .inl (task?_of_mem_tickDeeds clock w d hd)
  | answering a => exact fun d hd => .inl (s.task?_of_mem_answeringDeeds clock a d hd)

end ServiceState

namespace Service

theorem doneBy_turn (s : Service) (id : TaskId) : DoneBy id (s.deeds (.turn id)) := by
  cases htask : s.scheduler.task? id with
  | none =>
    rw [deeds_nobody htask]
    exact List.forall_mem_nil _
  | some task =>
    by_cases ha : id ∈ s.scheduler.aborted
    · rw [deeds_dropped htask ha]
      exact fun d hd => .inr (ServiceState.task?_of_mem_dropDeeds id task d hd)
    · rw [deeds_attended htask ha]
      exact s.state.doneBy_deeds _ id task

theorem task?_of_mem_deeds (s : Service) {m : Move} (hm : ∀ id, m ≠ .turn id) :
    ∀ d ∈ s.deeds m, d.task? = none := by
  cases m with
  | turn id => exact absurd rfl (hm id)
  | receive i => exact ServiceState.task?_of_mem_arrivalDeeds i
  | deposit a => exact List.forall_mem_singleton.mpr rfl
  | sweep offset => exact List.forall_mem_singleton.mpr rfl
  | _ => exact List.forall_mem_nil _

/-- A task does something at its own turns only. -/
theorem task?_ne_of_mem_deeds (s : Service) {m : Move} {id : TaskId} (hm : m ≠ .turn id) :
    ∀ d ∈ s.deeds m, d.task? ≠ some id := by
  by_cases hturn : ∃ j, m = .turn j
  · obtain ⟨j, rfl⟩ := hturn
    exact (doneBy_turn s j).task?_ne fun heq => hm (heq ▸ rfl)
  · intro d hd
    simp [task?_of_mem_deeds s (not_exists.mp hturn) d hd]

/-- Only its own turns add to the journal of a task. -/
theorem journal_other (s : Service) (moves : List Move) {m : Move} {id : TaskId}
    (hm : m ≠ .turn id) : s.journal (moves ++ [m]) id = s.journal moves id := by
  have hown : own id ((s.run moves).deeds m) = [] :=
    own_eq_nil (task?_ne_of_mem_deeds _ hm)
  rw [journal_concat]
  exact (congrArg _ (congrArg (List.map _) hown)).trans (List.append_nil _)

section Turn

variable {s : Service} {moves : List Move} {id : TaskId} {task : ServiceTask}

theorem journal_nobody (h : (s.run moves).scheduler.task? id = none) (j : TaskId) :
    s.journal (moves ++ [.turn id]) j = s.journal moves j := by
  rw [journal_concat, deeds_nobody h]
  exact List.append_nil _

theorem journal_dropped (h : (s.run moves).scheduler.task? id = some task)
    (ha : id ∈ (s.run moves).scheduler.aborted) : s.journal (moves ++ [.turn id]) id =
      s.journal moves id ++
        (ServiceState.dropDeeds id task).map fun d => ((s.run moves).scheduler.clock, d) := by
  have hown := own_eq_self (ServiceState.task?_of_mem_dropDeeds id task)
  rw [journal_concat, deeds_dropped h ha]
  exact congrArg _ (congrArg (List.map _) hown)

theorem journal_attended (h : (s.run moves).scheduler.task? id = some task)
    (ha : id ∉ (s.run moves).scheduler.aborted) : s.journal (moves ++ [.turn id]) id =
      s.journal moves id ++
        (own id ((s.run moves).state.deeds (s.run moves).scheduler.clock id task)).map
          fun d => ((s.run moves).scheduler.clock, d) := by
  rw [journal_concat, deeds_attended h ha]
  rfl

end Turn
end Service
end EbmsMessaging
