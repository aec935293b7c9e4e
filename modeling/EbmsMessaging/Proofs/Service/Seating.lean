import EbmsMessaging.Proofs.Correlation.Hosting
import EbmsMessaging.Proofs.Service.Trace

/-!
# Who waits in a service

Tasks of several kinds wait at the table, and a sender may wait twice, once for each
acknowledgement. Who waits after a run can be told from its trace: a task begins to wait only if it
waits nowhere, and it goes on only where it waits. The table hosts exactly these tasks.
-/
namespace EbmsMessaging

open Correlation

/-- The wait of a task that waits on after an attempt. -/
def Correlation.Attempt.wait? {α : Type} : Attempt α → Option Wait
  | .ended _ => none
  | .entered w => some w
  | .waiting w => some w

/-- Where a task waits. -/
def ServiceTask.wait? : ServiceTask → Option Wait
  | awaiting _ w => some w
  | waiting w => some w
  | _ => none

/-- Where a task waits after its turn. -/
def ServiceTurn.wait? (turn : ServiceTurn) : Option Wait := turn.next.task?.bind ServiceTask.wait?

/-- A task that perhaps waits, as a crowd. -/
def seat (id : TaskId) (w : Option Wait) : Crowd := w.toList.map fun w => (id, w)

/-- The tasks that wait, among all. -/
def crowdOf (tasks : List (TaskId × ServiceTask)) : Crowd :=
  tasks.flatMap fun e => seat e.1 e.2.wait?

namespace Deed

/-- Who waits after a deed. -/
def reseat (crowd : Crowd) : Deed → Crowd
  | fetched id _ _ attempt => seat id attempt.wait? ++ crowd
  | resumed id _ attempt => seat id attempt.wait? ++ crowd.filter fun e => e.1 ≠ id
  | withdrawn id _ => crowd.filter fun e => e.1 ≠ id
  | _ => crowd

/-- A task fetches only if it waits nowhere, and it goes on or is dropped where it waits. -/
def Admitted (crowd : Crowd) : Deed → Prop
  | fetched id _ _ _ => id ∉ crowd.map Prod.fst
  | resumed id w _ => (id, w) ∈ crowd
  | withdrawn id w => (id, w) ∈ crowd
  | _ => True

/-- The task that is no longer called after its deed. -/
def waiter? : Deed → Option TaskId
  | resumed id _ _ => some id
  | withdrawn id _ => some id
  | _ => none

/-- Nobody begins to wait or ends. -/
def IsMute (d : Deed) : Prop := ∀ crowd, d.Admitted crowd ∧ d.reseat crowd = crowd

theorem isMute_of_nobody {d : Deed} (h : d.task? = none) : d.IsMute := by
  cases d with
  | deposited a => exact fun _ => ⟨trivial, rfl⟩
  | swept asOf => exact fun _ => ⟨trivial, rfl⟩
  | _ => simp [task?] at h

end Deed

/-- Deeds lead from one crowd to another. -/
def Seats : Crowd → List Deed → Crowd → Prop
  | crowd, [], crowd' => crowd = crowd'
  | crowd, d :: ds, crowd' => d.Admitted crowd ∧ Seats (d.reseat crowd) ds crowd'

namespace Seats

variable {crowd crowd' crowd'' : Crowd} {ds es : List Deed}

theorem refl (crowd : Crowd) : Seats crowd [] crowd := rfl

theorem append (h : Seats crowd ds crowd') (h' : Seats crowd' es crowd'') :
    Seats crowd (ds ++ es) crowd'' := by
  induction ds generalizing crowd with
  | nil =>
    obtain rfl : crowd = crowd' := h
    exact h'
  | cons d ds ih => exact ⟨h.1, ih h.2⟩

theorem cons {d : Deed} (h : Seats crowd [d] crowd') (h' : Seats crowd' ds crowd'') :
    Seats crowd (d :: ds) crowd'' := h.append h'

theorem foldl_eq (h : Seats crowd ds crowd') : ds.foldl Deed.reseat crowd = crowd' := by
  induction ds generalizing crowd with
  | nil => exact h
  | cons d ds ih => exact ih h.2

/-- At every deed the crowd that is there admits it. -/
theorem admitted (h : Seats crowd ds crowd') {before after : List Deed} {d : Deed}
    (heq : ds = before ++ d :: after) : d.Admitted (before.foldl Deed.reseat crowd) := by
  induction before generalizing crowd ds with
  | nil =>
    subst heq
    exact h.1
  | cons b before ih =>
    subst heq
    exact ih h.2 rfl

theorem of_mute (h : ∀ d ∈ ds, d.IsMute) (crowd : Crowd) : Seats crowd ds crowd := by
  induction ds with
  | nil => rfl
  | cons d ds ih =>
    obtain ⟨hd, hds⟩ := List.forall_mem_cons.mp h
    refine ⟨(hd crowd).1, ?_⟩
    rw [(hd crowd).2]
    exact ih hds

theorem perm (h : Seats crowd ds crowd') {other : Crowd} (hp : crowd.Perm other) :
    ∃ other', Seats other ds other' ∧ crowd'.Perm other' := by
  induction ds generalizing crowd other with
  | nil =>
    obtain rfl : crowd = crowd' := h
    exact ⟨other, rfl, hp⟩
  | cons d ds ih =>
    have hadmitted : d.Admitted other := by
      cases d with
      | fetched id key limit attempt => exact fun hmem => h.1 ((hp.map _).mem_iff.mpr hmem)
      | resumed id w attempt => exact hp.mem_iff.mp h.1
      | withdrawn id w => exact hp.mem_iff.mp h.1
      | _ => trivial
    have hreseat : (d.reseat crowd).Perm (d.reseat other) := by
      cases d with
      | fetched id key limit attempt => exact hp.append_left _
      | resumed id w attempt => exact (hp.filter _).append_left _
      | withdrawn id w => exact hp.filter _
      | _ => exact hp
    obtain ⟨other', hseats, hp'⟩ := ih h.2 hreseat
    exact ⟨other', ⟨hadmitted, hseats⟩, hp'⟩

end Seats

/-! ## Seats after a turn -/

section Turns

variable {id : TaskId} {rest : Crowd}

/-- The others, without a task that waits. -/
theorem filter_seat_append (hid : id ∉ rest.map Prod.fst) (w? : Option Wait) :
    (seat id w? ++ rest).filter (fun e => e.1 ≠ id) = rest := by
  have hrest : rest.filter (fun e => e.1 ≠ id) = rest :=
    List.filter_eq_self.mpr fun e he => decide_eq_true (Crowd.ne_of_mem hid he)
  rw [List.filter_append, hrest]
  cases w? <;> simp [seat]

theorem seats_resumed (hid : id ∉ rest.map Prod.fst) (w : Wait)
    (attempt : Attempt Acknowledgement) :
    Seats (seat id (some w) ++ rest) [.resumed id w attempt] (seat id attempt.wait? ++ rest) := by
  refine ⟨List.mem_cons_self, ?_⟩
  simp only [Deed.reseat, filter_seat_append hid]
  rfl

theorem seats_withdrawn (hid : id ∉ rest.map Prod.fst) (w : Wait) :
    Seats (seat id (some w) ++ rest) [.withdrawn id w] rest := by
  refine ⟨List.mem_cons_self, ?_⟩
  simp only [Deed.reseat, filter_seat_append hid]
  rfl

theorem seats_handOver (s : ServiceState) (now : Nat) (t : Transmission) (reply : ArrangedReply)
    (crowd : Crowd) : Seats crowd (s.handOverDeeds now t reply) crowd := by
  obtain ⟨as, heq⟩ := s.handOverDeeds_eq now t reply
  rw [heq]
  have htransmitted : (Deed.transmitted t (s.handOver now t reply).report).IsMute :=
    fun _ => ⟨trivial, rfl⟩
  refine .of_mute (List.forall_mem_cons.mpr ⟨htransmitted, fun d hd => ?_⟩) crowd
  obtain ⟨a, -, rfl⟩ := List.mem_map.mp hd
  exact Deed.isMute_of_nobody rfl

theorem seats_fetch (hid : id ∉ rest.map Prod.fst) (s : ServiceState) (now : Nat) (key : String)
    (limit : Nat) : Seats rest [s.fetchDeed now id key limit]
      (seat id (s.table.fetch now id key limit).2.wait? ++ rest) :=
  ⟨hid, rfl⟩

theorem wait?_afterRelay (s : ServiceState) (now : Nat) (x : OpenExchange) (relay : String)
    (t : Table Acknowledgement) (attempt : Attempt Acknowledgement) :
    (s.afterRelay now id x relay (t, attempt)).2.task?.bind ServiceTask.wait? = attempt.wait? := by
  cases attempt <;> rfl

theorem seats_submission (hid : id ∉ rest.map Prod.fst) (s : ServiceState) (now : Nat)
    (x : OpenExchange) (t : Table Acknowledgement) (attempt : Attempt Acknowledgement) :
    Seats (seat id attempt.wait? ++ rest) ((s.withTable t).submissionDeeds now id x attempt)
      (seat id ((s.afterSubmission now id x (t, attempt)).2.task?.bind ServiceTask.wait?) ++
        rest) := by
  cases attempt with
  | entered w => exact .refl _
  | waiting w => exact .refl _
  | ended o =>
    simp only [ServiceState.submissionDeeds, ServiceState.afterSubmission_ended]
    cases x.afterSubmission o with
    | error e => exact .refl _
    | ok relay =>
      simp only
      rw [wait?_afterRelay]
      exact seats_fetch hid (s.withTable t) now relay x.limit

theorem seats_report (hid : id ∉ rest.map Prod.fst) (now : Nat) (x : OpenExchange)
    (h : ServiceState.Handover) : Seats rest (ServiceState.reportDeeds now id x h)
      (seat id (ServiceTurn.wait? (ServiceState.afterHandover now id x h)) ++ rest) := by
  unfold ServiceState.reportDeeds ServiceState.afterHandover ServiceTurn.wait?
  cases h.report with
  | error cause => exact .refl _
  | ok fault =>
    cases fault with
    | some fault => exact .refl _
    | none =>
      let advanced := h.state.advance id x [.transmitted, .awaitingSubmission]
      exact (seats_fetch hid advanced.1 now x.messageId x.limit).cons
        (seats_submission hid advanced.1 now advanced.2 _ _)

theorem seats_resume (hid : id ∉ rest.map Prod.fst) (s : ServiceState) (clock : Clock)
    (x : OpenExchange) (w : Wait) : Seats (seat id (some w) ++ rest) (s.resumeDeeds clock id x w)
      (seat id (ServiceTurn.wait? (s.resumeExchange clock id x w)) ++ rest) := by
  unfold ServiceState.resumeDeeds ServiceState.resumeExchange ServiceTurn.wait?
  refine (seats_resumed hid w _).cons ?_
  cases x.relayMessageId with
  | none => exact seats_submission hid s clock.now x _ _
  | some relay =>
    simp only
    rw [wait?_afterRelay]
    exact .refl _

/-- At its turn a task moves from its seat to the one where it waits next. -/
theorem seats_turn (hid : id ∉ rest.map Prod.fst) (s : ServiceState) (clock : Clock)
    (task : ServiceTask) : Seats (seat id task.wait? ++ rest) (s.deeds clock id task)
      (seat id (ServiceTurn.wait? (ServiceTask.behaviour.turn clock id task s)) ++ rest) := by
  cases task with
  | sending r =>
    simp only [ServiceState.deeds, ServiceTask.behaviour, ServiceState.sendingDeeds,
      ServiceState.beginExchange]
    cases r.route.endpoint with
    | error cause => exact .refl _
    | ok endpoint =>
      simp only
      cases s.countStart.takeStamp.2.agreement.prepare s.countStart.takeStamp.1 r.route
        r.message with
      | error cause => exact .refl _
      | ok prepared =>
        exact (seats_handOver _ clock.now _ r.reply _).append (seats_report hid clock.now _ _)
  | awaiting x w => exact seats_resume hid s clock x w
  | transmitting r =>
    simp only [ServiceState.deeds, ServiceTask.behaviour, ServiceState.transmittingDeeds,
      ServiceState.transmitTo]
    cases s.takeStamp.2.agreement.prepare s.takeStamp.1 r.route r.message with
    | error cause => exact .refl _
    | ok prepared => exact seats_handOver _ clock.now _ _ _
  | fetching key limit =>
    have h := seats_fetch hid s clock.now key limit
    simp only [ServiceState.deeds, ServiceTask.behaviour]
    rcases hattempt : s.table.fetch clock.now id key limit with ⟨t, attempt⟩
    rw [hattempt] at h
    cases attempt <;> exact h
  | waiting w =>
    have h := seats_resumed hid w (s.table.resume clock id w).2
    simp only [ServiceState.deeds, ServiceTask.behaviour]
    rcases hattempt : s.table.resume clock id w with ⟨t, attempt⟩
    rw [hattempt] at h
    cases attempt <;> exact h
  | sweeping w =>
    have h := Seats.of_mute (fun d hd => Deed.isMute_of_nobody
      (ServiceState.task?_of_mem_tickDeeds clock w d hd)) rest
    simp only [ServiceState.deeds, ServiceTask.behaviour, ServiceState.afterTick]
    split <;> exact h
  | answering a =>
    have h := Seats.of_mute (fun d hd => Deed.isMute_of_nobody
      (s.task?_of_mem_answeringDeeds clock a d hd)) rest
    simp only [ServiceState.deeds, ServiceTask.behaviour, ServiceState.continueAnswer]
    split
    · exact h
    · split
      · exact h
      · split <;> exact h

theorem seats_drop (hid : id ∉ rest.map Prod.fst) (task : ServiceTask) :
    Seats (seat id task.wait? ++ rest) (ServiceState.dropDeeds id task) rest := by
  cases task with
  | awaiting x w => exact seats_withdrawn hid w
  | waiting w => exact seats_withdrawn hid w
  | _ => exact .refl _

end Turns

/-! ## The table hosts those who wait -/

namespace Deed

variable {clock : Clock} {t : Table Acknowledgement} {crowd : Crowd} {queue queue' : List TaskId}
  {d : Deed}

theorem perm_of_admitted (h : t.Hosts crowd queue) {id : TaskId} {w : Wait} (hw : (id, w) ∈ crowd) :
    crowd.Perm ((id, w) :: crowd.filter fun e => e.1 ≠ id) :=
  Scheduler.perm_of_lookup h.tasks_nodup (Scheduler.lookup_of_mem h.tasks_nodup hw)

/-- Every deed leaves a table behind that hosts those who wait then. -/
theorem hosts (h : t.Hosts crowd queue) (hfits : d.Fits clock t) (hadmitted : d.Admitted crowd)
    (hq : ∀ j ∈ queue, d.waiter? ≠ some j → j ∈ queue')
    (hcalls : ∀ j ∈ d.calls clock t, j ∈ queue') :
    (d.enact clock t).Hosts (d.reseat crowd) queue' := by
  cases d with
  | transmitted transmission report =>
    exact h.mono (List.Perm.refl _) fun e _ he => hq _ he (by simp [waiter?])
  | deposited a => exact h.deposit _ _ _ (fun j hj => hq j hj (by simp [waiter?])) hcalls
  | swept asOf =>
    exact (h.sweep asOf).mono (List.Perm.refl _) fun e _ he => hq _ he (by simp [waiter?])
  | withdrawn id w =>
    have hfirst := h.mono (perm_of_admitted h hadmitted) fun _ _ hj => hj
    exact hfirst.leave fun j hj hmem => hq j hmem (by simp [waiter?, Ne.symm hj])
  | fetched id key limit attempt =>
    have h := h.mono (List.Perm.refl _) fun e (_ : e ∈ crowd) he => hq _ he (by simp [waiter?])
    rw [enact]
    cases hfits.fetches with
    | atOnce htake hnext =>
      rw [hnext]
      exact (h.takeReady htake).countStats _
    | entered htake hnext =>
      rw [hnext]
      have hw := h.withCell clock.now key
      obtain ⟨hmem, hkey⟩ := Table.find?_eq_some (t.find?_withCell clock.now key)
      refine hw.enter hadmitted (Table.mem_known_of_mem_cells hmem) ?_ rfl hkey.symm
      rcases t.withCell_cases clock.now key with ⟨c, hc, heq⟩ | ⟨-, heq⟩
      · rw [heq]
        exact Table.takeReady?_eq_none.mp htake c hc
      · rw [heq]
        rfl
  | resumed id w attempt =>
    have hfirst := h.mono (perm_of_admitted h hadmitted) fun _ _ hj => hj
    have hothers (j : TaskId) (hj : j ≠ id) (hmem : j ∈ queue) : j ∈ queue' :=
      hq j hmem (by simp [waiter?, Ne.symm hj])
    rw [enact]
    cases hfits.resumes with
    | value htake hnext =>
      rw [hnext]
      exact (hfirst.takeAwaited hothers htake).countStats _
    | timeout htake hlate hnext =>
      rw [hnext]
      exact (hfirst.leave hothers).countStats _
    | again htake hnext =>
      rw [hnext]
      exact hfirst.sleep hothers htake

end Deed

/-- So do several deeds, if those whom they call are in the queue. -/
theorem hosts_foldl {clock : Clock} {t : Table Acknowledgement} {crowd crowd' : Crowd}
    {queue : List TaskId} {ds : List Deed} (h : t.Hosts crowd queue) (hfit : Fit clock t ds)
    (hseats : Seats crowd ds crowd') (hcalls : ∀ j ∈ callsOf clock t ds, j ∈ queue) :
    (ds.foldl (Deed.enact clock) t).Hosts crowd' queue := by
  induction ds generalizing t crowd with
  | nil =>
    obtain rfl : crowd = crowd' := hseats
    exact h
  | cons d ds ih =>
    have hd := Deed.hosts h hfit.1 hseats.1 (fun j hj _ => hj)
      fun j hj => hcalls j (List.mem_append_left _ hj)
    exact ih hd hfit.2 hseats.2 fun j hj => hcalls j (List.mem_append_right _ hj)

/-- At its turn a task that waits is no longer called, unless it is called again meanwhile. -/
theorem hosts_turn {clock : Clock} {t : Table Acknowledgement} {id : TaskId} {w? : Option Wait}
    {rest crowd' : Crowd} {queue queue' : List TaskId} {ds : List Deed}
    (h : t.Hosts (seat id w? ++ rest) queue) (hid : id ∉ rest.map Prod.fst)
    (hfit : Fit clock t ds) (hseats : Seats (seat id w? ++ rest) ds crowd')
    (hfirst : ∀ w, w? = some w → ∃ d ds', ds = d :: ds' ∧ d.waiter? = some id)
    (hq : ∀ j ≠ id, j ∈ queue → j ∈ queue') (hcalls : ∀ j ∈ callsOf clock t ds, j ∈ queue') :
    (ds.foldl (Deed.enact clock) t).Hosts crowd' queue' := by
  cases w? with
  | none =>
    have hothers := h.mono (List.Perm.refl _) fun e he hmem =>
      hq e.1 (Crowd.ne_of_mem hid he) hmem
    exact hosts_foldl hothers hfit hseats hcalls
  | some w =>
    obtain ⟨d, ds, rfl, hd⟩ := hfirst w rfl
    have hnext := Deed.hosts h hfit.1 hseats.1
      (fun j hj hne => hq j (fun heq => hne (heq ▸ hd)) hj)
      fun j hj => hcalls j (List.mem_append_left _ hj)
    change (ds.foldl (Deed.enact clock) (d.enact clock t)).Hosts crowd' queue'
    exact hosts_foldl hnext hfit.2 hseats.2 fun j hj => hcalls j (List.mem_append_right _ hj)

/-- A task that waits goes on there first of all. -/
theorem waiter?_of_deeds (s : ServiceState) (clock : Clock) (id : TaskId) {task : ServiceTask}
    {w : Wait} (h : task.wait? = some w) :
    ∃ d ds, s.deeds clock id task = d :: ds ∧ d.waiter? = some id := by
  cases task with
  | awaiting x w => exact ⟨_, _, rfl, rfl⟩
  | waiting w => exact ⟨_, _, rfl, rfl⟩
  | _ => simp [ServiceTask.wait?] at h

theorem waiter?_of_dropDeeds (id : TaskId) {task : ServiceTask} {w : Wait}
    (h : task.wait? = some w) :
    ∃ d ds, ServiceState.dropDeeds id task = d :: ds ∧ d.waiter? = some id := by
  cases task with
  | awaiting x w => exact ⟨_, _, rfl, rfl⟩
  | waiting w => exact ⟨_, _, rfl, rfl⟩
  | _ => simp [ServiceTask.wait?] at h

/-! ## The crowd of a service -/

theorem crowdOf_perm {tasks tasks' : List (TaskId × ServiceTask)} (h : tasks.Perm tasks') :
    (crowdOf tasks).Perm (crowdOf tasks') := h.flatMap_right _

theorem crowdOf_append (tasks tasks' : List (TaskId × ServiceTask)) :
    crowdOf (tasks ++ tasks') = crowdOf tasks ++ crowdOf tasks' := List.flatMap_append

theorem crowdOf_eq_nil {tasks : List (TaskId × ServiceTask)} (h : ∀ e ∈ tasks, e.2.wait? = none) :
    crowdOf tasks = [] :=
  List.flatMap_eq_nil_iff.mpr fun e he => by rw [h e he]; rfl

theorem mem_crowdOf {tasks : List (TaskId × ServiceTask)} {id : TaskId} {w : Wait} :
    (id, w) ∈ crowdOf tasks ↔ ∃ task, (id, task) ∈ tasks ∧ task.wait? = some w := by
  simp only [crowdOf, seat, List.mem_flatMap, List.mem_map, Option.mem_toList, Prod.mk.injEq]
  constructor
  · rintro ⟨e, he, w', hw, rfl, rfl⟩
    exact ⟨e.2, he, hw⟩
  · rintro ⟨task, hmem, hw⟩
    exact ⟨_, hmem, w, hw, rfl, rfl⟩

theorem not_mem_crowdOf_others (tasks : List (TaskId × ServiceTask)) (id : TaskId) :
    id ∉ (crowdOf (tasks.filter fun e => e.1 ≠ id)).map Prod.fst := by
  intro hmem
  obtain ⟨⟨j, w⟩, he, rfl⟩ := List.mem_map.mp hmem
  obtain ⟨task, htask, -⟩ := mem_crowdOf.mp he
  exact of_decide_eq_true (List.mem_filter.mp htask).2 rfl

namespace Service

section Crowds

variable {s : Service} {id : TaskId} {task : ServiceTask}

theorem crowdOf_perm_of_task (hn : Numbered s.scheduler) (h : s.scheduler.task? id = some task) :
    (crowdOf s.scheduler.tasks).Perm
      (seat id task.wait? ++ crowdOf (s.scheduler.tasks.filter fun e => e.1 ≠ id)) :=
  crowdOf_perm (Scheduler.perm_of_lookup hn.nodup h)

theorem crowdOf_attended {v : Scheduling} {turn : ServiceTurn}
    (hv : Scheduler.Attended s.scheduler id turn v)
    (hstarted : ∀ t ∈ turn.started, ∃ a, t = .answering a) :
    (crowdOf v.tasks).Perm
      (seat id turn.wait? ++ crowdOf (s.scheduler.tasks.filter fun e => e.1 ≠ id)) := by
  refine (crowdOf_perm hv.tasks).trans ?_
  have hnew : crowdOf (Scheduler.numberedFrom s.scheduler.nextTask turn.started) = [] := by
    refine crowdOf_eq_nil fun e he => ?_
    obtain ⟨a, ha⟩ := hstarted _ (Scheduler.mem_numberedFrom he).2.2
    rw [ha]
    rfl
  rw [crowdOf_append, crowdOf_append, hnew, List.nil_append]
  refine List.Perm.of_eq (congrArg (· ++ _) ?_)
  unfold ServiceTurn.wait?
  cases turn.next.task? with
  | none => rfl
  | some t => exact List.append_nil _

theorem crowdOf_passed {v : Scheduling} {m : Move}
    (hv : Passed s.scheduler v (s.started? m)) :
    crowdOf v.tasks = crowdOf s.scheduler.tasks := by
  rw [hv.tasks, crowdOf_append]
  refine (congrArg _ (crowdOf_eq_nil fun e he => ?_)).trans (List.append_nil _)
  obtain ⟨t, ht, rfl⟩ := List.mem_map.mp he
  rw [Option.mem_toList] at ht
  cases m with
  | send r =>
    obtain rfl : ServiceTask.sending r = t := Option.some.inj ht
    rfl
  | transmit r =>
    obtain rfl : ServiceTask.transmitting r = t := Option.some.inj ht
    rfl
  | fetch key limit =>
    obtain rfl : ServiceTask.fetching key limit = t := Option.some.inj ht
    rfl
  | start hasScheduler =>
    simp only [started?, Option.ite_none_right_eq_some, Option.some.injEq] at ht
    rw [← ht.2]
    rfl
  | _ => simp [started?] at ht

end Crowds

section Moves

variable {s : Service}

theorem mem_queue_change (s : Service) (f : ServiceState → ServiceState × List TaskId) {j : TaskId}
    (hj : j ∈ (f s.state).2) : j ∈ (s.change f).scheduler.queue := by
  simp only [change, Scheduler.change, Scheduler.callAll_eq]
  exact Scheduler.mem_enqueue.mpr (.inr hj)

/-- Whoever is called by the deeds of a move stands in the queue then. -/
theorem mem_queue_of_calls (hn : Numbered s.scheduler) (m : Move) :
    ∀ j ∈ callsOf s.scheduler.clock s.state.table (s.deeds m), j ∈ (s.move m).scheduler.queue := by
  intro j hj
  cases m with
  | receive i =>
    rw [deeds, ← (s.state.enacts_arrival s.scheduler.clock i).called] at hj
    exact s.mem_queue_change _ hj
  | deposit a =>
    rw [deeds, callsOf, callsOf, List.append_nil] at hj
    exact s.mem_queue_change _ hj
  | turn id =>
    have hturned := hn.turned id
    change j ∈ (s.scheduler.attend ServiceTask.behaviour id).queue
    generalize s.scheduler.attend ServiceTask.behaviour id = v at hturned
    cases hturned with
    | nobody hnone =>
      rw [deeds_nobody hnone] at hj
      exact absurd hj List.not_mem_nil
    | dropped task htask ha =>
      rw [deeds_dropped htask ha,
        ← (s.state.enacts_drop s.scheduler.clock id task).called] at hj
      exact absurd hj List.not_mem_nil
    | attended task htask ha hv =>
      rw [deeds_attended htask ha,
        ← (s.state.enacts_turn s.scheduler.clock id task).called] at hj
      rw [hv.queue]
      exact List.mem_append_left _ (Scheduler.mem_enqueue.mpr (.inr hj))
  | _ => exact absurd hj List.not_mem_nil

/-- A task that has its turn changes its own seat only. -/
theorem seated_of_task (hn : Numbered s.scheduler)
    (h : s.state.table.Hosts (crowdOf s.scheduler.tasks) s.scheduler.queue) {id : TaskId}
    {task : ServiceTask} (htask : s.scheduler.task? id = some task) {clock : Clock}
    {ds : List Deed} (hfit : Fit clock s.state.table ds) {crowd : Crowd}
    (hseats : Seats (seat id task.wait? ++ crowdOf (s.scheduler.tasks.filter fun e => e.1 ≠ id)) ds
      crowd)
    (hfirst : ∀ w, task.wait? = some w → ∃ d ds', ds = d :: ds' ∧ d.waiter? = some id)
    {queue : List TaskId} (hq : ∀ j ≠ id, j ∈ s.scheduler.queue → j ∈ queue)
    (hcalls : ∀ j ∈ callsOf clock s.state.table ds, j ∈ queue) :
    (∃ crowd', Seats (crowdOf s.scheduler.tasks) ds crowd' ∧ crowd'.Perm crowd) ∧
      (ds.foldl (Deed.enact clock) s.state.table).Hosts crowd queue := by
  have hid := not_mem_crowdOf_others s.scheduler.tasks id
  have hperm := crowdOf_perm_of_task hn htask
  obtain ⟨crowd', hseats', hp⟩ := hseats.perm hperm.symm
  refine ⟨⟨crowd', hseats', hp.symm⟩, ?_⟩
  exact hosts_turn (h.mono hperm fun _ _ hj => hj) hid hfit hseats hfirst hq hcalls

/-- A turn leads from one crowd to the next, and the table hosts it. -/
theorem seated_turn (hn : Numbered s.scheduler)
    (h : s.state.table.Hosts (crowdOf s.scheduler.tasks) s.scheduler.queue) (id : TaskId) :
    ∃ crowd, Seats (crowdOf s.scheduler.tasks) (s.deeds (.turn id)) crowd ∧
      crowd.Perm (crowdOf (s.move (.turn id)).scheduler.tasks) ∧
      (s.move (.turn id)).state.table.Hosts (crowdOf (s.move (.turn id)).scheduler.tasks)
        (s.move (.turn id)).scheduler.queue := by
  obtain ⟨called, henacts⟩ := s.enacts_move (.turn id)
  have hcalls := mem_queue_of_calls hn (.turn id)
  have hfit := henacts.fit
  have hid := not_mem_crowdOf_others s.scheduler.tasks id
  have hturned : Turned s.scheduler id (s.move (.turn id)).scheduler := hn.turned id
  rw [henacts.table]
  generalize (s.move (.turn id)).scheduler = v at hturned hcalls ⊢
  cases hturned with
  | nobody hnone =>
    -- Nobody who waits leaves the queue.
    rw [deeds_nobody hnone]
    refine ⟨_, .refl _, List.Perm.refl _, h.mono (List.Perm.refl _) fun e he hq => ?_⟩
    obtain ⟨task, htask, -⟩ := mem_crowdOf.mp he
    have hne : e.1 ≠ id := fun heq =>
      Scheduler.lookup_eq_none_iff.mp hnone (heq ▸ List.mem_map_of_mem htask)
    exact (List.mem_erase_of_ne hne).mpr hq
  | dropped task htask ha =>
    rw [deeds_dropped htask ha] at hfit hcalls ⊢
    obtain ⟨⟨crowd, hseats, hp⟩, hhosts⟩ := seated_of_task hn h htask hfit (seats_drop hid task)
      (fun w hw => waiter?_of_dropDeeds id hw)
      (fun j hj hq => (List.mem_erase_of_ne hj).mpr hq) hcalls
    exact ⟨crowd, hseats, hp, hhosts⟩
  | attended task htask ha hv =>
    rw [deeds_attended htask ha] at hfit hcalls ⊢
    have hqueue (j : TaskId) (hj : j ≠ id) (hq : j ∈ s.scheduler.queue) : j ∈ v.queue := by
      rw [hv.queue]
      exact List.mem_append_left _
        (Scheduler.mem_enqueue.mpr (.inl ((List.mem_erase_of_ne hj).mpr hq)))
    obtain ⟨⟨crowd, hseats, hp⟩, hhosts⟩ := seated_of_task hn h htask hfit
      (seats_turn hid s.state s.scheduler.clock task)
      (fun w hw => waiter?_of_deeds s.state s.scheduler.clock id hw) hqueue hcalls
    have hnext := (crowdOf_attended hv (started_of_turn _ id task _)).symm
    exact ⟨crowd, hseats, hp.trans hnext, hhosts.mono hnext fun _ _ hj => hj⟩

/-- A move leads from one crowd to the next, and the table hosts it. -/
theorem seated_move (hn : Numbered s.scheduler)
    (h : s.state.table.Hosts (crowdOf s.scheduler.tasks) s.scheduler.queue) (m : Move) :
    ∃ crowd, Seats (crowdOf s.scheduler.tasks) (s.deeds m) crowd ∧
      crowd.Perm (crowdOf (s.move m).scheduler.tasks) ∧
      (s.move m).state.table.Hosts (crowdOf (s.move m).scheduler.tasks)
        (s.move m).scheduler.queue := by
  by_cases hm : ∃ id, m = .turn id
  · obtain ⟨id, rfl⟩ := hm
    exact seated_turn hn h id
  · have hnot : ∀ id, m ≠ .turn id := fun id heq => hm ⟨id, heq⟩
    have hpassed := passed_of_not_turn s hnot
    obtain ⟨called, henacts⟩ := s.enacts_move m
    have hseats : Seats (crowdOf s.scheduler.tasks) (s.deeds m) (crowdOf s.scheduler.tasks) :=
      .of_mute (fun d hd => Deed.isMute_of_nobody (task?_of_mem_deeds s hnot d hd)) _
    rw [henacts.table, crowdOf_passed hpassed]
    refine ⟨_, hseats, List.Perm.refl _, ?_⟩
    exact hosts_foldl (h.mono (List.Perm.refl _) fun e _ hq => hpassed.queue _ (.inl hq))
      henacts.fit hseats (mem_queue_of_calls hn m)

end Moves

/-- Everyone who waits has got there by the deeds of the run, and the table hosts them. -/
structure Seated (s : Service) (moves : List Move) : Prop where
  seats : ∃ crowd, Seats [] ((s.trace moves).map Prod.snd) crowd ∧
    crowd.Perm (crowdOf (s.run moves).scheduler.tasks)
  hosts : (s.run moves).state.table.Hosts (crowdOf (s.run moves).scheduler.tasks)
    (s.run moves).scheduler.queue

theorem seated_run (settings : ExchangeSettings) (gateway : Option Gateway) (draws : Draws)
    (moves : List Move) : Seated (opened settings gateway draws) moves := by
  induction moves using List.reverseRecOn with
  | nil => exact ⟨⟨[], .refl _, List.Perm.refl _⟩, Table.hosts_empty _⟩
  | append_singleton moves m ih =>
    obtain ⟨⟨crowd, hseats, hperm⟩, hhosts⟩ := ih
    obtain ⟨next, hnext, hperm', hhosts'⟩ :=
      seated_move (numbered_run settings gateway draws moves) hhosts m
    obtain ⟨next', hnext', hperm''⟩ := hnext.perm hperm.symm
    constructor
    · refine ⟨next', ?_, ?_⟩
      · rw [trace_concat, List.map_append, List.map_map]
        simp only [Function.comp_def, List.map_id']
        exact hseats.append hnext'
      · rw [run_concat]
        exact hperm''.symm.trans hperm'
    · rw [run_concat]
      exact hhosts'

end Service
end EbmsMessaging
