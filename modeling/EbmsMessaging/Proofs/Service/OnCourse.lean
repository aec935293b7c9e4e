import EbmsMessaging.Proofs.Service.Dispatches

/-!
# An exchange among others

Of all that a service has to do, an exchange sees three things: its sender, the one task that
answers for the gateway, and what the table offers under its two keys. A turn that serves one
exchange brings it to another phase and leaves all three of any other exchange alone.
-/
namespace EbmsMessaging

open Correlation Service

namespace Dispatch

/-- The sender stands here. -/
def Stands (d : Dispatch) (s : Scheduling) : Standing → Prop
  | .awaiting hop => (∃ w, w.key = d.key hop ∧ w.deadline = none ∧
      (d.task, .awaiting (d.exchange hop) w) ∈ s.tasks) ∧ ∀ r, (d.task, r) ∉ s.results
  | .finished result => ∀ r, (d.task, r) ∈ s.results ↔ r = .exchanged result

/-- The gateway has this to send. No more than one task sends it. -/
def Answering (d : Dispatch) (s : Scheduling) (next : Option GatewayAnswer) : Prop :=
  ∃ e : Option (TaskId × GatewayAnswer), e.map (fun e => e.2.undated) = next ∧
    ∀ j a, (j, .answering a) ∈ s.tasks ∧ a.messageId = d.key .submission ↔ e = some (j, a)

/-- The exchange is in one of its phases. -/
def OnCourse (d : Dispatch) (s : Scheduling) (f : String → Option Acknowledgement) : Prop :=
  ∃ stand next, Phase d stand next (f (d.key .submission)) (f (d.key .relay)) ∧
    d.Stands s stand ∧ d.Answering s next

/-- The tasks that work for an exchange: the sender while it waits, and the gateway. -/
def Owns (d : Dispatch) (id : TaskId) : ServiceTask → Prop
  | .awaiting _ _ => id = d.task
  | .answering a => a.messageId = d.key .submission
  | _ => False

/-- What the turn of a task comes to that serves one exchange. -/
structure Served (d : Dispatch) (s : Scheduling) (f : String → Option Acknowledgement)
    (id : TaskId) (v : Scheduling) (f' : String → Option Acknowledgement) : Prop where
  offers : v.shared.table.Offers f'
  keys : d.Spares f f'
  onCourse : d.OnCourse v f'
  tasks : ∀ e ∈ v.tasks, (e ∈ s.tasks ∧ e.1 ≠ id) ∨ d.Owns e.1 e.2
  results : ∀ e ∈ v.results, e ∈ s.results ∨ e.1 = id
  others : ∀ j ≠ id, Service.Spares j s v
  queue : ∀ j ≠ id, j ∈ s.queue → j ∈ v.queue
  aborted : ∀ j ∈ v.aborted, j ∈ s.aborted

variable {d : Dispatch} {s v : Scheduling} {stand : Standing} {next : Option GatewayAnswer}
  {f f' : String → Option Acknowledgement} {id : TaskId} {task : ServiceTask} {turn : ServiceTurn}

/-! ## What others do -/

theorem Stands.spared (h : d.Stands s stand) (hspares : Service.Spares d.task s v)
    (hresults : ∀ r, (d.task, r) ∈ v.results → (d.task, r) ∈ s.results) : d.Stands v stand := by
  cases stand with
  | awaiting hop =>
    obtain ⟨⟨w, hkey, hdeadline, hmem⟩, hnone⟩ := h
    exact ⟨⟨w, hkey, hdeadline, hspares.task _ hmem⟩, fun r hr => hnone r (hresults r hr)⟩
  | finished result => exact fun r => ⟨fun hr => (h r).mp (hresults r hr),
      fun hr => hspares.result r ((h r).mpr hr)⟩

/-- A sender that has handed its message over is neither before that nor a task that answers. -/
theorem Stands.awaiting_of_task (h : d.Stands s stand) (hn : Numbered s)
    (htask : s.task? d.task = some task) : ∃ hop w, stand = .awaiting hop ∧
      task = .awaiting (d.exchange hop) w ∧ w.key = d.key hop ∧ w.deadline = none := by
  cases stand with
  | awaiting hop =>
    obtain ⟨⟨w, hkey, hdeadline, hmem⟩, -⟩ := h
    have heq := Option.some.inj (htask.symm.trans (hn.task?_eq_some_iff.mpr hmem))
    exact ⟨hop, w, rfl, heq, hkey, hdeadline⟩
  | finished result =>
    have hended := hn.ended _ ((h _).mpr rfl)
    exact absurd (List.mem_map_of_mem (Scheduler.mem_of_lookup htask)) hended

/-- Where the same tasks answer the gateway has the same to send. -/
theorem Answering.of_iff (h : d.Answering s next) (hiff : ∀ j a, a.messageId = d.key .submission →
    ((j, .answering a) ∈ v.tasks ↔ (j, .answering a) ∈ s.tasks)) : d.Answering v next := by
  obtain ⟨e, hnext, hanswers⟩ := h
  refine ⟨e, hnext, fun j a => ?_⟩
  rw [← hanswers j a]
  exact and_congr_left fun ha => hiff j a ha

theorem OnCourse.passed (h : d.OnCourse s f) {new : Option ServiceTask} (hv : Passed s v new)
    (hnew : ∀ a, new ≠ some (.answering a)) : d.OnCourse v f := by
  obtain ⟨stand, next, hphase, hstands, hanswering⟩ := h
  refine ⟨stand, next, hphase, hstands.spared (hv.spares d.task) fun r hr => ?_,
    hanswering.of_iff fun j a _ => ?_⟩
  · rwa [hv.results] at hr
  · rw [hv.tasks, List.mem_append, List.mem_map]
    refine or_iff_left ?_
    rintro ⟨t, ht, heq⟩
    rw [Option.mem_toList] at ht
    exact hnew a (ht.trans (congrArg some (Prod.mk.inj heq).2))

/-- A turn that serves one exchange does nothing to another. -/
theorem OnCourse.beside {d' : Dispatch} (h : d'.OnCourse s f) (hn : Numbered s)
    (hserved : d.Served s f id v f') (hkeys : ∀ hop hop', d'.key hop ≠ d.key hop')
    (hne : d'.task ≠ id) (htask : s.task? id = some task)
    (hown : ∀ a, task = .answering a → a.messageId = d.key .submission) : d'.OnCourse v f' := by
  obtain ⟨stand, next, hphase, hstands, hanswering⟩ := h
  refine ⟨stand, next, ?_, hstands.spared (hserved.others _ hne) fun r hr => ?_,
    hanswering.of_iff fun j a ha => ⟨fun hmem => ?_, fun hmem => ?_⟩⟩
  · rw [hserved.keys _ fun hop => hkeys .submission hop, hserved.keys _ fun hop => hkeys .relay hop]
    exact hphase
  · exact (hserved.results _ hr).resolve_right hne
  · rcases hserved.tasks _ hmem with ⟨hold, -⟩ | howns
    · exact hold
    · exact absurd (ha.symm.trans howns) (hkeys .submission .submission)
  · refine (hserved.others j fun heq => ?_).task _ hmem
    subst heq
    have heq := Option.some.inj (htask.symm.trans (hn.task?_eq_some_iff.mpr hmem))
    exact hkeys .submission .submission (ha.symm.trans (hown a heq))

/-! ## Turns of its own -/

/-- A turn leaves everything of others alone, whatever exchange it serves. -/
theorem Served.of_turn (ha : id ∉ s.aborted) (htask : s.task? id = some task)
    (hv : Scheduler.Attended s id (ServiceTask.behaviour.turn s.clock id task s.shared) v)
    (hturn : ServiceTask.behaviour.turn s.clock id task s.shared = turn)
    (hoffers : turn.shared.table.Offers f') (hkeys : d.Spares f f') (honCourse : d.OnCourse v f')
    (hnext : ∀ t, turn.next.task? = some t → d.Owns id t)
    (hstarted : ∀ t ∈ turn.started, ∀ j, d.Owns j t) : d.Served s f id v f' := by
  have hothers (j : TaskId) (hj : j ≠ id) : Service.Spares j s v :=
    (Turned.attended task htask ha hv).spares hj
  rw [hturn] at hv
  constructor
  case offers => rwa [hv.shared]
  case keys => exact hkeys
  case onCourse => exact honCourse
  case others => exact hothers
  case aborted => exact hv.aborted
  case tasks =>
    intro e he
    rcases (Numbered.mem_tasks_attended hv).mp he with hnew | ⟨heq, hgoes⟩ | hold
    · exact .inr (hstarted _ (Scheduler.mem_numberedFrom hnew).2.2 _)
    · rw [heq]
      exact .inr (hnext _ hgoes)
    · exact .inl hold
  case results =>
    intro e he
    exact ((Numbered.mem_results_attended hv).mp he).imp_right And.left
  case queue =>
    intro j hj hq
    rw [hv.queue]
    exact List.mem_append_left _
      (Scheduler.mem_enqueue.mpr (.inl ((List.mem_erase_of_ne hj).mpr hq)))

/-- A sender goes on as one that waits, if it goes on. -/
theorem Goes.eq_awaiting {n : Next ServiceTask ServiceResult} (h : d.Goes stand n)
    (htask : n.task? = some task) : ∃ x w, task = .awaiting x w := by
  cases stand with
  | awaiting hop =>
    obtain ⟨w, -, -, hgoes⟩ := h
    exact ⟨_, w, Option.some.inj (htask.symm.trans hgoes)⟩
  | finished result =>
    have hends : n = .ended (.exchanged result) := h
    simp [hends, Next.task?] at htask

theorem Goes.owns {n : Next ServiceTask ServiceResult} (h : d.Goes stand n) :
    ∀ t, n.task? = some t → d.Owns d.task t := by
  intro t ht
  obtain ⟨x, w, rfl⟩ := h.eq_awaiting ht
  rfl

theorem Goes.stands (h : d.Goes stand turn.next) (hn : Numbered s)
    (htask : s.task? d.task = some task) (hv : Scheduler.Attended s d.task turn v) :
    d.Stands v stand := by
  have hnone : ∀ r, (d.task, r) ∉ s.results := fun r hr =>
    hn.ended _ hr (List.mem_map_of_mem (Scheduler.mem_of_lookup htask))
  cases stand with
  | awaiting hop =>
    obtain ⟨w, hkey, hdeadline, hgoes⟩ := h
    refine ⟨⟨w, hkey, hdeadline, (Numbered.mem_tasks_attended hv).mpr (.inr (.inl ⟨rfl, hgoes⟩))⟩,
      fun r hr => ?_⟩
    rcases (Numbered.mem_results_attended hv).mp hr with hr | ⟨-, hends⟩
    · exact hnone r hr
    · cases hnext : turn.next <;> simp [hnext, Next.task?, Next.result?] at hgoes hends
  | finished result =>
    have hends : turn.next = .ended (.exchanged result) := h
    intro r
    rw [Numbered.mem_results_attended hv, hends, or_iff_right (hnone r)]
    simp [Next.result?, eq_comm]

/-- A sender has its first turn, and what the gateway has to send is sent by a new task. -/
theorem Goes.answering_begun (h : d.Goes stand turn.next)
    (hv : Scheduler.Attended s d.task turn v) {v₁ v₂ : Option Acknowledgement}
    (hphase : Phase d stand next v₁ v₂) (hstarted : turn.started = next.toList.map .answering)
    (hfresh : ∀ j a, (j, .answering a) ∈ s.tasks → a.messageId ≠ d.key .submission) :
    d.Answering v next := by
  have hiff : ∀ j a, a.messageId = d.key .submission → ((j, .answering a) ∈ v.tasks ↔
      (j, .answering a) ∈ Scheduler.numberedFrom s.nextTask turn.started) := by
    intro j a ha
    rw [Numbered.mem_tasks_attended hv]
    refine or_iff_left ?_
    rintro (⟨-, hgoes⟩ | ⟨hold, -⟩)
    · obtain ⟨x, w, heq⟩ := h.eq_awaiting hgoes
      simp at heq
    · exact hfresh j a hold ha
  cases next with
  | none =>
    refine ⟨none, rfl, fun j a => ⟨fun ⟨hmem, ha⟩ => ?_, fun heq => by simp at heq⟩⟩
    rw [hiff j a ha, hstarted] at hmem
    exact absurd (Scheduler.mem_numberedFrom hmem).2.2 List.not_mem_nil
  | some g =>
    refine ⟨some (s.nextTask, g), congrArg some hphase.undated_eq, fun j a => ?_⟩
    have hnew : Scheduler.numberedFrom s.nextTask turn.started = [(s.nextTask, .answering g)] := by
      rw [hstarted]
      rfl
    rw [hnew] at hiff
    constructor
    · rintro ⟨hmem, ha⟩
      have heq := List.mem_singleton.mp ((hiff j a ha).mp hmem)
      simpa [eq_comm] using heq
    · intro heq
      obtain ⟨rfl, rfl⟩ := Prod.mk.inj (Option.some.inj heq)
      have hg := hphase.messageId_eq
      exact ⟨(hiff _ _ hg).mpr List.mem_cons_self, hg⟩

/-- A sender that waits has its turn, and the gateway does nothing then. -/
theorem Goes.answering_resumed (h : d.Goes stand turn.next) (hn : Numbered s) {x : OpenExchange}
    {w : Wait} (htask : s.task? d.task = some (.awaiting x w))
    (hv : Scheduler.Attended s d.task turn v) (hstarted : turn.started = [])
    (hbefore : d.Answering s next) : d.Answering v next := by
  refine hbefore.of_iff fun j a _ => ?_
  rw [Numbered.mem_tasks_attended hv, hstarted]
  constructor
  · rintro (hnew | ⟨-, hgoes⟩ | ⟨hold, -⟩)
    · exact absurd (Scheduler.mem_numberedFrom hnew).2.2 List.not_mem_nil
    · obtain ⟨x, w, heq⟩ := h.eq_awaiting hgoes
      simp at heq
    · exact hold
  · refine fun hold => .inr (.inr ⟨hold, fun heq => ?_⟩)
    obtain rfl : j = d.task := heq
    simp [hn.task?_eq_some_iff.mpr hold] at htask

/-- The task that answers for the message has its turn. -/
theorem GatewayGoes.answering (h : GatewayGoes next turn.next) {a : GatewayAnswer}
    (ha : a.messageId = d.key .submission) (htask : s.task? id = some (.answering a))
    (hv : Scheduler.Attended s id turn v) (hstarted : turn.started = [])
    {before : Option GatewayAnswer} (hbefore : d.Answering s before)
    (hkey : ∀ g, next = some g → g.messageId = d.key .submission) : d.Answering v next := by
  obtain ⟨e, -, hanswers⟩ := hbefore
  have he := (hanswers id a).mp ⟨Scheduler.mem_of_lookup htask, ha⟩
  -- The only task that answered is the one that has its turn.
  have hgone : ∀ j b, b.messageId = d.key .submission → (j, .answering b) ∈ s.tasks → j = id := by
    intro j b hb hmem
    have heq := ((hanswers j b).mp ⟨hmem, hb⟩).symm.trans he
    exact (Prod.mk.inj (Option.some.inj heq)).1
  have hiff : ∀ j b, b.messageId = d.key .submission → ((j, .answering b) ∈ v.tasks ↔
      j = id ∧ turn.next.task? = some (.answering b)) := by
    intro j b hb
    rw [Numbered.mem_tasks_attended hv, hstarted]
    constructor
    · rintro (hnew | hown | ⟨hold, hne⟩)
      · exact absurd (Scheduler.mem_numberedFrom hnew).2.2 List.not_mem_nil
      · exact hown
      · exact absurd (hgone j b hb hold) hne
    · exact fun hown => .inr (.inl hown)
  cases next with
  | none =>
    have hnone : turn.next.task? = none := h
    refine ⟨none, rfl, fun j b => ⟨fun ⟨hmem, hb⟩ => ?_, fun heq => by simp at heq⟩⟩
    have hgoes := ((hiff j b hb).mp hmem).2
    simp [hnone] at hgoes
  | some g =>
    obtain ⟨b, hb, hgoes⟩ := h
    refine ⟨some (id, b), congrArg some hb, fun j c => ?_⟩
    constructor
    · rintro ⟨hmem, hc⟩
      obtain ⟨rfl, hown⟩ := (hiff j c hc).mp hmem
      rw [hgoes] at hown
      simpa using hown
    · intro heq
      obtain ⟨rfl, rfl⟩ := Prod.mk.inj (Option.some.inj heq)
      have hc : b.messageId = d.key .submission := by
        rw [← hkey g rfl, ← hb]
        rfl
      exact ⟨(hiff _ b hc).mpr ⟨rfl, hgoes⟩, hc⟩

theorem GatewayGoes.owns {n : Next ServiceTask ServiceResult} (h : GatewayGoes next n)
    (hkey : ∀ g, next = some g → g.messageId = d.key .submission) :
    ∀ t, n.task? = some t → d.Owns id t := by
  intro t ht
  cases next with
  | none =>
    have hnone : n.task? = none := h
    simp [hnone] at ht
  | some g =>
    obtain ⟨b, rfl, hgoes⟩ := h
    obtain rfl := Option.some.inj (ht.symm.trans hgoes)
    exact hkey b.undated rfl

section Turns

variable (hn : Numbered s) (hoffers : s.shared.table.Offers f)
  (hhosts : s.shared.table.Hosts (crowdOf s.tasks) s.queue) (ha : id ∉ s.aborted)

include hn hoffers hhosts ha

/-- The first turn of a sender. -/
theorem served_first {r : SendRequest} {p : GatewayPlan} {endpoint : Endpoint}
    (hd : d = opened s.shared s.clock.now id r endpoint p)
    (hgateway : s.shared.gateway = some ⟨p, true⟩)
    (hlimit : Sender.limitOf s.shared.settings r = 0) (hroute : r.route.endpoint = .ok endpoint)
    (hpayloads : r.message.payloads ≠ []) (hfresh : ∀ hop, f (d.key hop) = none)
    (hunanswered : ∀ j a, (j, .answering a) ∈ s.tasks → a.messageId ≠ d.key .submission)
    (hne : d.key .submission ≠ d.key .relay) (htask : s.task? id = some (.sending r))
    (hv : Scheduler.Attended s id
      (ServiceTask.behaviour.turn s.clock id (.sending r) s.shared) v) :
    ∃ f', d.Served s f id v f' := by
  subst hd
  obtain ⟨next, ⟨stand, f', hphase, hoffers', hkeys, hgoes⟩, hstarted⟩ :=
    begins s.shared s.clock.now id r hgateway hlimit hroute hpayloads hoffers hhosts hfresh hne
  refine ⟨f', .of_turn ha htask hv rfl hoffers' hkeys ?_ hgoes.owns ?_⟩
  · exact ⟨stand, next, hphase, hgoes.stands hn htask hv,
      hgoes.answering_begun hv hphase hstarted hunanswered⟩
  · change ∀ t ∈ (s.shared.beginExchange s.clock.now id r).started, _
    rw [hstarted]
    intro t ht j
    obtain ⟨g, hg, rfl⟩ := List.mem_map.mp ht
    rw [Option.mem_toList] at hg
    subst hg
    exact hphase.messageId_eq

/-- A turn of a sender that waits. -/
theorem OnCourse.served_resumed (h : d.OnCourse s f) (hne : d.key .submission ≠ d.key .relay)
    (hid : d.task = id) {x : OpenExchange} {w : Wait} (htask : s.task? id = some (.awaiting x w))
    (hv : Scheduler.Attended s id
      (ServiceTask.behaviour.turn s.clock id (.awaiting x w) s.shared) v) :
    ∃ f', d.Served s f id v f' := by
  subst hid
  obtain ⟨stand, next, hphase, hstands, hanswering⟩ := h
  obtain ⟨hop, w', rfl, heq, hkey, hdeadline⟩ := hstands.awaiting_of_task hn htask
  obtain ⟨rfl, rfl⟩ := ServiceTask.awaiting.inj heq
  have hw : (d.task, w) ∈ crowdOf s.tasks :=
    mem_crowdOf.mpr ⟨_, Scheduler.mem_of_lookup htask, rfl⟩
  obtain ⟨stand', f', hphase', hoffers', hkeys, hgoes⟩ :=
    proceeds_resume s.shared s.clock hphase hne hoffers hhosts hw hkey hdeadline
  refine ⟨f', .of_turn ha htask hv rfl hoffers' hkeys ?_ hgoes.owns (List.forall_mem_nil _)⟩
  exact ⟨stand', next, hphase', hgoes.stands hn htask hv,
    hgoes.answering_resumed hn htask hv rfl hanswering⟩

/-- A turn of the gateway. -/
theorem OnCourse.served_answered (h : d.OnCourse s f) (hne : d.key .submission ≠ d.key .relay)
    {a : GatewayAnswer} (hid : a.messageId = d.key .submission)
    (htask : s.task? id = some (.answering a))
    (hv : Scheduler.Attended s id
      (ServiceTask.behaviour.turn s.clock id (.answering a) s.shared) v) :
    ∃ f', d.Served s f id v f' := by
  obtain ⟨stand, next, hphase, hstands, hanswering⟩ := h
  obtain rfl : next = some a.undated := by
    obtain ⟨e, rfl, hanswers⟩ := hanswering
    rw [(hanswers id a).mp ⟨Scheduler.mem_of_lookup htask, hid⟩]
    rfl
  obtain ⟨hstarted, next, f', hphase', hoffers', hkeys, hgoes⟩ :=
    continueAnswer_proceeds s.shared s.clock hphase hne hoffers hhosts
  have hkey : ∀ g, next = some g → g.messageId = d.key .submission := by
    rintro g rfl
    exact hphase'.messageId_eq
  have hother : d.task ≠ id := by
    rintro rfl
    obtain ⟨hop, w, -, heq, -⟩ := hstands.awaiting_of_task hn htask
    simp at heq
  refine ⟨f', .of_turn ha htask hv rfl hoffers' hkeys ?_ (hgoes.owns hkey) ?_⟩
  · refine ⟨stand, next, hphase', hstands.spared ?_ fun r hr => ?_,
      hgoes.answering hid htask hv hstarted hanswering hkey⟩
    · exact (Turned.attended _ htask ha hv).spares hother
    · exact ((Numbered.mem_results_attended hv).mp hr).resolve_right fun hown => hother hown.1
  · change ∀ t ∈ (s.shared.continueAnswer s.clock a).started, _
    rw [hstarted]
    exact List.forall_mem_nil _

end Turns

/-! ## How an exchange ends -/

namespace OnCourse

/-- An exchange ends as planned or not at all. -/
theorem ending (h : d.OnCourse s f) {r : ServiceResult} (hr : (d.task, r) ∈ s.results) :
    ∃ now result, r = .exchanged result ∧ d.ending now = some result := by
  obtain ⟨stand, next, hphase, hstands, -⟩ := h
  cases stand with
  | awaiting hop => exact absurd hr (hstands.2 r)
  | finished result =>
    obtain ⟨⟨now, hending⟩, -⟩ := hphase.of_finished
    exact ⟨now, result, (hstands r).mp hr, hending⟩

/-- As long as it has not ended, the sender waits. -/
theorem awaiting_or_ended (h : d.OnCourse s f) :
    (d.plan.fault = none ∧ ∃ x w, (d.task, .awaiting x w) ∈ s.tasks) ∨
      ∃ result, (d.task, .exchanged result) ∈ s.results := by
  obtain ⟨stand, next, hphase, hstands, -⟩ := h
  cases stand with
  | awaiting hop =>
    obtain ⟨⟨w, -, -, hmem⟩, -⟩ := hstands
    exact .inl ⟨hphase.fault_eq_none, _, w, hmem⟩
  | finished result => exact .inr ⟨result, (hstands _).mpr rfl⟩

/-- When the gateway has nothing left to send, a sender without a turn to come has its result. -/
theorem ended (h : d.OnCourse s f) (hoffers : s.shared.table.Offers f)
    (hhosts : s.shared.table.Hosts (crowdOf s.tasks) s.queue) (hplan : ¬d.plan.IsSilent)
    (hidle : ∀ j a, (j, .answering a) ∈ s.tasks → a.messageId ≠ d.key .submission)
    (hqueue : d.task ∉ s.queue) : ∃ result, (d.task, .exchanged result) ∈ s.results := by
  obtain ⟨stand, next, hphase, hstands, e, rfl, hanswers⟩ := h
  cases stand with
  | finished result => exact ⟨result, (hstands _).mpr rfl⟩
  | awaiting hop =>
    obtain ⟨⟨w, hkey, -, hmem⟩, -⟩ := hstands
    have hnothing : e = none := by
      refine Option.eq_none_iff_forall_ne_some.mpr fun ⟨j, a⟩ he => ?_
      obtain ⟨hj, ha⟩ := (hanswers j a).mpr he
      exact hidle j a hj ha
    rw [hnothing] at hphase
    have hvalue : (f (d.key hop)).isSome := by
      have hoffered := hphase.offered_or_isSilent.resolve_right hplan
      cases hop <;> exact hoffered
    obtain ⟨a, ha⟩ := Option.isSome_iff_exists.mp hvalue
    rw [← hkey] at ha
    -- Whoever waits for a value that is there has been called.
    exact absurd (hoffers.mem_queue hhosts (mem_crowdOf.mpr ⟨_, hmem, rfl⟩) ha) hqueue

/-- When the sender does not wait any more, nothing is left of the exchange in the table. -/
theorem eq_none (h : d.OnCourse s f) (hgone : ∀ x w, (d.task, .awaiting x w) ∉ s.tasks)
    (hop : Hop) : f (d.key hop) = none := by
  obtain ⟨stand, next, hphase, hstands, -⟩ := h
  cases stand with
  | awaiting hop =>
    obtain ⟨⟨w, -, -, hmem⟩, -⟩ := hstands
    exact absurd hmem (hgone _ w)
  | finished result =>
    obtain ⟨-, hsubmission, hrelay⟩ := hphase.of_finished
    cases hop with
    | submission => exact hsubmission
    | relay => exact hrelay

end OnCourse
end Dispatch
end EbmsMessaging
