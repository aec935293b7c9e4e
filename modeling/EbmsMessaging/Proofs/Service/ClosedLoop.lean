import EbmsMessaging.Proofs.Message
import EbmsMessaging.Proofs.Service.OnCourse
import EbmsMessaging.Proofs.Service.Senders
import Mathlib.Data.Set.Function
import Mathlib.Order.Interval.Set.Basic

/-!
# The closed loop

Senders without a time limit and a gateway that answers through the same service make a closed loop:
every acknowledgement that a sender waits for is written, framed, read and put into the table by the
service itself. Any number of exchanges go on at once, in any order of turns, and nobody sweeps the
table. No identifier is drawn twice, so every exchange has two keys of the table to itself, and each
goes by the plan that the gateway had when it took the message.
-/
namespace EbmsMessaging

open Correlation

/-- A request with a usable route and a message that was built, by a sender that waits as long as it
takes. -/
structure SendRequest.Sound (settings : ExchangeSettings) (r : SendRequest) : Prop where
  route : ∃ endpoint, r.route.endpoint = .ok endpoint
  message : ∃ draft : MessageDraft, draft.build = .ok r.message
  limit : Sender.limitOf settings r = 0

theorem SendRequest.Sound.payloads_ne_nil {settings : ExchangeSettings} {r : SendRequest}
    (h : r.Sound settings) : r.message.payloads ≠ [] := by
  obtain ⟨draft, hbuild⟩ := h.message
  exact (MessageDraft.build_eq_ok.mp hbuild).2.1

/-- How an exchange stands that goes by its plan. -/
structure Dispatch.GoesByPlan (d : Dispatch) (s : Service.Scheduling) : Prop where
  /-- It ends as planned or not at all. -/
  ending : ∀ r, (d.task, r) ∈ s.results →
    ∃ now result, r = .exchanged result ∧ d.ending now = some result
  /-- A fault of the gateway ends it at once. -/
  fault : d.plan.fault.isSome → ∃ result, (d.task, .exchanged result) ∈ s.results
  /-- It has ended when the gateway has sent all that it has to send and the sender has noticed. -/
  ended : ¬d.plan.IsSilent → (∀ j a, (j, .answering a) ∈ s.tasks →
    a.messageId ≠ d.transmission.message.messageId) → d.task ∉ s.queue →
      ∃ result, (d.task, .exchanged result) ∈ s.results
  /-- The sender waits for a hop that is never acknowledged. -/
  silent : d.plan.IsSilent → ∃ x w, (d.task, .awaiting x w) ∈ s.tasks

theorem Dispatch.OnCourse.goesByPlan {d : Dispatch} {s : Service.Scheduling}
    {f : String → Option Acknowledgement} (h : d.OnCourse s f) (hoffers : s.shared.table.Offers f)
    (hhosts : s.shared.table.Hosts (crowdOf s.tasks) s.queue) : d.GoesByPlan s where
  ending r hr := h.ending hr
  fault hfault := by
    rcases h.awaiting_or_ended with ⟨hnone, -⟩ | hended
    · simp [hnone] at hfault
    · exact hended
  ended hplan hidle hqueue := h.ended hoffers hhosts hplan hidle hqueue
  silent hplan := by
    rcases h.awaiting_or_ended with ⟨-, hwaits⟩ | ⟨result, hr⟩
    · exact hwaits
    · obtain ⟨now, result', -, hending⟩ := h.ending hr
      rw [Dispatch.ending, GatewayPlan.ending_eq_none_iff.mpr hplan] at hending
      simp at hending

namespace Service

/-- What happens in a closed loop: messages are sent, the gateway changes its plan, and time passes
while the tasks have their turns. -/
inductive Move.InLoop (settings : ExchangeSettings) : Move → Prop where
  | send (r : SendRequest) (h : r.Sound settings) : InLoop settings (.send r)
  | plan (p : GatewayPlan) : InLoop settings (.changeGateway fun g => { g with plan := p })
  | advance (ms : Nat) : InLoop settings (.advance ms)
  | turn (id : TaskId) : InLoop settings (.turn id)
  | ring : InLoop settings .ring

/-- A sender is about to hand its message to the gateway, which will go by this plan. -/
structure HandsOver (s : Scheduling) (id : TaskId) (r : SendRequest) (d : Dispatch) : Prop where
  sender : (id, .sending r) ∈ s.tasks
  gateway : s.shared.gateway = some ⟨d.plan, true⟩
  sends : Sender.Sends s.shared.settings id r d.transmission
  relay : d.relay = messageIdOf (s.shared.draws.uuid (s.shared.draws.drawn + 2))
    Gateway.agreement.domain
  startedAt : d.startedAt = s.now

/-- The message of a sender was handed to the gateway. -/
def HandedOver (s : Service) (moves : List Move) (id : TaskId) (r : SendRequest) (d : Dispatch) :
    Prop :=
  ∃ before, before ++ [.turn id] <+: moves ∧ HandsOver (s.run before).scheduler id r d

/-- What is known of a task in a closed loop. -/
def Accounted (ds : List Dispatch) (settings : ExchangeSettings) (queue : List TaskId)
    (id : TaskId) : ServiceTask → Prop
  | .sending r => id ∈ queue ∧ r.Sound settings
  | task => ∃ d ∈ ds, d.Owns id task

/-- A closed loop with the messages that were handed over in it. -/
structure Looping (settings : ExchangeSettings) (uuid : Nat → Uuid) (s : Scheduling)
    (ds : List Dispatch) (f : String → Option Acknowledgement) : Prop where
  settings_eq : s.shared.settings = settings
  gateway : ∃ p, s.shared.gateway = some ⟨p, true⟩
  uuid_eq : s.shared.draws.uuid = uuid
  refusals : s.shared.intake.metrics.refusals = 0
  aborted : s.aborted = []
  offers : s.shared.table.Offers f
  /-- Nothing lies in the table for anybody else. -/
  offered : ∀ key, f key ≠ none → ∃ d ∈ ds, ∃ hop, key = d.key hop
  accounted : ∀ e ∈ s.tasks, Accounted ds settings s.queue e.1 e.2
  sent : ∀ d ∈ ds, d.transmission ∈ s.shared.transmissions
  drawn : ∀ d ∈ ds, ∃ n, n + 2 < s.shared.draws.drawn ∧ d.DrawnFrom uuid n
  apart : ∀ d ∈ ds, ∀ d' ∈ ds, ∀ hop hop', d.key hop = d'.key hop' → d = d' ∧ hop = hop'
  alone : ∀ d ∈ ds, ∀ d' ∈ ds, d.task = d'.task → d = d'
  onCourse : ∀ d ∈ ds, d.OnCourse s f

section Steps

variable {settings : ExchangeSettings} {uuid : Nat → Uuid} {s v : Scheduling}
  {ds ds' : List Dispatch} {f f' : String → Option Acknowledgement} {d : Dispatch} {id : TaskId}
  {task : ServiceTask}

theorem Accounted.mono {queue queue' : List TaskId} (h : Accounted ds settings queue id task)
    (hds : ds ⊆ ds') (hqueue : id ∈ queue → id ∈ queue') :
    Accounted ds' settings queue' id task := by
  have howned : (∃ d ∈ ds, d.Owns id task) → ∃ d ∈ ds', d.Owns id task := by
    rintro ⟨d, hd, howns⟩
    exact ⟨d, hds hd, howns⟩
  cases task with
  | sending r => exact ⟨hqueue h.1, h.2⟩
  | _ => exact howned h

/-- The tasks that an exchange owns are never senders that have not begun. -/
theorem accounted_of_owns (hd : d ∈ ds) (h : d.Owns id task) (queue : List TaskId) :
    Accounted ds settings queue id task := by
  cases task with
  | sending r => exact h.elim
  | _ => exact ⟨d, hd, h⟩

/-- A move in the loop that is no turn changes at most the gateway's plan, and starts at most a
sender. -/
theorem Move.InLoop.outcome {s : Service} {m : Move} (hm : m.InLoop settings) {p : GatewayPlan}
    (hp : s.scheduler.shared.gateway = some ⟨p, true⟩) (hturn : ∀ id, m ≠ .turn id) :
    (∃ p, (s.move m).scheduler.shared =
      { s.scheduler.shared with gateway := some ⟨p, true⟩ }) ∧
      (s.move m).scheduler.aborted = s.scheduler.aborted ∧
      ∀ t, s.started? m = some t → ∃ r, t = .sending r ∧ r.Sound settings := by
  have hsame : s.scheduler.shared = { s.scheduler.shared with gateway := some ⟨p, true⟩ } := by
    rw [← hp]
  cases hm with
  | send r hr =>
    refine ⟨⟨p, hsame⟩, rfl, fun t ht => ⟨r, ?_, hr⟩⟩
    exact (Option.some.inj ht).symm
  | plan p' =>
    refine ⟨⟨p', ?_⟩, rfl, fun t ht => by simp [started?] at ht⟩
    simp [Service.move, Service.changeGateway, Service.change, Scheduler.change,
      Scheduler.callAll, hp]
  | advance ms => exact ⟨⟨p, hsame⟩, rfl, fun t ht => by simp [started?] at ht⟩
  | turn id => exact absurd rfl (hturn id)
  | ring =>
    simp only [Service.move, Scheduler.ring, Scheduler.callAll_eq]
    exact ⟨⟨p, hsame⟩, trivial, fun t ht => by simp [started?] at ht⟩

namespace Looping

theorem keys_ne (h : Looping settings uuid s ds f) (hd : d ∈ ds) :
    d.key .submission ≠ d.key .relay :=
  fun heq => Hop.noConfusion (h.apart d hd d hd _ _ heq).2

/-- Time passes, messages are sent, and the gateway changes its plan. -/
theorem move {s : Service} (h : Looping settings uuid s.scheduler ds f) {m : Move}
    (hm : m.InLoop settings) (hturn : ∀ id, m ≠ .turn id) :
    Looping settings uuid (s.move m).scheduler ds f := by
  have hpassed := passed_of_not_turn s hturn
  obtain ⟨p, hp⟩ := h.gateway
  obtain ⟨⟨p', hstate⟩, haborted, hstarted⟩ := hm.outcome hp hturn
  constructor
  case aborted => exact haborted.trans h.aborted
  case offered => exact h.offered
  case apart => exact h.apart
  case alone => exact h.alone
  case accounted =>
    intro e he
    rw [hpassed.tasks] at he
    rcases List.mem_append.mp he with he | he
    · exact (h.accounted e he).mono (List.Subset.refl _) fun hq => hpassed.queue _ (.inl hq)
    · obtain ⟨t, ht, rfl⟩ := List.mem_map.mp he
      rw [Option.mem_toList] at ht
      obtain ⟨r, rfl, hr⟩ := hstarted t ht
      exact ⟨hpassed.queue _ (.inr ⟨by rw [ht]; rfl, rfl⟩), hr⟩
  case onCourse =>
    refine fun d hd => (h.onCourse d hd).passed hpassed fun a ha => ?_
    obtain ⟨r, heq, -⟩ := hstarted _ ha
    simp at heq
  all_goals rw [hstate]
  · exact h.settings_eq
  · exact ⟨p', rfl⟩
  · exact h.uuid_eq
  · exact h.refusals
  · exact h.offers
  · exact h.sent
  · exact h.drawn

/-- Nobody is there to have a turn. -/
theorem nobody (h : Looping settings uuid s ds f) (hnone : s.task? id = none) :
    Looping settings uuid { s with queue := s.queue.erase id } ds f := by
  refine ⟨h.settings_eq, h.gateway, h.uuid_eq, h.refusals, h.aborted, h.offers, h.offered,
    fun e he => ?_, h.sent, h.drawn, h.apart, h.alone, h.onCourse⟩
  refine (h.accounted e he).mono (List.Subset.refl _) fun hq => ?_
  have hne : e.1 ≠ id := fun heq =>
    Scheduler.lookup_eq_none_iff.mp hnone (heq ▸ List.mem_map_of_mem he)
  exact (List.mem_erase_of_ne hne).mpr hq

/-- A turn serves an exchange of the loop, or one that joins it. -/
theorem served (h : Looping settings uuid s ds f) (hn : Numbered s) (hd : d ∈ ds') (hds : ds ⊆ ds')
    (hds' : ∀ d' ∈ ds', d' = d ∨ d' ∈ ds) (hserved : d.Served s f id v f')
    (hcontinues : s.shared.Continues v.shared)
    (hsent : d.transmission ∈ v.shared.transmissions)
    (hdrawn : ∃ n, n + 2 < v.shared.draws.drawn ∧ d.DrawnFrom uuid n)
    (hapart : ∀ d ∈ ds', ∀ d' ∈ ds', ∀ hop hop', d.key hop = d'.key hop' → d = d' ∧ hop = hop')
    (halone : ∀ d ∈ ds', ∀ d' ∈ ds', d.task = d'.task → d = d')
    (hothers : ∀ d' ∈ ds, d' ≠ d → d'.task ≠ id) (htask : s.task? id = some task)
    (hown : ∀ a, task = .answering a → a.messageId = d.key .submission) :
    Looping settings uuid v ds' f' := by
  constructor
  case settings_eq => rw [hcontinues.settings, h.settings_eq]
  case gateway => rw [hcontinues.gateway]; exact h.gateway
  case uuid_eq => rw [hcontinues.uuid, h.uuid_eq]
  case refusals => rw [hcontinues.refusals, h.refusals]
  case aborted =>
    refine List.eq_nil_iff_forall_not_mem.mpr fun j hj => ?_
    simpa [h.aborted] using hserved.aborted j hj
  case offers => exact hserved.offers
  case offered =>
    intro key hkey
    by_cases hown : ∃ hop, key = d.key hop
    · exact ⟨d, hd, hown⟩
    · rw [hserved.keys key fun hop heq => hown ⟨hop, heq⟩] at hkey
      obtain ⟨d', hd', hhop⟩ := h.offered key hkey
      exact ⟨d', hds hd', hhop⟩
  case accounted =>
    intro e he
    rcases hserved.tasks e he with ⟨hold, hne⟩ | howns
    · exact (h.accounted e hold).mono hds (hserved.queue _ hne)
    · exact accounted_of_owns hd howns _
  case sent =>
    intro d' hd'
    rcases hds' d' hd' with rfl | hold
    · exact hsent
    · exact hcontinues.transmissions (h.sent d' hold)
  case drawn =>
    intro d' hd'
    rcases hds' d' hd' with rfl | hold
    · exact hdrawn
    · obtain ⟨n, hlt, hfrom⟩ := h.drawn d' hold
      exact ⟨n, Nat.lt_of_lt_of_le hlt hcontinues.drawn, hfrom⟩
  case apart => exact hapart
  case alone => exact halone
  case onCourse =>
    intro d' hd'
    by_cases heq : d' = d
    · rw [heq]
      exact hserved.onCourse
    · -- The others have other keys and other senders, so the turn is none of theirs.
      have hold := (hds' d' hd').resolve_left heq
      exact (h.onCourse d' hold).beside hn hserved
        (fun hop hop' hkey => heq (hapart d' hd' d hd hop hop' hkey).1) (hothers d' hold heq)
        htask hown

/-- A turn serves an exchange of the loop. -/
theorem served_old (h : Looping settings uuid s ds f) (hn : Numbered s) (hd : d ∈ ds)
    (hserved : d.Served s f id v f') (hcontinues : s.shared.Continues v.shared)
    (hothers : ∀ d' ∈ ds, d' ≠ d → d'.task ≠ id) (htask : s.task? id = some task)
    (hown : ∀ a, task = .answering a → a.messageId = d.key .submission) :
    Looping settings uuid v ds f' := by
  obtain ⟨n, hlt, hfrom⟩ := h.drawn d hd
  exact h.served hn hd (List.Subset.refl _) (fun d' hd' => .inr hd') hserved hcontinues
    (hcontinues.transmissions (h.sent d hd)) ⟨n, Nat.lt_of_lt_of_le hlt hcontinues.drawn, hfrom⟩
    h.apart h.alone hothers htask hown

/-- A sender that has not begun, or a task that answers, is the sender of no exchange. -/
theorem task_ne (h : Looping settings uuid s ds f) (hn : Numbered s)
    (htask : s.task? id = some task) (hnot : ∀ x w, task ≠ .awaiting x w) {d' : Dispatch}
    (hd' : d' ∈ ds) : d'.task ≠ id := by
  rintro rfl
  obtain ⟨stand, next, -, hstands, -⟩ := h.onCourse d' hd'
  obtain ⟨hop, w, -, heq, -⟩ := hstands.awaiting_of_task hn htask
  exact hnot _ w heq

/-! ## An exchange joins the loop -/

/-- What is drawn next was not drawn for any message before. -/
theorem keys_fresh (h : Looping settings uuid s ds f) {bound : Nat}
    (hbound : s.shared.draws.drawn + 3 ≤ bound) (hinj : Set.InjOn uuid (Set.Iio bound))
    (hfrom : d.DrawnFrom uuid s.shared.draws.drawn) :
    ∀ d' ∈ ds, ∀ hop hop', d'.key hop ≠ d.key hop' := by
  intro d' hd' hop hop' heq
  obtain ⟨n, hlt, hfrom'⟩ := h.drawn d' hd'
  have hplace := hfrom'.place_eq hfrom hinj (by omega) (by omega) heq
  have hle := Dispatch.place_le hop
  omega

theorem apart_cons (h : Looping settings uuid s ds f)
    (hfresh : ∀ d' ∈ ds, ∀ hop hop', d'.key hop ≠ d.key hop')
    (hown : ∀ hop hop', d.key hop = d.key hop' → hop = hop') :
    ∀ d₁ ∈ d :: ds, ∀ d₂ ∈ d :: ds, ∀ hop hop', d₁.key hop = d₂.key hop' →
      d₁ = d₂ ∧ hop = hop' := by
  intro d₁ h₁ d₂ h₂ hop hop' heq
  rcases List.mem_cons.mp h₁ with rfl | hold₁ <;> rcases List.mem_cons.mp h₂ with rfl | hold₂
  · exact ⟨rfl, hown hop hop' heq⟩
  · exact absurd heq.symm (hfresh d₂ hold₂ hop' hop)
  · exact absurd heq (hfresh d₁ hold₁ hop hop')
  · exact h.apart d₁ hold₁ d₂ hold₂ hop hop' heq

theorem alone_cons (h : Looping settings uuid s ds f) (hothers : ∀ d' ∈ ds, d'.task ≠ d.task) :
    ∀ d₁ ∈ d :: ds, ∀ d₂ ∈ d :: ds, d₁.task = d₂.task → d₁ = d₂ := by
  intro d₁ h₁ d₂ h₂ heq
  rcases List.mem_cons.mp h₁ with rfl | hold₁ <;> rcases List.mem_cons.mp h₂ with rfl | hold₂
  · rfl
  · exact absurd heq.symm (hothers d₂ hold₂)
  · exact absurd heq (hothers d₁ hold₁)
  · exact h.alone d₁ hold₁ d₂ hold₂ heq

section Attended

variable (h : Looping settings uuid s ds f) (hn : Numbered s)
  (hhosts : s.shared.table.Hosts (crowdOf s.tasks) s.queue)

include h hn hhosts

/-- A sender has its first turn, and its exchange joins the loop. -/
theorem joined {r : SendRequest} (htask : s.task? id = some (.sending r))
    (hv : Scheduler.Attended s id
      (ServiceTask.behaviour.turn s.clock id (.sending r) s.shared) v)
    (hinj : Set.InjOn uuid (Set.Iio v.shared.draws.drawn)) :
    ∃ d f', Looping settings uuid v (d :: ds) f' ∧ HandsOver s id r d := by
  have hmem := Scheduler.mem_of_lookup htask
  obtain ⟨-, hsound⟩ := h.accounted _ hmem
  obtain ⟨endpoint, hroute⟩ := hsound.route
  obtain ⟨p, hgateway⟩ := h.gateway
  have hpayloads := hsound.payloads_ne_nil
  have hlimit : Sender.limitOf s.shared.settings r = 0 := by
    rw [h.settings_eq]
    exact hsound.limit
  obtain ⟨d, hd⟩ : ∃ d, d = Dispatch.opened s.shared s.clock.now id r endpoint p := ⟨_, rfl⟩
  have hhands : HandsOver s id r d := by
    rw [hd]
    exact ⟨hmem, hgateway, Dispatch.sends_opened s.shared _ id r hroute hpayloads, rfl, rfl⟩
  have hfrom : d.DrawnFrom uuid s.shared.draws.drawn := by
    rw [hd, ← h.uuid_eq]
    exact Dispatch.drawnFrom_opened s.shared s.clock.now id r endpoint p
  have hhanding : (d.handing s.shared).Continues v.shared := by
    rw [hv.shared, hd]
    exact Dispatch.handing_continues s.shared s.clock.now id r hgateway hlimit hroute hpayloads
  have hcontinues : s.shared.Continues v.shared := by
    rw [hv.shared]
    exact .turn _ _ _ _
  have hbound : s.shared.draws.drawn + 3 ≤ v.shared.draws.drawn := hhanding.drawn
  have hnew := h.keys_fresh hbound hinj hfrom
  have hown : ∀ hop hop', d.key hop = d.key hop' → hop = hop' := fun hop hop' heq =>
    Dispatch.place_inj (Nat.add_left_cancel (hfrom.place_eq hfrom hinj hbound hbound heq))
  have hfresh : ∀ hop, f (d.key hop) = none := by
    intro hop
    by_contra hsome
    obtain ⟨d', hd', hop', heq⟩ := h.offered _ hsome
    exact hnew d' hd' hop' hop heq.symm
  have hunanswered : ∀ j a, (j, .answering a) ∈ s.tasks → a.messageId ≠ d.key .submission := by
    intro j a hmem heq
    obtain ⟨d', hd', howns⟩ := h.accounted _ hmem
    exact hnew d' hd' _ _ (howns.symm.trans heq)
  have hothers : ∀ d' ∈ ds, d'.task ≠ id := fun d' hd' => h.task_ne hn htask (by simp) hd'
  have hid : d.task = id := hhands.sends.task
  obtain ⟨f', hserved⟩ := Dispatch.served_first hn h.offers hhosts (by simp [h.aborted]) hd hgateway
    hlimit hroute hpayloads hfresh hunanswered (fun heq => Hop.noConfusion (hown _ _ heq)) htask hv
  refine ⟨d, f', h.served hn List.mem_cons_self (List.subset_cons_self d ds)
    (fun d' hd' => List.mem_cons.mp hd') hserved hcontinues
    (hhanding.transmissions (List.mem_append_right _ List.mem_cons_self)) ⟨_, hbound, hfrom⟩
    (h.apart_cons hnew hown) (h.alone_cons ?_) (fun d' hd' _ => hothers d' hd') htask (by simp),
    hhands⟩
  rw [hid]
  exact hothers

/-- Whoever has a turn, the loop goes on. -/
theorem attended (htask : s.task? id = some task)
    (hv : Scheduler.Attended s id (ServiceTask.behaviour.turn s.clock id task s.shared) v)
    (hinj : Set.InjOn uuid (Set.Iio v.shared.draws.drawn)) :
    ∃ ds' f', ds ⊆ ds' ∧ Looping settings uuid v ds' f' ∧ ∀ r, task = .sending r →
      ∃ d ∈ ds', HandsOver s id r d := by
  have haccounted := h.accounted _ (Scheduler.mem_of_lookup htask)
  have ha : id ∉ s.aborted := by simp [h.aborted]
  have hcontinues : s.shared.Continues v.shared := by
    rw [hv.shared]
    exact .turn _ _ _ _
  cases task with
  | sending r =>
    obtain ⟨d, f', hloop, hhands⟩ := h.joined hn hhosts htask hv hinj
    refine ⟨d :: ds, f', List.subset_cons_self d ds, hloop, fun r' hr' => ?_⟩
    obtain rfl := ServiceTask.sending.inj hr'
    exact ⟨d, List.mem_cons_self, hhands⟩
  | awaiting x w =>
    obtain ⟨d, hd, rfl⟩ := haccounted
    obtain ⟨f', hserved⟩ := (h.onCourse d hd).served_resumed hn h.offers hhosts ha (h.keys_ne hd)
      rfl htask hv
    have hothers : ∀ d' ∈ ds, d' ≠ d → d'.task ≠ d.task := fun d' hd' hne heq =>
      hne (h.alone d' hd' d hd heq)
    exact ⟨ds, f', List.Subset.refl _,
      h.served_old hn hd hserved hcontinues hothers htask (by simp), by simp⟩
  | answering a =>
    obtain ⟨d, hd, howns⟩ := haccounted
    obtain ⟨f', hserved⟩ := (h.onCourse d hd).served_answered hn h.offers hhosts ha (h.keys_ne hd)
      howns htask hv
    have hothers : ∀ d' ∈ ds, d' ≠ d → d'.task ≠ id := fun d' hd' _ =>
      h.task_ne hn htask (by simp) hd'
    refine ⟨ds, f', List.Subset.refl _, h.served_old hn hd hserved hcontinues hothers htask ?_,
      by simp⟩
    intro a' ha'
    obtain rfl := ServiceTask.answering.inj ha'
    exact howns
  | _ =>
    obtain ⟨d, -, howns⟩ := haccounted
    exact howns.elim

end Attended

/-- The turn of a task, if there is one. -/
theorem turn {s : Service} (h : Looping settings uuid s.scheduler ds f) (hn : Numbered s.scheduler)
    (hhosts : s.state.table.Hosts (crowdOf s.scheduler.tasks) s.scheduler.queue) (id : TaskId)
    (hinj : Set.InjOn uuid (Set.Iio (s.move (.turn id)).state.draws.drawn)) :
    ∃ ds' f', ds ⊆ ds' ∧ Looping settings uuid (s.move (.turn id)).scheduler ds' f' ∧
      ∀ r, (id, .sending r) ∈ s.scheduler.tasks → ∃ d ∈ ds', HandsOver s.scheduler id r d := by
  have hturned := hn.turned id
  change Turned s.scheduler id (s.move (.turn id)).scheduler at hturned
  rw [state] at hinj
  generalize (s.move (.turn id)).scheduler = v at hturned hinj ⊢
  cases hturned with
  | nobody hnone =>
    refine ⟨ds, f, List.Subset.refl _, h.nobody hnone, fun r hr => ?_⟩
    exact absurd (List.mem_map_of_mem hr) (Scheduler.lookup_eq_none_iff.mp hnone)
  | dropped task htask ha => simp [h.aborted] at ha
  | attended task htask ha hv =>
    obtain ⟨ds', f', hds, hloop, hbegun⟩ := h.attended hn hhosts htask hv hinj
    refine ⟨ds', f', hds, hloop, fun r hr => hbegun r ?_⟩
    exact Option.some.inj (htask.symm.trans (hn.task?_eq_some_iff.mpr hr))

end Looping
end Steps

section Runs

variable {s : Service} {moves : List Move} {m : Move} {id : TaskId} {r : SendRequest}
  {settings : ExchangeSettings}

theorem Move.InLoop.drawn_le (h : m.InLoop settings) (s : Service) :
    s.state.draws.drawn ≤ (s.move m).state.draws.drawn := by
  cases h with
  | turn id => exact (s.continues_turn id).drawn
  | ring => rw [state_ring]
  | _ => exact Nat.le_refl _

theorem HandedOver.mono {d : Dispatch} (h : s.HandedOver moves id r d) (m : Move) :
    s.HandedOver (moves ++ [m]) id r d := by
  obtain ⟨before, hbefore, hrest⟩ := h
  exact ⟨before, hbefore.trans (List.prefix_append moves [m]), hrest⟩

/-- A run of a closed loop with all the messages that were handed over. -/
theorem looping_run (settings : ExchangeSettings) (p : GatewayPlan) (draws : Draws)
    (hmoves : ∀ m ∈ moves, m.InLoop settings)
    (hinj : Set.InjOn draws.uuid
      (Set.Iio ((opened settings (some ⟨p, true⟩) draws).run moves).state.draws.drawn)) :
    ∃ ds f, Looping settings draws.uuid
        ((opened settings (some ⟨p, true⟩) draws).run moves).scheduler ds f ∧
      ∀ id r, (opened settings (some ⟨p, true⟩) draws).Requested moves id r →
        (id, .sending r) ∈ ((opened settings (some ⟨p, true⟩) draws).run moves).scheduler.tasks ∨
          ∃ d ∈ ds, (opened settings (some ⟨p, true⟩) draws).HandedOver moves id r d := by
  induction moves using List.reverseRecOn with
  | nil =>
    refine ⟨[], fun _ => none, ?_, ?_⟩
    · constructor
      case gateway => exact ⟨p, rfl⟩
      case offers => exact Table.Offers.empty _
      all_goals simp [opened, Scheduler.start, ServiceState.start, Intake.start, Metrics.zero]
    · rintro id r ⟨before, hbefore, -⟩
      simp at hbefore
  | append_singleton moves m ih =>
    obtain ⟨hmoves, hm⟩ := List.forall_mem_append.mp hmoves
    replace hm := hm m List.mem_cons_self
    generalize hs : opened settings (some ⟨p, true⟩) draws = s at ih hinj ⊢
    have hn : Numbered (s.run moves).scheduler := hs ▸ numbered_run _ _ _ moves
    have hhosts := (seated_run settings (some ⟨p, true⟩) draws moves).hosts
    rw [hs] at hhosts
    rw [run_concat] at hinj ⊢
    -- No move takes a draw back, so nothing was drawn twice before the last one either.
    obtain ⟨ds, f, hloop, hrequests⟩ := ih hmoves
      (hinj.mono (Set.Iio_subset_Iio (hm.drawn_le (s.run moves))))
    by_cases hturn : ∃ id, m = .turn id
    · obtain ⟨id, rfl⟩ := hturn
      obtain ⟨ds', f', hds, hloop', hbegun⟩ := hloop.turn hn hhosts id hinj
      refine ⟨ds', f', hloop', fun j r hr => ?_⟩
      rcases hr.of_concat with hold | ⟨heq, -⟩
      · rcases hrequests j r hold with hmem | ⟨d, hd, hhanded⟩
        · by_cases hj : j = id
          · subst hj
            obtain ⟨d, hd, hhands⟩ := hbegun r hmem
            exact .inr ⟨d, hd, moves, List.prefix_refl _, hhands⟩
          · exact .inl ((spares_move hn (by simpa using Ne.symm hj)).task _ hmem)
        · exact .inr ⟨d, hds hd, hhanded.mono _⟩
      · simp at heq
    · have hnot : ∀ id, m ≠ .turn id := fun id heq => hturn ⟨id, heq⟩
      refine ⟨ds, f, hloop.move hm hnot, fun j r hr => ?_⟩
      rcases hr.of_concat with hold | ⟨rfl, rfl⟩
      · rcases hrequests j r hold with hmem | ⟨d, hd, hhanded⟩
        · exact .inl ((spares_move hn (hnot j)).task _ hmem)
        · exact .inr ⟨d, hd, hhanded.mono _⟩
      · exact .inl (List.mem_append_right _ List.mem_cons_self)

/-- In a closed loop every exchange goes by the plan that the gateway had when it took the message,
whatever other exchanges do at the same time. The service refuses nothing that the gateway sends,
and when no sender is left the table is empty. -/
theorem exchanges_go_by_plan (settings : ExchangeSettings) (p : GatewayPlan) (draws : Draws)
    {s : Service} (hcreate : create settings (some ⟨p, true⟩) draws = .ok s) {moves : List Move}
    (hmoves : ∀ m ∈ moves, m.InLoop settings)
    (hdraws : Set.InjOn draws.uuid (Set.Iio (s.run moves).state.draws.drawn)) :
    (∀ id r, s.Requested moves id r →
      ((id, .sending r) ∈ (s.run moves).scheduler.tasks ∧ id ∈ (s.run moves).scheduler.queue) ∨
      ∃ d, s.HandedOver moves id r d ∧ d.transmission ∈ (s.run moves).state.transmissions ∧
        d.GoesByPlan (s.run moves).scheduler) ∧
    (s.run moves).state.intake.metrics.refusals = 0 ∧
    ((∀ e ∈ (s.run moves).scheduler.tasks, ¬e.2.IsSender) →
      (s.run moves).state.table.isEmpty) := by
  obtain rfl : opened settings (some ⟨p, true⟩) draws = s := by
    rw [create_eq] at hcreate
    cases hcheck : settings.check with
    | error e => simp [hcheck, Except.map] at hcreate
    | ok u => simpa [hcheck, Except.map] using hcreate
  obtain ⟨ds, f, hloop, hrequests⟩ := looping_run settings p draws hmoves hdraws
  have hhosts := (seated_run settings (some ⟨p, true⟩) draws moves).hosts
  refine ⟨fun id r hr => ?_, hloop.refusals, fun hgone => ?_⟩
  · rcases hrequests id r hr with hmem | ⟨d, hd, hhanded⟩
    · exact .inl ⟨hmem, (hloop.accounted _ hmem).1⟩
    · exact .inr ⟨d, hhanded, hloop.sent d hd, (hloop.onCourse d hd).goesByPlan hloop.offers hhosts⟩
  · have hnobody : ∀ e ∈ ((opened settings (some ⟨p, true⟩) draws).run moves).scheduler.tasks,
        e.2.wait? = none := by
      rintro ⟨id, task⟩ he
      have haccounted := hloop.accounted _ he
      cases task with
      | sending r => exact absurd trivial (hgone _ he)
      | awaiting x w => exact absurd trivial (hgone _ he)
      | answering a => rfl
      | _ => exact haccounted.elim fun d hd => hd.2.elim
    rw [crowdOf_eq_nil hnobody] at hhosts
    have hnone : ∀ key, f key = none := by
      intro key
      by_contra hsome
      obtain ⟨d, hd, hop, rfl⟩ := hloop.offered key hsome
      exact hsome ((hloop.onCourse d hd).eq_none (fun x w hmem => hgone _ hmem trivial) hop)
    exact List.isEmpty_iff.mpr (hloop.offers.cells_eq_nil hhosts hnone)

theorem sound_patientRequest : patientRequest.Sound .standard where
  route := ⟨_, rfl⟩
  message := ⟨⟨some patientRequest.message.sender, some patientRequest.message.receiver,
    some patientRequest.message.documentType, some patientRequest.message.process,
    patientRequest.message.payloads⟩, by decide⟩
  limit := rfl

theorem injOn_countingDraws {bound : Nat} (h : bound ≤ 1 <<< 122) :
    Set.InjOn countingDraws.uuid (Set.Iio bound) := by
  intro i hi j hj heq
  have hvalue : i % (1 <<< 122) = j % (1 <<< 122) := congrArg (fun u : Uuid => u.random.val) heq
  rwa [Nat.mod_eq_of_lt (Nat.lt_of_lt_of_le hi h), Nat.mod_eq_of_lt (Nat.lt_of_lt_of_le hj h)]
    at hvalue

/-- The gateway refuses messages. -/
def refusingPlan : GatewayPlan := ⟨none, .reject ⟨"EBMS:0004", none, none, none⟩, .accept, true, 5⟩

def sampleLoop : Service := opened .standard (some ⟨refusingPlan, true⟩) countingDraws

/-- The gateway refuses the first message, and it is silent about the second. -/
def loopMoves : List Move :=
  [.send patientRequest, .turn 0, .turn 1,
    .changeGateway fun g => { g with plan := ⟨none, .silent, .accept, true, 0⟩ },
    .send patientRequest, .turn 2, .turn 3, .advance 5, .ring, .turn 1, .turn 0]

theorem inLoop_loopMoves : ∀ m ∈ loopMoves, m.InLoop .standard := by
  simp only [loopMoves, List.forall_mem_cons, List.not_mem_nil, false_imp_iff, implies_true,
    and_true]
  exact ⟨.send _ sound_patientRequest, .turn 0, .turn 1, .plan _, .send _ sound_patientRequest,
    .turn 2, .turn 3, .advance 5, .ring, .turn 1, .turn 0⟩

theorem refused_and_silent_exchanges_go_by_plan :
    create .standard (some ⟨refusingPlan, true⟩) countingDraws = .ok sampleLoop ∧
      (∀ m ∈ loopMoves, m.InLoop .standard) ∧
      Set.InjOn countingDraws.uuid (Set.Iio (sampleLoop.run loopMoves).state.draws.drawn) ∧
      (∃ d, sampleLoop.HandedOver loopMoves 0 patientRequest d ∧
        d.GoesByPlan (sampleLoop.run loopMoves).scheduler) ∧
      (∃ d, sampleLoop.HandedOver loopMoves 2 patientRequest d ∧
        d.GoesByPlan (sampleLoop.run loopMoves).scheduler) ∧
      (sampleLoop.run loopMoves).state.intake.metrics.refusals = 0 := by
  obtain ⟨hdrawn, hqueue⟩ : (sampleLoop.run loopMoves).state.draws.drawn = 9 ∧
      (sampleLoop.run loopMoves).scheduler.queue = [] := by decide +kernel
  have hdraws : Set.InjOn countingDraws.uuid
      (Set.Iio (sampleLoop.run loopMoves).state.draws.drawn) := by
    rw [hdrawn]
    exact injOn_countingDraws (by decide)
  obtain ⟨hsends, hrefusals, -⟩ :=
    exchanges_go_by_plan .standard refusingPlan countingDraws rfl inLoop_loopMoves hdraws
  have hgoes (id : TaskId) (h : sampleLoop.Requested loopMoves id patientRequest) :
      ∃ d, sampleLoop.HandedOver loopMoves id patientRequest d ∧
        d.GoesByPlan (sampleLoop.run loopMoves).scheduler := by
    rcases hsends id patientRequest h with ⟨-, hq⟩ | ⟨d, hhanded, -, hplan⟩
    · change id ∈ (sampleLoop.run loopMoves).scheduler.queue at hq
      simp [hqueue] at hq
    · exact ⟨d, hhanded, hplan⟩
  refine ⟨rfl, inLoop_loopMoves, hdraws, hgoes 0 ⟨[], ⟨_, rfl⟩, rfl⟩, hgoes 2 ?_, hrefusals⟩
  exact ⟨loopMoves.take 4, ⟨_, rfl⟩, by decide +kernel⟩

end Runs
end Service
end EbmsMessaging
