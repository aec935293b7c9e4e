import EbmsMessaging.Proofs.Service.Bystanders

/-!
# A sender keeps its vigil

From its first turn on a sender does what its vigil tells: it waits where the vigil waits, what lies
in the table for it is what lies there in the vigil, and its exchange ends as the vigil does. At its
turns the sender looks. Whatever else is done is heard or does not matter.
-/
namespace EbmsMessaging

open Correlation

namespace OpenExchange

/-- The identifiers that a sender still fetches under. -/
def Heeds (mine : String → Prop) (x : OpenExchange) (key : String) : Prop :=
  match x.relayMessageId with
  | none => mine key
  | some relay => key = relay

/-- The identifiers of an exchange are its own, and values are kept for as long as it waits. -/
structure Covered (mine : String → Prop) (p : Retention) (x : OpenExchange) : Prop where
  limit_pos : 0 < x.limit
  limit_le : x.limit ≤ p.valueLimit
  own : mine x.messageId
  relay : ∀ relay, x.relayMessageId = some relay → mine relay

/-- A wait for the next acknowledgement. -/
structure WaitsAt (x : OpenExchange) (since : Nat) (w : Wait) : Prop where
  key : w.key = x.awaitedKey
  startedAt : w.startedAt = since
  deadline : w.deadline = some (since + x.limit)

variable {mine : String → Prop} {p : Retention} {x : OpenExchange} {key : String}

theorem Covered.mine_of_heeds (h : x.Covered mine p) (hkey : x.Heeds mine key) : mine key := by
  unfold Heeds at hkey
  split at hkey
  · exact hkey
  · next relay hrelay => exact hkey ▸ h.relay relay hrelay

theorem heeds_of_none (mine : String → Prop) (x : OpenExchange) (hx : x.relayMessageId = none) :
    x.Heeds mine = mine := by
  funext key
  rw [Heeds, hx]

theorem Covered.heeds (h : x.Covered mine p) : x.Heeds mine x.awaitedKey := by
  unfold Heeds awaitedKey
  cases x.relayMessageId with
  | none => exact h.own
  | some relay => rfl

theorem Covered.advance (h : x.Covered mine p) (stages : List ExchangeStage) :
    (x.advance stages).Covered mine p := ⟨h.limit_pos, h.limit_le, h.own, h.relay⟩

theorem Covered.relayed (h : x.Covered mine p) {relay : String} (hrelay : mine relay) :
    Covered mine p { x with relayMessageId := some relay, stage := .awaitingRelay } where
  limit_pos := h.limit_pos
  limit_le := h.limit_le
  own := h.own
  relay _ heq := Option.some.inj heq ▸ hrelay

theorem accepts_of_afterSubmission {o : Outcome Acknowledgement} {relay : String}
    (h : x.afterSubmission o = .ok relay) : ∃ a, o = .value a ∧ a.Accepts relay := by
  cases o with
  | timeout key waited => simp [afterSubmission, awaited, bind, Except.bind] at h
  | value a =>
    refine ⟨a, rfl, ?_⟩
    rcases Sender.afterSubmission_value x a with
      ⟨-, heq, -⟩ | ⟨-, -, heq, -⟩ | ⟨-, -, -, heq, -⟩ | ⟨relay', ha, heq, -⟩
    · simp [heq] at h
    · simp [heq] at h
    · simp [heq] at h
    · rw [heq, Except.ok.injEq] at h
      exact h ▸ ha

end OpenExchange

/-! ## What is sure of a vigil -/

/-- What is sure of a sender that waits since some instant. -/
structure Vigil.Sound (mine : String → Prop) (p : Retention) (now : Nat) (x : OpenExchange)
    (since : Nat) (f : String → Option Acknowledgement) : Prop where
  covered : x.Covered mine p
  since_le : since ≤ now
  now_le : now ≤ since + x.limit
  /-- The acknowledgement of the submission names an identifier of the exchange. -/
  named : ∀ a, f x.messageId = some a → ∀ relay, a.Accepts relay → mine relay

def Watch.Sound (mine : String → Prop) (p : Retention) (watch : Watch) : Prop :=
  match watch.vigil with
  | .waiting x since f => Vigil.Sound mine p watch.now x since f
  | .closed _ => True

namespace Vigil

variable {mine : String → Prop} {p : Retention} {now since : Nat} {x : OpenExchange}
  {f : String → Option Acknowledgement}

theorem outcome?_eq_value {limit : Nat} {key : String} {a : Acknowledgement}
    {v : Option Acknowledgement} (h : outcome? now since limit key v = some (.value a)) :
    v = some a := by
  cases v with
  | some b => simpa [outcome?] using h
  | none =>
    simp only [outcome?] at h
    split at h <;> simp at h

/-- Time passes, but not beyond the end of the wait. -/
theorem Sound.later (h : Sound mine p now x since f) {instant : Nat} (hle : now ≤ instant)
    (hnow : instant ≤ since + x.limit) : Sound mine p instant x since f :=
  ⟨h.covered, Nat.le_trans h.since_le hle, hnow, h.named⟩

theorem Sound.posts (h : Sound mine p now x since f) {as : List Acknowledgement}
    (has : ∀ a ∈ as, ∀ relay, a.Accepts relay → mine relay) :
    Sound mine p now x since (as.foldl post f) := by
  induction as generalizing f with
  | nil => exact h
  | cons a as ih =>
    obtain ⟨ha, has⟩ := List.forall_mem_cons.mp has
    refine ih ⟨h.covered, h.since_le, h.now_le, fun b hb => ?_⟩ has
    by_cases hkey : x.messageId = a.key
    · rw [post, hkey, Function.update_self, Option.some.injEq] at hb
      exact hb ▸ ha
    · rw [post, Function.update_of_ne hkey] at hb
      exact h.named b hb

theorem Sound.relayed (hx : x.Covered mine p) {relay : String} (hrelay : mine relay)
    (hnone : f x.messageId = none) :
    Watch.Sound mine p ⟨now, Vigil.relayed now x relay f⟩ := by
  unfold Vigil.relayed
  cases f relay with
  | some b => trivial
  | none =>
    refine ⟨hx.relayed hrelay, Nat.le_refl _, Nat.le_add_right _ _, fun a ha => ?_⟩
    simp [hnone] at ha

/-- The identifier that the submission is accepted with belongs to the exchange. -/
theorem Sound.mine_of_accepted (h : Sound mine p now x since f) {o : Outcome Acknowledgement}
    (ho : ∀ a, o = .value a → f x.messageId = some a) {relay : String}
    (hok : x.afterSubmission o = .ok relay) : mine relay := by
  obtain ⟨a, rfl, ha⟩ := OpenExchange.accepts_of_afterSubmission hok
  exact h.named a (ho a rfl) relay ha

theorem Sound.ended (h : Sound mine p now x since f) {o : Outcome Acknowledgement}
    (ho : x.relayMessageId = none → ∀ a, o = .value a → f x.messageId = some a) :
    Watch.Sound mine p ⟨now, Vigil.ended now x f o⟩ := by
  unfold Vigil.ended
  cases hx : x.relayMessageId with
  | some relay => trivial
  | none =>
    cases hok : x.afterSubmission o with
    | error e => trivial
    | ok relay =>
      exact Sound.relayed h.covered (h.mine_of_accepted (ho hx) hok) (Function.update_self ..)

end Vigil

namespace Watch

variable {mine : String → Prop} {p : Retention} {watch : Watch}

theorem Sound.limited (h : watch.Sound mine p) : watch.Limited := by
  obtain ⟨now, vigil⟩ := watch
  cases vigil with
  | waiting x since f => exact h.covered.limit_pos
  | closed result => trivial

theorem Sound.look (h : watch.Sound mine p) : watch.look.Sound mine p := by
  obtain ⟨now, vigil⟩ := watch
  cases vigil with
  | closed result => trivial
  | waiting x since f =>
    have hsound : Vigil.Sound mine p now x since f := h
    simp only [Watch.look, Vigil.next]
    cases houtcome : Vigil.outcome? now since x.limit x.awaitedKey (f x.awaitedKey) with
    | none => exact h
    | some o =>
      refine hsound.ended fun hx a ho => ?_
      have hvalue := Vigil.outcome?_eq_value (ho ▸ houtcome)
      rwa [OpenExchange.awaitedKey_of_none hx] at hvalue

end Watch

/-! ## What comes of a turn -/

namespace Vigil

/-- What comes of a turn is what a vigil tells. -/
def Describes (mine : String → Prop) :
    Vigil → ServiceState → Next ServiceTask ServiceResult → Prop
  | waiting x since f, s, next => ∃ w, x.WaitsAt since w ∧
      next = .sleeping (.awaiting x w) w.deadline ∧ Inbox (x.Heeds mine) since f s.table
  | closed result, _, next => next = .ended (.exchanged result)

section Turns

variable {mine : String → Prop} {p : Retention} {now since : Nat} {x : OpenExchange}
  {f : String → Option Acknowledgement} {id : TaskId} {crowd : Crowd} {queue : List TaskId}

/-- A task that finds nothing begins to wait. -/
theorem entered_of_fetch {t : Table Acknowledgement} {keys : String → Prop} {key : String}
    (hinbox : Inbox keys since f t) (hhosts : t.Hosts crowd queue) (hid : id ∉ crowd.map Prod.fst)
    (hkey : keys key) (hnone : f key = none) (now : Nat) {limit : Nat} (hlimit : 0 < limit) :
    ∃ cell, (t.fetch now id key limit).2 = .entered ⟨key, cell, now, some (now + limit)⟩ ∧
      Inbox keys since f (t.fetch now id key limit).1 := by
  obtain ⟨cell, hcell⟩ := hinbox.snd_fetch_of_none hkey hnone now id limit
  rw [if_neg (Nat.ne_of_gt hlimit)] at hcell
  have hfits : Deed.Fits ⟨now, now⟩ t (.fetched id key limit (.entered _)) := hcell
  exact ⟨cell, hcell, hinbox.enact hhosts hfits hid (by simp) (by simp)⟩

/-- The sender looks for the acknowledgement of the relay. -/
theorem describes_relayed {s : ServiceState} (hinbox : Inbox mine since f s.table)
    (hhosts : s.table.Hosts crowd queue) (hid : id ∉ crowd.map Prod.fst) (hlimit : 0 < x.limit)
    {relay : String} (hrelay : mine relay) :
    (relayed now x relay f).Describes mine
      (s.afterRelay now id (x.advance [.awaitingRelay]) relay
        (s.table.fetch now id relay x.limit)).1
      (s.afterRelay now id (x.advance [.awaitingRelay]) relay
        (s.table.fetch now id relay x.limit)).2 := by
  unfold relayed
  cases hvalue : f relay with
  | some b =>
    have hanswer := hinbox.snd_fetch_of_some hrelay hvalue now id x.limit
    rcases hfetch : s.table.fetch now id relay x.limit with ⟨t, attempt⟩
    rw [hfetch] at hanswer
    subst hanswer
    rfl
  | none =>
    obtain ⟨cell, hanswer, hafter⟩ := entered_of_fetch hinbox hhosts hid hrelay hvalue now hlimit
    rcases hfetch : s.table.fetch now id relay x.limit with ⟨t, attempt⟩
    rw [hfetch] at hanswer hafter
    subst hanswer
    refine ⟨_, ⟨rfl, rfl, rfl⟩, rfl, hafter.narrow (fun key hkey => ?_) fun key hkey => ?_⟩
    · exact (show key = relay from hkey) ▸ hrelay
    · exact (show key = relay from hkey) ▸ hvalue

/-- The wait for the acknowledgement of the submission has ended. -/
theorem describes_ended {s : ServiceState} {t : Table Acknowledgement} {o : Outcome Acknowledgement}
    (hx : x.relayMessageId = none) (hsound : Sound mine p now x since f)
    (ho : ∀ a, o = .value a → f x.messageId = some a ∧
      Inbox mine since (Function.update f x.messageId none) t)
    (hhosts : t.Hosts crowd queue) (hid : id ∉ crowd.map Prod.fst) :
    (ended now x f o).Describes mine (s.afterSubmission now id x (t, .ended o)).1
      (s.afterSubmission now id x (t, .ended o)).2 := by
  simp only [ended, hx, ServiceState.afterSubmission_ended]
  cases hok : x.afterSubmission o with
  | error e => rfl
  | ok relay =>
    have hrelay := hsound.mine_of_accepted (fun a ha => (ho a ha).1) hok
    obtain ⟨a, rfl, -⟩ := OpenExchange.accepts_of_afterSubmission hok
    let judged := (s.withTable t).advance id x
      (OpenExchange.judged .submission x.messageId (.value a))
    let advanced := judged.1.advance id judged.2 [.awaitingRelay]
    exact describes_relayed (s := advanced.1) (ho a rfl).2 hhosts hid hsound.covered.limit_pos
      hrelay

/-- The sender begins to wait for the acknowledgement of the submission, unless it is there. -/
theorem describes_fetch {s : ServiceState} (hx : x.relayMessageId = none)
    (hsound : Sound mine p now x now f) (hinbox : Inbox mine now f s.table)
    (hhosts : s.table.Hosts crowd queue) (hid : id ∉ crowd.map Prod.fst) :
    ((waiting x now f).next now).Describes mine
      (s.afterSubmission now id x (s.table.fetch now id x.messageId x.limit)).1
      (s.afterSubmission now id x (s.table.fetch now id x.messageId x.limit)).2 := by
  have hkey := OpenExchange.awaitedKey_of_none hx
  have hlimit := hsound.covered.limit_pos
  cases hvalue : f x.messageId with
  | some a =>
    have hanswer := hinbox.snd_fetch_of_some hsound.covered.own hvalue now id x.limit
    have hfits : Deed.Fits ⟨now, now⟩ s.table
        (.fetched id x.messageId x.limit (.ended (.value a))) := hanswer
    have hafter := hinbox.enact hhosts hfits hid (by simp) (by simp)
    obtain ⟨queue', hhosts'⟩ := Deed.exists_hosts hhosts hfits hid
    rcases hfetch : s.table.fetch now id x.messageId x.limit with ⟨t, attempt⟩
    simp only [Deed.enact, hfetch] at hafter hhosts' hanswer
    subst hanswer
    rw [next, hkey, hvalue]
    exact describes_ended hx hsound (fun b hb => by cases hb; exact ⟨hvalue, hafter⟩) hhosts' hid
  | none =>
    obtain ⟨cell, hanswer, hafter⟩ := entered_of_fetch hinbox hhosts hid hsound.covered.own hvalue
      now hlimit
    rcases hfetch : s.table.fetch now id x.messageId x.limit with ⟨t, attempt⟩
    rw [hfetch] at hanswer hafter
    subst hanswer
    rw [next_of_none (hkey ▸ hvalue) (Nat.lt_add_of_pos_right hlimit)]
    exact ⟨_, ⟨hkey.symm, rfl, rfl⟩, rfl, by rwa [x.heeds_of_none mine hx]⟩

variable {s : ServiceState} {clock : Clock} {w : Wait}

/-- The sender's wait ends at its turn as the vigil tells. -/
theorem describes_resumed (hw : x.WaitsAt since w) (hsound : Sound mine p clock.now x since f)
    (hinbox : Inbox (x.Heeds mine) since f s.table) (hhosts : s.table.Hosts crowd queue)
    (hmem : (id, w) ∈ crowd) {o : Outcome Acknowledgement}
    (houtcome : outcome? clock.now since x.limit x.awaitedKey (f x.awaitedKey) = some o)
    (hanswer : (s.table.resume clock id w).2 = .ended o) :
    ((waiting x since f).next clock.now).Describes mine (s.resumeExchange clock id x w).shared
      (s.resumeExchange clock id x w).next := by
  have hfits : Deed.Fits clock s.table (.resumed id w (.ended o)) := hanswer
  have hafter := hinbox.enact hhosts hfits hmem (by simp) (by simp)
  obtain ⟨queue', hhosts'⟩ := Deed.exists_hosts hhosts hfits hmem
  rcases hresume : s.table.resume clock id w with ⟨t, attempt⟩
  simp only [Deed.enact, hresume] at hafter hhosts' hanswer
  subst hanswer
  rw [next, houtcome]
  simp only [ServiceState.resumeExchange, hresume]
  cases hx : x.relayMessageId with
  | some relay =>
    simp only [ended, hx]
    rfl
  | none =>
    have hkey := OpenExchange.awaitedKey_of_none hx
    refine describes_ended hx hsound (fun a ha => ?_) hhosts' (by
      simp [Deed.reseat, seat, Attempt.wait?])
    subst ha
    rw [x.heeds_of_none mine hx] at hafter
    simp only [Deed.effect, Deed.taken?, Option.elim_some, hw.key, hkey] at hafter
    exact ⟨hkey ▸ outcome?_eq_value houtcome, hafter⟩

/-- At its turn the wait ends, or it goes on and nothing has changed. -/
theorem resumed_cases (hw : x.WaitsAt since w) (hsound : Sound mine p clock.now x since f)
    (hrung : clock.rung ≤ clock.now) (hinbox : Inbox (x.Heeds mine) since f s.table)
    (hhosts : s.table.Hosts crowd queue) (hmem : (id, w) ∈ crowd) :
    ((waiting x since f).next clock.now).Describes mine (s.resumeExchange clock id x w).shared
      (s.resumeExchange clock id x w).next ∨
    (clock.rung < since + x.limit ∧
      (s.resumeExchange clock id x w).next = .resting (.awaiting x w) ∧
      Inbox (x.Heeds mine) since f (s.resumeExchange clock id x w).shared.table) := by
  have hheeds : x.Heeds mine w.key := hw.key ▸ hsound.covered.heeds
  have hdescribes {o : Outcome Acknowledgement} :=
    describes_resumed (o := o) hw hsound hinbox hhosts hmem
  cases hvalue : f x.awaitedKey with
  | some a =>
    refine .inl (hdescribes (by rw [hvalue]; rfl) ?_)
    exact hinbox.snd_resume_of_some hhosts hmem hheeds (hw.key ▸ hvalue) clock
  | none =>
    have hanswer := hinbox.snd_resume_of_none hhosts hmem hheeds (hw.key ▸ hvalue) clock
    rw [hw.deadline, hw.startedAt, hw.key] at hanswer
    by_cases hlate : since + x.limit ≤ clock.rung
    · rw [if_pos (by simpa using hlate)] at hanswer
      refine .inl (hdescribes ?_ hanswer)
      rw [hvalue, outcome?, if_pos (Nat.le_trans hlate hrung)]
    · rw [if_neg (by simpa using hlate)] at hanswer
      have hfits : Deed.Fits clock s.table (.resumed id w (.waiting w)) := hanswer
      have hafter := hinbox.enact hhosts hfits hmem (by simp) (by simp)
      rcases hresume : s.table.resume clock id w with ⟨t, attempt⟩
      simp only [Deed.enact, hresume] at hafter hanswer
      subst hanswer
      refine .inr ⟨Nat.not_le.mp hlate, ?_⟩
      simp only [ServiceState.resumeExchange, hresume]
      cases hx : x.relayMessageId with
      | none => exact ⟨rfl, hafter⟩
      | some relay =>
        have hsame : { x with relayMessageId := some relay } = x := by rw [← hx]
        exact ⟨congrArg (fun x => Next.resting (ServiceTask.awaiting x w)) hsame, hafter⟩

end Turns
end Vigil

/-! ## From move to move -/

namespace Watch

theorem hear_arrived_closed (now : Nat) (result : Except ExchangeFailure Confirmation)
    (as : List Acknowledgement) :
    (as.map Signal.arrived).foldl hear ⟨now, .closed result⟩ = ⟨now, .closed result⟩ := by
  induction as with
  | nil => rfl
  | cons a as ih => exact ih

theorem hear_arrived_waiting (now : Nat) (x : OpenExchange) (since : Nat)
    (f : String → Option Acknowledgement) (as : List Acknowledgement) :
    (as.map Signal.arrived).foldl hear ⟨now, .waiting x since f⟩ =
      ⟨now, .waiting x since (as.foldl Vigil.post f)⟩ := by
  induction as generalizing f with
  | nil => rfl
  | cons a as ih => exact ih _

end Watch

theorem Scheduler.alarm_attend {σ τ ρ : Type} {b : Behaviour σ τ ρ} {s : Scheduler σ τ ρ}
    {id : TaskId} {t t' : τ} {time : Nat} (h : s.task? id = some t) (ha : id ∉ s.aborted)
    (hnext : (b.turn s.clock id t s.shared).next = .sleeping t' (some time)) :
    (id, time) ∈ (s.attend b id).alarms := by
  have hlookup : s.tasks.lookup id = some t := h
  simp [attend, task?, hlookup, takeTurn, ha, hnext, callAll_eq, foldl_spawn, putToSleep, setAlarm]

namespace Service

/-- What a sender hears of the passing of time. -/
def Move.passed : Move → List Signal
  | .advance ms => [.passed ms]
  | _ => []

theorem Move.hear_passed (m : Move) (watch : Watch) :
    m.passed.foldl Watch.hear watch = { watch with now := watch.now + m.elapsed } := by
  cases m <;> rfl

/-- What of a move is heard by the sender whose identifiers these are. -/
def signals (mine : String → Prop) [DecidablePred mine] (s : Service) (m : Move) : List Signal :=
  m.passed ++ ((s.deeds m).filterMap (Deed.arrival? mine)).map .arrived

/-- A move does not touch a sender that waits. Nobody sweeps as of an instant to come, and no time
passes beyond the end of the wait. -/
def Fair (id : TaskId) (s : Service) : Move → Prop
  | .sweep offset => offset ≤ 0
  | .advance ms => ∀ e ∈ s.scheduler.tasks, e.1 = id →
      ∀ time ∈ e.2.wait?.bind Wait.deadline, s.now + ms ≤ time
  | .abort j => j ≠ id
  | _ => True

instance (id : TaskId) (s : Service) (m : Move) : Decidable (Fair id s m) :=
  match m with
  | .sweep offset => inferInstanceAs (Decidable (offset ≤ 0))
  | .advance ms => inferInstanceAs (Decidable (∀ e ∈ s.scheduler.tasks, e.1 = id →
      ∀ time ∈ e.2.wait?.bind Wait.deadline, s.now + ms ≤ time))
  | .abort j => inferInstanceAs (Decidable (j ≠ id))
  | .send _ | .transmit _ | .fetch _ _ | .receive _ | .deposit _ | .changeHandlers _
  | .changeGateway _ | .redraw _ | .start _ | .stop | .turn _ | .ring => isTrue trivial

/-- A sender waits where its vigil waits. -/
structure Waits (mine : String → Prop) (s : Service) (id : TaskId) (x : OpenExchange) (since : Nat)
    (f : String → Option Acknowledgement) : Prop where
  task : ∃ w, (id, .awaiting x w) ∈ s.scheduler.tasks ∧ x.WaitsAt since w
  alarm : HasAlarm s.scheduler id (since + x.limit)
  kept : id ∉ s.scheduler.aborted
  inbox : Inbox (x.Heeds mine) since f s.state.table

def Follows (mine : String → Prop) (s : Service) (id : TaskId) : Vigil → Prop
  | .waiting x since f => s.Waits mine id x since f
  | .closed result => ∀ r, (id, r) ∈ s.scheduler.results ↔ r = .exchanged result

/-- A sender keeps a vigil. -/
structure Keeps (mine : String → Prop) (p : Retention) (s : Service) (id : TaskId) (watch : Watch) :
    Prop where
  now : watch.now = s.now
  sound : watch.Sound mine p
  follows : s.Follows mine id watch.vigil

variable {mine : String → Prop} {p : Retention} {s : Service} {id : TaskId} {m : Move}

/-- After its turn a sender follows the vigil that describes it. -/
theorem follows_of_describes (hn : Numbered s.scheduler) {task : ServiceTask}
    (htask : s.scheduler.task? id = some task) (ha : id ∉ s.scheduler.aborted) {v : Vigil}
    (hdescribes : v.Describes mine
      (ServiceTask.behaviour.turn s.scheduler.clock id task s.scheduler.shared).shared
      (ServiceTask.behaviour.turn s.scheduler.clock id task s.scheduler.shared).next) :
    (s.move (.turn id)).Follows mine id v := by
  have hv : Scheduler.Attended s.scheduler id _ (s.move (.turn id)).scheduler :=
    Scheduler.attended hn.nodup hn.task_lt htask ha
  cases v with
  | closed result =>
    intro r
    have hnew : (id, r) ∉ s.scheduler.results := fun hmem =>
      hn.ended _ hmem (List.mem_map_of_mem (Scheduler.mem_of_lookup htask))
    rw [Numbered.mem_results_attended hv, show _ = Next.ended _ from hdescribes]
    simp [hnew, Next.result?, eq_comm]
  | waiting x since f =>
    obtain ⟨w, hw, hnext, hinbox⟩ := hdescribes
    refine ⟨⟨w, ?_, hw⟩, .inl ?_, fun hmem => ha (hv.aborted id hmem), ?_⟩
    · exact (Numbered.mem_tasks_attended hv).mpr (.inr (.inl ⟨rfl, congrArg Next.task? hnext⟩))
    · exact Scheduler.alarm_attend htask ha (hw.deadline ▸ hnext)
    · rw [state, hv.shared]
      exact hinbox

section Runs

variable {settings : ExchangeSettings} {gateway : Option Gateway} {draws : Draws}
  {moves : List Move} {watch : Watch}

/-- What lies in the table for a sender after a move with which it takes nothing. -/
theorem inbox_move [DecidablePred mine] {keys : String → Prop} {since : Nat}
    {f : String → Option Acknowledgement} (hkeys : ∀ key, keys key → mine key)
    (hyields : ∀ e ∈ (opened settings gateway draws).trace (moves ++ [m]), e.2.Yields mine id)
    (h : Inbox keys since f ((opened settings gateway draws).run moves).state.table)
    (hm : m ≠ .turn id) (hsince : since ≤ ((opened settings gateway draws).run moves).now)
    (hnow : ((opened settings gateway draws).run moves).now ≤
      since + settings.sweep.retention.valueLimit)
    (hsweep : ∀ offset, m = .sweep offset → offset ≤ 0) :
    Inbox keys since
      ((((opened settings gateway draws).run moves).deeds m).filterMap (Deed.arrival? mine)
        |>.foldl Vigil.post f)
      ((opened settings gateway draws).run (moves ++ [m])).state.table := by
  have hc := consistent_run settings gateway draws (moves ++ [m])
  have hbefore := (accounts_run (opened settings gateway draws) moves).table
  have hafter := (accounts_run (opened settings gateway draws) (moves ++ [m])).table
  rw [trace_concat] at hyields hc hafter
  rw [hbefore] at h
  have hall := Inbox.foreign_deeds hkeys hc h hyields ?leaves ?arrives ?sweeps
  case leaves =>
    intro e he htask
    obtain ⟨d, hd, rfl⟩ := List.mem_map.mp he
    exact absurd htask (task?_ne_of_mem_deeds _ hm d hd)
  case arrives =>
    intro e he a _
    obtain ⟨d, -, rfl⟩ := List.mem_map.mp he
    exact hsince
  case sweeps =>
    intro e he asOf hswept
    obtain ⟨d, hd, rfl⟩ := List.mem_map.mp he
    have hle := asOf_le_of_swept _ hsweep ((show d = Deed.swept asOf from hswept) ▸ hd)
    left
    omega
  rw [List.filterMap_map] at hall
  rw [hafter]
  exact hall

/-- No time passes beyond the end of a wait. -/
theorem Fair.now_le (h : Fair id s m) {x : OpenExchange} {w : Wait} {time : Nat}
    (htask : (id, .awaiting x w) ∈ s.scheduler.tasks) (hdeadline : w.deadline = some time)
    (hle : s.now ≤ time) : s.now + m.elapsed ≤ time := by
  cases m with
  | advance ms => exact h _ htask rfl time hdeadline
  | _ => exact hle

/-- A sender whose turn it is not goes on keeping its vigil, with what it hears. -/
theorem keeps_move [DecidablePred mine]
    (hyields : ∀ e ∈ (opened settings gateway draws).trace (moves ++ [m]), e.2.Yields mine id)
    (hnamed : ∀ d ∈ ((opened settings gateway draws).run moves).deeds m, ∀ a,
      d.arrival? mine = some a → ∀ relay, a.Accepts relay → mine relay)
    (h : Keeps mine settings.sweep.retention ((opened settings gateway draws).run moves) id watch)
    (hm : m ≠ .turn id) (hfair : Fair id ((opened settings gateway draws).run moves) m) :
    Keeps mine settings.sweep.retention ((opened settings gateway draws).run (moves ++ [m])) id
      ((((opened settings gateway draws).run moves).signals mine m).foldl Watch.hear watch) := by
  obtain ⟨now, vigil⟩ := watch
  obtain ⟨rfl, hsound, hfollows⟩ := h
  have hn := numbered_run settings gateway draws moves
  have hrung := (oneSweeper_run settings gateway draws moves).rung_le
  have hsweeps (hs : ((opened settings gateway draws).run moves).sweeper = some id) :=
    (sweeping_of_sweeper settings gateway draws moves hs).2
  rw [signals, List.foldl_append, Move.hear_passed]
  cases vigil with
  | closed result =>
    rw [Watch.hear_arrived_closed]
    refine ⟨?_, trivial, fun r => ?_⟩
    · rw [run_concat, now_move]
    · rw [run_concat, mem_results_move hn hm]
      exact hfollows r
  | waiting x since f =>
    rw [Watch.hear_arrived_waiting]
    obtain ⟨⟨w, htask, hw⟩, halarm, hkept, hinbox⟩ := hfollows
    have hsound : Vigil.Sound mine _ _ x since f := hsound
    have hnow := hfair.now_le htask hw.deadline hsound.now_le
    refine ⟨?_, ?_, ⟨w, ?_, hw⟩, ?_, ?_, ?_⟩
    · rw [run_concat, now_move]
    · refine (hsound.later (Nat.le_add_right _ _) hnow).posts fun a ha => ?_
      obtain ⟨d, hd, ha⟩ := List.mem_filterMap.mp ha
      exact hnamed d hd a ha
    · rw [run_concat]
      exact (spares_move hn hm).task _ htask
    · rw [run_concat]
      exact hasAlarm_move halarm hrung hm
    · rw [run_concat]
      refine not_mem_aborted_move hkept hm (fun heq => ?_) fun heq => ?_
      · subst heq
        exact hfair rfl
      · obtain ⟨w', heq⟩ := hsweeps heq _ htask
        simp at heq
    · refine inbox_move (fun key => hsound.covered.mine_of_heeds) hyields hinbox hm
        hsound.since_le ?_ fun offset heq => ?_
      · exact Nat.le_trans hsound.now_le (Nat.add_le_add_left hsound.covered.limit_le since)
      · exact (heq ▸ hfair : Fair id _ (.sweep offset))

/-- At its turn the sender looks, unless that has to wait until the alarm has rung. -/
theorem keeps_turn
    (h : Keeps mine settings.sweep.retention ((opened settings gateway draws).run moves) id watch) :
    ∃ watch' : Watch, Keeps mine settings.sweep.retention
        ((opened settings gateway draws).run (moves ++ [.turn id])) id watch' ∧
      watch'.look = watch.look := by
  have hn := numbered_run settings gateway draws moves
  have hrung := (oneSweeper_run settings gateway draws moves).rung_le
  have hhosts := (seated_run settings gateway draws moves).hosts
  have hnow := now_move ((opened settings gateway draws).run moves) (.turn id)
  rw [run_concat]
  generalize (opened settings gateway draws).run moves = s at *
  obtain ⟨now, vigil⟩ := watch
  obtain ⟨rfl, hsound, hfollows⟩ := h
  cases vigil with
  | closed result =>
    have hnobody : s.scheduler.task? id = none :=
      Scheduler.lookup_eq_none_iff.mpr (hn.ended _ ((hfollows _).mpr rfl))
    refine ⟨⟨s.now, .closed result⟩, ⟨hnow.symm, trivial, ?_⟩, rfl⟩
    simp only [move, Scheduler.attend_nobody hnobody]
    exact hfollows
  | waiting x since f =>
    obtain ⟨⟨w, hmem, hw⟩, halarm, hkept, hinbox⟩ := hfollows
    have htask := hn.task?_eq_some_iff.mpr hmem
    have hcrowd : (id, w) ∈ crowdOf s.scheduler.tasks := mem_crowdOf.mpr ⟨_, hmem, rfl⟩
    have hwaits : Vigil.Sound mine _ s.scheduler.clock.now x since f := hsound
    rcases Vigil.resumed_cases hw hwaits hrung hinbox hhosts hcrowd with
      hdescribes | ⟨hearly, hnext, hinbox⟩
    · refine ⟨_, ⟨hnow.symm, hsound.look, ?_⟩, Watch.look_look hsound.limited⟩
      exact follows_of_describes hn htask hkept hdescribes
    · refine ⟨_, ⟨hnow.symm, hsound, ?_⟩, rfl⟩
      have hturn : ServiceTask.behaviour.turn s.scheduler.clock id (.awaiting x w)
          s.scheduler.shared = ⟨(s.state.resumeExchange s.scheduler.clock id x w).shared, [], [],
            .resting (.awaiting x w)⟩ := by
        rw [← hnext]
        rfl
      refine ⟨⟨w, ?_, hw⟩, ?_, ?_, ?_⟩
      all_goals simp only [move, Scheduler.attend_resting htask hkept hturn, state]
      · exact List.mem_map.mpr ⟨_, hmem, if_pos rfl⟩
      · exact .inl (halarm.resolve_right fun hcalled => Nat.not_le.mpr hearly hcalled.2)
      · exact hkept
      · exact hinbox

/-- A sender that is not called and has no alarm that is due. -/
def Idle (id : TaskId) (s : Service) : Prop :=
  id ∉ s.scheduler.queue ∧ ∀ a ∈ s.scheduler.alarms, a.1 = id → s.now < a.2

instance (id : TaskId) (s : Service) : Decidable (Idle id s) := inferInstanceAs (Decidable (_ ∧ _))

/-- A sender that is idle has looked. -/
theorem look_of_idle
    (h : Keeps mine settings.sweep.retention ((opened settings gateway draws).run moves) id watch)
    (hidle : Idle id ((opened settings gateway draws).run moves)) : watch.look = watch := by
  have hhosts := (seated_run settings gateway draws moves).hosts
  generalize (opened settings gateway draws).run moves = s at *
  obtain ⟨now, vigil⟩ := watch
  obtain ⟨rfl, hsound, hfollows⟩ := h
  cases vigil with
  | closed result => rfl
  | waiting x since f =>
    obtain ⟨⟨w, hmem, hw⟩, halarm, -, hinbox⟩ := hfollows
    have hsound : Vigil.Sound mine _ _ x since f := hsound
    have hcrowd : (id, w) ∈ crowdOf s.scheduler.tasks := mem_crowdOf.mpr ⟨_, hmem, rfl⟩
    have hnone : f x.awaitedKey = none := Option.eq_none_iff_forall_ne_some.mpr fun a ha =>
      hidle.1 (hinbox.mem_queue hhosts hcrowd (hw.key ▸ hsound.covered.heeds) (hw.key ▸ ha))
    have hearly : s.now < since + x.limit :=
      hidle.2 _ (halarm.resolve_right fun hcalled => hidle.1 hcalled.1) rfl
    exact congrArg (Watch.mk s.now) (Vigil.next_of_none hnone hearly)

end Runs

end Service
end EbmsMessaging
