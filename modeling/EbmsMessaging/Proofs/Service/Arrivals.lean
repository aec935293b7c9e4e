import EbmsMessaging.Proofs.Service.Mailbox
import EbmsMessaging.Proofs.Service.Senders

/-!
# Acknowledgements in any order

The two acknowledgements of a message may arrive in any order, before the sender begins to wait for
them or after, and in several copies, while other keys have their own traffic. As long as each is
there in time and no sweep takes it away, what comes of the exchange depends on nothing but the two
of them.
-/
namespace EbmsMessaging

open Correlation

/-- No message is prepared twice. -/
theorem ExchangeStage.count_prepared_le (result : Except ExchangeFailure Confirmation) :
    (passed result).count .prepared ≤ 1 := by
  rcases result with e | c
  · cases e with
    | timeout hop _ _ => cases hop <;> simp [passed] <;> decide
    | unexpectedAcknowledgement _ expected _ => cases expected <;> simp [passed] <;> decide
    | _ => simp [passed] <;> decide
  · simp only [passed]
    decide

namespace Sender

/-- What comes of an exchange whose submission was accepted, by the acknowledgement of the relay. -/
def outcomeOf (n m : Acknowledgement) (conversationId : String) (elapsed : Nat) :
    Except ExchangeFailure Confirmation :=
  match m.verdict with
  | .receipt => .ok ⟨n.key, m.key, conversationId, elapsed⟩
  | .error =>
    let detail := m.detail.getD .empty
    if detail.code = Vocabulary.missingReceipt then .error (.receiptMissing n.key m.key detail)
    else .error (.relayFailed n.key m.key detail)

section Attempts

variable {id : TaskId} {key : String} {limit : Nat} {ds : List Deed} {w : Wait}

theorem Pending.untaken (h : Pending id key limit ds w) : ∀ d ∈ ds, d.taken? = none := by
  induction h with
  | entered _ => exact List.forall_mem_singleton.mpr rfl
  | again _ ih => exact List.forall_mem_append.mpr ⟨ih, List.forall_mem_singleton.mpr rfl⟩

theorem Obtained.taken {a : Acknowledgement} (h : Obtained id key limit ds (.value a)) :
    ∃ d ∈ ds, d.taken? = some (key, a) := by
  cases h with
  | atOnce a => exact ⟨_, List.mem_cons_self, rfl⟩
  | afterWait a h =>
    refine ⟨_, List.mem_append_right _ List.mem_cons_self, ?_⟩
    rw [Deed.taken?, h.key_eq]

/-- Nothing of another key is taken. -/
theorem Obtained.key_eq_of_taken {o : Outcome Acknowledgement} (h : Obtained id key limit ds o)
    {key' : String} {a : Acknowledgement} {d : Deed} (hd : d ∈ ds)
    (htaken : d.taken? = some (key', a)) : key' = key := by
  cases h with
  | atOnce b =>
    rw [List.mem_singleton.mp hd] at htaken
    exact (congrArg Prod.fst (Option.some.inj htaken)).symm
  | afterWait b h =>
    rcases List.mem_append.mp hd with hd | hd
    · simp [h.untaken d hd] at htaken
    · rw [List.mem_singleton.mp hd, Deed.taken?, h.key_eq] at htaken
      exact (congrArg Prod.fst (Option.some.inj htaken)).symm
  | timedOut waited h =>
    rcases List.mem_append.mp hd with hd | hd
    · simp [h.untaken d hd] at htaken
    · simp [List.mem_singleton.mp hd, Deed.taken?] at htaken

theorem Obtained.missed {key' : String} {waited : Nat}
    (h : Obtained id key limit ds (.timeout key' waited)) :
    (∃ d ∈ ds, d.missed? = some key) ∧ ∀ d ∈ ds, d.taken? = none := by
  cases h with
  | timedOut _ h =>
    constructor
    · refine ⟨_, List.mem_append_right _ List.mem_cons_self, ?_⟩
      rw [Deed.missed?, h.key_eq]
    · exact List.forall_mem_append.mpr ⟨h.untaken, List.forall_mem_singleton.mpr rfl⟩

end Attempts

/-- What the mailboxes of two acknowledgements say about the deeds of a sender: no other values are
taken out of them, and nobody gives up under their keys without having taken one. -/
structure Served (n m : Acknowledgement) (ds : List Deed) : Prop where
  taken : ∀ a ∈ [n, m], ∀ d ∈ ds, ∀ b, d.taken? = some (a.key, b) → b = a
  missed : ∀ a ∈ [n, m], (∃ d ∈ ds, d.missed? = some a.key) →
    ∃ d ∈ ds, ∃ b, d.taken? = some (a.key, b)

section Courses

variable {id : TaskId} {limit elapsed startedAt : Nat} {t : Transmission} {ds es : List Deed}
  {n m a : Acknowledgement} {result : Except ExchangeFailure Confirmation}

theorem Served.value_eq (h : Served n m ds) (ha : a ∈ [n, m]) (hes : es ⊆ ds)
    {b : Acknowledgement} (hobtained : Obtained id a.key limit es (.value b)) : b = a := by
  obtain ⟨d, hd, htaken⟩ := hobtained.taken
  exact h.taken a ha d (hes hd) b htaken

theorem subset_submission (d : Deed) : ds ⊆ d :: (ds ++ es) :=
  List.Subset.trans (List.subset_append_left ds es) (List.subset_cons_self _ _)

theorem subset_relay (d : Deed) : es ⊆ d :: (ds ++ es) :=
  List.Subset.trans (List.subset_append_right ds es) (List.subset_cons_self _ _)

/-- A sender learns the key of the relay's acknowledgement from the submission's. -/
theorem Served.relay_eq {d : Deed} {relay : String} (h : Served n m (d :: (ds ++ es)))
    (hn : n.Accepts m.key) (hobtained : Obtained id n.key limit ds (.value a))
    (ha : a.Accepts relay) : relay = m.key := by
  obtain rfl := h.value_eq List.mem_cons_self (subset_submission _) hobtained
  exact Option.some.inj (ha.messageId.symm.trans hn.messageId)

/-- A sender that takes nothing under a key does not give up there. -/
theorem Served.not_timeout (h : Served n m ds) (ha : a ∈ [n, m]) (hes : es ⊆ ds)
    (hothers : ∀ d ∈ ds, d ∈ es ∨ ∀ b, d.taken? ≠ some (a.key, b)) {key : String} {waited : Nat} :
    ¬ Obtained id a.key limit es (.timeout key waited) := by
  intro hobtained
  obtain ⟨⟨d, hd, hmissed⟩, huntaken⟩ := hobtained.missed
  obtain ⟨d', hd', b, htaken⟩ := h.missed a ha ⟨d, hes hd, hmissed⟩
  rcases hothers d' hd' with hd' | hother
  · simp [huntaken d' hd'] at htaken
  · exact hother b htaken

theorem Course.head (h : Course id limit t elapsed ds result) :
    ∃ report rest, ds = .transmitted t report :: rest := by
  cases h <;> exact ⟨_, _, rfl⟩

/-- There is no other transmission behind the first one. -/
theorem transmission_eq_of_mem {t' : Transmission} {report first : TransportReport}
    (hmem : .transmitted t' report ∈ Deed.transmitted t first :: ds)
    (hnone : ds.countP Deed.isTransmission = 0) : t' = t := by
  rcases List.mem_cons.mp hmem with heq | hmem
  · exact (Deed.transmitted.inj heq).1
  · exact absurd rfl (List.countP_eq_zero.mp hnone _ hmem)

theorem Course.transmission_eq {t' : Transmission} {report : TransportReport}
    (h : Course id limit t elapsed ds result) (hmem : .transmitted t' report ∈ ds) : t' = t := by
  obtain ⟨first, rest, rfl⟩ := h.head
  refine transmission_eq_of_mem hmem ?_
  have hcount := h.tracked.transmissions
  rw [List.countP_cons_of_pos rfl] at hcount
  have hle := ExchangeStage.count_prepared_le result
  omega

theorem Underway.transmission_eq {t' : Transmission} {report : TransportReport} {x : OpenExchange}
    {w : Wait} (h : Underway id limit t startedAt ds x w) (hmem : .transmitted t' report ∈ ds) :
    t' = t := by
  cases h with
  | submission h => exact transmission_eq_of_mem hmem h.counts.1
  | relay h ha h' =>
    refine transmission_eq_of_mem hmem ?_
    rw [List.countP_append, h.counts.1, h'.counts.1]

/-- Under the key of the relay's acknowledgement nothing else is taken than behind the deeds for the
submission's. -/
theorem Obtained.others_of_relay {o : Outcome Acknowledgement}
    (h : Obtained id n.key limit ds o) (hne : m.key ≠ n.key) (report : TransportReport) :
    ∀ d ∈ Deed.transmitted t report :: (ds ++ es), d ∈ es ∨ ∀ b, d.taken? ≠ some (m.key, b) := by
  intro d hd
  rcases List.mem_cons.mp hd with rfl | hd
  · exact .inr fun b => by simp [Deed.taken?]
  · rcases List.mem_append.mp hd with hd | hd
    · exact .inr fun b htaken => hne (h.key_eq_of_taken hd htaken)
    · exact .inl hd

theorem others_of_submission (report : TransportReport) :
    ∀ d ∈ Deed.transmitted t report :: ds, d ∈ ds ∨ ∀ b, d.taken? ≠ some (n.key, b) := by
  intro d hd
  rcases List.mem_cons.mp hd with rfl | hd
  · exact .inr fun b => by simp [Deed.taken?]
  · exact .inl hd

/-- A sender that is served by two mailboxes has only one course. -/
theorem Course.result_eq (h : Course id limit t elapsed ds result)
    (hsent : .transmitted t (.ok none) ∈ ds) (hserved : Served n m ds) (hn : n.Accepts m.key)
    (hkey : n.key = t.message.messageId) (hm : m.hop = .relay) (hne : m.key ≠ n.key) :
    result = outcomeOf n m t.message.conversationId elapsed := by
  have hnmem : n ∈ [n, m] := List.mem_cons_self
  have hmmem : m ∈ [n, m] := List.mem_cons_of_mem n List.mem_cons_self
  have hfirst {es : List Deed} {o : Outcome Acknowledgement}
      (h : Obtained id t.message.messageId limit es o) : Obtained id n.key limit es o := hkey ▸ h
  cases h with
  | transportFailed cause => simp at hsent
  | rejected fault => simp at hsent
  | submissionTimedOut h =>
    exact absurd (hfirst h) (hserved.not_timeout hnmem (List.subset_cons_self _ _)
      (others_of_submission _))
  | submissionUnexpected h hop =>
    obtain rfl := hserved.value_eq hnmem (List.subset_cons_self _ _) (hfirst h)
    simp [hn.hop] at hop
  | submissionFailed h hop verdict =>
    obtain rfl := hserved.value_eq hnmem (List.subset_cons_self _ _) (hfirst h)
    simp [hn.verdict] at verdict
  | malformed h hop verdict unnamed =>
    obtain rfl := hserved.value_eq hnmem (List.subset_cons_self _ _) (hfirst h)
    simp [hn.messageId] at unnamed
  | relayTimedOut h ha h' =>
    obtain rfl := hserved.relay_eq hn (hfirst h) ha
    exact absurd h' (hserved.not_timeout hmmem (subset_relay _) ((hfirst h).others_of_relay hne _))
  | relayUnexpected h ha h' hop =>
    obtain rfl := hserved.relay_eq hn (hfirst h) ha
    obtain rfl := hserved.value_eq hmmem (subset_relay _) h'
    simp [hm] at hop
  | receiptMissing h ha h' hop verdict code =>
    obtain rfl := hserved.relay_eq hn (hfirst h) ha
    obtain rfl := hserved.value_eq hmmem (subset_relay _) h'
    simp [outcomeOf, verdict, code, hkey]
  | relayFailed h ha h' hop verdict code =>
    obtain rfl := hserved.relay_eq hn (hfirst h) ha
    obtain rfl := hserved.value_eq hmmem (subset_relay _) h'
    simp [outcomeOf, verdict, code, hkey]
  | confirmed h ha h' hop verdict =>
    obtain rfl := hserved.relay_eq hn (hfirst h) ha
    obtain rfl := hserved.value_eq hmmem (subset_relay _) h'
    simp [outcomeOf, verdict, hkey]

/-- A sender waits for an acknowledgement that it has not taken yet. -/
theorem Underway.untaken {x : OpenExchange} {w : Wait}
    (h : Underway id limit t startedAt ds x w) (hserved : Served n m ds) (hn : n.Accepts m.key)
    (hkey : n.key = t.message.messageId) (hne : m.key ≠ n.key) :
    ∃ a ∈ [n, m], w.key = a.key ∧ ∀ d ∈ ds, ∀ b, d.taken? ≠ some (a.key, b) := by
  cases h with
  | submission h =>
    refine ⟨n, List.mem_cons_self, h.key_eq.trans hkey.symm, fun d hd b htaken => ?_⟩
    rcases others_of_submission _ d hd with hd | hother
    · simp [h.untaken d hd] at htaken
    · exact hother b htaken
  | relay h ha h' =>
    have hfirst : Obtained id n.key limit _ _ := hkey ▸ h
    obtain rfl := hserved.relay_eq hn hfirst ha
    refine ⟨m, List.mem_cons_of_mem _ List.mem_cons_self, h'.key_eq, fun d hd b htaken => ?_⟩
    rcases hfirst.others_of_relay hne _ d hd with hd | hother
    · simp [h'.untaken d hd] at htaken
    · exact hother b htaken

end Courses

end Sender

/-- Two acknowledgements are left alone: under their keys only copies of them arrive and only one
task fetches them, no sweep takes one of them away, and whenever the task comes back at its deadline
the acknowledgement that it waits for has arrived. -/
structure Undisturbed (p : Retention) (n m : Acknowledgement) (id : TaskId)
    (es : List (Clock × Deed)) : Prop where
  guarded : ∀ a ∈ [n, m], Guarded p a id es
  inTime : ∀ a ∈ [n, m], InTime a.key es

theorem Undisturbed.served {p : Retention} {n m : Acknowledgement} {id : TaskId}
    {es : List (Clock × Deed)} (h : Undisturbed p n m id es) (hc : Consistent p es) :
    Sender.Served n m ((es.filter fun e => e.2.task? = some id).map Prod.snd) where
  taken a ha d hd b htaken := by
    obtain ⟨e, he, rfl⟩ := List.mem_map.mp hd
    exact ((h.guarded a ha).taken hc (List.mem_of_mem_filter he) htaken).1
  missed a ha hmissed := by
    obtain ⟨d, hd, hmissed⟩ := hmissed
    obtain ⟨e, he, rfl⟩ := List.mem_map.mp hd
    obtain ⟨e', he', b, htaken⟩ :=
      (h.guarded a ha).taken_of_missed hc (h.inTime a ha) (List.mem_of_mem_filter he) hmissed
    have hown := ((h.guarded a ha).taken hc he' htaken).2
    exact ⟨e'.2, List.mem_map_of_mem (List.mem_filter.mpr ⟨he', decide_eq_true hown⟩), b, htaken⟩

namespace Service

open Sender

section Runs

variable {settings : ExchangeSettings} {gateway : Option Gateway} {draws : Draws}
  {moves : List Move} {id : TaskId} {clock : Clock} {t : Transmission} {n m : Acknowledgement}

/-- What a mailbox is for those who wait after a run. -/
theorem mailbox_run {a : Acknowledgement} (settings : ExchangeSettings) (gateway : Option Gateway)
    (draws : Draws) (h : Guarded settings.sweep.retention a id
      ((opened settings gateway draws).trace moves)) :
    Mailbox a id ((opened settings gateway draws).run moves).state.table
      (crowdOf ((opened settings gateway draws).run moves).scheduler.tasks) := by
  obtain ⟨crowd, hseats, hperm⟩ := (seated_run settings gateway draws moves).seats
  have hmailbox := h.mailbox (consistent_run settings gateway draws moves)
  rw [crowdAfter, hseats.foldl_eq] at hmailbox
  rw [(accounts_run (opened settings gateway draws) moves).table]
  exact hmailbox.perm hperm

/-- However the acknowledgements arrived, this is what came of the exchange. -/
theorem result_eq_of_undisturbed (hn : n.Accepts m.key) (hkey : n.key = t.message.messageId)
    (hm : m.hop = .relay) (hne : m.key ≠ n.key)
    (hsent : (clock, .transmitted t (.ok none)) ∈
      (opened settings gateway draws).journal moves id)
    (h : Undisturbed settings.sweep.retention n m id ((opened settings gateway draws).trace moves))
    {result : Except ExchangeFailure Confirmation}
    (hended : (id, .exchanged result) ∈
      ((opened settings gateway draws).run moves).scheduler.results) :
    ∃ elapsed, result = outcomeOf n m t.message.conversationId elapsed := by
  obtain ⟨r, -, hhistory⟩ := (chronicled_run settings gateway draws moves).results _ hended
  have hserved := h.served (consistent_run settings gateway draws moves)
  have hmem := List.mem_map_of_mem (f := Prod.snd) hsent
  change History settings id r ((opened settings gateway draws).journal moves id)
    ((opened settings gateway draws).trail moves id) result at hhistory
  change Served n m (((opened settings gateway draws).journal moves id).map Prod.snd) at hserved
  generalize (opened settings gateway draws).journal moves id = journal at hhistory hserved hmem
  generalize (opened settings gateway draws).trail moves id = trail at hhistory
  cases hhistory with
  | unusableRoute _ => simp at hmem
  | noPayloads _ _ => simp at hmem
  | sent _ _ _ hcourse _ =>
    obtain rfl := hcourse.transmission_eq hmem
    exact ⟨_, hcourse.result_eq hmem hserved hn hkey hm hne⟩

/-- A sender that waits although both acknowledgements have arrived is called. -/
theorem mem_queue_of_undisturbed (hn : n.Accepts m.key) (hkey : n.key = t.message.messageId)
    (hne : m.key ≠ n.key)
    (hsent : (clock, .transmitted t (.ok none)) ∈
      (opened settings gateway draws).journal moves id)
    (h : Undisturbed settings.sweep.retention n m id ((opened settings gateway draws).trace moves))
    (hin : ∀ a ∈ [n, m], ∃ e ∈ (opened settings gateway draws).trace moves, e.2.Brings a.key)
    {x : OpenExchange} {w : Wait}
    (hwaits : (id, .awaiting x w) ∈ ((opened settings gateway draws).run moves).scheduler.tasks) :
    id ∈ ((opened settings gateway draws).run moves).scheduler.queue := by
  obtain ⟨r, -, hflight⟩ := (chronicled_run settings gateway draws moves).tasks _ hwaits
  have hc := consistent_run settings gateway draws moves
  have hserved := h.served hc
  have hmem := List.mem_map_of_mem (f := Prod.snd) hsent
  obtain ⟨-, -, hunderway, -⟩ := hflight
  obtain rfl := hunderway.transmission_eq hmem
  obtain ⟨a, ha, hwkey, huntaken⟩ := hunderway.untaken hserved hn hkey hne
  -- Whoever takes something under the key is the sender, and then its journal tells.
  have hleft : ∀ e ∈ (opened settings gateway draws).trace moves, ∀ b,
      e.2.taken? ≠ some (a.key, b) := by
    intro e he b htaken
    have hown := ((h.guarded a ha).taken hc he htaken).2
    have hmem : e ∈ (opened settings gateway draws).journal moves id :=
      List.mem_filter.mpr ⟨he, decide_eq_true hown⟩
    exact huntaken e.2 (List.mem_map_of_mem hmem) b htaken
  have hholds := (h.guarded a ha).holds hc (hin a ha) hleft
  have htable := (accounts_run (opened settings gateway draws) moves).table
  have hmailbox := mailbox_run settings gateway draws (h.guarded a ha)
  refine hmailbox.mem_queue (seated_run settings gateway draws moves).hosts
    (mem_crowdOf.mpr ⟨_, hwaits, rfl⟩) hwkey ?_
  rw [htable]
  exact hholds

end Runs

/-- The order in which acknowledgements arrive, and how often, does not matter. Once a message has
been transmitted and its two acknowledgements are left alone, there is only one way for its exchange
to end, and it ends: when both have arrived and the sender has nothing left to do, then it has this
result, unless it was dropped. -/
theorem exchange_independent_of_arrival_order (settings : ExchangeSettings)
    (gateway : Option Gateway) (draws : Draws) (moves : List Move) (id : TaskId) (r : SendRequest)
    (clock : Clock) (t : Transmission) (n m : Acknowledgement)
    (hr : (opened settings gateway draws).Requested moves id r)
    (hsent : (clock, .transmitted t (.ok none)) ∈
      (opened settings gateway draws).journal moves id)
    (hkey : n.key = t.message.messageId) (hn : n.Accepts m.key) (hm : m.hop = .relay)
    (hne : m.key ≠ n.key)
    (h : Undisturbed settings.sweep.retention n m id
      ((opened settings gateway draws).trace moves)) :
    (∀ result, (id, .exchanged result) ∈
        ((opened settings gateway draws).run moves).scheduler.results →
      ∃ elapsed, result = outcomeOf n m t.message.conversationId elapsed) ∧
    ((∀ a ∈ [n, m], ∃ e ∈ (opened settings gateway draws).trace moves, e.2.Brings a.key) →
      id ∉ ((opened settings gateway draws).run moves).scheduler.queue →
      (∀ e ∈ (opened settings gateway draws).journal moves id, e.2.isWithdrawal = false) →
      ∃ elapsed, (id, .exchanged (outcomeOf n m t.message.conversationId elapsed)) ∈
        ((opened settings gateway draws).run moves).scheduler.results) := by
  constructor
  · exact fun result hended => result_eq_of_undisturbed hn hkey hm hne hsent h hended
  · intro hin hidle hkept
    have hjournal := List.ne_nil_of_mem hsent
    rcases waiting_of_transmitted settings gateway draws hr hjournal with
      ⟨x, w, hwaits⟩ | ⟨result, hended⟩ | ⟨e, he, hdropped⟩
    · exact absurd (mem_queue_of_undisturbed hn hkey hne hsent h hin hwaits) hidle
    · obtain ⟨elapsed, rfl⟩ := result_eq_of_undisturbed hn hkey hm hne hsent h hended
      exact ⟨elapsed, hended⟩
    · exact absurd hdropped (by simp [hkept e he])

def sampleReceipt : Acknowledgement := .positive .submission sampleId (some "relayed")

def sampleRefusal : Acknowledgement :=
  .negative .relay "relayed" none ⟨"EBMS:0004", none, none, none⟩

/-- The relay is refused before the submission is accepted, and that twice, with other traffic in
between. -/
def disorderlyMoves : List Move :=
  [.send (sampleRequest hastyReply), .turn 0, .fetch "other" 0, .turn 1, .deposit sampleReceipt,
    .advance 3, .sweep 0, .deposit sampleReceipt, .deposit (.positive .relay "other" none), .turn 0]

theorem disorderly_exchange_ended :
    Undisturbed ExchangeSettings.standard.sweep.retention sampleReceipt sampleRefusal 0
        ((opened .standard none sampleDraws).trace disorderlyMoves) ∧
      (0, .exchanged (.error (.relayFailed sampleId "relayed" ⟨"EBMS:0004", none, none, none⟩))) ∈
        ((opened .standard none sampleDraws).run disorderlyMoves).scheduler.results := by
  have h : Undisturbed ExchangeSettings.standard.sweep.retention sampleReceipt sampleRefusal 0
      ((opened .standard none sampleDraws).trace disorderlyMoves) :=
    ⟨by decide +kernel, by decide +kernel⟩
  refine ⟨h, ?_⟩
  have hends := (exchange_independent_of_arrival_order .standard none sampleDraws disorderlyMoves 0
    (sampleRequest hastyReply) _ _ sampleReceipt sampleRefusal ⟨[], ⟨_, rfl⟩, rfl⟩ (.head _) rfl
    ⟨rfl, rfl, rfl⟩ rfl (by decide +kernel) h).2 (by decide +kernel) (by decide +kernel)
    (by decide +kernel)
  exact hends.choose_spec

end Service
end EbmsMessaging
