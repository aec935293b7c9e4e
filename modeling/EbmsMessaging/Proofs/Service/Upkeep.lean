import EbmsMessaging.Proofs.Service.Departure

/-!
# Sweeping and stopping are not heard

A run after the departure of a sender is divided into rounds. First things happen from outside and
other tasks have their turns, then the sender goes on until it is idle. The sender then stands where
its vigil stands that hears what the rounds bring. So two runs with different upkeep, in which the
same is heard, give the same result at the same time.
-/
namespace EbmsMessaging

open Correlation

namespace Service

section Heard

variable (mine : String → Prop) [DecidablePred mine]

/-- What a sender hears during some moves. -/
def heard (s : Service) : List Move → List Signal
  | [] => []
  | m :: moves => s.signals mine m ++ (s.move m).heard moves

theorem heard_concat (s : Service) (moves : List Move) (m : Move) :
    s.heard mine (moves ++ [m]) = s.heard mine moves ++ (s.run moves).signals mine m := by
  induction moves generalizing s with
  | nil => exact List.append_nil _
  | cons m' moves ih =>
    rw [List.cons_append, heard, ih, heard, List.append_assoc]
    rfl

end Heard

/-- A move at which a task has its turn. -/
def Move.turn? : Move → Option TaskId
  | .turn id => some id
  | _ => none

/-- A part of a run: what happens first, and what the sender and others then do. -/
structure Round where
  outside : List Move
  inside : List Move

def Round.moves (r : Round) : List Move := r.outside ++ r.inside

/-- What a sender hears in each of several rounds. -/
def heardIn (mine : String → Prop) [DecidablePred mine] (s : Service) :
    List Round → List (List Signal)
  | [] => []
  | r :: rounds => s.heard mine r.outside :: (s.run r.moves).heardIn mine rounds

theorem heardIn_concat (mine : String → Prop) [DecidablePred mine] (s : Service)
    (rounds : List Round) (r : Round) : s.heardIn mine (rounds ++ [r]) =
      s.heardIn mine rounds ++ [(s.run (rounds.flatMap Round.moves)).heard mine r.outside] := by
  induction rounds generalizing s with
  | nil => rfl
  | cons r' rounds ih =>
    rw [List.cons_append, heardIn, ih, heardIn, List.flatMap_cons, run_append]
    rfl

/-- In a round the sender hears first, and has its turns when there is nothing more to be heard,
until it is idle. -/
def Calm (mine : String → Prop) [DecidablePred mine] (id : TaskId) (s : Service) (r : Round) :
    Prop :=
  (∀ m ∈ r.outside, m.turn? ≠ some id) ∧ (s.run r.outside).heard mine r.inside = [] ∧
    Idle id (s.run r.moves)

instance (mine : String → Prop) [DecidablePred mine] (id : TaskId) (s : Service) (r : Round) :
    Decidable (Calm mine id s r) := inferInstanceAs (Decidable (_ ∧ _ ∧ _))

/-- Every round is calm. -/
def AllCalm (mine : String → Prop) [DecidablePred mine] (id : TaskId) (s : Service)
    (rounds : List Round) : Prop := ∀ first r last, rounds = first ++ r :: last →
  Calm mine id (s.run (first.flatMap Round.moves)) r

instance (mine : String → Prop) [DecidablePred mine] (id : TaskId) (s : Service)
    (rounds : List Round) : Decidable (AllCalm mine id s rounds) :=
  decidableForallCut rounds _ fun _ _ => inferInstance

/-- Every move is fair. -/
def AllFair (id : TaskId) (s : Service) (moves : List Move) : Prop :=
  ∀ before m after, moves = before ++ m :: after → Fair id (s.run before) m

instance (id : TaskId) (s : Service) (moves : List Move) : Decidable (AllFair id s moves) :=
  decidableForallCut moves _ fun _ _ => inferInstance

/-- Some moves do not touch a sender: nobody fetches under its identifiers, acknowledgements name no
others, and every move is fair. -/
structure Untouched (mine : String → Prop) [DecidablePred mine] (id : TaskId) (s : Service)
    (moves more : List Move) : Prop where
  yields : ∀ e ∈ s.trace (moves ++ more), e.2.Yields mine id
  named : ∀ e ∈ s.trace (moves ++ more), ∀ a ∈ e.2.arrival? mine,
    ∀ relay, a.Accepts relay → mine relay
  fair : AllFair id (s.run moves) more

instance (a : Acknowledgement) (mine : String → Prop) [DecidablePred mine] :
    Decidable (∀ relay, a.Accepts relay → mine relay) :=
  decidable_of_iff (a.hop = .submission → a.verdict = .receipt → ∀ relay ∈ a.messageId, mine relay)
    ⟨fun h relay ha => h ha.hop ha.verdict relay ha.messageId,
      fun h hhop hverdict relay hname => h relay ⟨hhop, hverdict, hname⟩⟩

instance (mine : String → Prop) [DecidablePred mine] (id : TaskId) (s : Service)
    (moves more : List Move) : Decidable (Untouched mine id s moves more) :=
  decidable_of_iff (_ ∧ _ ∧ _) ⟨fun h => ⟨h.1, h.2.1, h.2.2⟩, fun h => ⟨h.yields, h.named, h.fair⟩⟩

section Runs

variable {mine : String → Prop} [DecidablePred mine] {settings : ExchangeSettings}
  {gateway : Option Gateway} {draws : Draws} {moves more rest : List Move} {m : Move} {id : TaskId}
  {watch : Watch} {s : Service}

theorem mem_trace_append {e : Clock × Deed} (h : e ∈ s.trace moves) :
    e ∈ s.trace (moves ++ more) := by
  induction more using List.reverseRecOn with
  | nil => rwa [List.append_nil]
  | append_singleton more m ih =>
    rw [← List.append_assoc, trace_concat]
    exact List.mem_append_left _ ih

namespace Untouched

theorem of_append (h : Untouched mine id s moves (more ++ rest)) :
    Untouched mine id s moves more where
  yields e he := h.yields e (List.append_assoc moves more rest ▸ mem_trace_append he)
  named e he := h.named e (List.append_assoc moves more rest ▸ mem_trace_append he)
  fair before m after heq := h.fair before m (after ++ rest) (by rw [heq]; simp)

theorem right (h : Untouched mine id s moves (more ++ rest)) :
    Untouched mine id s (moves ++ more) rest where
  yields e he := h.yields e (List.append_assoc moves more rest ▸ he)
  named e he := h.named e (List.append_assoc moves more rest ▸ he)
  fair before m after heq := by
    rw [run_append, ← run_append _ more]
    exact h.fair (more ++ before) m after (by rw [heq, List.append_assoc])

/-- A move that is not the sender's turn. -/
theorem keeps_move (h : Untouched mine id (opened settings gateway draws) moves [m])
    (hkeeps : Keeps mine settings.sweep.retention ((opened settings gateway draws).run moves) id
      watch)
    (hm : m.turn? ≠ some id) :
    Keeps mine settings.sweep.retention ((opened settings gateway draws).run (moves ++ [m])) id
      ((((opened settings gateway draws).run moves).signals mine m).foldl Watch.hear watch) := by
  refine Service.keeps_move h.yields (fun d hd a ha => ?_) hkeeps (fun heq => hm (heq ▸ rfl)) ?_
  · refine h.named (((opened settings gateway draws).run moves).scheduler.clock, d) ?_ a ha
    rw [trace_concat]
    exact List.mem_append_right _ (List.mem_map_of_mem hd)
  · exact h.fair [] m [] rfl

/-- Several moves that are not the sender's turns. -/
theorem keeps_outside (h : Untouched mine id (opened settings gateway draws) moves more)
    (hkeeps : Keeps mine settings.sweep.retention ((opened settings gateway draws).run moves) id
      watch)
    (hmore : ∀ m ∈ more, m.turn? ≠ some id) :
    Keeps mine settings.sweep.retention ((opened settings gateway draws).run (moves ++ more)) id
      ((((opened settings gateway draws).run moves).heard mine more).foldl Watch.hear watch) := by
  induction more using List.reverseRecOn with
  | nil => rwa [List.append_nil]
  | append_singleton more m ih =>
    have hbefore := ih h.of_append fun m hm => hmore m (List.mem_append_left _ hm)
    rw [heard_concat, List.foldl_append, ← List.append_assoc, ← run_append]
    exact h.right.keeps_move hbefore (hmore m (List.mem_append_right _ List.mem_cons_self))

/-- Several moves with which nothing is heard, turns of the sender among them. -/
theorem keeps_inside (h : Untouched mine id (opened settings gateway draws) moves more)
    (hkeeps : Keeps mine settings.sweep.retention ((opened settings gateway draws).run moves) id
      watch)
    (hsilent : ((opened settings gateway draws).run moves).heard mine more = []) :
    ∃ watch' : Watch, Keeps mine settings.sweep.retention
        ((opened settings gateway draws).run (moves ++ more)) id watch' ∧
      watch'.look = watch.look := by
  induction more using List.reverseRecOn with
  | nil => exact ⟨watch, by rwa [List.append_nil], rfl⟩
  | append_singleton more m ih =>
    rw [heard_concat, List.append_eq_nil_iff, ← run_append] at hsilent
    obtain ⟨watch', hbefore, hlook⟩ := ih h.of_append hsilent.1
    rw [← List.append_assoc]
    by_cases hm : m.turn? = some id
    · obtain rfl : m = .turn id := by cases m <;> simp_all [Move.turn?]
      obtain ⟨watch'', hafter, hlook'⟩ := keeps_turn hbefore
      exact ⟨watch'', hafter, hlook'.trans hlook⟩
    · have hafter := h.right.keeps_move hbefore hm
      rw [hsilent.2] at hafter
      exact ⟨watch', hafter, hlook⟩

/-- A round: the sender hears what it brings, and has looked at its end. -/
theorem keeps_round {r : Round}
    (h : Untouched mine id (opened settings gateway draws) moves r.moves)
    (hkeeps : Keeps mine settings.sweep.retention ((opened settings gateway draws).run moves) id
      watch)
    (hcalm : Calm mine id ((opened settings gateway draws).run moves) r) :
    Keeps mine settings.sweep.retention ((opened settings gateway draws).run (moves ++ r.moves)) id
      (watch.round (((opened settings gateway draws).run moves).heard mine r.outside)) := by
  obtain ⟨houtside, hsilent, hidle⟩ := hcalm
  have hheard := h.of_append.keeps_outside hkeeps houtside
  rw [← run_append] at hsilent hidle
  obtain ⟨watch', hafter, hlook⟩ := h.right.keeps_inside hheard hsilent
  rw [List.append_assoc] at hafter
  rw [Watch.round, ← hlook, look_of_idle hafter hidle]
  exact hafter

end Untouched

end Runs

/-! ## A whole run -/

/-- A sender departs in a run in which its identifiers are its own, and what is done after that
comes in calm rounds. -/
structure Secluded (mine : String → Prop) [DecidablePred mine] (id : TaskId)
    (settings : ExchangeSettings) (gateway : Option Gateway) (draws : Draws) (before : List Move)
    (d : Departure) (rounds : List Round) : Prop where
  departs : ((opened settings gateway draws).run before).departure? mine id = some d
  covered : d.exchange.Covered mine settings.sweep.retention
  quiet : ∀ e ∈ (opened settings gateway draws).trace before, e.2.arrival? mine = none
  untouched : Untouched mine id (opened settings gateway draws) before
    ([.turn id] ++ rounds.flatMap Round.moves)
  calm : AllCalm mine id ((opened settings gateway draws).run (before ++ [.turn id])) rounds

/-- Two senders have the same result, or none yet, at the same time. -/
def Agree (s v : Service) (id id' : TaskId) : Prop :=
  s.now = v.now ∧ ∀ r, (id, r) ∈ s.scheduler.results ↔ (id', r) ∈ v.scheduler.results

/-- Two senders that keep the same vigil agree. -/
theorem agree_of_keeps {s v : Service} (hn : Numbered s.scheduler) (hn' : Numbered v.scheduler)
    {mine : String → Prop} {p : Retention} {id id' : TaskId} {watch : Watch}
    (h : Keeps mine p s id watch) (h' : Keeps mine p v id' watch) : Agree s v id id' := by
  obtain ⟨now, vigil⟩ := watch
  refine ⟨h.now.symm.trans h'.now, fun r => ?_⟩
  cases vigil with
  | closed result => exact (h.follows r).trans (h'.follows r).symm
  | waiting x since f =>
    obtain ⟨w, hw, -⟩ := h.follows.task
    obtain ⟨w', hw', -⟩ := h'.follows.task
    exact iff_of_false (fun hr => hn.ended _ hr (List.mem_map_of_mem hw))
      fun hr => hn'.ended _ hr (List.mem_map_of_mem hw')

section Rounds

variable {mine : String → Prop} [DecidablePred mine] {settings : ExchangeSettings}
  {gateway gateway' : Option Gateway} {draws draws' : Draws} {before before' : List Move}
  {id id' : TaskId} {d : Departure} {rounds rounds' : List Round}

/-- After every round the sender stands where the vigil stands that heard all rounds. -/
theorem Secluded.keeps (h : Secluded mine id settings gateway draws before d rounds) :
    Keeps mine settings.sweep.retention ((opened settings gateway draws).run
        (before ++ [.turn id] ++ rounds.flatMap Round.moves)) id
      ((((opened settings gateway draws).run (before ++ [.turn id])).heardIn mine rounds).foldl
        Watch.round d.watch.look) := by
  induction rounds using List.reverseRecOn with
  | nil =>
    have hturn := h.untouched.of_append
    rw [List.flatMap_nil, List.append_nil]
    exact keeps_departure h.departs hturn.yields h.quiet h.covered hturn.named
  | append_singleton rounds r ih =>
    have huntouched := h.untouched
    rw [List.flatMap_append, List.flatMap_singleton, ← List.append_assoc] at huntouched
    have hkeeps := ih ⟨h.departs, h.covered, h.quiet, huntouched.of_append,
      fun first r' last heq => h.calm first r' (last ++ [r]) (by rw [heq]; simp)⟩
    have hcalm := h.calm rounds r [] rfl
    rw [← run_append] at hcalm
    have hround := huntouched.right
    rw [← List.append_assoc] at hround
    rw [heardIn_concat, List.foldl_append, List.flatMap_append, List.flatMap_singleton,
      ← List.append_assoc, ← run_append]
    exact hround.keeps_round hkeeps hcalm

/-- Sweeps from outside, and the start and the end of the sweeper. -/
def Move.isUpkeep : Move → Bool
  | .sweep _ => true
  | .start _ => true
  | .stop => true
  | _ => false

/-- What a sender hears of a move that is no turn. -/
def Move.brings (mine : String → Prop) [DecidablePred mine] (m : Move) : List Signal :=
  m.passed ++ match m with
    | .receive i => ((ServiceState.arrivalDeeds i).filterMap (Deed.arrival? mine)).map .arrived
    | .deposit a => ([Deed.deposited a].filterMap (Deed.arrival? mine)).map .arrived
    | _ => []

/-- Upkeep is not heard, and what is heard of other moves from outside does not depend on the state
of the service. -/
theorem heard_of_outside (s : Service) {moves : List Move} (hmoves : ∀ m ∈ moves, m.turn? = none) :
    s.heard mine moves = (moves.filter fun m => !m.isUpkeep).flatMap (Move.brings mine) := by
  induction moves generalizing s with
  | nil => rfl
  | cons m moves ih =>
    obtain ⟨hm, hmoves⟩ := List.forall_mem_cons.mp hmoves
    rw [heard, ih _ hmoves]
    cases m with
    | turn id => simp [Move.turn?] at hm
    | _ => rfl

/-- What happens in a round from outside, apart from upkeep. -/
def Round.events (r : Round) : List Move := r.outside.filter fun m => !m.isUpkeep

/-- In no round a task has its turn before the sender goes on. -/
def Prompt (rounds : List Round) : Prop := ∀ r ∈ rounds, ∀ m ∈ r.outside, m.turn? = none

instance (rounds : List Round) : Decidable (Prompt rounds) :=
  inferInstanceAs (Decidable (∀ r ∈ rounds, ∀ m ∈ r.outside, m.turn? = none))

theorem heardIn_of_prompt (s : Service) (h : Prompt rounds) :
    s.heardIn mine rounds = (rounds.map Round.events).map (List.flatMap (Move.brings mine)) := by
  induction rounds generalizing s with
  | nil => rfl
  | cons r rounds ih =>
    obtain ⟨hr, hrounds⟩ := List.forall_mem_cons.mp h
    rw [heardIn, heard_of_outside s hr, ih _ hrounds]
    rfl

/-- Where the same is heard, round by round, the senders agree. -/
theorem Secluded.agree (h : Secluded mine id settings gateway draws before d rounds)
    (h' : Secluded mine id' settings gateway' draws' before' d rounds')
    (hsame :
      occupied (((opened settings gateway draws).run (before ++ [.turn id])).heardIn mine rounds) =
      occupied (((opened settings gateway' draws').run (before' ++ [.turn id'])).heardIn mine
        rounds')) :
    Agree ((opened settings gateway draws).run
        (before ++ [.turn id] ++ rounds.flatMap Round.moves))
      ((opened settings gateway' draws').run
        (before' ++ [.turn id'] ++ rounds'.flatMap Round.moves)) id id' := by
  have hlimited := d.limited_watch h.covered.limit_pos
  have hkeeps := h.keeps
  have hkeeps' := h'.keeps
  rw [← Watch.foldl_round_occupied hlimited.look (Watch.look_look hlimited)] at hkeeps hkeeps'
  rw [← hsame] at hkeeps'
  exact agree_of_keeps (numbered_run settings gateway draws _)
    (numbered_run settings gateway' draws' _) hkeeps hkeeps'

/-- Let two services with the same settings make the same departure, and let the identifiers of the
exchange be its own in both. If the same is heard, round by round, the senders agree whatever else
is done. So they do if from outside the same happens but for sweeps, starts and stops. -/
theorem upkeep_leaves_result (h : Secluded mine id settings gateway draws before d rounds)
    (h' : Secluded mine id' settings gateway' draws' before' d rounds')
    (hsame : occupied (((opened settings gateway draws).run (before ++ [.turn id])).heardIn mine
          rounds) =
        occupied (((opened settings gateway' draws').run (before' ++ [.turn id'])).heardIn mine
          rounds') ∨
      (Prompt rounds ∧ Prompt rounds' ∧
        occupied (rounds.map Round.events) = occupied (rounds'.map Round.events))) :
    Agree ((opened settings gateway draws).run
        (before ++ [.turn id] ++ rounds.flatMap Round.moves))
      ((opened settings gateway' draws').run
        (before' ++ [.turn id'] ++ rounds'.flatMap Round.moves)) id id' := by
  rcases hsame with hheard | ⟨hprompt, hprompt', hevents⟩
  · exact h.agree h' hheard
  · refine h.agree h' ?_
    rw [heardIn_of_prompt _ hprompt, heardIn_of_prompt _ hprompt', ← occupied_map_flatMap, hevents,
      occupied_map_flatMap]

end Rounds

/-! ## Runs with and without upkeep -/

def sampleMine (key : String) : Prop := key ∈ [sampleId, "relayed"]

instance : DecidablePred sampleMine := fun key => inferInstanceAs (Decidable (key ∈ _))

def sampleDeparture : Departure :=
  ⟨⟨0, sampleId, "00000000-0000-4000-8000-000000000000", 10, none, .prepared⟩, .ok none, []⟩

/-- The acknowledgement of the relay comes first, and the other one when the time is up. -/
def plainRounds : List Round :=
  [⟨[.deposit (.positive .relay "relayed" none), .advance 10,
      .deposit (.positive .submission sampleId (some "relayed"))], [.turn 0]⟩]

/-- The service runs until the time is up, and is swept as soon as possible and as late. -/
def keptUpRounds : List Round :=
  [⟨[.sweep 0], [.ring]⟩,
    ⟨[.deposit (.positive .relay "relayed" none), .advance 10, .sweep 0,
      .deposit (.positive .submission sampleId (some "relayed")), .stop, .sweep 0],
      [.turn 0, .turn 1]⟩]

theorem secluded_plainRounds : Secluded sampleMine 0 briefSettings none sampleDraws
    [.send (sampleRequest .silence)] sampleDeparture plainRounds where
  departs := rfl
  covered := ⟨by decide, by decide, by decide, nofun⟩
  quiet := by decide +kernel
  untouched := by decide +kernel
  calm := by decide +kernel

theorem secluded_keptUpRounds : Secluded sampleMine 1 briefSettings none sampleDraws
    [.start true, .turn 0, .send (sampleRequest .silence)] sampleDeparture keptUpRounds where
  departs := rfl
  covered := secluded_plainRounds.covered
  quiet := by decide +kernel
  untouched := by decide +kernel
  calm := by decide +kernel

/-- With and without upkeep the exchange is confirmed when its time is up. -/
theorem upkeep_leaves_confirmation :
    Secluded sampleMine 0 briefSettings none sampleDraws [.send (sampleRequest .silence)]
      sampleDeparture plainRounds ∧
    Secluded sampleMine 1 briefSettings none sampleDraws
      [.start true, .turn 0, .send (sampleRequest .silence)] sampleDeparture keptUpRounds ∧
    Agree ((opened briefSettings none sampleDraws).run
        ([.send (sampleRequest .silence)] ++ [.turn 0] ++ plainRounds.flatMap Round.moves))
      ((opened briefSettings none sampleDraws).run
        ([.start true, .turn 0, .send (sampleRequest .silence)] ++ [.turn 1] ++
          keptUpRounds.flatMap Round.moves)) 0 1 ∧
    (0, .exchanged (.ok ⟨sampleId, "relayed", "00000000-0000-4000-8000-000000000000", 10⟩)) ∈
      ((opened briefSettings none sampleDraws).run ([.send (sampleRequest .silence)] ++ [.turn 0] ++
        plainRounds.flatMap Round.moves)).scheduler.results := by
  refine ⟨secluded_plainRounds, secluded_keptUpRounds,
    upkeep_leaves_result secluded_plainRounds secluded_keptUpRounds (.inr ⟨?_, ?_, rfl⟩), ?_⟩
  · decide
  · decide
  · exact .head _

def sharingMine (key : String) : Prop :=
  key ∈ ["00000000-0000-4000-8000-000000000002@as4.exchange", "relayed"]

instance : DecidablePred sharingMine := fun key => inferInstanceAs (Decidable (key ∈ _))

/-- A sender is told of two identifiers for its relay, one after the other, and only then has its
turn. -/
def sharingMoves (upkeep : List Move) : List Move :=
  [.send patientRequest, .turn 0, .deposit (.positive .submission sampleId (some "relayed")),
    .advance 11] ++ upkeep ++
  [.deposit (.positive .submission sampleId (some "elsewhere")), .turn 0, .ring,
    .send (sampleRequest .silence)]

/-- Another sender is told of the first of these identifiers. -/
def sharingRounds : List Round :=
  [⟨[.deposit (.positive .submission "00000000-0000-4000-8000-000000000002@as4.exchange"
      (some "relayed"))], [.turn 1]⟩,
    ⟨[.deposit (.positive .relay "relayed" none)], [.turn 0, .turn 1]⟩,
    ⟨[.advance 10], [.ring, .turn 1]⟩]

def sharingService (upkeep : List Move) : Service :=
  (opened briefSettings none countingDraws).run
    (sharingMoves upkeep ++ [.turn 1] ++ sharingRounds.flatMap Round.moves)

deriving instance DecidableEq for ServiceResult

/-- Two exchanges may be told of one identifier, and then a sweep can change which of them waits for
the relay under it. The sweep takes away the cell at which the first sender waits, because of a
value for which the sender is called but has not had its turn. So the second value comes to lie in
another cell, and the sender takes the first one. The other sender, which waits no longer than
values are kept, is confirmed without this sweep, and with it its time is up. -/
theorem sweep_changes_result :
    (∃ d, ((opened briefSettings none countingDraws).run (sharingMoves [])).departure?
        sharingMine 1 = some d ∧
      ((opened briefSettings none countingDraws).run (sharingMoves [.sweep 0])).departure?
        sharingMine 1 = some d ∧ d.exchange.Covered sharingMine briefSettings.sweep.retention) ∧
    (∀ id ∈ [0, 1], ∀ upkeep ∈ [[], [Move.sweep 0]],
      AllFair id (opened briefSettings none countingDraws)
        (sharingMoves upkeep ++ [.turn 1] ++ sharingRounds.flatMap Round.moves)) ∧
    (1, .exchanged (.ok ⟨"00000000-0000-4000-8000-000000000002@as4.exchange", "relayed",
        "00000000-0000-4000-8000-000000000003", 0⟩)) ∈ (sharingService []).scheduler.results ∧
    (1, .exchanged (.error (.timeout .relay "relayed" 10))) ∈
      (sharingService [.sweep 0]).scheduler.results ∧
    ¬Agree (sharingService []) (sharingService [.sweep 0]) 1 1 := by
  have hplain : (1, .exchanged (.error (.timeout .relay "relayed" 10))) ∉
      (sharingService []).scheduler.results := by decide +kernel
  have hswept : (1, .exchanged (.error (.timeout .relay "relayed" 10))) ∈
      (sharingService [.sweep 0]).scheduler.results := by decide +kernel
  let d : Departure := ⟨⟨11, "00000000-0000-4000-8000-000000000002@as4.exchange",
    "00000000-0000-4000-8000-000000000003", 10, none, .prepared⟩, .ok none, []⟩
  refine ⟨⟨d, ?_, ?_, ?_⟩, ?_, ?_, hswept, fun hagree => hplain ((hagree.2 _).mpr hswept)⟩
  · decide +kernel
  · decide +kernel
  · exact ⟨by decide, by decide, by decide, nofun⟩
  · decide +kernel
  · decide +kernel

end Service
end EbmsMessaging
