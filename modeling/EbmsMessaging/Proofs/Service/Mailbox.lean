import EbmsMessaging.Proofs.Correlation.Delivery
import EbmsMessaging.Proofs.Service.Seating

/-!
# A key as a mailbox

When only copies of one acknowledgement arrive under its key, only one task fetches them, and no
sweep takes them away, then the key is a mailbox for that acknowledgement: nothing else comes out of
it, whatever came in stays there until the task takes it, and the task neither misses it nor goes
uncalled.
-/
namespace EbmsMessaging

open Correlation

/-- The crowd after a trace. -/
def crowdAfter (es : List (Clock × Deed)) : Crowd := (es.map Prod.snd).foldl Deed.reseat []

theorem replay_concat (t : Table Acknowledgement) (es : List (Clock × Deed)) (e : Clock × Deed) :
    replay t (es ++ [e]) = e.2.enact e.1 (replay t es) := replay_append t es [e]

theorem crowdAfter_concat (es : List (Clock × Deed)) (e : Clock × Deed) :
    crowdAfter (es ++ [e]) = e.2.reseat (crowdAfter es) := by
  simp [crowdAfter]

/-- After a deed some queue is long enough for those who wait then. -/
theorem Deed.exists_hosts {clock : Clock} {t : Table Acknowledgement} {crowd : Crowd}
    {queue : List TaskId} {d : Deed} (h : t.Hosts crowd queue) (hfits : d.Fits clock t)
    (hadmitted : d.Admitted crowd) :
    ∃ queue', (d.enact clock t).Hosts (d.reseat crowd) queue' :=
  ⟨queue ++ d.calls clock t, hosts h hfits hadmitted (fun _ hj _ => List.mem_append_left _ hj)
    fun _ hj => List.mem_append_right _ hj⟩

/-- A trace that begins with an empty table, in which every answer is the one of the table and every
task waits once at most. -/
structure Consistent (p : Retention) (es : List (Clock × Deed)) : Prop where
  fits : ∀ before e after, es = before ++ e :: after → e.2.Fits e.1 (replay (.empty p) before)
  admitted : ∀ before e after, es = before ++ e :: after → e.2.Admitted (crowdAfter before)

namespace Consistent

variable {p : Retention} {es es' : List (Clock × Deed)}

theorem of_append (h : Consistent p (es ++ es')) : Consistent p es where
  fits before e after heq := h.fits before e (after ++ es') (by rw [heq]; simp)
  admitted before e after heq := h.admitted before e (after ++ es') (by rw [heq]; simp)

/-- At any time the table hosts those who wait. -/
theorem hosts (h : Consistent p es) :
    ∃ queue, (replay (.empty p) es).Hosts (crowdAfter es) queue := by
  induction es using List.reverseRecOn with
  | nil => exact ⟨[], Table.hosts_empty p⟩
  | append_singleton es e ih =>
    obtain ⟨queue, hhosts⟩ := ih h.of_append
    rw [replay_concat, crowdAfter_concat]
    exact Deed.exists_hosts hhosts (h.fits es e [] rfl) (h.admitted es e [] rfl)

end Consistent

theorem Service.consistent_run (settings : ExchangeSettings) (gateway : Option Gateway)
    (draws : Draws) (moves : List Move) :
    Consistent settings.sweep.retention ((opened settings gateway draws).trace moves) where
  fits := ((opened settings gateway draws).accounts_run moves).fits
  admitted before e after heq := by
    obtain ⟨crowd, hseats, -⟩ := (seated_run settings gateway draws moves).seats
    have hcut : ((opened settings gateway draws).trace moves).map Prod.snd =
        before.map Prod.snd ++ e.2 :: after.map Prod.snd := by
      rw [heq, List.map_append, List.map_cons]
    exact hseats.admitted hcut

/-! ## One deed -/

namespace Deed

/-- An acknowledgement arrives under a key. -/
def Brings (key : String) : Deed → Prop
  | deposited a => a.key = key
  | _ => False

/-- The acknowledgement that a task takes out of the table, and its key. -/
def taken? : Deed → Option (String × Acknowledgement)
  | fetched _ key _ (.ended (.value a)) => some (key, a)
  | resumed _ w (.ended (.value a)) => some (w.key, a)
  | _ => none

/-- The key of a value that a task no longer waits for. -/
def missed? : Deed → Option String
  | resumed _ w (.ended (.timeout _ _)) => some w.key
  | _ => none

/-- A task comes back for the value of a key when its alarm has rung. -/
def IsLate (clock : Clock) (key : String) : Deed → Prop
  | resumed _ w _ => w.key = key ∧ w.deadline.any (· ≤ clock.rung)
  | _ => False

instance (key : String) (d : Deed) : Decidable (d.Brings key) :=
  match d with
  | deposited a => inferInstanceAs (Decidable (a.key = key))
  | transmitted _ _ | fetched _ _ _ _ | resumed _ _ _ | withdrawn _ _ | swept _ => isFalse id

instance (clock : Clock) (key : String) (d : Deed) : Decidable (d.IsLate clock key) :=
  match d with
  | resumed _ w _ => inferInstanceAs (Decidable (w.key = key ∧ w.deadline.any (· ≤ clock.rung)))
  | transmitted _ _ | fetched _ _ _ _ | deposited _ | withdrawn _ _ | swept _ => isFalse id

/-- Under the key of an acknowledgement only copies of it arrive, only one task fetches them, and no
sweep takes them away. -/
def Respects (a : Acknowledgement) (id : TaskId) (t : Table Acknowledgement) : Deed → Prop
  | deposited b => b.key = a.key → b = a
  | fetched j key _ _ => key = a.key → j = id
  | swept asOf => ∀ c ∈ t.cells, c.key = a.key → c.isExpired t.retention asOf = false
  | _ => True

instance (a : Acknowledgement) (id : TaskId) (t : Table Acknowledgement) (d : Deed) :
    Decidable (d.Respects a id t) :=
  match d with
  | deposited b => inferInstanceAs (Decidable (b.key = a.key → b = a))
  | fetched j key _ _ => inferInstanceAs (Decidable (key = a.key → j = id))
  | swept asOf => inferInstanceAs
    (Decidable (∀ c ∈ t.cells, c.key = a.key → c.isExpired t.retention asOf = false))
  | transmitted _ _ | resumed _ _ _ | withdrawn _ _ => isTrue trivial

/-- What arrives with a deed. -/
def brought? (clock : Clock) : Deed → Option (String × Deposit Acknowledgement)
  | deposited a => some (a.key, ⟨a, clock.now⟩)
  | _ => none

section Enact

variable {clock : Clock} {t : Table Acknowledgement} {crowd : Crowd} {queue : List TaskId}
  {d : Deed}

/-- What neither arrives nor is swept brings no value. -/
theorem succeeds_none (hfits : d.Fits clock t) (harrived : ∀ a, d ≠ .deposited a)
    (hswept : ∀ asOf, d ≠ .swept asOf) : (d.enact clock t).Succeeds none t := by
  cases d with
  | transmitted transmission report => exact .refl t
  | deposited a => exact absurd rfl (harrived a)
  | swept asOf => exact absurd rfl (hswept asOf)
  | withdrawn id w => exact .leave _ _ _
  | fetched id key limit attempt =>
    rw [enact]
    cases hfits.fetches with
    | atOnce htake hnext =>
      rw [hnext]
      exact (Table.Succeeds.countStats _ _).trans (.takeReady htake)
    | entered _ hnext =>
      rw [hnext]
      exact (Table.Succeeds.enter _ _ id).trans (.withCell _ _ _)
  | resumed id w attempt =>
    rw [enact]
    cases hfits.resumes with
    | value htake hnext =>
      rw [hnext]
      exact (Table.Succeeds.countStats _ _).trans
        ((Table.Succeeds.leave _ _ _).trans (.takeAwaited htake))
    | timeout _ _ hnext =>
      rw [hnext]
      exact (Table.Succeeds.countStats _ _).trans (.leave _ _ _)
    | again _ hnext =>
      rw [hnext]
      exact .sleep _ _ _

theorem succeeds (h : t.Hosts crowd queue) (hfits : d.Fits clock t)
    (hswept : ∀ asOf, d ≠ .swept asOf) : (d.enact clock t).Succeeds (d.brought? clock) t := by
  by_cases harrived : ∃ a, d = .deposited a
  · obtain ⟨a, rfl⟩ := harrived
    exact .deposit h _ _ _
  · have hnone : d.brought? clock = none := by
      cases d with
      | deposited a => exact absurd ⟨a, rfl⟩ harrived
      | _ => rfl
    rw [hnone]
    exact succeeds_none hfits (not_exists.mp harrived) hswept

end Enact

end Deed

/-- A value lies under a key. -/
def Correlation.Table.Holds {α : Type} (t : Table α) (key : String) : Prop :=
  ∃ c ∈ t.cells, c.key = key ∧ c.hasValue

namespace Correlation.Table.Holds

variable {α : Type} {t t' : Table α} {key : String} {crowd : Crowd} {queue : List TaskId}

/-- The value stays if no other cell than those of other keys is touched. -/
theorem of_keeps (h : t.Holds key) {except : Option Nat} (hkeeps : Table.Keeps except t' t)
    (hexcept : ∀ c ∈ t.cells, c.key = key → except ≠ some c.id) : t'.Holds key := by
  obtain ⟨c, hc, hkey, hvalue⟩ := h
  obtain ⟨c', hc', -, hkey', hslot⟩ := hkeeps c hc (hexcept c hc hkey)
  refine ⟨c', hc', hkey'.trans hkey, ?_⟩
  rw [Cell.hasValue, hslot]
  exact hvalue

/-- What is deposited lies under its key. -/
theorem deposit (t : Table α) (now : Nat) (key : String) (a : α) :
    (t.deposit now key a).1.Holds key := by
  obtain ⟨hmem, hkey⟩ := find?_eq_some (t.find?_withCell now key)
  rw [fst_deposit]
  refine ⟨_, List.mem_map_of_mem hmem, ?_, ?_⟩
  · rw [if_pos rfl]
    exact hkey
  · rw [if_pos rfl]
    rfl

/-- A sweep leaves it if it is not too old. -/
theorem sweep (h : t.Holds key) {asOf : Int}
    (hfresh : ∀ c ∈ t.cells, c.key = key → c.isExpired t.retention asOf = false) :
    (t.sweep asOf).1.Holds key := by
  obtain ⟨c, hc, hkey, hvalue⟩ := h
  refine ⟨c, ((Table.sweptFrom_sweep t asOf).mem_cells c).mpr ⟨hc, hfresh c hc hkey, ?_⟩, hkey,
    hvalue⟩
  cases hslot : c.slot with
  | none => simp [Cell.hasValue, hslot] at hvalue
  | some d => simp [Cell.isUnused, hslot]

end Correlation.Table.Holds

namespace Deed

variable {clock : Clock} {t : Table Acknowledgement} {crowd : Crowd} {queue : List TaskId}
  {d : Deed} {a : Acknowledgement} {id : TaskId}

/-- Nobody gives up before the alarm has rung. -/
theorem isLate_of_missed {key : String} (hfits : d.Fits clock t) (hmissed : d.missed? = some key) :
    d.IsLate clock key := by
  cases d with
  | resumed j w attempt =>
    cases hfits.resumes with
    | value _ _ => simp [missed?] at hmissed
    | timeout _ hlate _ => exact ⟨Option.some.inj hmissed, hlate⟩
    | again _ _ => simp [missed?] at hmissed
  | _ => simp [missed?] at hmissed

theorem holds_of_brings (h : d.Brings a.key) (clock : Clock) (t : Table Acknowledgement) :
    (d.enact clock t).Holds a.key := by
  cases d with
  | deposited b =>
    have hkey : b.key = a.key := h
    rw [← hkey]
    exact .deposit t _ _ _
  | _ => exact h.elim

/-- A deed that sweeps nothing leaves every value in its cell, except for one that it takes or
replaces. -/
theorem keeps (h : t.Hosts crowd queue) (hfits : d.Fits clock t) (hadmitted : d.Admitted crowd)
    (hswept : ∀ asOf, d ≠ .swept asOf) : ∃ except, Table.Keeps except (d.enact clock t) t ∧
      ∀ c ∈ t.cells, except = some c.id → d.Brings c.key ∨ ∃ b, d.taken? = some (c.key, b) := by
  have hall {t' : Table Acknowledgement} (hkeeps : Table.Keeps none t' t) :
      ∃ except, Table.Keeps except t' t ∧ ∀ c ∈ t.cells, except = some c.id →
        d.Brings c.key ∨ ∃ b, d.taken? = some (c.key, b) := ⟨none, hkeeps, by simp⟩
  cases d with
  | transmitted transmission report => exact hall (.refl t)
  | swept asOf => exact absurd rfl (hswept asOf)
  | withdrawn j w => exact hall (.leave _ _ _)
  | deposited a =>
    refine ⟨_, .deposit t clock.now a.key a, fun c hc heq => .inl ?_⟩
    obtain ⟨hmem, hkey⟩ := Table.find?_eq_some (t.find?_withCell clock.now a.key)
    have hkeeps : Table.Keeps none _ t := .withCell t clock.now a.key
    obtain ⟨c', hc', hid, hkey', -⟩ := hkeeps c hc (by simp)
    have hsame := (h.withCell clock.now a.key).eq_of_id (Table.mem_known_of_mem_cells hc')
      (Table.mem_known_of_mem_cells hmem) (hid.trans (Option.some.inj heq).symm)
    rw [Brings, ← hkey', hsame, hkey]
  | fetched j key limit attempt =>
    rw [enact]
    cases hfits.fetches with
    | @atOnce b t' g htake hnext =>
      rw [hnext]
      obtain ⟨c, -, hc, -, -, hemptied⟩ := Table.takeReady?_emptied htake
      obtain ⟨hmem, hkey⟩ := Table.find?_eq_some hc
      refine ⟨_, (hemptied.countStats g).keeps, fun c' hc' heq => .inr ⟨b, ?_⟩⟩
      have hsame := h.eq_of_id (Table.mem_known_of_mem_cells hmem)
        (Table.mem_known_of_mem_cells hc') (Option.some.inj heq)
      rw [taken?, ← hkey, hsame]
    | entered _ hnext =>
      rw [hnext]
      exact hall ((Table.Keeps.enter _ _ j).trans (.withCell _ _ _))
  | resumed j w attempt =>
    rw [enact]
    cases hfits.resumes with
    | @value b t' g htake hnext =>
      rw [hnext]
      obtain ⟨c, -, -, -, -, hemptied⟩ := Table.takeAwaited?_emptied htake
      refine ⟨_, ((hemptied.leave w.cell j).countStats g).keeps,
        fun c' hc' heq => .inr ⟨b, ?_⟩⟩
      obtain ⟨c, hc, hid, hkey, -⟩ := h.placed (j, w) hadmitted
      have hsame := h.eq_of_id hc (Table.mem_known_of_mem_cells hc')
        (hid.trans (Option.some.inj heq))
      rw [taken?, ← hsame, hkey]
    | timeout _ _ hnext =>
      rw [hnext]
      exact hall ((Table.Keeps.countStats _ _).trans (.leave _ _ _))
    | again _ hnext =>
      rw [hnext]
      exact hall (.sleep _ _ _)

/-- A value stays under its key unless it is taken. -/
theorem holds (hholds : t.Holds a.key) (h : t.Hosts crowd queue) (hfits : d.Fits clock t)
    (hadmitted : d.Admitted crowd) (hrespects : d.Respects a id t)
    (hleft : ∀ b, d.taken? ≠ some (a.key, b)) : (d.enact clock t).Holds a.key := by
  by_cases hswept : ∃ asOf, d = .swept asOf
  · obtain ⟨asOf, rfl⟩ := hswept
    exact hholds.sweep hrespects
  · by_cases hbrings : d.Brings a.key
    · exact holds_of_brings hbrings clock t
    · obtain ⟨except, hkeeps, hexcept⟩ :=
        keeps h hfits hadmitted fun asOf heq => hswept ⟨asOf, heq⟩
      refine hholds.of_keeps hkeeps fun c hc hkey heq => ?_
      rcases hexcept c hc heq with hbrings' | ⟨b, htaken⟩
      · exact hbrings (hkey ▸ hbrings')
      · exact hleft b (hkey ▸ htaken)

end Deed

/-- Of a crowd only one task waits under some keys. -/
def Correlation.Crowd.Only (mine : String → Prop) (id : TaskId) (crowd : Crowd) : Prop :=
  ∀ e ∈ crowd, mine e.2.key → e.1 = id

/-- Nobody but one task begins to fetch under some keys. -/
def Deed.Yields (mine : String → Prop) (id : TaskId) : Deed → Prop
  | fetched j key _ _ => mine key → j = id
  | _ => True

instance (mine : String → Prop) [DecidablePred mine] (id : TaskId) (d : Deed) :
    Decidable (d.Yields mine id) :=
  match d with
  | .fetched j key _ _ => inferInstanceAs (Decidable (mine key → j = id))
  | .deposited _ | .swept _ | .transmitted _ _ | .resumed _ _ _ | .withdrawn _ _ => isTrue trivial

theorem Correlation.Crowd.Only.reseat {mine : String → Prop} {id : TaskId} {clock : Clock}
    {t : Table Acknowledgement} {crowd : Crowd} {d : Deed} (h : crowd.Only mine id)
    (hfits : d.Fits clock t) (hadmitted : d.Admitted crowd) (hyields : d.Yields mine id) :
    Crowd.Only mine id (d.reseat crowd) := by
  intro e he hkey
  cases d with
  | fetched j key limit attempt =>
    rcases List.mem_append.mp he with he | he
    · cases hfits.fetches with
      | atOnce _ _ => exact absurd he List.not_mem_nil
      | entered _ _ =>
        obtain rfl := List.mem_singleton.mp he
        exact hyields hkey
    · exact h e he hkey
  | resumed j w attempt =>
    rcases List.mem_append.mp he with he | he
    · cases hfits.resumes with
      | value _ _ => exact absurd he List.not_mem_nil
      | timeout _ _ _ => exact absurd he List.not_mem_nil
      | again _ _ =>
        -- Whoever waits on has waited under this key before.
        obtain rfl := List.mem_singleton.mp he
        exact h (j, w) hadmitted hkey
    · exact h e (List.mem_of_mem_filter he) hkey
  | withdrawn j w => exact h e (List.mem_of_mem_filter he) hkey
  | _ => exact h e he hkey

/-- The part of the table under the key of an acknowledgement is a mailbox for one task. -/
structure Mailbox (a : Acknowledgement) (id : TaskId) (t : Table Acknowledgement) (crowd : Crowd) :
    Prop where
  owner : ∀ e ∈ crowd, e.2.key = a.key → e.1 = id
  values : ∀ c ∈ t.cells, c.key = a.key → ∀ d, c.slot = some d → d.value = a
  /-- The task never waits at a cell out of reach. -/
  reach : ∀ c ∈ t.aside, c.key ≠ a.key

namespace Mailbox

variable {a b : Acknowledgement} {id j : TaskId} {clock : Clock} {t t' : Table Acknowledgement}
  {crowd : Crowd} {queue : List TaskId} {d : Deed} {w : Wait}

theorem empty (a : Acknowledgement) (id : TaskId) (p : Retention) :
    Mailbox a id (.empty p) [] := by
  constructor <;> simp [Table.empty]

theorem perm (h : Mailbox a id t crowd) {other : Crowd} (hp : crowd.Perm other) :
    Mailbox a id t other :=
  ⟨fun e he => h.owner e (hp.mem_iff.mpr he), h.values, h.reach⟩

/-- Nobody else begins to wait under the key. -/
theorem owner_reseat (h : Mailbox a id t crowd) (hfits : d.Fits clock t)
    (hadmitted : d.Admitted crowd) (hrespects : d.Respects a id t) :
    ∀ e ∈ d.reseat crowd, e.2.key = a.key → e.1 = id := by
  have howner : crowd.Only (· = a.key) id := h.owner
  refine howner.reseat hfits hadmitted ?_
  cases d with
  | fetched j key limit attempt => exact hrespects
  | _ => trivial

/-- Every deed that respects the mailbox keeps it. -/
theorem enact (h : Mailbox a id t crowd) (hhosts : t.Hosts crowd queue) (hfits : d.Fits clock t)
    (hadmitted : d.Admitted crowd) (hrespects : d.Respects a id t) :
    Mailbox a id (d.enact clock t) (d.reseat crowd) where
  owner := h.owner_reseat hfits hadmitted hrespects
  values := by
    by_cases hswept : ∃ asOf, d = .swept asOf
    · obtain ⟨asOf, rfl⟩ := hswept
      exact fun c hc => h.values c (((Table.sweptFrom_sweep t asOf).mem_cells c).mp hc).1
    · intro c hc hkey deposit hslot
      have hnext := Deed.succeeds hhosts hfits fun asOf heq => hswept ⟨asOf, heq⟩
      rcases hnext.values c hc deposit hslot with hb | ⟨c', hc', -, hkey', hslot'⟩
      · cases d with
        | deposited b =>
          obtain ⟨hbkey, rfl⟩ := Prod.mk.inj (Option.some.inj hb)
          exact hrespects (hbkey.trans hkey)
        | _ => simp [Deed.brought?] at hb
      · exact h.values c' hc' (hkey'.symm.trans hkey) deposit hslot'
  reach := by
    by_cases hswept : ∃ asOf, d = .swept asOf
    · obtain ⟨asOf, rfl⟩ := hswept
      intro c hc hkey
      rcases ((Table.sweptFrom_sweep t asOf).mem_aside c).mp hc with hc | ⟨hc, hexpired, -⟩
      · exact h.reach c hc hkey
      · rw [hrespects c hc hkey] at hexpired
        exact Bool.false_ne_true hexpired
    · intro c hc
      have hnext := Deed.succeeds hhosts hfits fun asOf heq => hswept ⟨asOf, heq⟩
      obtain ⟨c', hc', hstem⟩ := hnext.aside c hc
      rw [hstem.key_eq]
      exact h.reach c' hc'

/-- Whoever waits under the key waits at the cell in reach. -/
theorem placed (h : Mailbox a id t crowd) (hhosts : t.Hosts crowd queue) (hw : (j, w) ∈ crowd)
    (hkey : w.key = a.key) : ∃ c ∈ t.cells, c.id = w.cell ∧ c.key = a.key ∧
      (j ∈ c.sleepers ∨ j ∈ queue) := by
  obtain ⟨c, hc, hid, hckey, hs⟩ := hhosts.placed _ hw
  rcases List.mem_append.mp hc with hc | hc
  · exact ⟨c, hc, hid, hckey.trans hkey, hs⟩
  · exact absurd (hckey.trans hkey) (h.reach c hc)

/-- Nothing else is taken out. -/
theorem taken (h : Mailbox a id t crowd) (hhosts : t.Hosts crowd queue) (hfits : d.Fits clock t)
    (hadmitted : d.Admitted crowd) (htaken : d.taken? = some (a.key, b)) : b = a := by
  cases d with
  | fetched j key limit attempt =>
    cases hfits.fetches with
    | atOnce htake _ =>
      obtain ⟨rfl, rfl⟩ := Prod.mk.inj (Option.some.inj htaken)
      obtain ⟨c, deposit, hc, hslot, rfl, -⟩ := Table.takeReady?_eq_some htake
      obtain ⟨hmem, hkey⟩ := Table.find?_eq_some hc
      exact h.values c hmem hkey deposit hslot
    | entered _ _ => simp [Deed.taken?] at htaken
  | resumed j w attempt =>
    cases hfits.resumes with
    | value htake _ =>
      obtain ⟨hkey, rfl⟩ := Prod.mk.inj (Option.some.inj htaken)
      obtain ⟨c, deposit, hc, hslot, rfl, -⟩ := Table.takeAwaited?_eq_some htake
      obtain ⟨hmem, hid⟩ := Table.cell?_eq_some hc
      obtain ⟨c', hc', hid', hkey', -⟩ := h.placed hhosts hadmitted hkey
      obtain rfl := hhosts.eq_of_id hmem (Table.mem_known_of_mem_cells hc') (hid.trans hid'.symm)
      exact h.values c hc' hkey' deposit hslot
    | timeout _ _ _ => simp [Deed.taken?] at htaken
    | again _ _ => simp [Deed.taken?] at htaken
  | _ => simp [Deed.taken?] at htaken

/-- Whoever waits for a value that is there is called for it. -/
theorem mem_queue (h : Mailbox a id t crowd) (hhosts : t.Hosts crowd queue) (hw : (j, w) ∈ crowd)
    (hkey : w.key = a.key) (hholds : t.Holds a.key) : j ∈ queue := by
  obtain ⟨c, hc, -, hckey, hs⟩ := h.placed hhosts hw hkey
  obtain ⟨c', hc', hckey', hvalue⟩ := hholds
  obtain rfl := hhosts.eq_of_key hc hc' (hckey.trans hckey'.symm)
  rw [hhosts.awake c (Table.mem_known_of_mem_cells hc) hvalue] at hs
  exact hs.resolve_left List.not_mem_nil

/-- Nobody gives up while the value is there. -/
theorem not_missed (h : Mailbox a id t crowd) (hhosts : t.Hosts crowd queue)
    (hfits : d.Fits clock t) (hadmitted : d.Admitted crowd) (hholds : t.Holds a.key) :
    d.missed? ≠ some a.key := by
  intro hmissed
  cases d with
  | resumed j w attempt =>
    cases hfits.resumes with
    | value _ _ => simp [Deed.missed?] at hmissed
    | timeout hnone _ _ =>
      obtain ⟨c, hc, hid, hckey, -⟩ := h.placed hhosts hadmitted (Option.some.inj hmissed)
      obtain ⟨c', hc', hckey', hvalue⟩ := hholds
      obtain rfl := hhosts.eq_of_key hc hc' (hckey.trans hckey'.symm)
      have hcell := hhosts.cell?_eq_some_iff.mpr ⟨Table.mem_known_of_mem_cells hc, hid⟩
      have hslot := Table.takeAwaited?_eq_none.mp hnone c hcell
      simp [Cell.hasValue, hslot] at hvalue
    | again _ _ => simp [Deed.missed?] at hmissed
  | _ => simp [Deed.missed?] at hmissed

/-- Nobody else takes anything out. -/
theorem taker (h : Mailbox a id t crowd) (hadmitted : d.Admitted crowd)
    (hrespects : d.Respects a id t) (htaken : d.taken? = some (a.key, b)) : d.task? = some id := by
  cases d with
  | fetched j key limit attempt =>
    have hkey : key = a.key := by
      rcases attempt with ⟨b' | _⟩ | w | w <;> simp_all [Deed.taken?]
    exact congrArg some (hrespects hkey)
  | resumed j w attempt =>
    have hkey : w.key = a.key := by
      rcases attempt with ⟨b' | _⟩ | w | w <;> simp_all [Deed.taken?]
    exact congrArg some (h.owner (j, w) hadmitted hkey)
  | _ => simp [Deed.taken?] at htaken

end Mailbox

/-! ## A whole trace -/

/-- What holds wherever a list is cut holds at its head and in its tail. -/
theorem forall_cut_cons {α : Type} {P : List α → α → Prop} {x : α} {xs : List α} :
    (P [] x ∧ ∀ before e after, xs = before ++ e :: after → P (x :: before) e) ↔
      ∀ before e after, x :: xs = before ++ e :: after → P before e := by
  constructor
  · rintro ⟨hhead, htail⟩ before e after heq
    cases before with
    | nil =>
      obtain ⟨rfl, -⟩ := List.cons.inj heq
      exact hhead
    | cons y before =>
      obtain ⟨rfl, hrest⟩ := List.cons.inj heq
      exact htail before e after hrest
  · intro h
    refine ⟨h [] x xs rfl, fun before e after heq => h (x :: before) e after ?_⟩
    rw [heq, List.cons_append]

def decidableForallCut {α : Type} : (xs : List α) → (P : List α → α → Prop) →
    (∀ before e, Decidable (P before e)) →
    Decidable (∀ before e after, xs = before ++ e :: after → P before e)
  | [], _, _ => isTrue fun before e after h => by simp at h
  | x :: xs, P, dec =>
    have := dec [] x
    have := decidableForallCut xs (fun before => P (x :: before)) fun before => dec (x :: before)
    decidable_of_iff _ forall_cut_cons

/-- The deeds of a trace respect a mailbox. -/
def Guarded (p : Retention) (a : Acknowledgement) (id : TaskId) (es : List (Clock × Deed)) : Prop :=
  ∀ before e after, es = before ++ e :: after → e.2.Respects a id (replay (.empty p) before)

/-- Whenever a task comes back for the value of a key at its deadline, one has arrived before. -/
def InTime (key : String) (es : List (Clock × Deed)) : Prop :=
  ∀ before e after, es = before ++ e :: after → e.2.IsLate e.1 key →
    ∃ e' ∈ before, e'.2.Brings key

instance (p : Retention) (a : Acknowledgement) (id : TaskId) (es : List (Clock × Deed)) :
    Decidable (Guarded p a id es) := decidableForallCut es _ fun _ _ => inferInstance

instance (key : String) (es : List (Clock × Deed)) : Decidable (InTime key es) :=
  decidableForallCut es _ fun _ _ => inferInstance

namespace Guarded

variable {p : Retention} {a b : Acknowledgement} {id : TaskId} {es es' : List (Clock × Deed)}
  {e : Clock × Deed}

theorem of_append (h : Guarded p a id (es ++ es')) : Guarded p a id es :=
  fun before e after heq => h before e (after ++ es') (by rw [heq]; simp)

theorem mailbox (h : Guarded p a id es) (hc : Consistent p es) :
    Mailbox a id (replay (.empty p) es) (crowdAfter es) := by
  induction es using List.reverseRecOn with
  | nil => exact .empty a id p
  | append_singleton es e ih =>
    obtain ⟨queue, hhosts⟩ := hc.of_append.hosts
    rw [replay_concat, crowdAfter_concat]
    exact (ih h.of_append hc.of_append).enact hhosts (hc.fits es e [] rfl)
      (hc.admitted es e [] rfl) (h es e [] rfl)

/-- Only this acknowledgement is taken out, and only by this task. -/
theorem taken (h : Guarded p a id es) (hc : Consistent p es) (he : e ∈ es)
    (htaken : e.2.taken? = some (a.key, b)) : b = a ∧ e.2.task? = some id := by
  obtain ⟨before, after, rfl⟩ := List.append_of_mem he
  obtain ⟨queue, hhosts⟩ := hc.of_append.hosts
  have hmailbox := h.of_append.mailbox hc.of_append
  have hadmitted := hc.admitted before e after rfl
  exact ⟨hmailbox.taken hhosts (hc.fits before e after rfl) hadmitted htaken,
    hmailbox.taker hadmitted (h before e after rfl) htaken⟩

/-- What has arrived lies there until it is taken. -/
theorem holds (h : Guarded p a id es) (hc : Consistent p es) (hin : ∃ e ∈ es, e.2.Brings a.key)
    (hleft : ∀ e ∈ es, ∀ b, e.2.taken? ≠ some (a.key, b)) :
    (replay (.empty p) es).Holds a.key := by
  induction es using List.reverseRecOn with
  | nil =>
    obtain ⟨e, he, -⟩ := hin
    exact absurd he List.not_mem_nil
  | append_singleton es e ih =>
    rw [replay_concat]
    -- The last deed brings a copy itself, or one lies there already and is not taken.
    by_cases hbrings : e.2.Brings a.key
    · exact Deed.holds_of_brings hbrings e.1 _
    · obtain ⟨e', he', hin⟩ := hin
      have hearlier : e' ∈ es := (List.mem_append.mp he').resolve_right fun hlast =>
        hbrings (List.mem_singleton.mp hlast ▸ hin)
      obtain ⟨queue, hhosts⟩ := hc.of_append.hosts
      have hbefore := ih h.of_append hc.of_append ⟨e', hearlier, hin⟩
        fun e he => hleft e (List.mem_append_left _ he)
      exact Deed.holds hbefore hhosts (hc.fits es e [] rfl) (hc.admitted es e [] rfl)
        (h es e [] rfl) (hleft e (List.mem_append_right _ List.mem_cons_self))

/-- Nobody gives up under the key before a value has been taken. -/
theorem taken_of_missed (h : Guarded p a id es) (hc : Consistent p es) (htime : InTime a.key es)
    (he : e ∈ es) (hmissed : e.2.missed? = some a.key) :
    ∃ e' ∈ es, ∃ b, e'.2.taken? = some (a.key, b) := by
  by_contra hnone
  -- If nothing was taken, then what had arrived by the deadline still lies there.
  obtain ⟨before, after, rfl⟩ := List.append_of_mem he
  obtain ⟨queue, hhosts⟩ := hc.of_append.hosts
  have hadmitted := hc.admitted before e after rfl
  have hfits := hc.fits before e after rfl
  have hleft : ∀ e ∈ before, ∀ b, e.2.taken? ≠ some (a.key, b) := fun e he b htaken =>
    hnone ⟨e, List.mem_append_left _ he, b, htaken⟩
  have hlate := Deed.isLate_of_missed hfits hmissed
  have hholds := h.of_append.holds hc.of_append (htime before e after rfl hlate) hleft
  exact h.of_append.mailbox hc.of_append |>.not_missed hhosts hfits hadmitted hholds hmissed

end Guarded

end EbmsMessaging
