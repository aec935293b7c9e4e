import EbmsMessaging.Proofs.Service.Freshness
import EbmsMessaging.Proofs.Service.Vigil

/-!
# What lies in the table for one task

Where only one task fetches under some keys, and no sweep comes so late that a value there is too
old for it, the table is an inbox for that task. Under each of these keys lies what arrived last and
was not taken since. Whatever else is done to the table does not matter.
-/
namespace EbmsMessaging

open Correlation

namespace Correlation.Table

variable {α : Type} {t t' : Table α} {crowd crowd' : Crowd} {queue queue' : List TaskId}
  {key : String} {id : TaskId} {w : Wait}

/-- The value under a key stays if its cell is left alone and nothing is brought there. -/
theorem valueAt?_eq (ht : t.Hosts crowd queue) (ht' : t'.Hosts crowd' queue')
    {brought : Option (String × Deposit α)} (hsucceeds : t'.Succeeds brought t)
    (hbrought : ∀ d, brought ≠ some (key, d)) {except : Option Nat} (hkeeps : Keeps except t' t)
    (hexcept : ∀ c ∈ t.cells, c.key = key → except ≠ some c.id) :
    t'.valueAt? key = t.valueAt? key := by
  refine Option.ext fun d => ?_
  rw [ht'.valueAt?_eq_some_iff, ht.valueAt?_eq_some_iff]
  constructor
  · rintro ⟨c', hc', hkey, hslot⟩
    rcases hsucceeds.values c' hc' d hslot with hb | ⟨c, hc, -, hckey, hcslot⟩
    · exact absurd (hkey ▸ hb) (hbrought d)
    · exact ⟨c, hc, hckey.symm.trans hkey, hcslot⟩
  · rintro ⟨c, hc, hkey, hslot⟩
    obtain ⟨c', hc', -, hckey, hcslot⟩ := hkeeps c hc (hexcept c hc hkey)
    exact ⟨c', hc', hckey.trans hkey, hcslot.trans hslot⟩

theorem valueAt?_deposit {now : Nat} {a : α} (h : (t.deposit now key a).1.Hosts crowd queue) :
    (t.deposit now key a).1.valueAt? key = some ⟨a, now⟩ := by
  rw [h.valueAt?_eq_some_iff, fst_deposit]
  obtain ⟨hmem, hkey⟩ := find?_eq_some (t.find?_withCell now key)
  refine ⟨_, List.mem_map_of_mem hmem, ?_, ?_⟩
  · rw [if_pos rfl]
    exact hkey
  · rw [if_pos rfl]
    rfl

/-- A sweep leaves a value that is not too old. -/
theorem valueAt?_sweep (h : t.Hosts crowd queue) {asOf : Int}
    (hfresh : ∀ d, t.valueAt? key = some d → Cell.age asOf d.time ≤ t.retention.valueLimit) :
    (t.sweep asOf).1.valueAt? key = t.valueAt? key := by
  refine Option.ext fun d => ?_
  rw [(h.sweep asOf).valueAt?_eq_some_iff, h.valueAt?_eq_some_iff]
  constructor
  · rintro ⟨c, hc, hkey, hslot⟩
    exact ⟨c, ((sweptFrom_sweep t asOf).mem_cells c).mp hc |>.1, hkey, hslot⟩
  · rintro ⟨c, hc, hkey, hslot⟩
    have hage := hfresh d (h.valueAt?_eq_some_iff.mpr ⟨c, hc, hkey, hslot⟩)
    refine ⟨c, ((sweptFrom_sweep t asOf).mem_cells c).mpr ⟨hc, ?_, ?_⟩, hkey, hslot⟩
    · simpa [Cell.isExpired, hslot] using hage
    · simp [Cell.isUnused, hslot]

theorem takeReady?_eq_none_iff : t.takeReady? key = none ↔ t.valueAt? key = none := by
  rw [takeReady?_eq_none, valueAt?, Option.bind_eq_none_iff]

theorem valueAt?_of_takeReady {a : α} (h : t.takeReady? key = some (a, t')) :
    ∃ d, t.valueAt? key = some d ∧ d.value = a := by
  obtain ⟨c, d, hc, hd, ha, -⟩ := takeReady?_eq_some h
  exact ⟨d, by rw [valueAt?, hc, Option.bind_some, hd], ha⟩

/-- A task that waits at a cell in reach finds there what lies under its key. -/
theorem Hosts.slot_of_wait (h : t.Hosts crowd queue) (hw : (id, w) ∈ crowd)
    (hreach : ∀ c ∈ t.aside, c.key ≠ w.key) :
    ∃ c, t.cell? w.cell = some c ∧ c.slot = t.valueAt? w.key ∧ (id ∈ c.sleepers ∨ id ∈ queue) := by
  obtain ⟨c, hc, hid, hkey, hs⟩ := h.placed _ hw
  have hcell : c ∈ t.cells :=
    (List.mem_append.mp hc).resolve_right fun haside => hreach c haside hkey
  refine ⟨c, h.cell?_eq_some_iff.mpr ⟨hc, hid⟩, ?_, hs⟩
  rw [valueAt?, h.find?_eq_some_iff.mpr ⟨hcell, hkey⟩, Option.bind_some]

end Correlation.Table

namespace Deed

variable {clock : Clock} {t : Table Acknowledgement} {crowd : Crowd} {queue : List TaskId}
  {d : Deed} {key : String}

/-- A deed that sweeps nothing leaves the value under a key alone unless it takes or replaces it. -/
theorem valueAt?_enact (h : t.Hosts crowd queue) (hfits : d.Fits clock t)
    (hadmitted : d.Admitted crowd) (hswept : ∀ asOf, d ≠ .swept asOf) (hbrings : ¬d.Brings key)
    (htaken : ∀ a, d.taken? ≠ some (key, a)) :
    (d.enact clock t).valueAt? key = t.valueAt? key := by
  obtain ⟨except, hkeeps, hexcept⟩ := keeps h hfits hadmitted hswept
  obtain ⟨queue', hhosts⟩ := exists_hosts h hfits hadmitted
  refine Table.valueAt?_eq h hhosts (succeeds h hfits hswept) (fun deposit heq => ?_) hkeeps
    fun c hc hkey heq => ?_
  · cases d with
    | deposited a => exact hbrings (congrArg Prod.fst (Option.some.inj heq))
    | _ => simp [brought?] at heq
  · rcases hexcept c hc heq with hb | ⟨a, ha⟩
    · exact hbrings (hkey ▸ hb)
    · exact htaken a (hkey ▸ ha)

/-- Where a value was taken from a cell in reach nothing is left. -/
theorem valueAt?_of_taken (h : t.Hosts crowd queue) (hfits : d.Fits clock t)
    (hadmitted : d.Admitted crowd) (hreach : ∀ c ∈ t.aside, c.key ≠ key) {a : Acknowledgement}
    (htaken : d.taken? = some (key, a)) : (d.enact clock t).valueAt? key = none := by
  have hsucceeds : (d.enact clock t).Succeeds none t := succeeds_none hfits
    (fun b heq => by simp [heq, taken?] at htaken) fun asOf heq => by simp [heq, taken?] at htaken
  have hemptied : ∃ c ∈ t.cells, c.key = key ∧ Table.Emptied c.id (d.enact clock t) t := by
    cases d with
    | fetched j key' limit attempt =>
      rw [enact]
      cases hfits.fetches with
      | atOnce htake hnext =>
        obtain ⟨rfl, -⟩ := Prod.mk.inj (Option.some.inj htaken)
        obtain ⟨c, -, hc, -, -, hemptied⟩ := Table.takeReady?_emptied htake
        obtain ⟨hmem, hkey⟩ := Table.find?_eq_some hc
        rw [hnext]
        exact ⟨c, hmem, hkey, hemptied.countStats _⟩
      | entered _ _ => simp [taken?] at htaken
    | resumed j w attempt =>
      rw [enact]
      cases hfits.resumes with
      | value htake hnext =>
        obtain ⟨rfl, -⟩ := Prod.mk.inj (Option.some.inj htaken)
        obtain ⟨-, -, -, -, -, hemptied⟩ := Table.takeAwaited?_emptied htake
        obtain ⟨c, hc, hid, hkey, -⟩ := h.placed (j, w) hadmitted
        have hcell : c ∈ t.cells :=
          (List.mem_append.mp hc).resolve_right fun haside => hreach c haside hkey
        rw [hnext]
        exact ⟨c, hcell, hkey, hid ▸ (hemptied.leave _ j).countStats _⟩
      | timeout _ _ _ => simp [taken?] at htaken
      | again _ _ => simp [taken?] at htaken
    | _ => simp [taken?] at htaken
  obtain ⟨c, hc, hkey, hemptied⟩ := hemptied
  obtain ⟨queue', hhosts⟩ := exists_hosts h hfits hadmitted
  refine Option.eq_none_iff_forall_ne_some.mpr fun deposit heq => ?_
  obtain ⟨c', hc', hkey', hslot⟩ := hhosts.valueAt?_eq_some_iff.mp heq
  rcases hsucceeds.values c' hc' deposit hslot with hb | ⟨b, hb, hid, hbkey, -⟩
  · simp at hb
  · have hsame := h.eq_of_key hb hc (hbkey.symm.trans (hkey'.trans hkey.symm))
    have hempty := hemptied.empty c' (Table.mem_known_of_mem_cells hc') (hid.trans (hsame ▸ rfl))
    rw [hempty] at hslot
    simp at hslot

/-- What a deed changes of what lies under the keys. -/
def effect (d : Deed) (f : String → Option Acknowledgement) : String → Option Acknowledgement :=
  match d with
  | deposited a => Function.update f a.key (some a)
  | d => (d.taken?).elim f fun e => Function.update f e.1 none

end Deed

/-- The acknowledgement that arrives with a deed under one of the keys. -/
def Deed.arrival? (mine : String → Prop) [DecidablePred mine] : Deed → Option Acknowledgement
  | deposited a => if mine a.key then some a else none
  | _ => none

/-- Under some keys lies what was put there since an instant. Whoever waits there waits in reach. -/
structure Inbox (keys : String → Prop) (since : Nat) (f : String → Option Acknowledgement)
    (t : Table Acknowledgement) : Prop where
  reach : ∀ c ∈ t.aside, ¬keys c.key
  value : ∀ key, keys key → (t.valueAt? key).map Deposit.value = f key
  fresh : ∀ key, keys key → ∀ d, t.valueAt? key = some d → since ≤ d.time

namespace Inbox

variable {keys keys' : String → Prop} {since : Nat} {f f' : String → Option Acknowledgement}
  {t : Table Acknowledgement} {crowd : Crowd} {queue : List TaskId} {clock : Clock} {d : Deed}
  {id : TaskId} {w : Wait}

theorem empty (keys : String → Prop) (since : Nat) (p : Retention) :
    Inbox keys since (fun _ => none) (.empty p) := by
  constructor <;> simp [Table.empty, Table.valueAt?, Table.find?]

theorem congr (h : Inbox keys since f t) (hf : ∀ key, keys key → f key = f' key) :
    Inbox keys since f' t where
  reach := h.reach
  value key hkey := (h.value key hkey).trans (hf key hkey)
  fresh := h.fresh

/-- Of fewer keys the instant may be another where nothing lies. -/
theorem narrow (h : Inbox keys since f t) (hkeys : ∀ key, keys' key → keys key) {instant : Nat}
    (hnone : ∀ key, keys' key → f key = none) : Inbox keys' instant f t where
  reach c hc hkey := h.reach c hc (hkeys _ hkey)
  value key hkey := h.value key (hkeys key hkey)
  fresh key hkey deposit hd := by
    have hvalue := h.value key (hkeys key hkey)
    rw [hnone key hkey, hd] at hvalue
    simp at hvalue

/-- No sweep of an instant takes a value away. -/
def Outlasts (keys : String → Prop) (since : Nat) (f : String → Option Acknowledgement)
    (t : Table Acknowledgement) (asOf : Int) : Prop :=
  (∀ key, keys key → f key = none) ∨ asOf ≤ since + t.retention.valueLimit

theorem age_le (h : Inbox keys since f t) {asOf : Int} (hasOf : Outlasts keys since f t asOf)
    {key : String} (hkey : keys key) {deposit : Deposit Acknowledgement}
    (hd : t.valueAt? key = some deposit) :
    Cell.age asOf deposit.time ≤ t.retention.valueLimit := by
  have hvalue := h.value key hkey
  rw [hd] at hvalue
  rcases hasOf with hnone | hle
  · rw [hnone key hkey] at hvalue
    simp at hvalue
  · have hsince := h.fresh key hkey deposit hd
    rw [Cell.age]
    omega

/-- A sweep leaves it as it is. -/
theorem swept (h : Inbox keys since f t) (hhosts : t.Hosts crowd queue) {asOf : Int}
    (hasOf : Outlasts keys since f t asOf) : Inbox keys since f (t.sweep asOf).1 := by
  have hsame (key : String) (hkey : keys key) :=
    Table.valueAt?_sweep hhosts fun _ hd => h.age_le hasOf hkey hd
  constructor
  case value => exact fun key hkey => (congrArg _ (hsame key hkey)).trans (h.value key hkey)
  case fresh =>
    exact fun key hkey deposit hd => h.fresh key hkey deposit ((hsame key hkey).symm.trans hd)
  case reach =>
    intro c hc hkey
    rcases ((Table.sweptFrom_sweep t asOf).mem_aside c).mp hc with hc | ⟨hc, hexpired, -⟩
    · exact h.reach c hc hkey
    · unfold Cell.isExpired at hexpired
      split at hexpired
      next deposit hslot =>
        have hle := h.age_le hasOf hkey (hhosts.valueAt?_eq_some_iff.mpr ⟨c, hc, rfl, hslot⟩)
        exact Nat.not_lt.mpr hle (of_decide_eq_true hexpired)
      next => exact Bool.false_ne_true hexpired

/-- What changes only the values of some keys can be told of each key on its own. -/
theorem of_values (h : Inbox keys since f t) (hhosts : t.Hosts crowd queue) (hfits : d.Fits clock t)
    (hswept : ∀ asOf, d ≠ .swept asOf) (hvalues : ∀ key, keys key →
      ((d.enact clock t).valueAt? key = t.valueAt? key ∧ f' key = f key) ∨
      (∃ deposit, (d.enact clock t).valueAt? key = some deposit ∧ since ≤ deposit.time ∧
        f' key = some deposit.value) ∨
      ((d.enact clock t).valueAt? key = none ∧ f' key = none)) :
    Inbox keys since f' (d.enact clock t) where
  reach c hc := by
    obtain ⟨c', hc', hstem⟩ := (Deed.succeeds hhosts hfits hswept).aside c hc
    rw [hstem.key_eq]
    exact h.reach c' hc'
  value key hkey := by
    rcases hvalues key hkey with ⟨hsame, hf⟩ | ⟨deposit, hd, -, hf⟩ | ⟨hnone, hf⟩
    · rw [hsame, hf, h.value key hkey]
    · rw [hd, hf, Option.map_some]
    · rw [hnone, hf, Option.map_none]
  fresh key hkey deposit hd := by
    rcases hvalues key hkey with ⟨hsame, -⟩ | ⟨deposit', hd', hsince, -⟩ | ⟨hnone, -⟩
    · exact h.fresh key hkey deposit (hsame.symm.trans hd)
    · rw [hd, Option.some.injEq] at hd'
      exact hd' ▸ hsince
    · simp [hnone] at hd

theorem deposited (h : Inbox keys since f t) (hhosts : t.Hosts crowd queue) {a : Acknowledgement}
    (harrives : keys a.key → since ≤ clock.now) :
    Inbox keys since (Function.update f a.key (some a)) (Deed.enact clock t (.deposited a)) := by
  refine h.of_values hhosts trivial (fun _ => by simp) fun key hkey => ?_
  by_cases hak : key = a.key
  · subst hak
    obtain ⟨queue', hhosts'⟩ := Deed.exists_hosts (d := .deposited a) hhosts trivial trivial
    exact .inr (.inl ⟨_, Table.valueAt?_deposit hhosts', harrives hkey, Function.update_self ..⟩)
  · refine .inl ⟨?_, Function.update_of_ne hak _ f⟩
    exact Deed.valueAt?_enact hhosts trivial trivial (fun _ => by simp) (fun heq => hak heq.symm)
      fun b => by simp [Deed.taken?]

/-- What a deed makes of an inbox. -/
theorem enact (h : Inbox keys since f t) (hhosts : t.Hosts crowd queue) (hfits : d.Fits clock t)
    (hadmitted : d.Admitted crowd)
    (harrives : ∀ a, d = .deposited a → keys a.key → since ≤ clock.now)
    (hsweeps : ∀ asOf, d = .swept asOf → Outlasts keys since f t asOf) :
    Inbox keys since (d.effect f) (d.enact clock t) := by
  -- Whoever takes a value leaves nothing there, and all other values stay.
  have hothers (hswept : ∀ asOf, d ≠ .swept asOf) (hbrings : ∀ key, ¬d.Brings key)
      (heffect : d.effect f = (d.taken?).elim f fun e => Function.update f e.1 none) :
      Inbox keys since (d.effect f) (d.enact clock t) := by
    refine h.of_values hhosts hfits hswept fun key hkey => ?_
    rw [heffect]
    by_cases htaken : ∃ a, d.taken? = some (key, a)
    · obtain ⟨a, ha⟩ := htaken
      refine .inr (.inr ⟨Deed.valueAt?_of_taken hhosts hfits hadmitted
        (fun c hc heq => h.reach c hc (heq ▸ hkey)) ha, ?_⟩)
      rw [ha]
      exact Function.update_self key none f
    · refine .inl ⟨Deed.valueAt?_enact hhosts hfits hadmitted hswept (hbrings key)
        (not_exists.mp htaken), ?_⟩
      cases he : d.taken? with
      | none => rfl
      | some e =>
        refine Function.update_of_ne (fun heq => htaken ⟨e.2, ?_⟩) _ f
        rw [he, heq]
  cases d with
  | deposited a => exact h.deposited hhosts (harrives a rfl)
  | swept asOf => exact h.swept hhosts (hsweeps asOf rfl)
  | transmitted transmission report => exact hothers (by simp) (fun _ => id) rfl
  | withdrawn j w => exact hothers (by simp) (fun _ => id) rfl
  | fetched j key limit attempt => exact hothers (by simp) (fun _ => id) rfl
  | resumed j w attempt => exact hothers (by simp) (fun _ => id) rfl

/-! ## What others do -/

section Others

variable {mine : String → Prop} {p : Retention} {es more : List (Clock × Deed)}

/-- Whoever takes a value under one of the keys is the task that they belong to. -/
theorem task?_of_taken (honly : crowd.Only mine id) (hadmitted : d.Admitted crowd)
    (hyields : d.Yields mine id) {key : String} {a : Acknowledgement}
    (htaken : d.taken? = some (key, a)) (hkey : mine key) : d.task? = some id := by
  cases d with
  | fetched j key' limit attempt =>
    have heq : key' = key := by
      rcases attempt with ⟨b | _⟩ | w | w <;> simp_all [Deed.taken?]
    exact congrArg some (hyields (heq ▸ hkey))
  | resumed j w attempt =>
    have heq : w.key = key := by
      rcases attempt with ⟨b | _⟩ | w | w <;> simp_all [Deed.taken?]
    exact congrArg some (honly (j, w) hadmitted (heq ▸ hkey))
  | _ => simp [Deed.taken?] at htaken

theorem only_crowdAfter (hc : Consistent p es) (hyields : ∀ e ∈ es, e.2.Yields mine id) :
    (crowdAfter es).Only mine id := by
  induction es using List.reverseRecOn with
  | nil => exact List.forall_mem_nil _
  | append_singleton es e ih =>
    rw [crowdAfter_concat]
    exact (ih hc.of_append fun e he => hyields e (List.mem_append_left _ he)).reseat
      (hc.fits es e [] rfl) (hc.admitted es e [] rfl)
      (hyields e (List.mem_append_right _ List.mem_cons_self))

theorem retention_replay (hc : Consistent p es) : (replay (.empty p) es).retention = p := by
  induction es using List.reverseRecOn with
  | nil => rfl
  | append_singleton es e ih =>
    rw [replay_concat, Deed.retention_enact (hc.fits es e [] rfl), ih hc.of_append]

variable [DecidablePred mine]

/-- A deed with which the task takes nothing matters only if it brings an acknowledgement. -/
theorem foreign (h : Inbox keys since f t) (hkeys : ∀ key, keys key → mine key)
    (hhosts : t.Hosts crowd queue) (hfits : d.Fits clock t) (hadmitted : d.Admitted crowd)
    (honly : crowd.Only mine id) (hyields : d.Yields mine id)
    (hleaves : d.task? = some id → d.taken? = none)
    (harrives : ∀ a, d.arrival? mine = some a → since ≤ clock.now)
    (hsweeps : ∀ asOf, d = .swept asOf → Outlasts keys since f t asOf) :
    Inbox keys since ((d.arrival? mine).toList.foldl Vigil.post f) (d.enact clock t) := by
  have henact := h.enact hhosts hfits hadmitted (fun a heq hkey =>
    harrives a (by rw [heq, Deed.arrival?, if_pos (hkeys _ hkey)])) hsweeps
  refine henact.congr fun key hkey => ?_
  have hleft : (d.taken?).elim f (fun e => Function.update f e.1 none) key = f key := by
    cases htaken : d.taken? with
    | none => rfl
    | some e =>
      refine Function.update_of_ne (fun heq => ?_) _ f
      have htask := task?_of_taken honly hadmitted hyields htaken (heq ▸ hkeys key hkey)
      simp [hleaves htask] at htaken
  cases d with
  | deposited a =>
    by_cases ha : mine a.key
    · simp only [Deed.arrival?, if_pos ha]
      rfl
    · have hne : key ≠ a.key := fun heq => ha (heq ▸ hkeys key hkey)
      simp only [Deed.arrival?, if_neg ha]
      exact Function.update_of_ne hne _ f
  | _ => exact hleft

/-- Several deeds with which the task takes nothing. -/
theorem foreign_deeds (hkeys : ∀ key, keys key → mine key) (hc : Consistent p (es ++ more))
    (h : Inbox keys since f (replay (.empty p) es))
    (hyields : ∀ e ∈ es ++ more, e.2.Yields mine id)
    (hleaves : ∀ e ∈ more, e.2.task? = some id → e.2.taken? = none)
    (harrives : ∀ e ∈ more, ∀ a, e.2.arrival? mine = some a → since ≤ e.1.now)
    (hsweeps : ∀ e ∈ more, ∀ asOf, e.2 = .swept asOf → asOf ≤ since + p.valueLimit ∨
      ((∀ key, keys key → f key = none) ∧ ∀ e ∈ more, e.2.arrival? mine = none)) :
    Inbox keys since ((more.filterMap fun e => e.2.arrival? mine).foldl Vigil.post f)
      (replay (.empty p) (es ++ more)) := by
  induction more using List.reverseRecOn with
  | nil => simpa using h
  | append_singleton more e ih =>
    rw [← List.append_assoc] at hc hyields ⊢
    have hinit {e' : Clock × Deed} (he : e' ∈ more) : e' ∈ more ++ [e] := List.mem_append_left _ he
    have hlast : e ∈ more ++ [e] := List.mem_append_right _ List.mem_cons_self
    have hbefore := ih hc.of_append (fun e' he => hyields e' (List.mem_append_left _ he))
      (fun e' he => hleaves e' (hinit he)) (fun e' he => harrives e' (hinit he))
      fun e' he asOf heq => (hsweeps e' (hinit he) asOf heq).imp_right
        fun hnone => ⟨hnone.1, fun e' he => hnone.2 e' (hinit he)⟩
    obtain ⟨queue, hhosts⟩ := hc.of_append.hosts
    have honly : (crowdAfter (es ++ more)).Only mine id := only_crowdAfter hc.of_append
      fun e' he => hyields e' (List.mem_append_left _ he)
    rw [replay_concat, List.filterMap_append, List.foldl_append]
    have hone : [e].filterMap (fun e => e.2.arrival? mine) = (e.2.arrival? mine).toList := by
      cases h : e.2.arrival? mine <;> simp [h]
    rw [hone]
    refine hbefore.foreign hkeys hhosts (hc.fits _ e [] rfl) (hc.admitted _ e [] rfl) honly
      (hyields e (List.mem_append_right _ List.mem_cons_self)) (hleaves e hlast) (harrives e hlast)
      fun asOf heq => ?_
    rw [Outlasts, retention_replay hc.of_append]
    refine (hsweeps e hlast asOf heq).symm.imp_left fun hnone => ?_
    rw [List.filterMap_eq_nil_iff.mpr fun e' he => hnone.2 e' (hinit he)]
    exact hnone.1

end Others

/-! ## What the task is told -/

theorem snd_fetch_of_some (h : Inbox keys since f t) {key : String} (hkey : keys key)
    {a : Acknowledgement} (hvalue : f key = some a) (now : Nat) (id : TaskId) (limit : Nat) :
    (t.fetch now id key limit).2 = .ended (.value a) := by
  have hf := h.value key hkey
  rw [hvalue] at hf
  cases htake : t.takeReady? key with
  | none =>
    rw [Table.takeReady?_eq_none_iff.mp htake] at hf
    simp at hf
  | some r =>
    obtain ⟨d, hd, hr⟩ := Table.valueAt?_of_takeReady htake
    rw [hd, Option.map_some, Option.some.injEq] at hf
    rw [Table.fetch, htake, ← hf, hr]

theorem snd_fetch_of_none (h : Inbox keys since f t) {key : String} (hkey : keys key)
    (hvalue : f key = none) (now : Nat) (id : TaskId) (limit : Nat) :
    ∃ cell, (t.fetch now id key limit).2 =
      .entered ⟨key, cell, now, if limit = 0 then none else some (now + limit)⟩ := by
  have hnone := (h.value key hkey).trans hvalue
  rw [Option.map_eq_none_iff, ← Table.takeReady?_eq_none_iff] at hnone
  rw [Table.fetch, hnone]
  exact ⟨_, rfl⟩

section Waits

variable (h : Inbox keys since f t) (hhosts : t.Hosts crowd queue) (hw : (id, w) ∈ crowd)
  (hkey : keys w.key)

include h hhosts hw hkey

theorem slot_of_wait : ∃ c, t.cell? w.cell = some c ∧ c.slot.map Deposit.value = f w.key ∧
    (id ∈ c.sleepers ∨ id ∈ queue) := by
  obtain ⟨c, hc, hslot, hs⟩ := hhosts.slot_of_wait hw fun c hc heq => h.reach c hc (heq ▸ hkey)
  exact ⟨c, hc, by rw [hslot, h.value _ hkey], hs⟩

theorem snd_resume_of_some {a : Acknowledgement} (hvalue : f w.key = some a) (clock : Clock) :
    (t.resume clock id w).2 = .ended (.value a) := by
  obtain ⟨c, hc, hslot, -⟩ := h.slot_of_wait hhosts hw hkey
  rw [hvalue, Option.map_eq_some_iff] at hslot
  obtain ⟨d, hd, rfl⟩ := hslot
  have htake : t.takeAwaited? w.cell = some (d.value,
      if c.waiters ≤ 1 then t.remove w.cell else t.change w.cell Cell.clear) := by
    simp [Table.takeAwaited?, hc, hd]
  rw [Table.resume, htake]

theorem snd_resume_of_none (hvalue : f w.key = none) (clock : Clock) :
    (t.resume clock id w).2 = if w.deadline.any (· ≤ clock.rung) then
      .ended (.timeout w.key (clock.now - w.startedAt)) else .waiting w := by
  obtain ⟨c, hc, hslot, -⟩ := h.slot_of_wait hhosts hw hkey
  rw [hvalue, Option.map_eq_none_iff] at hslot
  have htake : t.takeAwaited? w.cell = none := Table.takeAwaited?_eq_none.mpr fun c' hc' => by
    rw [← Option.some.inj (hc.symm.trans hc'), hslot]
  rw [Table.resume, htake]
  exact apply_ite Prod.snd _ _ _

/-- Whoever waits for something that lies there is called. -/
theorem mem_queue {a : Acknowledgement} (hvalue : f w.key = some a) : id ∈ queue := by
  obtain ⟨c, hc, hslot, hs⟩ := h.slot_of_wait hhosts hw hkey
  have hhas : c.hasValue = true := by
    rw [Cell.hasValue, ← Option.isSome_map, hslot, hvalue]
    rfl
  rw [hhosts.awake c (Table.cell?_eq_some hc).1 hhas] at hs
  exact hs.resolve_left List.not_mem_nil

end Waits

end Inbox
end EbmsMessaging
