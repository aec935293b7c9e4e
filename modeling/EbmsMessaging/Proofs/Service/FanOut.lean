import EbmsMessaging.Service.Basic
import Mathlib.Data.List.Basic

/-!
# Every handler gets every message

What is registered is what was ever registered, less the first occurrence of every name that was taken
back. A delivery goes through the handlers that it found, from the first to the last, and nothing that
they do on the way changes whom it goes to: not their failures, and not the handlers that they register
or deregister, which count from the next message on.
-/
namespace EbmsMessaging

namespace Registry

/-! ## Registrations and withdrawals -/

theorem deregister_eq (r : Registry) (name : String) :
    r.deregister name = (decide (name ∈ r), r.erase name) := by
  rw [deregister, List.erase_eq_eraseIdx]
  cases h : r.idxOf? name with
  | none => simp [List.idxOf?_eq_none_iff.mp h]
  | some i =>
    have hmem : name ∈ r := by
      by_contra hnot
      rw [List.idxOf?_eq_none_iff.mpr hnot] at h
      exact nomatch h
    simp [hmem]

/-- The names that were registered, in order. -/
def registrations : List RegistryChange → List String
  | [] => []
  | .register name :: cs => name :: registrations cs
  | .deregister _ :: cs => registrations cs

/-- The names that were taken back, in order: those whose deregistration was answered with `true`. -/
def withdrawals (r : Registry) : List RegistryChange → List String
  | [] => []
  | .register name :: cs => withdrawals (r.register name) cs
  | .deregister name :: cs =>
    let (removed, r) := r.deregister name
    if removed then name :: withdrawals r cs else withdrawals r cs

/-- Taking a name back removes its first occurrence, and is answered with `false` if there is none. -/
theorem deregister_cases (r : Registry) (name : String) :
    (name ∉ r ∧ r.deregister name = (false, r)) ∨
      ∃ front back, r = front ++ name :: back ∧ name ∉ front ∧
        r.deregister name = (true, front ++ back) := by
  rw [deregister_eq]
  by_cases h : name ∈ r
  · obtain ⟨front, back, hfront, hr, herase⟩ := List.exists_erase_eq h
    exact .inr ⟨front, back, hr, hfront, by rw [herase, decide_eq_true h]⟩
  · exact .inl ⟨h, by rw [List.erase_of_not_mem h, decide_eq_false h]⟩

example : Registry.deregister ["a", "b", "a"] "a" = (true, ["b", "a"]) := by decide

/-- Names that are registered later stand behind, so it makes no difference that they are not there
yet when a name is taken back. -/
theorem foldl_change (cs : List RegistryChange) (r : Registry) :
    cs.foldl change r = (r ++ registrations cs).diff (withdrawals r cs) := by
  induction cs generalizing r with
  | nil => simp [registrations, withdrawals]
  | cons c cs ih =>
    rw [List.foldl_cons, ih]
    cases c with
    | register name => simp [change, register, registrations, withdrawals]
    | deregister name =>
      by_cases h : name ∈ r
      · simp [change, registrations, withdrawals, deregister_eq, h, List.diff_cons,
          List.erase_append_left]
      · simp [change, registrations, withdrawals, deregister_eq, h, List.erase_of_not_mem]

/-- Each registration stands in the list until it is taken back. -/
theorem count_foldl_change (cs : List RegistryChange) (r : Registry) (name : String) :
    (cs.foldl change r).count name + (withdrawals r cs).count name =
      r.count name + (registrations cs).count name := by
  induction cs generalizing r with
  | nil => simp [registrations, withdrawals]
  | cons c cs ih =>
    rw [List.foldl_cons]
    have ih := ih (r.change c)
    cases c with
    | register other =>
      simp only [change, register, registrations, withdrawals, List.count_append,
        List.count_cons, List.count_nil] at ih ⊢
      omega
    | deregister other =>
      by_cases h : other ∈ r
      · have hpos : 0 < r.count other := List.count_pos_iff.mpr h
        simp only [change, registrations, withdrawals, deregister_eq, h, decide_true, if_true,
          List.count_erase, List.count_cons, beq_iff_eq] at ih ⊢
        split_ifs at ih ⊢ with hname
        · subst hname
          omega
        · omega
      · simpa [change, registrations, withdrawals, deregister_eq, h, List.erase_of_not_mem] using ih

/-! ## One delivery -/

section Delivery

variable {ω : Type} (acts : HandlerActs ω) (m : BusinessMessage)

/-- What is registered, and the handlers' own state, once some handlers have been called. -/
def afterCalls (names : List String) (s : Registry × ω) : Registry × ω :=
  names.foldl (fun s name =>
    let (deed, w) := acts name m s.1 s.2
    (deed.changes.foldl change s.1, w)) s

/-- What handlers do that are called one after the other: each of them acts on the message under what
the ones before it left. -/
def deeds (names : List String) (s : Registry × ω) : List HandlerDeed :=
  names.mapIdx fun i name =>
    let t := afterCalls acts m (names.take i) s
    (acts name m t.1 t.2).1

/-- All changes that these handlers make, in order. -/
def changesIn (names : List String) (s : Registry × ω) : List RegistryChange :=
  (deeds acts m names s).flatMap fun deed => deed.changes

theorem deeds_cons (name : String) (names : List String) (r : Registry) (w : ω) :
    deeds acts m (name :: names) (r, w) =
      (acts name m r w).1 :: deeds acts m names (afterCalls acts m [name] (r, w)) := by
  simp [deeds, afterCalls, List.mapIdx_cons]

theorem callAll_eq (names : List String) (r : Registry) (w : ω) :
    callAll acts m names r w =
      (names.map (fun name => ⟨name, m⟩),
        (deeds acts m names (r, w)).filterMap fun deed => deed.failure,
        afterCalls acts m names (r, w)) := by
  induction names generalizing r w with
  | nil => rfl
  | cons name names ih =>
    simp only [callAll, ih, deeds_cons]
    cases h : (acts name m r w).1.failure <;> simp [afterCalls, h]

theorem fst_afterCalls (names : List String) (s : Registry × ω) :
    (afterCalls acts m names s).1 = (changesIn acts m names s).foldl change s.1 := by
  obtain ⟨r, w⟩ := s
  induction names generalizing r w with
  | nil => rfl
  | cons name names ih =>
    rw [changesIn, deeds_cons, List.flatMap_cons, List.foldl_append]
    exact ih _ _

/-- A delivery that does what it should: the handlers that it finds are called once for each
registration, in order, with the message, and it counts them and the ones among them that fail. -/
structure FansOut (r : Registry) (w : ω) (d : Delivery ω) : Prop where
  handlers : d.handlers = r.length
  calls : d.calls = r.map fun name => ⟨name, m⟩
  failures : d.failures = (deeds acts m r (r, w)).filterMap fun deed => deed.failure
  count : d.failures.length = (deeds acts m r (r, w)).countP fun deed => deed.failure.isSome
  registry : d.registry = (changesIn acts m r (r, w)).foldl change r

theorem fansOut_deliver (r : Registry) (w : ω) : FansOut acts m r w (r.deliver acts m w) := by
  simp only [deliver, callAll_eq]
  constructor
  · rfl
  · rfl
  · rfl
  · exact List.length_filterMap_eq_countP
  · exact fst_afterCalls acts m r (r, w)

end Delivery

/-! ## Histories -/

section History

variable {ω : Type}

/-- What happens to what is registered: a change from outside, or a delivery to handlers that act in
some way, beginning in some state of their own. -/
inductive Happening (ω : Type) where
  | change (c : RegistryChange)
  | delivery (acts : HandlerActs ω) (m : BusinessMessage) (w : ω)

def happen (r : Registry) : Happening ω → Registry
  | .change c => r.change c
  | .delivery acts m w => (r.deliver acts m w).registry

def madeBy (r : Registry) : Happening ω → List RegistryChange
  | .change c => [c]
  | .delivery acts m w => changesIn acts m r (r, w)

/-- All changes of a history in order, those that handlers made included. -/
def history (r : Registry) : List (Happening ω) → List RegistryChange
  | [] => []
  | h :: hs => r.madeBy h ++ history (r.happen h) hs

theorem happen_eq (r : Registry) (h : Happening ω) :
    r.happen h = (r.madeBy h).foldl change r := by
  cases h with
  | change c => rfl
  | delivery acts m w => exact (fansOut_deliver acts m r w).registry

theorem foldl_happen (hs : List (Happening ω)) (r : Registry) :
    hs.foldl happen r = (history r hs).foldl change r := by
  induction hs generalizing r with
  | nil => rfl
  | cons h hs ih => rw [List.foldl_cons, ih, history, List.foldl_append, happen_eq]

end History

end Registry

namespace Service

variable (s : Service)

def registry : Registry := s.state.intake.handlers.registered

/-- What a business message does to the handlers of a service, and what is answered. -/
structure Informs (m : ReceivedMessage) (d : Delivery KnownHandlers) : Prop where
  fansOut : Registry.FansOut KnownHandlers.acts m.message s.registry s.state.intake.handlers.known d
  answer : (s.receive (.ok (.message m))).1 =
    .delivered m.messageId d.handlers d.failures.length
  calls : (s.receive (.ok (.message m))).2.state.intake.calls = s.state.intake.calls ++ d.calls
  registry : (s.receive (.ok (.message m))).2.registry = d.registry

theorem informs (m : ReceivedMessage) :
    s.Informs m (s.state.intake.handlers.deliver m.message) :=
  ⟨Registry.fansOut_deliver .., rfl, rfl, rfl⟩

/-- How a service takes the changes of its handlers that are asked of it. -/
structure TakesChanges : Prop where
  register : ∀ name behaviour,
    (s.register name behaviour).registry = s.registry.change (.register name)
  deregister : ∀ name, (s.deregister name).2.registry = s.registry.change (.deregister name)
  answer : ∀ name, (s.deregister name).1 = (s.registry.deregister name).1

theorem takesChanges : s.TakesChanges :=
  ⟨fun _ _ => rfl, fun _ => rfl, fun _ => rfl⟩

end Service

open Registry in
/-- Whatever was registered and deregistered, from outside and by handlers while messages came: what is
registered is what was ever registered, less the first occurrence of each name that was taken back. A
message goes to all of it, whatever the handlers do, and what they change is there for the next message.
A service keeps what is registered in this way and answers by what the delivery counted. -/
theorem message_goes_to_registered_handlers :
    (∀ (ω : Type) (hs : List (Happening ω)),
      let r : Registry := hs.foldl happen []
      let cs := history [] hs
      r = (registrations cs).diff (withdrawals [] cs) ∧
      (∀ name, r.count name + (withdrawals [] cs).count name = (registrations cs).count name) ∧
      (∀ name, (name ∉ r ∧ r.deregister name = (false, r)) ∨
        ∃ front back, r = front ++ name :: back ∧ name ∉ front ∧
          r.deregister name = (true, front ++ back)) ∧
      ∀ (acts : HandlerActs ω) (m : BusinessMessage) (w : ω),
        FansOut acts m r w (r.deliver acts m w) ∧
        ∀ (acts' : HandlerActs ω) (m' : BusinessMessage) (w' : ω),
          ((r.deliver acts m w).registry.deliver acts' m' w').calls =
            ((changesIn acts m r (r, w)).foldl change r).map fun name => ⟨name, m'⟩) ∧
    ∀ s : Service, s.TakesChanges ∧
      ∀ m, s.Informs m (s.state.intake.handlers.deliver m.message) := by
  refine ⟨fun ω hs => ?_, fun s => ⟨s.takesChanges, s.informs⟩⟩
  intro r cs
  have hr : r = cs.foldl change [] := foldl_happen hs []
  refine ⟨?_, ?_, r.deregister_cases, ?_⟩
  · rw [hr, foldl_change, List.nil_append]
  · intro name
    have hcount := count_foldl_change cs [] name
    rwa [← hr, List.count_nil, Nat.zero_add] at hcount
  · intro acts m w
    have hout := fansOut_deliver acts m r w
    refine ⟨hout, fun acts' m' w' => ?_⟩
    rw [(fansOut_deliver ..).calls, hout.registry]

end EbmsMessaging
