import EbmsMessaging.Proofs.Message
import Mathlib.Data.List.Induction
import Mathlib.Data.List.Nodup

/-!
# What a draft amounts to

A draft is made by calls, in any order and number. What it amounts to is told by the calls alone: the
identifier that was named last in each role, and the payloads in the order in which they were added.
Either these make a message, or the first thing that is wrong with them is reported.
-/
namespace EbmsMessaging

/-- The roles, in the order in which they are looked at. -/
def MessageRole.all : List MessageRole := [sender, receiver, documentType, process]

theorem MessageRole.mem_all (role : MessageRole) : role ∈ all := by cases role <;> decide

/-- The identifier in a role. -/
def BusinessMessage.identifier (m : BusinessMessage) : MessageRole → Identifier
  | .sender => m.sender
  | .receiver => m.receiver
  | .documentType => m.documentType
  | .process => m.process

namespace MessageDraft

open Payload (Compatible)

inductive Call where
  | set (role : MessageRole) (i : Identifier)
  | add (p : Payload)
deriving DecidableEq, Repr

def call (d : MessageDraft) : Call → MessageDraft
  | .set role i => d.set role i
  | .add p => d.add p

/-- The draft after some calls. -/
def ofCalls (calls : List Call) : MessageDraft := calls.foldl call empty

/-- What a call names in a role. -/
def Call.identifier? (role : MessageRole) : Call → Option Identifier
  | set role' i => if role' = role then some i else none
  | add _ => none

def Call.payload? : Call → Option Payload
  | set _ _ => none
  | add p => some p

/-- The identifier that was named last in a role. -/
def lastNamed? (calls : List Call) (role : MessageRole) : Option Identifier :=
  calls.reverse.findSome? fun c => c.identifier? role

/-- The payloads that were added, in order. -/
def added (calls : List Call) : List Payload := calls.filterMap Call.payload?

/-- The identifier of a draft in a role. -/
def identifier? (d : MessageDraft) : MessageRole → Option Identifier
  | .sender => d.sender
  | .receiver => d.receiver
  | .documentType => d.documentType
  | .process => d.process

theorem identifier?_set (d : MessageDraft) (role role' : MessageRole) (i : Identifier) :
    (d.set role i).identifier? role' = if role = role' then some i else d.identifier? role' := by
  cases role <;> cases role' <;> rfl

theorem payloads_set (d : MessageDraft) (role : MessageRole) (i : Identifier) :
    (d.set role i).payloads = d.payloads := by cases role <;> rfl

theorem lastNamed?_concat (calls : List Call) (c : Call) (role : MessageRole) :
    lastNamed? (calls ++ [c]) role = (c.identifier? role).or (lastNamed? calls role) := by
  rw [lastNamed?, List.reverse_append, List.reverse_singleton, List.singleton_append,
    List.findSome?_cons, ← lastNamed?]
  cases c.identifier? role <;> rfl

/-- A draft tells what was called. -/
theorem ofCalls_eq (calls : List Call) :
    (∀ role, (ofCalls calls).identifier? role = lastNamed? calls role) ∧
      (ofCalls calls).payloads = added calls := by
  induction calls using List.reverseRecOn with
  | nil => exact ⟨fun role => by cases role <;> rfl, rfl⟩
  | append_singleton calls c ih =>
    obtain ⟨hids, hpayloads⟩ := ih
    have hconcat : ofCalls (calls ++ [c]) = (ofCalls calls).call c := by
      rw [ofCalls, List.foldl_append]
      rfl
    rw [hconcat, added, List.filterMap_append, ← added, ← hpayloads]
    cases c with
    | set role i =>
      refine ⟨fun role' => ?_, (payloads_set _ role i).trans (List.append_nil _).symm⟩
      rw [call, identifier?_set, hids, lastNamed?_concat, Call.identifier?]
      split <;> rfl
    | add p =>
      refine ⟨fun role => ?_, rfl⟩
      rw [lastNamed?_concat, ← hids]
      cases role <;> rfl

/-! ## What is wrong with payloads -/

/-- What is wrong with a payload behind others. Of several things that are wrong with it the first one
here is reported. -/
inductive Unusable (before : List Payload) (p : Payload) : MessageError → Prop where
  | unnamed (h : p.contentId = "") : Unusable before p .emptyContentId
  | untyped (hid : p.contentId ≠ "") (h : p.mimeType = "") :
    Unusable before p (.emptyMimeType p.contentId)
  | repeated (hid : p.contentId ≠ "") (hmime : p.mimeType ≠ "")
    (h : p.contentId ∈ before.map Payload.contentId) :
    Unusable before p (.duplicateContentId p.contentId)

section Payloads

variable {before ps : List Payload} {p : Payload} {e : MessageError} {seen : List String}

theorem compatible_concat_iff : Compatible (before ++ [p]) ↔ Compatible before ∧ p.contentId ≠ "" ∧
    p.mimeType ≠ "" ∧ p.contentId ∉ before.map Payload.contentId := by
  constructor
  · rintro ⟨hids, hmimes, hnodup⟩
    obtain ⟨hids, hid⟩ := List.forall_mem_append.mp hids
    obtain ⟨hmimes, hmime⟩ := List.forall_mem_append.mp hmimes
    rw [List.map_append, List.map_singleton, ← List.concat_eq_append, List.nodup_concat] at hnodup
    exact ⟨⟨hids, hmimes, hnodup.2⟩, hid p List.mem_cons_self, hmime p List.mem_cons_self, hnodup.1⟩
  · rintro ⟨hbefore, hid, hmime, hnew⟩
    refine ⟨?_, ?_, ?_⟩
    · exact List.forall_mem_append.mpr ⟨hbefore.contentId_ne, List.forall_mem_singleton.mpr hid⟩
    · exact List.forall_mem_append.mpr ⟨hbefore.mimeType_ne, List.forall_mem_singleton.mpr hmime⟩
    · rw [List.map_append, List.map_singleton, ← List.concat_eq_append, List.nodup_concat]
      exact ⟨hnew, hbefore.nodup⟩

theorem Unusable.not_compatible (h : Unusable before p e) : ¬Compatible (before ++ [p]) := by
  rw [compatible_concat_iff]
  rintro ⟨-, hid, hmime, hnew⟩
  cases h with
  | unnamed h => exact hid h
  | untyped _ h => exact hmime h
  | repeated _ _ h => exact hnew h

/-- Behind payloads that can stand side by side one more can stand too, or there is something to report
of it. -/
theorem compatible_or_unusable (h : Compatible before) (p : Payload) :
    Compatible (before ++ [p]) ∨ ∃ e, Unusable before p e := by
  by_cases hid : p.contentId = ""
  · exact .inr ⟨_, .unnamed hid⟩
  by_cases hmime : p.mimeType = ""
  · exact .inr ⟨_, .untyped hid hmime⟩
  by_cases hseen : p.contentId ∈ before.map Payload.contentId
  · exact .inr ⟨_, .repeated hid hmime hseen⟩
  · exact .inl (compatible_concat_iff.mpr ⟨h, hid, hmime, hseen⟩)

theorem Unusable.payloadFault?_cons (h : Unusable before p e)
    (hseen : ∀ name, name ∈ seen ↔ name ∈ before.map Payload.contentId) (ps : List Payload) :
    payloadFault? seen (p :: ps) = some e := by
  rw [payloadFault?]
  cases h with
  | unnamed h => rw [if_pos h]
  | untyped hid h => rw [if_neg hid, if_pos h]
  | repeated hid hmime h => rw [if_neg hid, if_neg hmime, if_pos ((hseen _).mpr h)]

/-- A payload that can stand behind the others is passed over, and its name is seen. -/
theorem payloadFault?_cons_of_compatible (h : Compatible (before ++ [p]))
    (hseen : ∀ name, name ∈ seen ↔ name ∈ before.map Payload.contentId) (ps : List Payload) :
    payloadFault? seen (p :: ps) = payloadFault? (p.contentId :: seen) ps := by
  obtain ⟨-, hid, hmime, hnew⟩ := compatible_concat_iff.mp h
  rw [payloadFault?, if_neg hid, if_neg hmime, if_neg (mt (hseen _).mp hnew)]

/-- What is reported is wrong with the first payload that cannot stand behind those before it. -/
theorem exists_unusable (h : Compatible before)
    (hseen : ∀ name, name ∈ seen ↔ name ∈ before.map Payload.contentId)
    (hfault : payloadFault? seen ps = some e) : ∃ more p after, ps = more ++ p :: after ∧
      Compatible (before ++ more) ∧ Unusable (before ++ more) p e := by
  induction ps generalizing before seen with
  | nil => simp [payloadFault?] at hfault
  | cons p ps ih =>
    rcases compatible_or_unusable h p with hp | ⟨e', he'⟩
    · rw [payloadFault?_cons_of_compatible hp hseen] at hfault
      obtain ⟨more, q, after, rfl, hmore, hq⟩ := ih hp (fun name => by simp [hseen, or_comm]) hfault
      rw [List.append_assoc, List.singleton_append] at hmore hq
      exact ⟨p :: more, q, after, rfl, hmore, hq⟩
    · obtain rfl := Option.some.inj ((he'.payloadFault?_cons hseen ps).symm.trans hfault)
      rw [← List.append_nil before] at h he'
      exact ⟨[], p, ps, rfl, h, he'⟩

theorem payloadFault?_nil_eq_some : payloadFault? [] ps = some e ↔ ∃ before p after,
    ps = before ++ p :: after ∧ Compatible before ∧ Unusable before p e := by
  constructor
  · intro hfault
    have hempty : Compatible [] := ⟨by simp, by simp, List.nodup_nil⟩
    exact exists_unusable hempty (by simp) hfault
  · rintro ⟨before, p, after, rfl, hbefore, he⟩
    rw [payloadFault?_append (payloadFault?_nil_eq_none.mpr hbefore)]
    exact he.payloadFault?_cons (by simp) after

/-- Among payloads that can stand side by side just one is found under a name, if it is there. -/
theorem find?_eq_filter (h : Compatible ps) (contentId : String) :
    (ps.find? fun p => p.contentId = contentId).toList =
      ps.filter fun p => p.contentId = contentId := by
  obtain ⟨-, -, hnodup⟩ := h
  induction ps with
  | nil => rfl
  | cons p ps ih =>
    obtain ⟨hnew, hnodup⟩ := List.nodup_cons.mp hnodup
    rw [List.find?_cons, List.filter_cons]
    by_cases hp : p.contentId = contentId
    · have hnone : ps.filter (fun q => q.contentId = contentId) = [] := by
        refine List.filter_eq_nil_iff.mpr fun q hq heq => hnew ?_
        rw [hp, ← of_decide_eq_true heq]
        exact List.mem_map_of_mem hq
      simp [hp, hnone]
    · simpa [hp] using ih hnodup

end Payloads

/-! ## Messages and refusals -/

/-- The calls have named everything, and the payloads can stand side by side. -/
structure Complete (calls : List Call) : Prop where
  named : ∀ role, (lastNamed? calls role).isSome
  payloads_ne : added calls ≠ []
  compatible : Compatible (added calls)

/-- The message is the one that the calls describe. -/
structure Holds (calls : List Call) (m : BusinessMessage) : Prop where
  identifiers : ∀ role, lastNamed? calls role = some (m.identifier role)
  payloads : m.payloads = added calls
  /-- Under a content identifier all payloads that have it are found, which is one at most. -/
  lookup : ∀ contentId, (m.payload? contentId).toList =
    m.payloads.filter fun p => p.contentId = contentId

/-- Why the calls come to no message. -/
inductive Refused (calls : List Call) : MessageError → Prop where
  | missing {role : MessageRole} (h : MessageRole.all.find? (fun r => lastNamed? calls r = none) =
      some role) : Refused calls (.missingIdentifier role)
  | noPayloads (hnamed : ∀ role, (lastNamed? calls role).isSome) (h : added calls = []) :
    Refused calls .noPayloads
  | payload {before after : List Payload} {p : Payload} {e : MessageError}
    (hnamed : ∀ role, (lastNamed? calls role).isSome) (hsplit : added calls = before ++ p :: after)
    (hbefore : Compatible before) (hfirst : ¬Compatible (before ++ [p]))
    (h : Unusable before p e) : Refused calls e

section Build

variable {d : MessageDraft} {calls : List Call}

theorem build_of_missing {role : MessageRole}
    (h : MessageRole.all.find? (fun r => d.identifier? r = none) = some role) :
    d.build = .error (.missingIdentifier role) := by
  obtain ⟨sender, receiver, documentType, process, payloads⟩ := d
  cases sender with
  | none =>
    obtain rfl := Option.some.inj h
    rfl
  | some sender =>
    cases receiver with
    | none =>
      obtain rfl := Option.some.inj h
      rfl
    | some receiver =>
      cases documentType with
      | none =>
        obtain rfl := Option.some.inj h
        rfl
      | some documentType =>
        cases process with
        | none =>
          obtain rfl := Option.some.inj h
          rfl
        | some process => simp [MessageRole.all, identifier?] at h

/-- Once all identifiers are there the payloads decide. -/
theorem build_of_named (h : ∀ role, (d.identifier? role).isSome) : ∃ m : BusinessMessage,
    (∀ role, d.identifier? role = some (m.identifier role)) ∧ m.payloads = d.payloads ∧
      d.build = if d.payloads = [] then .error .noPayloads
        else match payloadFault? [] d.payloads with
          | some e => .error e
          | none => .ok m := by
  obtain ⟨sender, hsender⟩ := Option.isSome_iff_exists.mp (h .sender)
  obtain ⟨receiver, hreceiver⟩ := Option.isSome_iff_exists.mp (h .receiver)
  obtain ⟨documentType, htype⟩ := Option.isSome_iff_exists.mp (h .documentType)
  obtain ⟨process, hprocess⟩ := Option.isSome_iff_exists.mp (h .process)
  refine ⟨⟨sender, receiver, documentType, process, d.payloads⟩, fun role => ?_, rfl, ?_⟩
  · cases role <;> assumption
  · simp only [identifier?] at hsender hreceiver htype hprocess
    have hdraft : d = ⟨some sender, some receiver, some documentType, some process, d.payloads⟩ := by
      rw [← hsender, ← hreceiver, ← htype, ← hprocess]
    exact congrArg build hdraft

theorem Complete.build_eq (h : Complete calls) :
    ∃ m, (ofCalls calls).build = .ok m ∧ Holds calls m := by
  obtain ⟨hids, hpayloads⟩ := ofCalls_eq calls
  obtain ⟨m, hm, hcontent, hbuild⟩ := build_of_named (d := ofCalls calls) fun role => by
    rw [hids]
    exact h.named role
  rw [hpayloads] at hcontent hbuild
  rw [if_neg h.payloads_ne, payloadFault?_nil_eq_none.mpr h.compatible] at hbuild
  refine ⟨m, hbuild, fun role => (hids role).symm.trans (hm role), hcontent, fun contentId => ?_⟩
  exact find?_eq_filter (hcontent ▸ h.compatible) contentId

theorem Refused.build_eq {e : MessageError} (h : Refused calls e) :
    (ofCalls calls).build = .error e := by
  obtain ⟨hids, hpayloads⟩ := ofCalls_eq calls
  have hnamed (h : ∀ role, (lastNamed? calls role).isSome) (role : MessageRole) :
      ((ofCalls calls).identifier? role).isSome := by
    rw [hids]
    exact h role
  cases h with
  | missing h => exact build_of_missing (by simpa only [hids] using h)
  | noPayloads hall h =>
    obtain ⟨m, -, -, hbuild⟩ := build_of_named (hnamed hall)
    rw [hbuild, hpayloads, if_pos h]
  | payload hall hsplit hbefore _ h =>
    obtain ⟨m, -, -, hbuild⟩ := build_of_named (hnamed hall)
    have hfault := payloadFault?_nil_eq_some.mpr ⟨_, _, _, hsplit, hbefore, h⟩
    rw [hbuild, hpayloads, hfault, hsplit, if_neg (by simp)]

theorem complete_or_refused (calls : List Call) : Complete calls ∨ ∃ e, Refused calls e := by
  cases hmissing : MessageRole.all.find? (fun r => lastNamed? calls r = none) with
  | some role => exact .inr ⟨_, .missing hmissing⟩
  | none =>
    have hnamed (role : MessageRole) : (lastNamed? calls role).isSome :=
      Option.isSome_iff_ne_none.mpr
        (by simpa using List.find?_eq_none.mp hmissing role (MessageRole.mem_all role))
    by_cases hne : added calls = []
    · exact .inr ⟨_, .noPayloads hnamed hne⟩
    cases hfault : payloadFault? [] (added calls) with
    | none => exact .inl ⟨hnamed, hne, payloadFault?_nil_eq_none.mp hfault⟩
    | some e =>
      obtain ⟨before, p, after, hsplit, hbefore, he⟩ := payloadFault?_nil_eq_some.mp hfault
      exact .inr ⟨e, .payload hnamed hsplit hbefore he.not_compatible he⟩

end Build

/-- Whatever was called, in whatever order: a message comes of it exactly if everything was named and the
payloads can stand side by side, and it holds what was called last in each role and all payloads. What is
reported otherwise is the first role without an identifier, or that there are no payloads, or what is
wrong with the first payload that cannot stand behind those before it. -/
theorem drafts_built_or_refused (calls : List Call) :
    ((∃ m, (ofCalls calls).build = .ok m) ↔ Complete calls) ∧
      (∀ m, (ofCalls calls).build = .ok m → Holds calls m) ∧
      ∀ e, (ofCalls calls).build = .error e ↔ Refused calls e := by
  rcases complete_or_refused calls with hcomplete | ⟨e, he⟩
  · obtain ⟨m, hbuild, hholds⟩ := hcomplete.build_eq
    refine ⟨iff_of_true ⟨m, hbuild⟩ hcomplete, fun m' hm' => ?_, fun e => ⟨fun h => ?_, fun h => ?_⟩⟩
    · obtain rfl := Except.ok.inj (hbuild.symm.trans hm')
      exact hholds
    · exact absurd (hbuild.symm.trans h) nofun
    · exact h.build_eq
  · have hbuild := he.build_eq
    refine ⟨⟨fun ⟨m, hm⟩ => ?_, fun h => ?_⟩, fun m hm => ?_, fun e' => ⟨fun h => ?_, fun h => ?_⟩⟩
    · exact absurd (hbuild.symm.trans hm) nofun
    · obtain ⟨m, hm, hholds⟩ := h.build_eq
      exact ⟨m, hm⟩
    · exact absurd (hbuild.symm.trans hm) nofun
    · obtain rfl := Except.error.inj (hbuild.symm.trans h)
      exact he
    · exact h.build_eq

/-- The second payload takes the name of the first one, and has no media type either: that it has none is
reported. -/
example : payloadFault? [] [⟨"text/xml", "order", []⟩, ⟨"", "order", []⟩] =
    some (.emptyMimeType "order") := by decide

end MessageDraft
end EbmsMessaging
