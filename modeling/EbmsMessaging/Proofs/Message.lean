import EbmsMessaging.Message

/-!
# Messages that can be built

A draft becomes a message when it names all four identifiers and its payloads can stand side by
side. Whoever goes through a list and remembers the names that were seen finds out whether a name
comes twice.
-/
namespace EbmsMessaging

/-- Things whose names come once and were not seen before. -/
def Fresh {α : Type} (name : α → String) (seen : List String) (xs : List α) : Prop :=
  (xs.map name).Nodup ∧ ∀ x ∈ xs, name x ∉ seen

section Fresh

variable {α : Type} {name : α → String} {x : α} {xs : List α} {seen : List String}

theorem fresh_nil : Fresh name [] xs ↔ (xs.map name).Nodup :=
  and_iff_left fun _ _ => List.not_mem_nil

/-- One after the other, each name is new and then seen. -/
theorem fresh_cons :
    Fresh name seen (x :: xs) ↔ name x ∉ seen ∧ Fresh name (name x :: seen) xs := by
  constructor
  · rintro ⟨hnodup, hseen⟩
    obtain ⟨hnew, hnodup⟩ := List.nodup_cons.mp hnodup
    obtain ⟨hx, hseen⟩ := List.forall_mem_cons.mp hseen
    refine ⟨hx, hnodup, fun y hy hmem => ?_⟩
    rcases List.mem_cons.mp hmem with heq | hmem
    · exact hnew (heq ▸ List.mem_map_of_mem hy)
    · exact hseen y hy hmem
  · rintro ⟨hx, hnodup, hseen⟩
    have hnew : name x ∉ xs.map name := by
      intro hmem
      obtain ⟨y, hy, heq⟩ := List.mem_map.mp hmem
      exact hseen y hy (heq ▸ List.mem_cons_self)
    refine ⟨List.nodup_cons.mpr ⟨hnew, hnodup⟩, List.forall_mem_cons.mpr ⟨hx, ?_⟩⟩
    intro y hy hmem
    exact hseen y hy (List.mem_cons_of_mem _ hmem)

end Fresh

/-- Payloads that can stand side by side in a message. -/
structure Payload.Compatible (ps : List Payload) : Prop where
  contentId_ne : ∀ p ∈ ps, p.contentId ≠ ""
  mimeType_ne : ∀ p ∈ ps, p.mimeType ≠ ""
  nodup : (ps.map Payload.contentId).Nodup

namespace MessageDraft

open Payload (Compatible)

theorem payloadFault?_eq_none {seen : List String} {ps : List Payload} :
    payloadFault? seen ps = none ↔ (∀ p ∈ ps, p.contentId ≠ "") ∧ (∀ p ∈ ps, p.mimeType ≠ "") ∧
      Fresh Payload.contentId seen ps := by
  induction ps generalizing seen with
  | nil => simp [payloadFault?, Fresh]
  | cons p ps ih =>
    rw [payloadFault?, fresh_cons, List.forall_mem_cons, List.forall_mem_cons]
    by_cases hid : p.contentId = ""
    · simp [hid]
    by_cases hmime : p.mimeType = ""
    · simp [hid, hmime]
    by_cases hseen : p.contentId ∈ seen
    · simp [hid, hmime, hseen]
    rw [if_neg hid, if_neg hmime, if_neg hseen, ih]
    simp [hid, hmime, hseen]

theorem payloadFault?_nil_eq_none {ps : List Payload} :
    payloadFault? [] ps = none ↔ Compatible ps := by
  rw [payloadFault?_eq_none, fresh_nil]
  constructor
  · rintro ⟨hids, hmimes, hnodup⟩
    exact ⟨hids, hmimes, hnodup⟩
  · intro h
    exact ⟨h.contentId_ne, h.mimeType_ne, h.nodup⟩

/-- Behind payloads that can stand side by side the next ones are looked at, with the names of those
before them seen. -/
theorem payloadFault?_append {seen : List String} {before : List Payload}
    (h : payloadFault? seen before = none) (after : List Payload) :
    payloadFault? seen (before ++ after) =
      payloadFault? ((before.map Payload.contentId).reverse ++ seen) after := by
  induction before generalizing seen with
  | nil => rfl
  | cons p ps ih =>
    rw [payloadFault?] at h
    rw [List.cons_append, payloadFault?]
    by_cases hid : p.contentId = ""
    · simp [hid] at h
    by_cases hmime : p.mimeType = ""
    · simp [hid, hmime] at h
    by_cases hseen : p.contentId ∈ seen
    · simp [hid, hmime, hseen] at h
    rw [if_neg hid, if_neg hmime, if_neg hseen] at h ⊢
    rw [ih h]
    simp

/-- A message is built exactly from a draft that says the same and has payloads to send. -/
theorem build_eq_ok {d : MessageDraft} {m : BusinessMessage} :
    d.build = .ok m ↔
      d = ⟨some m.sender, some m.receiver, some m.documentType, some m.process, m.payloads⟩ ∧
        m.payloads ≠ [] ∧ Compatible m.payloads := by
  constructor
  · intro h
    unfold build at h
    split at h
    · exact absurd h (by simp)
    · exact absurd h (by simp)
    · exact absurd h (by simp)
    · exact absurd h (by simp)
    · next sender receiver documentType process hsender hreceiver htype hprocess =>
      by_cases hpayloads : d.payloads = []
      · simp [hpayloads] at h
      rw [if_neg hpayloads] at h
      cases hfault : payloadFault? [] d.payloads with
      | some e => simp [hfault] at h
      | none =>
        rw [hfault] at h
        obtain rfl := Except.ok.inj h
        refine ⟨?_, hpayloads, payloadFault?_nil_eq_none.mp hfault⟩
        rw [← hsender, ← hreceiver, ← htype, ← hprocess]
  · rintro ⟨rfl, hpayloads, hcompatible⟩
    have hfault := payloadFault?_nil_eq_none.mpr hcompatible
    simp only [build, if_neg hpayloads, hfault]

end MessageDraft
end EbmsMessaging
