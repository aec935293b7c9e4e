import EbmsMessaging.Envelope.Reading
import EbmsMessaging.Envelope.Writing
import EbmsMessaging.Proofs.Message
import Mathlib.Data.List.Forall2
import Mathlib.Data.List.Nodup

/-!
# Attachments find their references

Attachments may arrive in any order. When each is referred to and none comes twice there is nothing
to complain about, and the payloads come out in the order of the references.
-/
namespace EbmsMessaging

theorem exists_of_mem_left {α β : Type} {r : α → β → Prop} {xs : List α} {ys : List β}
    (h : List.Forall₂ r xs ys) {x : α} (hx : x ∈ xs) : ∃ y ∈ ys, r x y := by
  induction h with
  | nil => simp at hx
  | cons hxy _ ih =>
    rcases List.mem_cons.mp hx with rfl | hx
    · exact ⟨_, List.mem_cons_self, hxy⟩
    · obtain ⟨y, hy, hxy⟩ := ih hx
      exact ⟨y, List.mem_cons_of_mem _ hy, hxy⟩

namespace Envelope

theorem attachmentFault?_eq_none {e : Envelope} {seen : List String} {as : List Attachment} :
    e.attachmentFault? seen as = none ↔
      (∀ a ∈ as, a.contentId ∈ e.contentIds) ∧ Fresh Attachment.contentId seen as := by
  induction as generalizing seen with
  | nil => simp [attachmentFault?, Fresh]
  | cons a as ih =>
    rw [attachmentFault?, fresh_cons, List.forall_mem_cons]
    by_cases hid : a.contentId ∈ e.contentIds
    · by_cases hseen : a.contentId ∈ seen
      · simp [hid, hseen]
      rw [if_neg (not_not_intro hid), if_neg hseen, ih]
      simp [hid, hseen]
    · simp [hid]

/-- Among attachments under different identifiers each is found under its own. -/
theorem find?_contentId {as : List Attachment} (hnodup : (as.map Attachment.contentId).Nodup)
    {a : Attachment} (ha : a ∈ as) :
    (as.find? fun b => b.contentId = a.contentId) = some a := by
  cases hfind : as.find? fun b => b.contentId = a.contentId with
  | none => simpa using List.find?_eq_none.mp hfind a ha
  | some b =>
    have hb := List.mem_of_find?_eq_some hfind
    have heq : b.contentId = a.contentId := by simpa using List.find?_some hfind
    rw [List.inj_on_of_nodup_map hnodup hb ha heq]

/-- The payloads of a message are found again, in whatever order their attachments come. -/
theorem payloads_of_perm {ps : List Payload} (hnodup : (ps.map Payload.contentId).Nodup)
    {as : List Attachment} (hperm : as.Perm (ps.map Payload.attachment)) :
    payloads (ps.map Payload.part) as = .ok ps := by
  induction ps generalizing as with
  | nil => rfl
  | cons p ps ih =>
    obtain ⟨hp, hps⟩ := List.nodup_cons.mp hnodup
    have hids : (as.map Attachment.contentId).Perm ((p :: ps).map Payload.contentId) := by
      have := hperm.map Attachment.contentId
      rwa [List.map_map] at this
    have hfind : (as.find? fun a => a.contentId = p.part.contentId) = some p.attachment := by
      rw [Payload.part, PartInfo.contentId_ofContent]
      exact find?_contentId (hids.nodup_iff.mpr hnodup) (hperm.mem_iff.mpr List.mem_cons_self)
    -- What is left over are the attachments of the other payloads.
    have hrest : (as.filter fun a => a.contentId ≠ p.part.contentId).Perm
        (ps.map Payload.attachment) := by
      refine (hperm.filter _).trans (.of_eq ?_)
      rw [List.map_cons, List.filter_cons_of_neg (by simp [Payload.part, Payload.attachment]),
        List.filter_eq_self]
      intro a ha
      obtain ⟨q, hq, rfl⟩ := List.mem_map.mp ha
      rw [Payload.part, PartInfo.contentId_ofContent, decide_eq_true_eq]
      intro heq
      exact hp (List.mem_map.mpr ⟨q, hq, heq⟩)
    rw [List.map_cons, payloads, hfind]
    simp only [ih hps hrest, bind, Except.bind, pure, Except.pure]
    simp [Payload.part, Payload.attachment]

end Envelope
end EbmsMessaging
