import EbmsMessaging.Proofs.Envelope.Business

/-!
# Faults are kept apart

A fault has a place of its own in every envelope, and only the envelope of a fault is made with one. It is
looked for before anything else, so an envelope with a fault is neither a message nor an acknowledgement,
whatever its service, its action and its parts are.
-/
namespace EbmsMessaging

theorem Fault.ofBytes_eq_ok {raw : Bytes} {fault : Option Fault} :
    Fault.ofBytes raw = .ok fault ↔ ∃ e, Envelope.ofBytes raw = .ok e ∧ e.fault = fault := by
  rw [Fault.ofBytes]
  cases Envelope.ofBytes raw <;> simp

theorem Fault.ofBytes_toBytes (e : Envelope) : Fault.ofBytes e.toBytes = .ok e.fault :=
  Fault.ofBytes_eq_ok.mpr ⟨e, e.ofBytes_toBytes, rfl⟩

theorem Envelope.arrival_of_fault {e : Envelope} {f : Fault} (h : e.fault = some f)
    (as : List Attachment) : e.arrival as = .error (.unexpectedFault e.messageId f.code) := by
  rw [arrival, h]

/-- Bytes with a fault arrive as nothing else. -/
theorem Arrival.ofBytes_of_fault {raw : Bytes} {f : Fault}
    (h : Fault.ofBytes raw = .ok (some f)) : ∃ e, Envelope.ofBytes raw = .ok e ∧
      ∀ as, Arrival.ofBytes raw as = .error (.unexpectedFault e.messageId f.code) := by
  obtain ⟨e, he, hfault⟩ := Fault.ofBytes_eq_ok.mp h
  refine ⟨e, he, fun as => ?_⟩
  rw [Arrival.ofBytes, he]
  exact Envelope.arrival_of_fault hfault as

/-- What arrives had no fault. -/
theorem Fault.ofBytes_of_arrival {raw : Bytes} {as : List Attachment} {arrival : Arrival}
    (h : Arrival.ofBytes raw as = .ok arrival) : Fault.ofBytes raw = .ok none := by
  cases he : Envelope.ofBytes raw with
  | error fault => simp [Arrival.ofBytes, he] at h
  | ok e =>
    cases hfault : e.fault with
    | none => exact Fault.ofBytes_eq_ok.mpr ⟨e, he, hfault⟩
    | some f =>
      rw [Arrival.ofBytes, he] at h
      simp [Envelope.arrival_of_fault hfault] at h

namespace Agreement

/-- A fault is read back from its envelope, which arrives as nothing else, and no other envelope that is
made carries one. Whatever carries a fault is refused with it, and whatever arrives carries none. -/
theorem faults_kept_apart (a : Agreement) (s : Stamp) :
    (∀ f, Fault.ofBytes (a.faultEnvelope s f).toBytes = .ok (some f) ∧
      ∀ as, Arrival.ofBytes (a.faultEnvelope s f).toBytes as =
        .error (.unexpectedFault (a.faultEnvelope s f).messageId f.code)) ∧
    (∀ r d m, MessageDraft.build d = .ok m →
      ∃ p, a.prepare s r m = .ok p ∧ Fault.ofBytes p.envelope.toBytes = .ok none) ∧
    (∀ k, Fault.ofBytes (a.acknowledgementEnvelope s k).toBytes = .ok none) ∧
    (∀ raw f, Fault.ofBytes raw = .ok (some f) → ∃ e, Envelope.ofBytes raw = .ok e ∧
      ∀ as, Arrival.ofBytes raw as = .error (.unexpectedFault e.messageId f.code)) ∧
    ∀ raw as arrival, Arrival.ofBytes raw as = .ok arrival → Fault.ofBytes raw = .ok none := by
  refine ⟨fun f => ⟨Fault.ofBytes_toBytes _, fun as => ?_⟩, fun r d m hbuild => ?_,
    fun k => Fault.ofBytes_toBytes _, fun _ _ => Arrival.ofBytes_of_fault,
    fun _ _ _ => Fault.ofBytes_of_arrival⟩
  · rw [Arrival.ofBytes_toBytes]
    exact Envelope.arrival_of_fault rfl as
  · have hpayloads := (MessageDraft.build_eq_ok.mp hbuild).2.1
    exact ⟨_, if_neg hpayloads, Fault.ofBytes_toBytes _⟩

/-- A receipt that also has a part and a fault. -/
def faultyReceipt : Envelope :=
  { standard.acknowledgementEnvelope sampleStamp (.positive .relay "m@a" none) with
    parts := [.ofContent "a" "text/plain"]
    fault := some ⟨none, "EBMS:0004", none, some "", none, none⟩ }

theorem faultyReceipt_refused :
    Fault.ofBytes faultyReceipt.toBytes = .ok faultyReceipt.fault ∧
      Arrival.ofBytes faultyReceipt.toBytes [⟨"a", "text/plain", []⟩] =
        .error (.unexpectedFault (standard.freshId sampleStamp) "EBMS:0004") ∧
      Fault.ofBytes { faultyReceipt with fault := none }.toBytes = .ok none ∧
      ∃ p, standard.prepare sampleStamp sampleRoute misleadingMessage = .ok p ∧
        Fault.ofBytes p.envelope.toBytes = .ok none := by
  obtain ⟨-, hmessages, -, hrefused, harrived⟩ := standard.faults_kept_apart sampleStamp
  have hfault := Fault.ofBytes_toBytes faultyReceipt
  obtain ⟨e, he, harrival⟩ := hrefused _ _ hfault
  obtain rfl := Except.ok.inj (he.symm.trans faultyReceipt.ofBytes_toBytes)
  have hreceipt : Arrival.ofBytes { faultyReceipt with fault := none }.toBytes [] =
      .ok (.acknowledgement (.positive .relay "m@a" none)) := by
    rw [Arrival.ofBytes_toBytes]
    decide
  have hbuild : MessageDraft.build ⟨some misleadingMessage.sender,
      some misleadingMessage.receiver, some misleadingMessage.documentType,
      some misleadingMessage.process, misleadingMessage.payloads⟩ = .ok misleadingMessage := by
    decide
  exact ⟨hfault, harrival _, harrived _ _ _ hreceipt, hmessages sampleRoute _ _ hbuild⟩

end Agreement
end EbmsMessaging
