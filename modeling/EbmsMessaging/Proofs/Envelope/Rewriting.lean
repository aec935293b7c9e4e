import EbmsMessaging.Proofs.Envelope.Business

/-!
# Rewriting envelopes

One envelope has many texts: fields come in any order or as a row, unknown ones stand between them,
characters are escaped that need not be, and an instant is told in any zone. What was read from any of
them is written in one way, from which the same envelope is read again. So bytes that were written once
are written again as they are, and different envelopes are never written alike.
-/
namespace EbmsMessaging

/-- The envelopes that are made under an agreement: those of messages, acknowledgements and faults. -/
inductive Agreement.Makes (a : Agreement) (s : Stamp) : Envelope → Prop
  | message {r : Route} {m : BusinessMessage} {p : PreparedMessage} :
      a.prepare s r m = .ok p → Makes a s p.envelope
  | acknowledgement (k : Acknowledgement) : Makes a s (a.acknowledgementEnvelope s k)
  | fault (f : Fault) : Makes a s (a.faultEnvelope s f)

namespace Envelope

/-- What is written of the envelope that was read from bytes. -/
def rewrite (raw : Bytes) : Except Json.Fault Bytes := (ofBytes raw).map toBytes

theorem rewrite_eq_ok {raw written : Bytes} :
    rewrite raw = .ok written ↔ ∃ e, ofBytes raw = .ok e ∧ e.toBytes = written := by
  rw [rewrite]
  cases ofBytes raw with
  | error fault => simp [Except.map]
  | ok e => simp [Except.map]

/-- No two envelopes have the same bytes. -/
theorem toBytes_inj {e e' : Envelope} : e.toBytes = e'.toBytes ↔ e = e' := by
  refine ⟨fun h => ?_, fun h => h ▸ rfl⟩
  have hread := ofBytes_toBytes e
  rw [h, ofBytes_toBytes] at hread
  exact (Except.ok.inj hread).symm

/-- An envelope lasts if it is read again from its bytes, these are rewritten as they are, and no others
are rewritten as these than those it is read from. -/
structure Lasts (e : Envelope) : Prop where
  read : ofBytes e.toBytes = .ok e
  rewritten : rewrite e.toBytes = .ok e.toBytes
  stands : ∀ raw, rewrite raw = .ok e.toBytes ↔ ofBytes raw = .ok e

theorem lasts (e : Envelope) : e.Lasts := by
  have hstands : ∀ raw, rewrite raw = .ok e.toBytes ↔ ofBytes raw = .ok e := by
    intro raw
    rw [rewrite_eq_ok]
    constructor
    · rintro ⟨e', hread, hwritten⟩
      rwa [toBytes_inj.mp hwritten] at hread
    · intro hread
      exact ⟨e, hread, rfl⟩
  exact ⟨ofBytes_toBytes e, (hstands _).mpr (ofBytes_toBytes e), hstands⟩

/-- Whatever bytes an envelope was read from, and whatever it was made for, it outlasts being written
and read. What was rewritten once is rewritten as it is. -/
theorem rewriting_loses_nothing :
    (∀ raw e, ofBytes raw = .ok e → e.Lasts ∧ rewrite raw = .ok e.toBytes) ∧
      (∀ raw written, rewrite raw = .ok written → rewrite written = .ok written) ∧
      ∀ a s e, Agreement.Makes a s e → e.Lasts := by
  refine ⟨fun raw e hread => ?_, fun raw written hwritten => ?_, fun _ _ e _ => lasts e⟩
  · exact ⟨lasts e, rewrite_eq_ok.mpr ⟨e, hread, rfl⟩⟩
  · obtain ⟨e, -, rfl⟩ := rewrite_eq_ok.mp hwritten
    exact (lasts e).rewritten

/-- Fields out of order and an unknown one, records as rows, escapes that are not needed, and a leap
second in another zone, on the next day there. -/
def liberalText : String :=
  "\x7b\"x\":[null,\"\\udc00\",-0.5e+7],\"MessageProperties\":[[\"n\",\"\\u00FC\\ud83d\\ude00\\/\"]]," ++
    "\"Messag\\u0065Info\":[\"+2017-1- 1t00:59:60.2500+0100 \",\"m\"]," ++
    "\"PartyInfo\":[[\"f\",null,\"\"],[\"t\",\"\",\"r\"]],\"CollaborationInfo\":[[\"v\"],\"a\",\"c\"]\x7d"

def liberalEnvelope : Envelope where
  messageInfo := ⟨⟨⟨2016, 12, 31, by decide⟩, 23, 59, 60, 250000000, by decide⟩, "m", none⟩
  partyInfo := ⟨⟨"f", none, ""⟩, ⟨"t", some "", "r"⟩⟩
  collaborationInfo := ⟨⟨"v", none⟩, "a", "c"⟩
  properties := ⟨[.plain "n" "ü😀/"]⟩
  parts := []
  fault := none

theorem liberal_text_rewritten :
    ofBytes (Utf8.encode liberalText) = .ok liberalEnvelope ∧ liberalEnvelope.Lasts ∧
      rewrite (Utf8.encode liberalText) = .ok liberalEnvelope.toBytes ∧
      rewrite liberalEnvelope.toBytes = .ok liberalEnvelope.toBytes ∧
      ∃ p, Agreement.standard.prepare Agreement.sampleStamp Agreement.sampleRoute
          Agreement.misleadingMessage = .ok p ∧ p.envelope.Lasts := by
  have hread : ofBytes (Utf8.encode liberalText) = .ok liberalEnvelope := by decide +kernel
  obtain ⟨hlasts, hagain, hmade⟩ := rewriting_loses_nothing
  obtain ⟨hliberal, hwritten⟩ := hlasts _ _ hread
  have hprepared := hmade Agreement.standard Agreement.sampleStamp _ (.message
    (show Agreement.standard.prepare Agreement.sampleStamp Agreement.sampleRoute
      Agreement.misleadingMessage = .ok _ from rfl))
  exact ⟨hread, hliberal, hwritten, hagain _ _ hwritten, _, rfl, hprepared⟩

end Envelope
end EbmsMessaging
