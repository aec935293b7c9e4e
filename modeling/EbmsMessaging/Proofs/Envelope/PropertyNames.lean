import EbmsMessaging.Proofs.Envelope.Rewriting
import EbmsMessaging.Proofs.Properties

/-!
# Names of properties on the wire

The names of properties are distinct in everything that is made here, and so when that is read back. What
comes from elsewhere is read as it stands, under whatever names: there a property is found by its first
place, and collected anew by its last.
-/
namespace EbmsMessaging

namespace Envelope

/-- The properties of the message, and those of each part. -/
def propertyLists (e : Envelope) : List Properties := e.properties :: e.parts.map (·.properties)

/-- No list of properties has two under one name. -/
def NamesDistinct (e : Envelope) : Prop := ∀ ps ∈ e.propertyLists, ps.names.Nodup

/-- Each list of properties is collected anew from the properties in it. -/
def collected (e : Envelope) : Envelope where
  messageInfo := e.messageInfo
  partyInfo := e.partyInfo
  collaborationInfo := e.collaborationInfo
  properties := .ofList e.properties.toList
  parts := e.parts.map fun p => ⟨p.href, .ofList p.properties.toList⟩
  fault := e.fault

theorem namesDistinct_iff {e : Envelope} :
    e.NamesDistinct ↔ e.properties.names.Nodup ∧ ∀ p ∈ e.parts, p.properties.names.Nodup := by
  simp [NamesDistinct, propertyLists]

theorem namesDistinct_collected (e : Envelope) : e.collected.NamesDistinct := by
  refine namesDistinct_iff.mpr ⟨Properties.nodup_names_ofList _, fun p hp => ?_⟩
  obtain ⟨q, -, rfl⟩ := List.mem_map.mp hp
  exact Properties.nodup_names_ofList _

theorem collected_eq_iff (e : Envelope) : e.collected = e ↔ e.NamesDistinct := by
  refine ⟨fun h => h ▸ namesDistinct_collected e, fun h => ?_⟩
  obtain ⟨hproperties, hparts⟩ := namesDistinct_iff.mp h
  have hmap : e.parts.map (fun p => ⟨p.href, .ofList p.properties.toList⟩) = e.parts := by
    refine (List.map_congr_left fun p hp => ?_).trans (List.map_id _)
    rw [(Properties.ofList_toList_eq_iff p.properties).mpr (hparts p hp), id]
  rw [collected, (Properties.ofList_toList_eq_iff e.properties).mpr hproperties, hmap]

end Envelope

namespace Acknowledgement

theorem nodup_names_properties (k : Acknowledgement) : k.properties.names.Nodup := by
  have hbase : ∀ id : Option String, ((Properties.empty.setIfSome Vocabulary.messageId id).set
      Vocabulary.refToMessageId k.key |>.set Vocabulary.result k.verdict.text).names.Nodup :=
    fun id => Properties.nodup_names_set (Properties.nodup_names_set
      (Properties.nodup_names_setIfSome Properties.nodup_names_empty _ id) _ _) _ _
  rw [properties]
  split
  · exact hbase k.messageId
  · exact Properties.nodup_names_setIfSome (Properties.nodup_names_setIfSome
      (Properties.nodup_names_setIfSome (Properties.nodup_names_set (hbase _) _ _) _ _) _ _) _ _

end Acknowledgement

namespace Agreement

open Vocabulary

theorem nodup_names_messageProperties (a : Agreement) (s : Stamp) (r : Route)
    (m : BusinessMessage) : (a.messageProperties s r m).names.Nodup := by
  refine Properties.nodup_names_set (Properties.nodup_names_set (Properties.nodup_names_setIfSome
    (Properties.nodup_names_setIfSome ?_ _ _) _ _) _ _) _ _
  refine Properties.nodup_names_set (Properties.nodup_names_set (Properties.nodup_names_set ?_ _ _)
    _ _) _ _
  refine Properties.nodup_names_insert (Properties.nodup_names_set ?_ _ _) _
  exact Properties.nodup_names_insert (Properties.nodup_names_insert (Properties.nodup_names_insert
    Properties.nodup_names_empty _) _) _

theorem namesDistinct_messageEnvelope (a : Agreement) (s : Stamp) (r : Route)
    (m : BusinessMessage) : (a.messageEnvelope s r m).NamesDistinct := by
  refine Envelope.namesDistinct_iff.mpr ⟨a.nodup_names_messageProperties s r m, fun p hp => ?_⟩
  obtain ⟨payload, -, rfl⟩ := List.mem_map.mp hp
  exact Properties.nodup_names_set Properties.nodup_names_empty _ _

theorem namesDistinct_signalEnvelope (a : Agreement) (s : Stamp) (id : String) (ref : Option String)
    (action : String) {ps : Properties} (h : ps.names.Nodup) (fault : Option Fault) :
    (a.signalEnvelope s id ref action ps fault).NamesDistinct :=
  Envelope.namesDistinct_iff.mpr ⟨h, fun _ hp => absurd hp List.not_mem_nil⟩

theorem Makes.namesDistinct {a : Agreement} {s : Stamp} {e : Envelope} (h : a.Makes s e) :
    e.NamesDistinct := by
  cases h with
  | @message r m p hp =>
    unfold prepare at hp
    split at hp
    · cases hp
    · cases hp
      exact a.namesDistinct_messageEnvelope s r m
  | acknowledgement k => exact a.namesDistinct_signalEnvelope s _ _ _ k.nodup_names_properties _
  | fault f => exact a.namesDistinct_signalEnvelope s _ _ _ Properties.nodup_names_empty _

end Agreement

namespace Envelope

/-- Of accepted bytes, the names in each list of properties are distinct exactly if collecting the lists
anew leaves what is rewritten as it is, and so they are if the envelope was made here. Then every name
stands for the same property in each list and in what is collected from it. Else the list has the first
property of that name, and what is collected from it the last. -/
theorem names_distinct_iff_collected {raw : Bytes} {e : Envelope} (hread : ofBytes raw = .ok e) :
    (e.NamesDistinct ↔ rewrite raw = .ok e.collected.toBytes) ∧
      (∀ a s, Agreement.Makes a s e → e.NamesDistinct) ∧
      ∀ ps ∈ e.propertyLists, ∀ name,
        (Properties.ofList ps.toList).get? name = ps.last? name ∧
          (e.NamesDistinct → (Properties.ofList ps.toList).get? name = ps.get? name) := by
  refine ⟨?_, fun a s h => h.namesDistinct, fun ps hps name =>
    ⟨Properties.get?_ofList _ _, fun hnames => ?_⟩⟩
  · rw [← collected_eq_iff, rewrite_eq_ok]
    constructor
    · intro hcollected
      exact ⟨e, hread, by rw [hcollected]⟩
    · rintro ⟨e', hread', hwritten⟩
      obtain rfl := Except.ok.inj (hread.symm.trans hread')
      exact (toBytes_inj.mp hwritten).symm
  · rw [(Properties.ofList_toList_eq_iff ps).mpr (hnames ps hps)]

theorem liberal_text_collected :
    ofBytes (Utf8.encode liberalText) = .ok liberalEnvelope ∧
      rewrite (Utf8.encode liberalText) = .ok liberalEnvelope.collected.toBytes ∧
      (Properties.ofList liberalEnvelope.properties.toList).get? "n" =
        some (.plain "n" "ü😀/") := by
  have hread : ofBytes (Utf8.encode liberalText) = .ok liberalEnvelope := by decide +kernel
  have hnames : liberalEnvelope.NamesDistinct := namesDistinct_iff.mpr ⟨by decide, by decide⟩
  obtain ⟨hrewritten, -, hfound⟩ := names_distinct_iff_collected hread
  exact ⟨hread, hrewritten.mp hnames, (hfound _ List.mem_cons_self "n").2 hnames⟩

/-- A relay acknowledgement whose result stands there twice. -/
def doubledText : String :=
  "\x7b\"MessageInfo\":\x7b\"Timestamp\":\"2024-02-29T23:59:60.000000001Z\",\"MessageId\":\"a\"\x7d," ++
    "\"PartyInfo\":\x7b\"From\":\x7b\"PartyId\":\"g\",\"Role\":\"r\"\x7d," ++
    "\"To\":\x7b\"PartyId\":\"l\",\"Role\":\"r\"\x7d\x7d," ++
    "\"CollaborationInfo\":\x7b\"Service\":\x7b\"Value\":" ++
    "\"http://docs.oasis-open.org/ebxml-msg/as4/200902/service\"\x7d," ++
    "\"Action\":\"RelayResult\",\"ConversationId\":\"c\"\x7d," ++
    "\"MessageProperties\":[\x7b\"Name\":\"RefToMessageId\",\"Value\":\"k\"\x7d," ++
    "\x7b\"Name\":\"Result\",\"Value\":\"Receipt\"\x7d," ++
    "\x7b\"Name\":\"Result\",\"Value\":\"Error\"\x7d," ++
    "\x7b\"Name\":\"ErrorCode\",\"Value\":\"EBMS:0004\"\x7d],\"PayloadInfo\":[]\x7d"

def doubledEnvelope : Envelope where
  messageInfo := ⟨Agreement.sampleStamp.timestamp, "a", none⟩
  partyInfo := ⟨⟨"g", none, "r"⟩, ⟨"l", none, "r"⟩⟩
  collaborationInfo := ⟨⟨Vocabulary.signalService, none⟩, Vocabulary.relayResult, "c"⟩
  properties := ⟨[.plain "RefToMessageId" "k", .plain "Result" "Receipt", .plain "Result" "Error",
    .plain "ErrorCode" "EBMS:0004"]⟩
  parts := []
  fault := none

/-- Its names are not distinct. It is read as positive, and as negative when its properties are collected
anew. -/
theorem doubled_result_accepted :
    ofBytes (Utf8.encode doubledText) = .ok doubledEnvelope ∧ ¬ doubledEnvelope.NamesDistinct ∧
      doubledEnvelope.properties.value? Vocabulary.result = some "Receipt" ∧
      (Properties.ofList doubledEnvelope.properties.toList).value? Vocabulary.result =
        some "Error" ∧
      Arrival.ofBytes (Utf8.encode doubledText) [] =
        .ok (.acknowledgement (.positive .relay "k" none)) ∧
      doubledEnvelope.collected.arrival [] = .ok (.acknowledgement
        (.negative .relay "k" none ⟨"EBMS:0004", none, none, none⟩)) := by
  have hread : ofBytes (Utf8.encode doubledText) = .ok doubledEnvelope := by decide +kernel
  have hnames : ¬ doubledEnvelope.NamesDistinct := fun h =>
    absurd (h doubledEnvelope.properties List.mem_cons_self) (by decide)
  refine ⟨hread, hnames, by decide, by decide, ?_, by decide⟩
  rw [Arrival.ofBytes, hread]
  decide

end Envelope
end EbmsMessaging
