import EbmsMessaging.Correlation.Retention
import EbmsMessaging.Envelope.Agreement
import EbmsMessaging.Text.Blank

/-!
# Settings of an exchange

The parties of an exchange, how long it waits for acknowledgements, how it sweeps, and the domain of
its message identifiers. Everything that is not given has a standard value. Two of the settings can
be overridden from the environment. The settings are checked as a whole before they are used.
-/
namespace EbmsMessaging

structure PartySettings where
  partyId : String
  partyIdType : Option String
  role : String
deriving DecidableEq, Repr

structure SweepSettings where
  periodMs : UInt64
  valueLimitMs : UInt64
  emptyLimitMs : Option UInt64
deriving DecidableEq

structure ExchangeSettings where
  localParty : PartySettings
  gatewayParty : PartySettings
  /-- How long to wait for an acknowledgement; zero is for ever. -/
  waitMs : UInt64
  sweep : SweepSettings
  messageIdDomain : String
deriving DecidableEq

/-- The two sections that describe a party. -/
inductive PartySection where
  | localParty
  | gatewayParty
deriving DecidableEq, Repr

inductive SettingsError where
  | unreadable
  | unparsable
  | invalidEnvironment (name value : String)
  | emptyPartyId (party : PartySection)
  | emptyRole (party : PartySection)
  | zeroPeriod
  | zeroValueLimit
  | zeroEmptyLimit
  | emptyDomain
deriving DecidableEq, Repr

def PartySection.text : PartySection → String
  | localParty => "local_party"
  | gatewayParty => "gateway_party"

def SettingsError.message : SettingsError → String
  | unreadable => "cannot read configuration"
  | unparsable => "cannot parse configuration"
  | invalidEnvironment name value => s!"environment variable {name} has invalid value '{value}'"
  | emptyPartyId party => s!"invalid party: {party.text}.party_id cannot be empty"
  | emptyRole party => s!"invalid party: {party.text}.role cannot be empty"
  | zeroPeriod => "invalid sweep: period_ms cannot be 0"
  | zeroValueLimit => "invalid sweep: expiry_ms cannot be 0"
  | zeroEmptyLimit => "invalid sweep: abandoned_expiry_ms cannot be 0"
  | emptyDomain => "invalid configuration: message_id_domain cannot be empty"

namespace PartySettings

def party (p : PartySettings) : Party := ⟨p.partyId, p.partyIdType, p.role⟩

def ofParty (p : Party) : PartySettings := ⟨p.partyId, p.partyIdType, p.role⟩

def check (p : PartySettings) (party : PartySection) : Except SettingsError Unit :=
  if Text.allBlank p.partyId then .error (.emptyPartyId party)
  else if Text.allBlank p.role then .error (.emptyRole party)
  else .ok ()

instance : Schematic PartySettings where
  shape := .record <| .cons "party_id" .required .text <|
    .cons "party_id_type" (.nullable true) .text <| .cons "role" .required .text .nil
  ofValue := fun (partyId, partyIdType, role, _) => ⟨partyId, partyIdType, role⟩
  toValue p := (p.partyId, p.partyIdType, p.role, ())
  ofValue_toValue _ := rfl

end PartySettings

namespace SweepSettings

def standard : SweepSettings := ⟨300000, 300000, none⟩

def retention (s : SweepSettings) : Correlation.Retention :=
  ⟨s.valueLimitMs.toNat, s.emptyLimitMs.map UInt64.toNat⟩

def check (s : SweepSettings) : Except SettingsError Unit :=
  if s.periodMs = 0 then .error .zeroPeriod
  else if s.valueLimitMs = 0 then .error .zeroValueLimit
  else if s.emptyLimitMs = some 0 then .error .zeroEmptyLimit
  else .ok ()

instance : Schematic SweepSettings where
  shape := .record <| .cons "period_ms" .defaulted .word <| .cons "expiry_ms" .defaulted .word <|
    .cons "abandoned_expiry_ms" (.nullable true) .word .nil
  ofValue := fun (period, valueLimit, emptyLimit, _) =>
    ⟨period.getD standard.periodMs, valueLimit.getD standard.valueLimitMs, emptyLimit⟩
  toValue s := (some s.periodMs, some s.valueLimitMs, s.emptyLimitMs, ())
  ofValue_toValue _ := rfl

end SweepSettings

namespace ExchangeSettings

def standard : ExchangeSettings where
  localParty := .ofParty Agreement.standard.localParty
  gatewayParty := .ofParty Agreement.standard.gatewayParty
  waitMs := 20000
  sweep := .standard
  messageIdDomain := Agreement.standardDomain

/-- The first thing that is wrong with the settings. -/
def check (s : ExchangeSettings) : Except SettingsError Unit := do
  s.localParty.check .localParty
  s.gatewayParty.check .gatewayParty
  s.sweep.check
  if Text.allBlank s.messageIdDomain then .error .emptyDomain

/-- What the settings say about envelopes. -/
def agreement (s : ExchangeSettings) : Agreement :=
  ⟨s.localParty.party, s.gatewayParty.party, s.messageIdDomain⟩

/-- The digits of a number below `bound`, with an optional plus sign. -/
def naturalBelow? (bound : Nat) (cs : List Char) : Option Nat :=
  let digits := match cs with
    | '+' :: rest => rest
    | _ => cs
  if digits ≠ [] ∧ digits.all Char.isDigit then
    let n := digits.foldl (fun n c => 10 * n + (c.toNat - 48)) 0
    if n < bound then some n else none
  else none

def waitVariable : String := "AS4_WAIT_TIMEOUT_MS"

def domainVariable : String := "AS4_MESSAGE_ID_DOMAIN"

/-- Overrides the wait from the environment. -/
def overrideWait (s : ExchangeSettings) (lookup : String → Option String) :
    Except SettingsError ExchangeSettings :=
  match lookup waitVariable with
  | none => .ok s
  | some value =>
    match naturalBelow? UInt64.size (Text.stripChars Text.isBlank value.toList) with
    | some n => .ok { s with waitMs := n.toUInt64 }
    | none => .error (.invalidEnvironment waitVariable value)

/-- Overrides the domain from the environment. -/
def overrideDomain (s : ExchangeSettings) (lookup : String → Option String) :
    ExchangeSettings :=
  { s with messageIdDomain := (lookup domainVariable).getD s.messageIdDomain }

/-- Overrides settings from the environment; nothing changes when a variable is unusable. -/
def override (s : ExchangeSettings) (lookup : String → Option String) :
    Except SettingsError ExchangeSettings := do
  return (← s.overrideWait lookup).overrideDomain lookup

instance : Schematic ExchangeSettings where
  shape := .record <| .cons "local_party" .defaulted (Schematic.shape PartySettings) <|
    .cons "gateway_party" .defaulted (Schematic.shape PartySettings) <|
    .cons "timeouts" .defaulted (.record (.cons "wait_ms" .defaulted .word .nil)) <|
    .cons "sweep" .defaulted (Schematic.shape SweepSettings) <|
    .cons "message_id_domain" .defaulted .text .nil
  ofValue := fun (localParty, gatewayParty, timeouts, sweep, messageIdDomain, _) =>
    ⟨(localParty.map Schematic.ofValue).getD standard.localParty,
      (gatewayParty.map Schematic.ofValue).getD standard.gatewayParty,
      (timeouts.bind Prod.fst).getD standard.waitMs,
      (sweep.map Schematic.ofValue).getD standard.sweep,
      messageIdDomain.getD standard.messageIdDomain⟩
  toValue s := (some (Schematic.toValue s.localParty), some (Schematic.toValue s.gatewayParty),
    some (some s.waitMs, ()), some (Schematic.toValue s.sweep), some s.messageIdDomain, ())
  ofValue_toValue _ := by simp

end ExchangeSettings
end EbmsMessaging
