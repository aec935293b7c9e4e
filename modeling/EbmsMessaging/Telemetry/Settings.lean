import EbmsMessaging.Telemetry.LogFilter

/-!
# Settings of the log

The settings of the log come from the environment. A log can be started only with a filter that can
be read, and only once.
-/
namespace EbmsMessaging

structure LogSettings where
  serviceName : String
  filter : String
  toConsole : Bool
  asJson : Bool
deriving DecidableEq, Repr

inductive LogError where
  | badFilter
  | alreadyStarted
deriving DecidableEq, Repr

namespace LogSettings

def standard : LogSettings := ⟨"as4-exchange", "info", true, false⟩

/-- Whether a text means yes. -/
def isYes (s : String) : Bool :=
  ["true", "1", "yes"].any fun yes => Text.sameIgnoringCase (Text.trim s) yes

/-- The settings that the environment asks for. Inside a container, lines are written as JSON unless
the environment says otherwise. -/
def ofEnvironment (lookup : String → Option String) : LogSettings where
  serviceName := (lookup "AS4_SERVICE_NAME").getD standard.serviceName
  filter := ((lookup "AS4_LOG_LEVEL").or (lookup "RUST_LOG")).getD standard.filter
  toConsole := ((lookup "AS4_CONSOLE_OUTPUT").map isYes).getD standard.toConsole
  asJson := ((lookup "AS4_JSON_LOGS").map isYes).getD
    ((lookup "KUBERNETES_SERVICE_HOST").isSome || (lookup "DOCKER_CONTAINER").isSome)

/-- Starts the log; the filter is read first. -/
def start (s : LogSettings) (isStarted : Bool) : Except LogError Unit :=
  if !LogFilter.isValid s.filter then .error .badFilter
  else if isStarted then .error .alreadyStarted
  else .ok ()

end LogSettings
end EbmsMessaging
