import EbmsMessaging.Correlation.Retention
import EbmsMessaging.Telemetry.Tally

/-!
# Metrics of a service

What a service counts about its exchanges, about what arrives, and about its correlation table.
Every number is published as a sample under a text name.
-/
namespace EbmsMessaging

structure Metrics where
  exchangesStarted : Nat
  /-- Finished exchanges, by how they ended. -/
  outcomes : Tally
  /-- How long exchanges took, in milliseconds. Dropped ones are included. -/
  durations : List Nat
  /-- Acknowledgements that arrived, by hop. -/
  acknowledgements : Tally
  messagesDelivered : Nat
  /-- Transmissions that could not be read. -/
  refusals : Nat
  /-- Handlers that failed, by how they did. -/
  handlerFailures : Tally
  /-- Cells that the periodic sweep removed, by reason. -/
  sweepRemovals : Tally
  /-- The cells that the last periodic sweep left. -/
  cells : Nat
deriving DecidableEq, Repr

namespace Metrics

def zero : Metrics := ⟨0, .empty, [], .empty, 0, 0, .empty, .empty, 0⟩

/-- The report of a periodic sweep and the number of cells after it. -/
def countSweep (m : Metrics) (r : Correlation.Removals) (cells : Nat) : Metrics :=
  { m with sweepRemovals := (m.sweepRemovals.add "fulfilled" r.expired).add "abandoned" r.unused,
           cells := cells }

/-- The upper bounds of the duration buckets in milliseconds, with their texts in seconds. Each
bound is twice the one before. -/
def buckets : List (Nat × String) :=
  [(5, "0.005"), (10, "0.01"), (20, "0.02"), (40, "0.04"), (80, "0.08"), (160, "0.16"),
    (320, "0.32"), (640, "0.64"), (1280, "1.28"), (2560, "2.56"), (5120, "5.12"),
    (10240, "10.24"), (20480, "20.48"), (40960, "40.96")]

/-- The durations up to a bound. -/
def durationsUpTo (m : Metrics) (bound : Nat) : Nat := m.durations.countP (· ≤ bound)

/-- The name of a sample with one label. -/
def labelled (name label value : String) : String :=
  name ++ "\x7b" ++ label ++ "=\"" ++ value ++ "\"\x7d"

/-- One sample for each count of a tally. -/
def tallied (name label : String) (t : Tally) : List (String × Nat) :=
  t.counts.map fun (value, n) => (labelled name label value, n)

def durationSamples (m : Metrics) : List (String × Nat) :=
  let bucket (bound : String) := labelled "as4_exchange_duration_seconds_bucket" "le" bound
  buckets.map (fun (bound, text) => (bucket text, m.durationsUpTo bound)) ++
    [(bucket "+Inf", m.durations.length),
      ("as4_exchange_duration_seconds_count", m.durations.length)]

/-- All samples. A label that was never counted has none. -/
def samples (m : Metrics) : List (String × Nat) :=
  [("as4_exchanges_started_total", m.exchangesStarted)] ++
    tallied "as4_exchange_outcomes_total" "outcome" m.outcomes ++
    m.durationSamples ++
    tallied "as4_notifications_fulfilled_total" "kind" m.acknowledgements ++
    [("as4_inbound_messages_delivered_total", m.messagesDelivered),
      ("as4_decode_failures_total", m.refusals)] ++
    tallied "as4_handler_failures_total" "reason" m.handlerFailures ++
    tallied "as4_correlation_sweep_removals_total" "cell" m.sweepRemovals ++
    [("as4_correlation_cells", m.cells)]

end Metrics
end EbmsMessaging
