import Onboarding.Text.Decimal
import Std.Data.ExtTreeMap
/-!
# Metrics — what is counted about requests, and its text form

Requests are counted by route and status and timed by route; registrations and
confirmations that succeeded are counted on their own. `Metrics.lines` is the text
that a monitoring system reads: families by name, samples by the values of their
labels, and nothing of a family without samples.
-/

namespace Onboarding

/-- Observed durations, in seconds. -/
structure Histogram where
  /-- For each bound of a bucket, the observations up to it. -/
  buckets : List Nat
  count : Nat
  sum : Float

namespace Histogram

/-- The upper bounds of the buckets. -/
def bounds : List Float := [0.005, 0.01, 0.025, 0.05, 0.1, 0.25, 0.5, 1, 2.5, 5, 10]

/-- No observations. -/
def empty : Histogram := ⟨bounds.map fun _ => 0, 0, 0⟩

/-- One more observation. -/
def observe (h : Histogram) (seconds : Float) : Histogram where
  buckets := List.zipWith (fun bound n => if seconds ≤ bound then n + 1 else n) bounds h.buckets
  count := h.count + 1
  sum := h.sum + seconds

end Histogram

/-- The counts of a running service. -/
structure Metrics where
  /-- Requests by route and status, the status as it is written. -/
  requests : Std.ExtTreeMap (String × String) Nat (compareLex (compareOn (·.1)) (compareOn (·.2)))
  durations : Std.ExtTreeMap String Histogram
  registrations : Nat
  confirmations : Nat

namespace Metrics

/-- Nothing counted yet. -/
def empty : Metrics := ⟨∅, ∅, 0, 0⟩

/-- Counts a handled request. -/
def observe (m : Metrics) (route : String) (status : Nat) (seconds : Float) : Metrics :=
  { m with
    requests := m.requests.alter (route, toString status) fun n => some (n.getD 0 + 1)
    durations := m.durations.alter route fun h => some ((h.getD .empty).observe seconds) }

/-- A character of a label's value. -/
def escapeChar (c : Char) : String :=
  if c = '\\' then "\\\\" else if c = '"' then "\\\"" else if c = '\n' then "\\n" else c.toString

/-- A label and its value. -/
def label (name value : String) : String :=
  name ++ "=\"" ++ String.join (value.toList.map escapeChar) ++ "\""

/-- A sample: a name, labels and a value. -/
def sample (name : String) (labels : List String) (value : String) : String :=
  let set := if labels.isEmpty then "" else "\x7b" ++ ",".intercalate labels ++ "\x7d"
  name ++ set ++ " " ++ value

/-- The samples of a family under its heading. -/
def family (name help kind : String) (samples : List String) : List String :=
  if samples.isEmpty then []
  else ("# HELP " ++ name ++ " " ++ help) :: ("# TYPE " ++ name ++ " " ++ kind) :: samples

/-- The name of the histogram. -/
def durationName : String := "vulcan_http_request_duration_seconds"

/-- The samples of the durations of one route. -/
def durationSamples (route : String) (h : Histogram) : List String :=
  let bucket (bound : String) (n : Nat) :=
    sample (durationName ++ "_bucket") [label "route" route, label "le" bound] (toString n)
  List.zipWith (fun bound n => bucket (Decimal.text bound) n) Histogram.bounds h.buckets ++
    [bucket "+Inf" h.count,
      sample (durationName ++ "_sum") [label "route" route] (Decimal.text h.sum),
      sample (durationName ++ "_count") [label "route" route] (toString h.count)]

/-- The name of the counts by route and status. -/
def requestsName : String := "vulcan_http_requests_total"

/-- The sample of one route and status. -/
def requestSample (route status : String) (n : Nat) : String :=
  sample requestsName [label "route" route, label "status" status] (toString n)

/-- A counter without labels. -/
def counter (name help : String) (n : Nat) : List String :=
  family name help "counter" [sample name [] (toString n)]

/-- The text form, line by line. -/
def lines (m : Metrics) : List String :=
  counter "vulcan_confirmations_total" "Registrations confirmed" m.confirmations ++
    family durationName "Time spent handling HTTP requests" "histogram"
      (m.durations.toList.flatMap fun (route, h) => durationSamples route h) ++
    family requestsName "HTTP requests handled" "counter"
      (m.requests.toList.map fun ((route, status), n) => requestSample route status n) ++
    counter "vulcan_registrations_total" "Registrations accepted" m.registrations

end Metrics

end Onboarding
