/-
The recorder of HTTP metrics of one API process, and the text that it renders for Prometheus.
-/
import Mathlib.Data.List.Sort
import MuxivoConsole.Floats.Decimals
import MuxivoConsole.Json.Conversions
import MuxivoConsole.Mapping.Dict

namespace MuxivoConsole

open Text Mapping

/-- One method, route and response status. -/
structure HttpMetricKey where
  method : Str
  route : Str
  statusCode : ℤ
  deriving DecidableEq

/-- The order of the dataclass: by method, then by route, then by status. -/
def HttpMetricKey.le (first second : HttpMetricKey) : Prop :=
  first.method < second.method ∨ first.method = second.method ∧
    (first.route < second.route ∨ first.route = second.route ∧
      first.statusCode ≤ second.statusCode)

instance : DecidableRel HttpMetricKey.le := fun _ _ =>
  inferInstanceAs (Decidable (_ ∨ _ ∧ (_ ∨ _ ∧ _)))

structure HttpMetricSample where
  count : Nat
  durationSecondsSum : Binary64

/-- The bound of a bucket, and its text in the format `g`. -/
structure DurationBucket where
  bound : Binary64
  text : String
  deriving DecidableEq

/-- `DEFAULT_HTTP_DURATION_BUCKETS` -/
def defaultHttpDurationBuckets : List DurationBucket :=
  [⟨.ofRat (5 / 100), "0.05"⟩, ⟨.ofRat (1 / 10), "0.1"⟩, ⟨.finite (1 / 4), "0.25"⟩,
    ⟨.finite (1 / 2), "0.5"⟩, ⟨.finite 1, "1"⟩, ⟨.finite (5 / 2), "2.5"⟩, ⟨.finite 5, "5"⟩,
    ⟨.finite 10, "10"⟩]

/-- The arguments of `record_http_request` -/
structure HttpRequestRecord where
  method : Str
  route : Str
  statusCode : ℤ
  durationSeconds : Binary64

structure InMemoryHttpMetricsRecorder where
  requestCounts : Dict HttpMetricKey Nat := ⟨[], List.nodup_nil⟩
  durationSums : Dict HttpMetricKey Binary64 := ⟨[], List.nodup_nil⟩
  durationBuckets : Dict (HttpMetricKey × Binary64) Nat := ⟨[], List.nodup_nil⟩

/-- The key of a request, where `upper` is `str.upper` -/
def HttpRequestRecord.key (upper : Str → Str) (request : HttpRequestRecord) : HttpMetricKey :=
  ⟨upper request.method, request.route, request.statusCode⟩

/-- `max(0.0, duration_seconds)`: the second one only if it is greater. -/
def HttpRequestRecord.duration (request : HttpRequestRecord) : Binary64 :=
  if (Binary64.finite 0).lt request.durationSeconds then request.durationSeconds else .finite 0

/-- `_escape_label_value`: three replacements one after the other. -/
def escapeLabelValue (value : Str) : Str :=
  ((value.flatMap fun code => if code = 92 then [92, 92] else [code]).flatMap
    fun code => if code = 10 then [92, 110] else [code]).flatMap
      fun code => if code = 34 then [92, 34] else [code]

/-- `_labels_for` -/
def labelsFor (key : HttpMetricKey) : Str :=
  codesOf "method=\"" ++ escapeLabelValue key.method ++ codesOf "\",route=\"" ++
    escapeLabelValue key.route ++ codesOf "\",status_code=\"" ++ showInt key.statusCode ++ [34]

/-- The format `.6f` -/
def fixedSix : Binary64 → Str
  | .nan => codesOf "nan"
  | .infinite negative => codesOf (if negative then "-inf" else "inf")
  | .finite value =>
      let millionths := (Binary64.roundHalfEven (|value| * 10 ^ 6)).toNat
      let fraction := showNat (millionths % 10 ^ 6)
      (if value < 0 then [45] else []) ++ showNat (millionths / 10 ^ 6) ++
        46 :: (List.replicate (6 - fraction.length) 48 ++ fraction)

/-- A line of a series: its name, its labels and its value. -/
def seriesLine (metric : String) (labels value : Str) : Str :=
  codesOf metric ++ 123 :: labels ++ 125 :: 32 :: value

/-- The labels of a bucket. -/
def bucketLabels (key : HttpMetricKey) (text : String) : Str :=
  labelsFor key ++ codesOf ",le=\"" ++ codesOf text ++ [34]

namespace InMemoryHttpMetricsRecorder

/-- `record_http_request` -/
def recordHttpRequest (upper : Str → Str) (recorder : InMemoryHttpMetricsRecorder)
    (request : HttpRequestRecord) : InMemoryHttpMetricsRecorder where
  requestCounts := recorder.requestCounts.update 0 (· + 1) (request.key upper)
  durationSums :=
    recorder.durationSums.update (.finite 0) (·.add request.duration) (request.key upper)
  durationBuckets := defaultHttpDurationBuckets.foldl (fun buckets bucket =>
    if request.duration.le bucket.bound then
      buckets.update 0 (· + 1) (request.key upper, bucket.bound)
    else buckets) recorder.durationBuckets

/-- `snapshot` -/
def snapshot (recorder : InMemoryHttpMetricsRecorder) : List (HttpMetricKey × HttpMetricSample) :=
  recorder.requestCounts.items.map fun entry =>
    (entry.1, ⟨entry.2, (recorder.durationSums.get? entry.1).getD (.finite 0)⟩)

/-- `sorted(snapshot.items(), key=lambda item: item[0])` -/
def sortedSnapshot (recorder : InMemoryHttpMetricsRecorder) :
    List (HttpMetricKey × HttpMetricSample) :=
  recorder.snapshot.insertionSort fun first second => first.1.le second.1

/-- The series of the buckets of a key. -/
def bucketLines (recorder : InMemoryHttpMetricsRecorder)
    (entry : HttpMetricKey × HttpMetricSample) : List Str :=
  (defaultHttpDurationBuckets.map fun bucket =>
    seriesLine "muxivo_console_http_request_duration_seconds_bucket"
      (bucketLabels entry.1 bucket.text)
      (showNat ((recorder.durationBuckets.get? (entry.1, bucket.bound)).getD 0))) ++
  [seriesLine "muxivo_console_http_request_duration_seconds_bucket" (bucketLabels entry.1 "+Inf")
    (showNat entry.2.count)]

/-- The lines of `render_prometheus` -/
def lines (recorder : InMemoryHttpMetricsRecorder) : List Str :=
  [codesOf "# HELP muxivo_console_http_requests_total Total HTTP requests handled.",
    codesOf "# TYPE muxivo_console_http_requests_total counter"] ++
  (recorder.sortedSnapshot.map fun entry =>
    seriesLine "muxivo_console_http_requests_total" (labelsFor entry.1) (showNat entry.2.count)) ++
  [codesOf ("# HELP muxivo_console_http_request_duration_seconds_sum " ++
      "Total HTTP request duration in seconds."),
    codesOf "# TYPE muxivo_console_http_request_duration_seconds_sum counter"] ++
  (recorder.sortedSnapshot.map fun entry =>
    seriesLine "muxivo_console_http_request_duration_seconds_sum" (labelsFor entry.1)
      (fixedSix entry.2.durationSecondsSum)) ++
  [codesOf ("# HELP muxivo_console_http_request_duration_seconds_count " ++
      "HTTP request duration sample count."),
    codesOf "# TYPE muxivo_console_http_request_duration_seconds_count counter"] ++
  (recorder.sortedSnapshot.map fun entry =>
    seriesLine "muxivo_console_http_request_duration_seconds_count" (labelsFor entry.1)
      (showNat entry.2.count)) ++
  [codesOf ("# HELP muxivo_console_http_request_duration_seconds_bucket " ++
      "HTTP request duration buckets in seconds."),
    codesOf "# TYPE muxivo_console_http_request_duration_seconds_bucket histogram"] ++
  recorder.sortedSnapshot.flatMap recorder.bucketLines

/-- The integers that are written have few enough digits for `str`. -/
def printable (recorder : InMemoryHttpMetricsRecorder) : Bool :=
  recorder.requestCounts.items.all fun entry =>
    (showNat entry.1.statusCode.natAbs).length ≤ maxDigits && (showNat entry.2).length ≤ maxDigits

/-- `render_prometheus`, with the `ValueError` of integers of too many digits -/
def renderPrometheus (recorder : InMemoryHttpMetricsRecorder) : Json.Attempt Str :=
  if recorder.printable then .ok ([10].intercalate recorder.lines ++ [10]) else .error .valueError

/-- The recorder after some requests. -/
def afterRequests (upper : Str → Str) (requests : List HttpRequestRecord) :
    InMemoryHttpMetricsRecorder :=
  requests.foldl (recordHttpRequest upper) {}

end InMemoryHttpMetricsRecorder

end MuxivoConsole
