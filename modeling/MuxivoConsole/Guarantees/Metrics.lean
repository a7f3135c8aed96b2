/-
The rendered metrics of any run: one line for each series of each recorded key, with distinct
labels, and counts that make a histogram.
-/
import MuxivoConsole.Infrastructure.Metrics
import MuxivoConsole.Text.Splitting

namespace MuxivoConsole

open Text Mapping

section Labels

variable {code : Nat} {value first second rest other : Str}

/-- The text of one code of a label value. -/
def escapeLabel (code : Nat) : Str :=
  if code = 92 then [92, 92]
  else if code = 10 then [92, 110]
  else if code = 34 then [92, 34]
  else [code]

@[simp] theorem escapeLabelValue_nil : escapeLabelValue [] = [] := rfl

/-- The three replacements work code by code: none of them reads what another one wrote. -/
@[simp] theorem escapeLabelValue_cons :
    escapeLabelValue (code :: value) = escapeLabel code ++ escapeLabelValue value := by
  have hone : escapeLabelValue [code] = escapeLabel code := by
    by_cases hbackslash : code = 92
    · rw [hbackslash]
      rfl
    · by_cases hnewline : code = 10
      · rw [hnewline]
        rfl
      · by_cases hquote : code = 34
        · rw [hquote]
          rfl
        · simp [escapeLabelValue, escapeLabel, hbackslash, hnewline, hquote]
  rw [← hone, ← List.singleton_append]
  simp only [escapeLabelValue, List.flatMap_append]

theorem newline_not_mem_escapeLabelValue : 10 ∉ escapeLabelValue value := by
  induction value with
  | nil => simp
  | cons code value ih =>
      rw [escapeLabelValue_cons, List.mem_append, not_or]
      refine ⟨?_, ih⟩
      unfold escapeLabel
      split_ifs with hbackslash hnewline hquote
      · decide
      · decide
      · decide
      · simpa using Ne.symm hnewline

/-- An escaped code is no quote, and it tells which code it was. -/
theorem escapeLabel_append_inj {code' : Nat}
    (happend : escapeLabel code ++ rest = escapeLabel code' ++ other) :
    code = code' ∧ rest = other := by
  unfold escapeLabel at happend
  split_ifs at happend <;> simp at happend <;> grind

theorem escapeLabel_append_ne_quote : escapeLabel code ++ rest ≠ 34 :: other := by
  unfold escapeLabel
  split_ifs with hbackslash hnewline hquote
  · simp
  · simp
  · simp
  · simp [hquote]

/-- A quoted label value can be read back, whatever follows. -/
theorem escapeLabelValue_append_inj
    (happend : escapeLabelValue first ++ 34 :: rest = escapeLabelValue second ++ 34 :: other) :
    first = second ∧ rest = other := by
  induction first generalizing second with
  | nil =>
      cases second with
      | nil => exact ⟨rfl, (List.cons.inj happend).2⟩
      | cons code second =>
          rw [escapeLabelValue_cons, List.append_assoc] at happend
          exact absurd happend.symm escapeLabel_append_ne_quote
  | cons code first ih =>
      rw [escapeLabelValue_cons, List.append_assoc] at happend
      cases second with
      | nil => exact absurd happend escapeLabel_append_ne_quote
      | cons code' second =>
          rw [escapeLabelValue_cons, List.append_assoc] at happend
          obtain ⟨hcode, hrest⟩ := escapeLabel_append_inj happend
          obtain ⟨hfirst, hother⟩ := ih hrest
          exact ⟨by rw [hcode, hfirst], hother⟩

theorem quote_not_mem_showInt {number : ℤ} : 34 ∉ showInt number := by
  intro hmem
  unfold showInt at hmem
  split_ifs at hmem
  · simp only [List.mem_cons] at hmem
    have hdigit := digit_of_mem_showNat (hmem.resolve_left (by decide))
    omega
  · have hdigit := digit_of_mem_showNat hmem
    omega

variable {key key' : HttpMetricKey}

/-- The labels of a key can be read back, whatever follows. -/
theorem labelsFor_append_inj (happend : labelsFor key ++ rest = labelsFor key' ++ other) :
    key = key' ∧ rest = other := by
  have hroute : codesOf "\",route=\"" = 34 :: codesOf ",route=\"" := by decide
  have hstatus : codesOf "\",status_code=\"" = 34 :: codesOf ",status_code=\"" := by decide
  simp only [labelsFor, hroute, hstatus, List.append_assoc, List.cons_append] at happend
  obtain ⟨hmethod, happend⟩ := escapeLabelValue_append_inj (List.append_cancel_left happend)
  obtain ⟨hroute, happend⟩ := escapeLabelValue_append_inj (List.append_cancel_left happend)
  obtain ⟨hstatus, -, hrest⟩ := @append_mark_inj _ (· = 34) _ _ _ _ _ _
    (fun _ hcode heq => quote_not_mem_showInt (heq ▸ hcode))
    (fun _ hcode heq => quote_not_mem_showInt (heq ▸ hcode)) rfl rfl
    (List.append_cancel_left happend)
  refine ⟨?_, by simpa using hrest⟩
  cases key
  cases key'
  simp_all [showInt_injective.eq_iff]

theorem labelsFor_injective : Function.Injective labelsFor := fun first second hlabels =>
  (@labelsFor_append_inj [] [] first second (by rw [hlabels])).1

theorem newline_not_mem_labelsFor : 10 ∉ labelsFor key := by
  have hmethod : 10 ∉ codesOf "method=\"" := by decide
  have hroute : 10 ∉ codesOf "\",route=\"" := by decide
  have hstatus : 10 ∉ codesOf "\",status_code=\"" := by decide
  have hnumber : 10 ∉ showInt key.statusCode := by
    intro hmem
    exact absurd (showInt_solid 10 hmem) (by decide)
  simp [labelsFor, hmethod, hroute, hstatus, hnumber, newline_not_mem_escapeLabelValue]

end Labels

section Series

/-- A series by its metric, its key and, for a bucket, the text of the bound. -/
structure Series where
  metric : String
  key : HttpMetricKey
  bucket : Option String
  deriving DecidableEq

/-- What stands in the line of a series before its value. -/
def Series.head (series : Series) : Str :=
  codesOf series.metric ++ 123 ::
    (series.bucket.elim (labelsFor series.key) (bucketLabels series.key)) ++ [125, 32]

/-- The name of the metric and the text of the bound do not end early. -/
structure Series.Named (series : Series) : Prop where
  metric : 123 ∉ codesOf series.metric
  bucket : ∀ text ∈ series.bucket, 34 ∉ codesOf text

variable {series series' : Series} {rest other : Str}

/-- A series can be read back from its line. -/
theorem Series.head_append_inj (hnamed : series.Named) (hnamed' : series'.Named)
    (happend : series.head ++ rest = series'.head ++ other) : series = series' ∧ rest = other := by
  obtain ⟨metric, key, bucket⟩ := series
  obtain ⟨metric', key', bucket'⟩ := series'
  simp only [head, List.append_assoc, List.cons_append, List.nil_append] at happend
  obtain ⟨hmetric, -, happend⟩ := @append_mark_inj _ (· = 123) _ _ _ _ _ _
    (fun _ hcode heq => hnamed.metric (heq ▸ hcode))
    (fun _ hcode heq => hnamed'.metric (heq ▸ hcode)) rfl rfl happend
  have hname : metric = metric' := codesOf_injective hmetric
  cases bucket with
  | none =>
      cases bucket' with
      | none =>
          obtain ⟨hkey, hrest⟩ := labelsFor_append_inj happend
          exact ⟨by rw [hname, hkey], by simpa using hrest⟩
      | some text' =>
          simp only [Option.elim, bucketLabels, List.append_assoc] at happend
          obtain ⟨-, happend⟩ := labelsFor_append_inj happend
          exact absurd (List.cons.inj happend).1 (by decide)
  | some text =>
      cases bucket' with
      | none =>
          simp only [Option.elim, bucketLabels, List.append_assoc] at happend
          obtain ⟨-, happend⟩ := labelsFor_append_inj happend
          exact absurd (List.cons.inj happend).1 (by decide)
      | some text' =>
          simp only [Option.elim, bucketLabels, List.append_assoc] at happend
          obtain ⟨hkey, happend⟩ := labelsFor_append_inj happend
          obtain ⟨htext, -, hrest⟩ := @append_mark_inj _ (· = 34) _ _ _ _ _ _
            (fun _ hcode heq => hnamed.bucket text rfl (heq ▸ hcode))
            (fun _ hcode heq => hnamed'.bucket text' rfl (heq ▸ hcode)) rfl rfl
            (List.append_cancel_left happend)
          exact ⟨by rw [hname, hkey, codesOf_injective htext], by simpa using hrest⟩

theorem Series.head_isPrefixOf_iff (hnamed : series.Named) (hnamed' : series'.Named) :
    series.head.isPrefixOf (series'.head ++ other) = true ↔ series = series' := by
  rw [List.isPrefixOf_iff_prefix]
  constructor
  · rintro ⟨rest, happend⟩
    exact (head_append_inj hnamed hnamed' happend).1
  · rintro rfl
    exact List.prefix_append _ _

/-- A series with a value is one line without line breaks. -/
theorem Series.newline_not_mem (hmetric : 10 ∉ codesOf series.metric)
    (hbucket : ∀ text ∈ series.bucket, 10 ∉ codesOf text) : 10 ∉ series.head := by
  obtain ⟨metric, key, bucket⟩ := series
  have hle : 10 ∉ codesOf ",le=\"" := by decide
  cases bucket with
  | none => simpa [head, newline_not_mem_labelsFor] using hmetric
  | some text =>
      have htext := hbucket text rfl
      simpa [head, bucketLabels, newline_not_mem_labelsFor, hle, htext] using hmetric

end Series

section Tables

variable {upper : Str → Str} {requests : List HttpRequestRecord} {request : HttpRequestRecord}
  {key : HttpMetricKey}

/-- The requests of a key. -/
def requestsOf (upper : Str → Str) (key : HttpMetricKey) (requests : List HttpRequestRecord) :
    List HttpRequestRecord :=
  requests.filter fun request => request.key upper = key

/-- The number of requests of a key whose duration is not above a bound. -/
def countNotAbove (upper : Str → Str) (key : HttpMetricKey) (bound : Binary64)
    (requests : List HttpRequestRecord) : Nat :=
  (requestsOf upper key requests).countP fun request => !bound.lt request.durationSeconds

/-- The sum of the durations of a key, in the order of the requests. -/
def sumOf (upper : Str → Str) (key : HttpMetricKey) (requests : List HttpRequestRecord) :
    Binary64 :=
  (requestsOf upper key requests).foldl (fun sum request => sum.add request.duration) (.finite 0)

@[simp] theorem requestsOf_append :
    requestsOf upper key (requests ++ [request]) =
      requestsOf upper key requests ++ if request.key upper = key then [request] else [] := by
  simp [requestsOf, List.filter_cons]

/-- Negative durations count as zero: that changes nothing for a bound that is not negative. -/
theorem duration_le_iff {bound : ℚ} (hbound : 0 ≤ bound) :
    request.duration.le (.finite bound) = !(Binary64.finite bound).lt request.durationSeconds := by
  obtain ⟨method, route, status, duration⟩ := request
  cases duration with
  | nan => simp [HttpRequestRecord.duration, Binary64.lt, Binary64.le, hbound]
  | infinite negative =>
      cases negative <;> simp [HttpRequestRecord.duration, Binary64.lt, Binary64.le, hbound]
  | finite value =>
      by_cases hpositive : 0 < value
      · simp [HttpRequestRecord.duration, Binary64.lt, Binary64.le, hpositive]
      · have hle : value ≤ bound := (not_lt.mp hpositive).trans hbound
        simp [HttpRequestRecord.duration, Binary64.lt, Binary64.le, hpositive, hbound, hle]

/-- The bounds of the buckets are numbers that are not negative. -/
theorem defaultHttpDurationBuckets_finite : ∀ bucket ∈ defaultHttpDurationBuckets,
    ∃ bound : ℚ, bucket.bound = .finite bound ∧ 0 ≤ bound := by
  have hbetween : ∀ bucket ∈ defaultHttpDurationBuckets, bucket.bound.between 0 10 = true := by
    decide +kernel
  intro bucket hbucket
  obtain ⟨bound, hbound, hpositive, -⟩ :=
    Binary64.between_eq_true_iff.mp (hbetween bucket hbucket)
  exact ⟨bound, hbound, hpositive⟩

theorem defaultHttpDurationBuckets_nodup :
    (defaultHttpDurationBuckets.map DurationBucket.bound).Nodup := by
  decide +kernel

namespace InMemoryHttpMetricsRecorder

variable {recorder : InMemoryHttpMetricsRecorder}

theorem afterRequests_append : afterRequests upper (requests ++ [request]) =
    (afterRequests upper requests).recordHttpRequest upper request := by
  simp [afterRequests, List.foldl_append]

/-- One request counts once in each bucket that is not below its duration. -/
theorem get?_foldl_update {durations : Dict (HttpMetricKey × Binary64) Nat} {bound : Binary64}
    {buckets : List DurationBucket} (hnodup : (buckets.map DurationBucket.bound).Nodup) :
    ((buckets.foldl (fun durations bucket =>
        if request.duration.le bucket.bound then
          durations.update 0 (· + 1) (request.key upper, bucket.bound)
        else durations) durations).get? (key, bound)).getD 0 =
      (durations.get? (key, bound)).getD 0 +
        if request.key upper = key ∧ bound ∈ buckets.map DurationBucket.bound ∧
          request.duration.le bound then 1 else 0 := by
  induction buckets generalizing durations with
  | nil => simp
  | cons bucket buckets ih =>
      rw [List.map_cons, List.nodup_cons] at hnodup
      rw [List.foldl_cons, ih hnodup.2]
      by_cases hle : request.duration.le bucket.bound = true
      · rw [if_pos hle, Dict.get?_update]
        by_cases hkey : request.key upper = key
        · by_cases hbound : bound = bucket.bound
          · subst hbound
            simp [hkey, hle, hnodup.1]
          · simp [hkey, hbound]
        · simp [hkey, Ne.symm hkey]
      · rw [if_neg hle]
        by_cases hbound : bound = bucket.bound
        · subst hbound
          simp [hle]
        · simp [hbound]

/-- The counts of the keys, after any requests. -/
theorem get?_requestCounts : (afterRequests upper requests).requestCounts.get? key =
    if requestsOf upper key requests = [] then none
    else some (requestsOf upper key requests).length := by
  induction requests using List.reverseRecOn with
  | nil => simp [afterRequests, requestsOf, Dict.get?]
  | append_singleton requests request ih =>
      rw [afterRequests_append, recordHttpRequest, Dict.get?_update, requestsOf_append]
      by_cases hkey : request.key upper = key
      · subst hkey
        rw [ih]
        by_cases hnone : requestsOf upper (request.key upper) requests = []
        · simp [hnone]
        · simp [hnone]
      · simp [hkey, Ne.symm hkey, ih]

theorem get?_durationSums :
    ((afterRequests upper requests).durationSums.get? key).getD (.finite 0) =
      sumOf upper key requests := by
  induction requests using List.reverseRecOn with
  | nil => simp [afterRequests, sumOf, requestsOf, Dict.get?]
  | append_singleton requests request ih =>
      rw [afterRequests_append, recordHttpRequest, Dict.get?_update, sumOf, requestsOf_append]
      by_cases hkey : request.key upper = key
      · subst hkey
        simp [ih, sumOf]
      · simp [hkey, Ne.symm hkey, ih, sumOf]

theorem get?_durationBuckets {bucket : DurationBucket}
    (hbucket : bucket ∈ defaultHttpDurationBuckets) :
    ((afterRequests upper requests).durationBuckets.get? (key, bucket.bound)).getD 0 =
      countNotAbove upper key bucket.bound requests := by
  induction requests using List.reverseRecOn with
  | nil => simp [afterRequests, countNotAbove, requestsOf, Dict.get?]
  | append_singleton requests request ih =>
      obtain ⟨bound, hbound, hpositive⟩ := defaultHttpDurationBuckets_finite bucket hbucket
      have hmem : bucket.bound ∈ defaultHttpDurationBuckets.map DurationBucket.bound :=
        List.mem_map_of_mem hbucket
      rw [afterRequests_append, recordHttpRequest,
        get?_foldl_update defaultHttpDurationBuckets_nodup, ih, countNotAbove, countNotAbove,
        requestsOf_append, List.countP_append]
      congr 1
      by_cases hkey : request.key upper = key
      · rw [hbound] at hmem ⊢
        simp [hkey, hmem, duration_le_iff hpositive, List.countP_cons]
      · simp [hkey]

end InMemoryHttpMetricsRecorder

end Tables

section Rendering

variable {upper : Str → Str} {requests : List HttpRequestRecord}
  {recorder : InMemoryHttpMetricsRecorder} {series : Series} {output : Str} {key : HttpMetricKey}

/-- The name of a metric of the recorder. -/
def metricNames : List String :=
  ["muxivo_console_http_requests_total", "muxivo_console_http_request_duration_seconds_sum",
    "muxivo_console_http_request_duration_seconds_count",
    "muxivo_console_http_request_duration_seconds_bucket"]

/-- The texts of the bounds, with the one of all requests. -/
def bucketTexts : List String :=
  defaultHttpDurationBuckets.map DurationBucket.text ++ ["+Inf"]

theorem bucketTexts_nodup : bucketTexts.Nodup := by decide +kernel

theorem Series.named (hmetric : series.metric ∈ metricNames)
    (hbucket : ∀ text ∈ series.bucket, text ∈ bucketTexts) : series.Named where
  metric := by
    have hall : ∀ name ∈ metricNames, 123 ∉ codesOf name := by decide +kernel
    exact hall _ hmetric
  bucket := by
    have hall : ∀ text ∈ bucketTexts, 34 ∉ codesOf text := by decide +kernel
    exact fun text htext => hall _ (hbucket text htext)

theorem seriesLine_eq (metric : String) (key : HttpMetricKey) (bucket : Option String)
    (value : Str) : seriesLine metric (bucket.elim (labelsFor key) (bucketLabels key)) value =
      Series.head ⟨metric, key, bucket⟩ ++ value := by
  simp [seriesLine, Series.head]

/-- A comment is no line of a series. -/
theorem head_isPrefixOf_comment (hmetric : series.metric ∈ metricNames) {comment : Str}
    (hcomment : comment.head? = some 35) : series.head.isPrefixOf comment = false := by
  have hall : ∀ name ∈ metricNames, (codesOf name).head? = some 109 := by decide +kernel
  have hname := hall _ hmetric
  rw [Bool.eq_false_iff]
  intro hhead
  obtain ⟨rest, rfl⟩ := List.isPrefixOf_iff_prefix.mp hhead
  cases hcodes : codesOf series.metric with
  | nil => simp [hcodes] at hname
  | cons code codes =>
      simp only [hcodes, List.head?_cons, Option.some.injEq] at hname
      simp [Series.head, hcodes, hname] at hcomment

namespace InMemoryHttpMetricsRecorder

/-- The entries of the snapshot stand for distinct keys. -/
theorem filter_sortedSnapshot {sample : HttpMetricSample}
    (hsample : (key, sample) ∈ recorder.snapshot) :
    (recorder.sortedSnapshot.filter fun entry => entry.1 = key) = [(key, sample)] := by
  have hkeys : (recorder.snapshot.map Prod.fst).Nodup := by
    have hsame : recorder.snapshot.map Prod.fst = recorder.requestCounts.items.map Prod.fst := by
      simp [snapshot]
    rw [hsame]
    exact recorder.requestCounts.distinct
  have hfiltered := Dict.filter_key_eq hkeys hsample
  have hperm : recorder.sortedSnapshot.Perm recorder.snapshot :=
    List.perm_insertionSort _ recorder.snapshot
  have hsorted := hperm.filter fun entry => decide (entry.1 = key)
  rw [hfiltered] at hsorted
  exact hsorted.eq_singleton

/-- The lines of one metric without buckets. -/
theorem filter_metric {metric : String} {value : HttpMetricSample → Str}
    {sample : HttpMetricSample} (hmetric : metric ∈ metricNames) (hnamed : series.Named)
    (hsample : (series.key, sample) ∈ recorder.snapshot) :
    ((recorder.sortedSnapshot.map fun entry =>
        seriesLine metric (labelsFor entry.1) (value entry.2)).filter
      (series.head.isPrefixOf ·)) =
      if series.metric = metric ∧ series.bucket = none then [series.head ++ value sample]
      else [] := by
  have hline (entry : HttpMetricKey × HttpMetricSample) :
      series.head.isPrefixOf (seriesLine metric (labelsFor entry.1) (value entry.2)) =
        decide (entry.1 = series.key ∧ series.metric = metric ∧ series.bucket = none) := by
    have hother : Series.Named ⟨metric, entry.1, none⟩ := Series.named hmetric (by simp)
    have hstarts := @Series.head_isPrefixOf_iff _ _ (value entry.2) hnamed hother
    rw [← seriesLine_eq metric entry.1 none] at hstarts
    rw [Bool.eq_iff_iff, decide_eq_true_iff]
    refine Iff.trans hstarts ?_
    constructor
    · intro hseries
      rw [hseries]
      exact ⟨rfl, rfl, rfl⟩
    · rintro ⟨hkey, hname, hnone⟩
      cases series
      simp_all
  rw [List.filter_map]
  have hcompose : ((fun line => series.head.isPrefixOf line) ∘ fun entry =>
      seriesLine metric (labelsFor entry.1) (value entry.2)) = fun entry : _ × HttpMetricSample =>
        decide (entry.1 = series.key ∧ series.metric = metric ∧ series.bucket = none) :=
    funext hline
  rw [hcompose]
  split_ifs with hsame
  · simp only [hsame, and_true]
    rw [filter_sortedSnapshot hsample, List.map_singleton]
    have hhead := seriesLine_eq metric series.key none (value sample)
    simp only [Option.elim] at hhead
    rw [hhead]
    cases series
    simp_all
  · simp [hsame]

/-- The text and the value of each bucket of an entry. -/
def bucketValues (recorder : InMemoryHttpMetricsRecorder)
    (entry : HttpMetricKey × HttpMetricSample) : List (String × Str) :=
  defaultHttpDurationBuckets.map (fun bucket => (bucket.text,
      showNat ((recorder.durationBuckets.get? (entry.1, bucket.bound)).getD 0))) ++
    [("+Inf", showNat entry.2.count)]

theorem map_fst_bucketValues (entry : HttpMetricKey × HttpMetricSample) :
    (recorder.bucketValues entry).map Prod.fst = bucketTexts := by
  simp [bucketValues, bucketTexts]

theorem bucketLines_eq (entry : HttpMetricKey × HttpMetricSample) :
    recorder.bucketLines entry = (recorder.bucketValues entry).map fun bucket =>
      Series.head ⟨"muxivo_console_http_request_duration_seconds_bucket", entry.1,
        some bucket.1⟩ ++ bucket.2 := by
  have hline (text : String) (value : Str) :
      seriesLine "muxivo_console_http_request_duration_seconds_bucket"
          (bucketLabels entry.1 text) value =
        Series.head ⟨"muxivo_console_http_request_duration_seconds_bucket", entry.1, some text⟩ ++
          value := seriesLine_eq _ entry.1 (some text) value
  simp only [bucketLines, bucketValues, List.map_append, List.map_map, List.map_singleton, hline]
  rfl

/-- The lines of an entry that belong to a series. -/
theorem filter_bucketLines (hnamed : series.Named) (entry : HttpMetricKey × HttpMetricSample) :
    (recorder.bucketLines entry).filter (series.head.isPrefixOf ·) =
      if series.metric = "muxivo_console_http_request_duration_seconds_bucket" ∧
        entry.1 = series.key then
        ((recorder.bucketValues entry).filter fun bucket => some bucket.1 = series.bucket).map
          fun bucket => series.head ++ bucket.2
      else [] := by
  have hline : ∀ bucket ∈ recorder.bucketValues entry,
      series.head.isPrefixOf (Series.head
        ⟨"muxivo_console_http_request_duration_seconds_bucket", entry.1, some bucket.1⟩ ++
          bucket.2) = decide (series =
        ⟨"muxivo_console_http_request_duration_seconds_bucket", entry.1, some bucket.1⟩) := by
    intro bucket hbucket
    have htext : bucket.1 ∈ bucketTexts := by
      rw [← map_fst_bucketValues entry]
      exact List.mem_map_of_mem hbucket
    rw [Bool.eq_iff_iff, decide_eq_true_iff]
    exact Series.head_isPrefixOf_iff hnamed
      (Series.named (by simp [metricNames]) (by simpa using htext))
  rw [bucketLines_eq, List.filter_map]
  have hfilter : (recorder.bucketValues entry).filter
      ((fun line => series.head.isPrefixOf line) ∘ fun bucket => Series.head
        ⟨"muxivo_console_http_request_duration_seconds_bucket", entry.1, some bucket.1⟩ ++
          bucket.2) = (recorder.bucketValues entry).filter fun bucket => decide (series =
        ⟨"muxivo_console_http_request_duration_seconds_bucket", entry.1, some bucket.1⟩) :=
    List.filter_congr hline
  rw [hfilter]
  obtain ⟨metric, key, bucket⟩ := series
  split_ifs with hsame
  · obtain ⟨rfl, rfl⟩ := hsame
    have hbucket (other : String × Str) : decide ((⟨
        "muxivo_console_http_request_duration_seconds_bucket", entry.1, bucket⟩ : Series) =
        ⟨"muxivo_console_http_request_duration_seconds_bucket", entry.1, some other.1⟩) =
          decide (some other.1 = bucket) := by
      rw [Bool.eq_iff_iff, decide_eq_true_iff, decide_eq_true_iff]
      constructor
      · intro hseries
        exact ((Series.mk.inj hseries).2.2).symm
      · rintro rfl
        rfl
    simp only [hbucket]
    refine List.map_congr_left fun other hother => ?_
    have hother := of_decide_eq_true (List.mem_filter.mp hother).2
    rw [hother]
  · rw [List.map_eq_nil_iff, List.filter_eq_nil_iff]
    intro other _ hseries
    obtain ⟨hmetric, hkey, -⟩ := Series.mk.inj (of_decide_eq_true hseries)
    exact hsame ⟨hmetric, hkey.symm⟩

/-- What an element alone contributes, the list contributes. -/
theorem flatMap_of_filter_eq {α β : Type} {items : List α} {accepts : α → Bool} {item : α}
    {parts : α → List β} (hone : items.filter accepts = [item])
    (hothers : ∀ other ∈ items, accepts other = false → parts other = []) :
    items.flatMap parts = parts item := by
  have hfiltered : items.flatMap parts = (items.filter accepts).flatMap parts := by
    clear hone
    induction items with
    | nil => rfl
    | cons head tail ih =>
        have htail := ih fun other hother => hothers other (List.mem_cons_of_mem _ hother)
        rw [List.flatMap_cons, List.filter_cons]
        split_ifs with hhead
        · rw [List.flatMap_cons, htail]
        · rw [hothers head List.mem_cons_self (by simpa using hhead), List.nil_append, htail]
  rw [hfiltered, hone, List.flatMap_cons, List.flatMap_nil, List.append_nil]

theorem filter_buckets {sample : HttpMetricSample} (hnamed : series.Named)
    (hsample : (series.key, sample) ∈ recorder.snapshot) :
    (recorder.sortedSnapshot.flatMap recorder.bucketLines).filter (series.head.isPrefixOf ·) =
      if series.metric = "muxivo_console_http_request_duration_seconds_bucket" then
        ((recorder.bucketValues (series.key, sample)).filter
          fun bucket => some bucket.1 = series.bucket).map fun bucket => series.head ++ bucket.2
      else [] := by
  rw [List.filter_flatMap, flatMap_of_filter_eq (filter_sortedSnapshot hsample) ?_,
    filter_bucketLines hnamed]
  · simp
  · intro entry _ hentry
    rw [filter_bucketLines hnamed, if_neg]
    rintro ⟨-, hkey⟩
    simp [hkey] at hentry

/-- Which lines begin with the head of a series. -/
theorem filter_lines {sample : HttpMetricSample} (hmetric : series.metric ∈ metricNames)
    (hbucket : ∀ text ∈ series.bucket, text ∈ bucketTexts)
    (hsample : (series.key, sample) ∈ recorder.snapshot) :
    recorder.lines.filter (series.head.isPrefixOf ·) =
      (if series.metric = "muxivo_console_http_requests_total" ∧ series.bucket = none then
        [series.head ++ showNat sample.count] else []) ++
      (if series.metric = "muxivo_console_http_request_duration_seconds_sum" ∧
        series.bucket = none then [series.head ++ fixedSix sample.durationSecondsSum] else []) ++
      (if series.metric = "muxivo_console_http_request_duration_seconds_count" ∧
        series.bucket = none then [series.head ++ showNat sample.count] else []) ++
      (if series.metric = "muxivo_console_http_request_duration_seconds_bucket" then
        ((recorder.bucketValues (series.key, sample)).filter
          fun bucket => some bucket.1 = series.bucket).map fun bucket => series.head ++ bucket.2
      else []) := by
  have hnamed := Series.named hmetric hbucket
  have htotal := @filter_metric recorder series "muxivo_console_http_requests_total"
    (fun sample => showNat sample.count) sample (by simp [metricNames]) hnamed hsample
  have hsum := @filter_metric recorder series "muxivo_console_http_request_duration_seconds_sum"
    (fun sample => fixedSix sample.durationSecondsSum) sample (by simp [metricNames]) hnamed hsample
  have hcount := @filter_metric recorder series "muxivo_console_http_request_duration_seconds_count"
    (fun sample => showNat sample.count) sample (by simp [metricNames]) hnamed hsample
  have hcomments {first second : Str} (hfirst : first.head? = some 35)
      (hsecond : second.head? = some 35) :
      [first, second].filter (series.head.isPrefixOf ·) = [] := by
    simp [head_isPrefixOf_comment hmetric hfirst, head_isPrefixOf_comment hmetric hsecond]
  simp only [lines, List.filter_append]
  rw [hcomments (by decide +kernel) (by decide +kernel),
    hcomments (by decide +kernel) (by decide +kernel),
    hcomments (by decide +kernel) (by decide +kernel),
    hcomments (by decide +kernel) (by decide +kernel),
    htotal, hsum, hcount, filter_buckets hnamed hsample]
  simp only [List.nil_append, List.append_nil]

theorem newline_not_mem_fixedSix {value : Binary64} : 10 ∉ fixedSix value := by
  have hnat (number : Nat) : 10 ∉ showNat number := fun hmem => by
    have hdigit := digit_of_mem_showNat hmem
    omega
  cases value with
  | nan => decide
  | infinite negative => cases negative <;> decide
  | finite value =>
      rw [fixedSix]
      split_ifs <;> simp [hnat]

theorem newline_not_mem_seriesLine {metric : String} {bucket : Option String} {value : Str}
    (hmetric : metric ∈ metricNames) (hbucket : ∀ text ∈ bucket, text ∈ bucketTexts)
    (hvalue : 10 ∉ value) : 10 ∉ Series.head ⟨metric, key, bucket⟩ ++ value := by
  have hmetrics : ∀ name ∈ metricNames, 10 ∉ codesOf name := by decide +kernel
  have htexts : ∀ text ∈ bucketTexts, 10 ∉ codesOf text := by decide +kernel
  have hhead := @Series.newline_not_mem ⟨metric, key, bucket⟩ (hmetrics _ hmetric)
    fun text htext => htexts _ (hbucket text htext)
  simp [hhead, hvalue]

theorem newline_not_mem_lines : ∀ line ∈ recorder.lines, 10 ∉ line := by
  have hnat (number : Nat) : 10 ∉ showNat number := fun hmem => by
    have hdigit := digit_of_mem_showNat hmem
    omega
  have hmetric {metric : String} (value : HttpMetricSample → Str) (hname : metric ∈ metricNames)
      (hvalue : ∀ sample, 10 ∉ value sample) : ∀ line ∈ recorder.sortedSnapshot.map fun entry =>
        seriesLine metric (labelsFor entry.1) (value entry.2), 10 ∉ line := by
    intro line hline
    obtain ⟨entry, -, rfl⟩ := List.mem_map.mp hline
    have hseries := seriesLine_eq metric entry.1 none (value entry.2)
    simp only [Option.elim] at hseries
    rw [hseries]
    exact newline_not_mem_seriesLine hname (by simp) (hvalue entry.2)
  have hbuckets : ∀ line ∈ recorder.sortedSnapshot.flatMap recorder.bucketLines, 10 ∉ line := by
    intro line hline
    obtain ⟨entry, -, hline⟩ := List.mem_flatMap.mp hline
    rw [bucketLines_eq] at hline
    obtain ⟨bucket, hbucket, rfl⟩ := List.mem_map.mp hline
    have htext : bucket.1 ∈ bucketTexts := by
      rw [← map_fst_bucketValues entry]
      exact List.mem_map_of_mem hbucket
    have hvalue : 10 ∉ bucket.2 := by
      rw [bucketValues, List.mem_append] at hbucket
      rcases hbucket with hbucket | hbucket
      · obtain ⟨_, -, rfl⟩ := List.mem_map.mp hbucket
        exact hnat _
      · rw [List.mem_singleton.mp hbucket]
        exact hnat _
    exact newline_not_mem_seriesLine (by simp [metricNames]) (by simpa using htext) hvalue
  intro line hline
  simp only [lines, List.mem_append] at hline
  rcases hline with (((((((hline | hline) | hline) | hline) | hline) | hline) | hline) | hline)
  · revert line
    decide +kernel
  · exact hmetric _ (by simp [metricNames]) (fun _ => hnat _) line hline
  · revert line
    decide +kernel
  · exact hmetric _ (by simp [metricNames]) (fun _ => newline_not_mem_fixedSix) line hline
  · revert line
    decide +kernel
  · exact hmetric _ (by simp [metricNames]) (fun _ => hnat _) line hline
  · revert line
    decide +kernel
  · exact hbuckets line hline

/-- The lines of a rendered text are the lines that were joined. -/
theorem splitOnP_rendered (hrendered : recorder.renderPrometheus = .ok output) :
    output.splitOnP (· == 10) = recorder.lines ++ [[]] := by
  rw [renderPrometheus] at hrendered
  split_ifs at hrendered
  have hlines : recorder.lines ≠ [] := by simp [lines]
  have htext : [10].intercalate (recorder.lines ++ [[]]) = output := by
    rw [intercalate_append_singleton hlines, List.append_nil]
    exact Except.ok.inj hrendered
  rw [← htext]
  refine splitOnP_intercalate (by decide) (by simp) fun line hline code hcode => ?_
  rcases List.mem_append.mp hline with hline | hline
  · simp only [beq_eq_false_iff_ne, ne_eq]
    rintro rfl
    exact newline_not_mem_lines line hline hcode
  · rw [List.mem_singleton.mp hline] at hcode
    exact absurd hcode List.not_mem_nil

end InMemoryHttpMetricsRecorder

open InMemoryHttpMetricsRecorder

/-- One line of the output begins with the series, and it goes on with the value. -/
def OneLine (output : Str) (series : Series) (value : Str) : Prop :=
  (output.splitOnP (· == 10)).filter (series.head.isPrefixOf ·) = [series.head ++ value]

/-- What the output says about a key after some requests. -/
structure ConsistentHistogram (upper : Str → Str) (requests : List HttpRequestRecord)
    (output : Str) (key : HttpMetricKey) : Prop where
  total : OneLine output ⟨"muxivo_console_http_requests_total", key, none⟩
    (showNat (requestsOf upper key requests).length)
  sum : OneLine output ⟨"muxivo_console_http_request_duration_seconds_sum", key, none⟩
    (fixedSix (sumOf upper key requests))
  count : OneLine output ⟨"muxivo_console_http_request_duration_seconds_count", key, none⟩
    (showNat (requestsOf upper key requests).length)
  bucket : ∀ bucket ∈ defaultHttpDurationBuckets,
    OneLine output ⟨"muxivo_console_http_request_duration_seconds_bucket", key, some bucket.text⟩
      (showNat (countNotAbove upper key bucket.bound requests))
  infinity :
    OneLine output ⟨"muxivo_console_http_request_duration_seconds_bucket", key, some "+Inf"⟩
      (showNat (requestsOf upper key requests).length)
  increasing : ∀ first ∈ defaultHttpDurationBuckets, ∀ second ∈ defaultHttpDurationBuckets,
    first.bound.le second.bound →
      countNotAbove upper key first.bound requests ≤ countNotAbove upper key second.bound requests
  below : ∀ bucket ∈ defaultHttpDurationBuckets,
    countNotAbove upper key bucket.bound requests ≤ (requestsOf upper key requests).length

theorem mem_snapshot (hkey : requestsOf upper key requests ≠ []) :
    (key, ⟨(requestsOf upper key requests).length, sumOf upper key requests⟩) ∈
      (afterRequests upper requests).snapshot := by
  have hcount := @get?_requestCounts upper requests key
  rw [if_neg hkey, Dict.get?_eq_some] at hcount
  refine List.mem_map.mpr ⟨_, hcount, ?_⟩
  rw [get?_durationSums]

theorem countNotAbove_mono {first second : DurationBucket}
    (hfirst : first ∈ defaultHttpDurationBuckets) (hsecond : second ∈ defaultHttpDurationBuckets)
    (hle : first.bound.le second.bound) :
    countNotAbove upper key first.bound requests ≤
      countNotAbove upper key second.bound requests := by
  obtain ⟨low, hlow, -⟩ := defaultHttpDurationBuckets_finite first hfirst
  obtain ⟨high, hhigh, -⟩ := defaultHttpDurationBuckets_finite second hsecond
  rw [hlow, hhigh] at hle ⊢
  refine List.countP_mono_left fun request _ hbelow => ?_
  have hbounds : low ≤ high := by simpa [Binary64.le] using hle
  cases hduration : request.durationSeconds with
  | nan => simp [Binary64.lt]
  | infinite negative =>
      rw [hduration] at hbelow
      cases negative <;> simp [Binary64.lt, Binary64.le] at hbelow ⊢
  | finite value =>
      rw [hduration] at hbelow
      simp only [Binary64.finite_lt_finite, Bool.not_eq_true', decide_eq_false_iff_not,
        not_lt] at hbelow ⊢
      exact hbelow.trans hbounds

/-- In the text that is rendered after any requests, each recorded key has one line for each
metric and each bucket, with the counts of its requests. -/
theorem rendered_metrics_are_histograms
    (hrendered : (afterRequests upper requests).renderPrometheus = .ok output) :
    (∀ request ∈ requests, ConsistentHistogram upper requests output (request.key upper)) ∧
      Function.Injective labelsFor := by
  refine ⟨fun request hrequest => ?_, labelsFor_injective⟩
  have hrecorded : requestsOf upper (request.key upper) requests ≠ [] := by
    rw [← List.length_pos_iff]
    exact List.length_pos_of_mem (List.mem_filter.mpr ⟨hrequest, by simp⟩)
  have hsample := mem_snapshot hrecorded
  have hlines (series : Series) (hkey : series.key = request.key upper)
      (hmetric : series.metric ∈ metricNames)
      (hbucket : ∀ text ∈ series.bucket, text ∈ bucketTexts) := by
    have hsplit : (output.splitOnP (· == 10)).filter (series.head.isPrefixOf ·) =
        (afterRequests upper requests).lines.filter (series.head.isPrefixOf ·) := by
      rw [splitOnP_rendered hrendered, List.filter_append]
      simp [Series.head]
    rw [← hkey] at hsample
    exact hsplit.trans (filter_lines hmetric hbucket hsample)
  have hbuckets {text : String} {value : Str} (hvalue : (text, value) ∈
      (afterRequests upper requests).bucketValues (request.key upper,
        ⟨(requestsOf upper (request.key upper) requests).length,
          sumOf upper (request.key upper) requests⟩)) :
      OneLine output ⟨"muxivo_console_http_request_duration_seconds_bucket", request.key upper,
        some text⟩ value := by
    have htext : text ∈ bucketTexts := by
      rw [← map_fst_bucketValues]
      exact List.mem_map_of_mem hvalue
    have hone := Dict.filter_key_eq (by rw [map_fst_bucketValues]; exact bucketTexts_nodup) hvalue
    rw [OneLine, hlines _ rfl (by simp [metricNames]) (by simpa using htext)]
    simp [hone]
  constructor
  · rw [OneLine, hlines _ rfl (by simp [metricNames]) (by simp)]
    simp
  · rw [OneLine, hlines _ rfl (by simp [metricNames]) (by simp)]
    simp
  · rw [OneLine, hlines _ rfl (by simp [metricNames]) (by simp)]
    simp
  · intro bucket hbucket
    rw [← get?_durationBuckets hbucket]
    exact hbuckets (List.mem_append_left _ (List.mem_map_of_mem hbucket))
  · exact hbuckets (List.mem_append_right _ List.mem_cons_self)
  · exact fun first hfirst second hsecond => countNotAbove_mono hfirst hsecond
  · exact fun bucket hbucket => List.countP_le_length

/-- A run with a quote in a route and a negative duration. -/
theorem metrics_of_two_requests : ∃ output,
    (afterRequests id [⟨codesOf "GET", codesOf "/a\"b", 200, .finite (-1)⟩,
      ⟨codesOf "GET", codesOf "/a\"b", 200, .finite 3⟩]).renderPrometheus = .ok output ∧
    ConsistentHistogram id [⟨codesOf "GET", codesOf "/a\"b", 200, .finite (-1)⟩,
      ⟨codesOf "GET", codesOf "/a\"b", 200, .finite 3⟩] output
        ⟨codesOf "GET", codesOf "/a\"b", 200⟩ := by
  have hprintable : (afterRequests id [⟨codesOf "GET", codesOf "/a\"b", 200, .finite (-1)⟩,
      ⟨codesOf "GET", codesOf "/a\"b", 200, .finite 3⟩]).printable = true := by
    decide +kernel
  refine ⟨_, if_pos hprintable, ?_⟩
  exact (rendered_metrics_are_histograms (if_pos hprintable)).1
    ⟨codesOf "GET", codesOf "/a\"b", 200, .finite (-1)⟩ List.mem_cons_self

end Rendering

end MuxivoConsole
