import Odirag.Documents.Document
import Odirag.Foundations.Parties
import Odirag.Foundations.Text
import Mathlib.Data.Finset.Prod

/-!
# The HTTP metrics

Reference: `backend/app/metrics.py`: `MetricsMiddleware.dispatch`, `route_label`,
`record_http_in_flight`, `record_http_exception`, `record` and the label helpers they call.

Any number of requests run at once. A request raises the gauge of its method and route when it
arrives and lowers it when it ends, however it ends; both look the label up again in a set of
labels that other requests extend meanwhile, up to 256. `metrics_accounted` says that the gauge is
nevertheless the number of requests in flight, that each ended request is counted once, and that
the series stay bounded.

A request arrives in one step and ends in one step: neither part awaits anything that is held
across an await. Which route a request resolves to is taken from the router.
-/

namespace Odirag.HttpMetrics

open Documents (isSpace)

/-- `_MAX_ROUTE_LABELS`. -/
def maxRouteLabels : ℕ := 256

/-- `_UNMATCHED_ROUTE`. -/
def unmatchedRoute : Text := str "<unmatched>"

/-- `_OTHER_ROUTE`. -/
def otherRoute : Text := str "<other>"

/-- `_HTTP_METHODS`. -/
def httpMethods : List Text :=
  strs ["CONNECT", "DELETE", "GET", "HEAD", "OPTIONS", "PATCH", "POST", "PUT", "TRACE"]

/-- `_STATUS_CLASSES`. -/
def statusClasses : List Text := strs ["1xx", "2xx", "3xx", "4xx", "5xx"]

/-- `_ERROR_CATEGORIES`. -/
def errorCategories : List Text :=
  strs ["none", "cancelled", "timeout", "transport", "http_4xx", "http_5xx",
    "missing_credentials", "invalid_response", "provider_error", "unexpected"]

/-- `MetricsRegistry`, as far as HTTP requests use it. A counter is the list of its increments. -/
structure Registry where
  /-- `_route_labels`. -/
  routeLabels : List Text := []
  /-- `_http_in_flight`, by method and route. -/
  inFlight : Text × Text → ℤ := fun _ => 0
  /-- `request_count`, by method, route and status. -/
  requestCount : List (Text × Text × ℕ) := []
  /-- `_http_requests_total`, by method, route and status class. -/
  requestsTotal : List (Text × Text × Text) := []
  /-- `_http_exceptions_total`, by route and category. -/
  exceptionsTotal : List (Text × Text) := []

/-- The label that `route_label` looks up for a path. -/
def candidateLabel (path : Text) : Text :=
  let candidate := if path = [] then unmatchedRoute else path
  let candidate := candidate.takeWhile (· ≠ '?')
  let candidate := if candidate.head? = some '/' then candidate else unmatchedRoute
  if 128 < candidate.length then unmatchedRoute else candidate

/-- `route_label`: the label, and the set of labels after it. -/
def routeLabel (labels : List Text) (path : Text) : Text × List Text :=
  let candidate := candidateLabel path
  if candidate ∈ labels then (candidate, labels)
  else if maxRouteLabels ≤ labels.length then (otherRoute, labels)
  else (candidate, candidate :: labels)

section

variable (upper : Text → Text)

/-- `_safe_method`. -/
def safeMethod (value : Text) : Text :=
  let normalized := upper (Text.stripBy isSpace value)
  if normalized ∈ httpMethods then normalized else str "OTHER"

/-- `_status_class`. -/
def statusClass (status : ℕ) : Text :=
  let value := (status / 100).repr.toList ++ str "xx"
  if value ∈ statusClasses then value else str "5xx"

/-- `_safe_error_category` of a category. -/
def safeErrorCategory (value : Text) : Text :=
  if value ∈ errorCategories then value else str "unexpected"

namespace Registry

/-- `record_http_in_flight`. -/
def recordInFlight (method route : Text) (delta : ℤ) (r : Registry) : Registry :=
  let (label, labels) := routeLabel r.routeLabels route
  let series := (safeMethod upper method, label)
  { r with
    routeLabels := labels
    inFlight := Function.update r.inFlight series (r.inFlight series + delta) }

/-- `record_http_exception`. -/
def recordException (route category : Text) (r : Registry) : Registry :=
  let (label, labels) := routeLabel r.routeLabels route
  { r with
    routeLabels := labels
    exceptionsTotal := (label, safeErrorCategory category) :: r.exceptionsTotal }

/-- `record`. -/
def record (method path : Text) (status : ℕ) (r : Registry) : Registry :=
  let (label, labels) := routeLabel r.routeLabels path
  { r with
    routeLabels := labels
    requestCount := (method, label, status) :: r.requestCount
    requestsTotal := (safeMethod upper method, label, statusClass status) :: r.requestsTotal }

end Registry

/-- How `call_next` ends. -/
inductive Outcome
  | response (status : ℕ)
  /-- An exception of this category. -/
  | raised (category : Text)
  /-- A cancellation, which is no `Exception`. -/
  | cancelled

/-- The status that is recorded. -/
def Outcome.status : Outcome → ℕ
  | response status => status
  | _ => 500

/-- A request in the middleware. -/
inductive Call
  | waiting
  /-- `call_next` is running: the method and `pending_route`. -/
  | pending (method route : Text)
  | done
deriving DecidableEq

/-- The two parts of `dispatch`, with the route that the request resolves to then. -/
inductive Act
  | arrive (method route : Text)
  | finish (outcome : Outcome) (route : Text)

/-- The part before `call_next`. -/
def Registry.arrive (method route : Text) (r : Registry) : Registry × Call :=
  let method := safeMethod upper method
  let (pendingRoute, labels) := routeLabel r.routeLabels route
  let r := { r with routeLabels := labels }
  (r.recordInFlight upper method pendingRoute 1, .pending method pendingRoute)

/-- The part after it. -/
def Registry.finish (method pendingRoute : Text) (outcome : Outcome) (route : Text)
    (r : Registry) : Registry :=
  let r :=
    match outcome with
    | .raised category => r.recordException route category
    | _ => r
  let r := r.recordInFlight upper method pendingRoute (-1)
  r.record upper method route outcome.status

/-- `MetricsMiddleware.dispatch`, from any point. -/
def Call.next (a : Act) (r : Registry) (call : Call) : Option (Registry × Call) :=
  match a, call with
  | .arrive method route, .waiting => some (r.arrive upper method route)
  | .finish outcome route, .pending method pendingRoute =>
      some (r.finish upper method pendingRoute outcome route, .done)
  | _, _ => none

variable (ι : Type*) [DecidableEq ι]

/-- Any number of requests. -/
def requests : Parties ι Registry Call Act where
  next _ := Call.next upper

/-- They run at once, from an empty registry. -/
def requestSystem : System (Parties.State ι Registry Call) (ι × Act) :=
  (requests upper ι).system fun s => s.shared = {} ∧ ∀ i, s.loc i = .waiting

end

/-! ## Labels -/

/-- The labels that a path may become. -/
def IsRouteLabel (label : Text) : Prop :=
  label = unmatchedRoute ∨ (label.head? = some '/' ∧ '?' ∉ label ∧ label.length ≤ 128)

theorem isRouteLabel_candidateLabel (path : Text) : IsRouteLabel (candidateLabel path) := by
  unfold candidateLabel
  generalize (if path = [] then unmatchedRoute else path) = given
  simp only
  by_cases hslash : (given.takeWhile (· ≠ '?')).head? = some '/'
  · rw [if_pos hslash]
    split
    · exact .inl rfl
    · refine .inr ⟨hslash, fun hmem => ?_, by omega⟩
      simpa using List.mem_takeWhile_imp hmem
  · rw [if_neg hslash, if_neg (by decide)]
    exact .inl rfl

/-- A label is looked up as itself. -/
theorem candidateLabel_of_isRouteLabel {label : Text} (h : IsRouteLabel label) :
    candidateLabel label = label := by
  rcases h with rfl | ⟨hslash, hquery, hlength⟩
  · decide
  · have hne : label ≠ [] := fun hnil => by simp [hnil] at hslash
    have htake : label.takeWhile (· ≠ '?') = label := by
      refine List.takeWhile_eq_self_iff.mpr fun c hc => ?_
      simpa using fun heq : c = '?' => hquery (heq ▸ hc)
    have hshort : ¬ 128 < label.length := by omega
    simp only [candidateLabel, hne, if_false, htake, hslash, if_true, hshort]

/-- A set of labels that `route_label` has built. -/
structure Tidy (labels : List Text) : Prop where
  nodup : labels.Nodup
  length_le : labels.length ≤ maxRouteLabels
  isRouteLabel : ∀ label ∈ labels, IsRouteLabel label

/-- Labels are only added, and none to a full set. -/
structure Grown (labels labels' : List Text) : Prop where
  subset : labels ⊆ labels'
  full : maxRouteLabels ≤ labels.length → labels' = labels

/-- No lookup of this route changes the set any more. -/
def Settled (labels : List Text) (route : Text) : Prop :=
  route ∈ labels ∨ maxRouteLabels ≤ labels.length

section Labels

variable {labels labels' : List Text} {route : Text}

theorem Grown.refl (labels : List Text) : Grown labels labels :=
  ⟨List.Subset.refl labels, fun _ => rfl⟩

theorem Grown.trans {labels'' : List Text} (h : Grown labels labels')
    (h' : Grown labels' labels'') : Grown labels labels'' where
  subset := List.Subset.trans h.subset h'.subset
  full hfull := by
    have heq := h.full hfull
    rw [h'.full (heq ▸ hfull), heq]

theorem Settled.grown (h : Settled labels route) (hgrown : Grown labels labels') :
    Settled labels' route := by
  rcases h with h | h
  · exact .inl (hgrown.subset h)
  · exact .inr (hgrown.full h ▸ h)

/-- What a lookup does to the set. -/
theorem routeLabel_cases (labels : List Text) (path : Text) :
    (candidateLabel path ∈ labels ∧ routeLabel labels path = (candidateLabel path, labels)) ∨
      (maxRouteLabels ≤ labels.length ∧ routeLabel labels path = (otherRoute, labels)) ∨
      (candidateLabel path ∉ labels ∧ labels.length < maxRouteLabels ∧
        routeLabel labels path = (candidateLabel path, candidateLabel path :: labels)) := by
  unfold routeLabel
  simp only
  split
  · next hmem => exact .inl ⟨hmem, rfl⟩
  · next hmem =>
      split
      · next hfull => exact .inr (.inl ⟨hfull, rfl⟩)
      · next hfree => exact .inr (.inr ⟨hmem, by omega, rfl⟩)

theorem grown_routeLabel (labels : List Text) (path : Text) :
    Grown labels (routeLabel labels path).2 := by
  rcases routeLabel_cases labels path with ⟨-, h⟩ | ⟨-, h⟩ | ⟨-, hlt, h⟩ <;> rw [h]
  · exact .refl labels
  · exact .refl labels
  · exact ⟨List.subset_cons_self _ _, fun hfull => absurd hfull (by omega)⟩

theorem Tidy.routeLabel (h : Tidy labels) (path : Text) :
    Tidy (routeLabel labels path).2 := by
  rcases routeLabel_cases labels path with ⟨-, heq⟩ | ⟨-, heq⟩ | ⟨hnew, hlt, heq⟩ <;> rw [heq]
  · exact h
  · exact h
  · refine ⟨List.nodup_cons.mpr ⟨hnew, h.nodup⟩, Nat.succ_le_of_lt hlt, fun label hlabel => ?_⟩
    rcases List.mem_cons.mp hlabel with rfl | hlabel
    · exact isRouteLabel_candidateLabel path
    · exact h.isRouteLabel label hlabel

/-- The label that a lookup gives is known, or it is the one for all others. -/
theorem routeLabel_known (labels : List Text) (path : Text) :
    (routeLabel labels path).1 = otherRoute ∨
      (routeLabel labels path).1 ∈ (routeLabel labels path).2 := by
  rcases routeLabel_cases labels path with ⟨hmem, h⟩ | ⟨-, h⟩ | ⟨-, -, h⟩ <;> rw [h]
  · exact .inr hmem
  · exact .inl rfl
  · exact .inr List.mem_cons_self

/-- What a lookup gives is settled. -/
theorem settled_routeLabel (labels : List Text) (path : Text) :
    Settled (routeLabel labels path).2 (routeLabel labels path).1 := by
  rcases routeLabel_cases labels path with ⟨hmem, h⟩ | ⟨hfull, h⟩ | ⟨-, -, h⟩ <;> rw [h]
  · exact .inl hmem
  · exact .inr hfull
  · exact .inl List.mem_cons_self

/-- Looking a settled route up again changes nothing. -/
theorem Settled.routeLabel_snd (h : Settled labels route) (htidy : Tidy labels) :
    (routeLabel labels route).2 = labels := by
  rcases routeLabel_cases labels route with ⟨-, heq⟩ | ⟨-, heq⟩ | ⟨hnew, hlt, heq⟩
  · rw [heq]
  · rw [heq]
  · rcases h with h | h
    · rw [candidateLabel_of_isRouteLabel (htidy.isRouteLabel route h)] at hnew
      exact absurd h hnew
    · omega

/-- A settled route keeps its label while other requests add theirs. -/
theorem Settled.routeLabel_fst (h : Settled labels route) (htidy : Tidy labels)
    (hgrown : Grown labels labels') :
    (routeLabel labels' route).1 = (routeLabel labels route).1 := by
  rcases h with h | h
  · have hsame := candidateLabel_of_isRouteLabel (htidy.isRouteLabel route h)
    simp [routeLabel, hsame, h, hgrown.subset h]
  · rw [hgrown.full h]

end Labels

/-! ## One request -/

section

variable {upper : Text → Text}

/-- `call_next` is running. -/
def Call.isPending : Call → Bool
  | .pending _ _ => true
  | _ => false

/-- The series in whose gauge a request is. -/
def Call.series (upper : Text → Text) (labels : List Text) : Call → Option (Text × Text)
  | .pending method route => some (safeMethod upper method, (routeLabel labels route).1)
  | _ => none

/-- The series that a counter of ended requests may have. -/
def IsSeries (labels : List Text) (series : Text × Text × Text) : Prop :=
  series.1 ∈ str "OTHER" :: httpMethods ∧ series.2.1 ∈ otherRoute :: labels ∧
    series.2.2 ∈ statusClasses

theorem safeMethod_mem (value : Text) : safeMethod upper value ∈ str "OTHER" :: httpMethods := by
  unfold safeMethod
  simp only
  split
  · next hmem => exact List.mem_cons_of_mem _ hmem
  · exact List.mem_cons_self

theorem statusClass_mem (status : ℕ) : statusClass status ∈ statusClasses := by
  unfold statusClass
  simp only
  split
  · assumption
  · decide

theorem IsSeries.grown {labels labels' : List Text} {series : Text × Text × Text}
    (h : IsSeries labels series) (hgrown : Grown labels labels') : IsSeries labels' series :=
  ⟨h.1, List.cons_subset_cons _ hgrown.subset h.2.1, h.2.2⟩

/-- What an arrival does to the registry. -/
theorem Registry.arrive_spec (upper : Text → Text) {r : Registry} (htidy : Tidy r.routeLabels)
    (method route : Text) :
    ∃ labels pendingRoute, Tidy labels ∧ Grown r.routeLabels labels ∧
      Settled labels pendingRoute ∧
      let call := Call.pending (safeMethod upper method) pendingRoute
      let series := (safeMethod upper (safeMethod upper method), (routeLabel labels pendingRoute).1)
      r.arrive upper method route =
        ({ r with routeLabels := labels
                  inFlight := Function.update r.inFlight series (r.inFlight series + 1) }, call) := by
  have htidy' := htidy.routeLabel route
  have hsettled := settled_routeLabel r.routeLabels route
  refine ⟨(routeLabel r.routeLabels route).2, (routeLabel r.routeLabels route).1, htidy',
    grown_routeLabel _ _, hsettled, ?_⟩
  simp only [arrive, recordInFlight, hsettled.routeLabel_snd htidy']

/-- What an end does to the registry. -/
theorem Registry.finish_spec (upper : Text → Text) {r : Registry} (htidy : Tidy r.routeLabels)
    (method : Text) {pendingRoute : Text} (hsettled : Settled r.routeLabels pendingRoute)
    (outcome : Outcome) (route : Text) :
    ∃ labels exceptions count total, Tidy labels ∧ Grown r.routeLabels labels ∧
      IsSeries labels total ∧
      let series := (safeMethod upper method, (routeLabel r.routeLabels pendingRoute).1)
      r.finish upper method pendingRoute outcome route =
        { routeLabels := labels
          inFlight := Function.update r.inFlight series (r.inFlight series + -1)
          requestCount := count :: r.requestCount
          requestsTotal := total :: r.requestsTotal
          exceptionsTotal := exceptions } := by
  -- An exception is recorded first.
  obtain ⟨labels, exceptions, htidy', hgrown, hraised⟩ : ∃ labels exceptions, Tidy labels ∧
      Grown r.routeLabels labels ∧
      (match outcome with
        | .raised category => r.recordException route category
        | _ => r) = { r with routeLabels := labels, exceptionsTotal := exceptions } := by
    cases outcome with
    | response status => exact ⟨_, _, htidy, .refl _, rfl⟩
    | cancelled => exact ⟨_, _, htidy, .refl _, rfl⟩
    | raised category =>
        exact ⟨_, _, htidy.routeLabel route, grown_routeLabel _ _, rfl⟩
  have hlabel := hsettled.routeLabel_fst htidy hgrown
  have hsame := (hsettled.grown hgrown).routeLabel_snd htidy'
  refine ⟨(routeLabel labels route).2, exceptions,
    (method, (routeLabel labels route).1, outcome.status),
    (safeMethod upper method, (routeLabel labels route).1, statusClass outcome.status),
    htidy'.routeLabel route, hgrown.trans (grown_routeLabel _ _),
    ⟨safeMethod_mem method, ?_, statusClass_mem _⟩, ?_⟩
  · rcases routeLabel_known labels route with hother | hknown
    · exact List.mem_cons.mpr (.inl hother)
    · exact List.mem_cons_of_mem _ hknown
  · unfold finish
    rw [hraised]
    simp only [recordInFlight, record, hsame, hlabel]

/-! ## The invariant -/

variable {ι : Type*} [DecidableEq ι]

/-- The registry tells what the requests do. -/
structure Accounted (upper : Text → Text) (s : Parties.State ι Registry Call) : Prop where
  tidy : Tidy s.shared.routeLabels
  settled : ∀ i method route, s.loc i = .pending method route →
    Settled s.shared.routeLabels route
  /-- The gauge of a series is the number of requests in flight there. -/
  inFlight : ∃ active : Finset ι, (∀ i, i ∈ active ↔ (s.loc i).isPending = true) ∧
    ∀ series, s.shared.inFlight series =
      (active.filter fun i => (s.loc i).series upper s.shared.routeLabels = some series).card
  /-- Each ended request is counted once. -/
  counted : ∃ finished : Finset ι, (∀ i, i ∈ finished ↔ s.loc i = .done) ∧
    s.shared.requestCount.length = finished.card ∧ s.shared.requestsTotal.length = finished.card
  isSeries : ∀ series ∈ s.shared.requestsTotal, IsSeries s.shared.routeLabels series

/-- A request stays in its series while the labels grow. -/
theorem Call.series_grown {labels labels' : List Text} {call : Call} (htidy : Tidy labels)
    (hsettled : ∀ method route, call = .pending method route → Settled labels route)
    (hgrown : Grown labels labels') : call.series upper labels' = call.series upper labels := by
  cases call with
  | pending method route =>
      simp only [Call.series, (hsettled method route rfl).routeLabel_fst htidy hgrown]
  | waiting => rfl
  | done => rfl

/-- An arrival is accounted for. -/
theorem Accounted.arrive {s : Parties.State ι Registry Call} (h : Accounted upper s) {i : ι}
    (hi : s.loc i = .waiting) (method route : Text) :
    Accounted upper ⟨(s.shared.arrive upper method route).1,
      Function.update s.loc i (s.shared.arrive upper method route).2⟩ := by
  obtain ⟨labels, pendingRoute, htidy, hgrown, hsettled, heq⟩ :=
    Registry.arrive_spec upper h.tidy method route
  obtain ⟨active, hactive, hgauge⟩ := h.inFlight
  obtain ⟨finished, hfinished, hcount, htotal⟩ := h.counted
  rw [heq]
  have hnew : i ∉ active := fun hmem => by simp [hactive, hi, Call.isPending] at hmem
  have hothers : ∀ j ∈ active, Function.update s.loc i
      (Call.pending (safeMethod upper method) pendingRoute) j = s.loc j := fun j hj =>
    Function.update_of_ne (fun hji : j = i => hnew (hji ▸ hj)) _ _
  refine ⟨htidy, fun j m r hj => ?_, ⟨insert i active, fun j => ?_, fun series => ?_⟩,
    ⟨finished, fun j => ?_, hcount, htotal⟩, fun e he => (h.isSeries e he).grown hgrown⟩
  · by_cases hji : j = i
    · subst hji
      simp only [Function.update_self, Call.pending.injEq] at hj
      exact hj.2 ▸ hsettled
    · simp only [Function.update_of_ne hji] at hj
      exact (h.settled j m r hj).grown hgrown
  · by_cases hji : j = i
    · subst hji
      simp [Call.isPending]
    · simp [hji, hactive]
  · -- The others stay in their series.
    have hfilter : (active.filter fun j => (Function.update s.loc i
        (Call.pending (safeMethod upper method) pendingRoute) j).series upper labels =
          some series) =
        active.filter fun j => (s.loc j).series upper s.shared.routeLabels = some series := by
      refine Finset.filter_congr fun j hj => ?_
      rw [hothers j hj, Call.series_grown h.tidy (h.settled j) hgrown]
    have hown : (Function.update s.loc i (Call.pending (safeMethod upper method) pendingRoute)
        i).series upper labels = some (safeMethod upper (safeMethod upper method),
          (routeLabel labels pendingRoute).1) := by
      rw [Function.update_self]
      rfl
    rw [Finset.filter_insert, hfilter]
    change Function.update s.shared.inFlight _ _ series = _
    by_cases hseries : (safeMethod upper (safeMethod upper method),
        (routeLabel labels pendingRoute).1) = series
    · subst hseries
      rw [if_pos hown, Finset.card_insert_of_notMem (by simp [hnew]), Function.update_self, hgauge]
      push_cast
      rfl
    · have hother : ¬ (Function.update s.loc i (Call.pending (safeMethod upper method)
          pendingRoute) i).series upper labels = some series := by
        rw [hown, Option.some_inj]
        exact hseries
      rw [if_neg hother, Function.update_of_ne (Ne.symm hseries), hgauge]
  · by_cases hji : j = i
    · subst hji
      simp [hfinished, hi]
    · simp [hji, hfinished]

/-- An end is accounted for. -/
theorem Accounted.finish {s : Parties.State ι Registry Call} (h : Accounted upper s) {i : ι}
    {method pendingRoute : Text} (hi : s.loc i = .pending method pendingRoute)
    (outcome : Outcome) (route : Text) :
    Accounted upper ⟨s.shared.finish upper method pendingRoute outcome route,
      Function.update s.loc i .done⟩ := by
  have hsettled := h.settled i method pendingRoute hi
  obtain ⟨labels, exceptions, count, total, htidy, hgrown, hseries, heq⟩ :=
    Registry.finish_spec upper h.tidy method hsettled outcome route
  obtain ⟨active, hactive, hgauge⟩ := h.inFlight
  obtain ⟨finished, hfinished, hcount, htotal⟩ := h.counted
  rw [heq]
  have hmem : i ∈ active := by simp [hactive, hi, Call.isPending]
  have hnew : i ∉ finished := fun hmem => by simp [hfinished, hi] at hmem
  refine ⟨htidy, fun j m r hj => ?_, ⟨active.erase i, fun j => ?_, fun series => ?_⟩,
    ⟨insert i finished, fun j => ?_, ?_, ?_⟩, fun e he => ?_⟩
  · by_cases hji : j = i
    · subst hji
      simp at hj
    · simp only [Function.update_of_ne hji] at hj
      exact (h.settled j m r hj).grown hgrown
  · by_cases hji : j = i
    · subst hji
      simp [Call.isPending]
    · simp [hji, hactive]
  · -- The others stay in their series.
    have hfilter : ((active.erase i).filter fun j => (Function.update s.loc i
        Call.done j).series upper labels = some series) =
        (active.filter fun j =>
          (s.loc j).series upper s.shared.routeLabels = some series).erase i := by
      rw [Finset.filter_erase]
      ext j
      by_cases hji : j = i
      · simp [hji]
      · simp [hji, Call.series_grown h.tidy (h.settled j) hgrown]
    have hown : (s.loc i).series upper s.shared.routeLabels =
        some (safeMethod upper method, (routeLabel s.shared.routeLabels pendingRoute).1) := by
      rw [hi]
      rfl
    rw [hfilter]
    change Function.update s.shared.inFlight _ _ series = _
    by_cases hsame : (safeMethod upper method,
        (routeLabel s.shared.routeLabels pendingRoute).1) = series
    · subst hsame
      have hin : i ∈ active.filter fun j => (s.loc j).series upper s.shared.routeLabels =
          some (safeMethod upper method, (routeLabel s.shared.routeLabels pendingRoute).1) :=
        Finset.mem_filter.mpr ⟨hmem, hown⟩
      have hpos := Finset.card_pos.mpr ⟨i, hin⟩
      rw [Finset.card_erase_of_mem hin, Function.update_self, hgauge]
      omega
    · have hout : i ∉ active.filter fun j =>
          (s.loc j).series upper s.shared.routeLabels = some series := by
        simp [hown, hsame]
      rw [Finset.erase_eq_of_notMem hout, Function.update_of_ne (Ne.symm hsame), hgauge]
  · by_cases hji : j = i
    · subst hji
      simp
    · simp [hji, hfinished]
  · simp [hcount, Finset.card_insert_of_notMem hnew]
  · simp [htotal, Finset.card_insert_of_notMem hnew]
  · rcases List.mem_cons.mp he with rfl | he
    · exact hseries
    · exact (h.isSeries e he).grown hgrown

/-- Every step of every request is accounted for. -/
theorem Accounted.step {s s' : Parties.State ι Registry Call} {l : ι × Act}
    (h : Accounted upper s) (hstep : (requestSystem upper ι).step s l s') :
    Accounted upper s' := by
  obtain ⟨i, a⟩ := l
  obtain ⟨r, call, hnext, rfl⟩ := Parties.step_iff.mp hstep
  cases a with
  | arrive method route =>
      cases hi : s.loc i with
      | waiting =>
          simp only [requests, Call.next, hi, Option.some.injEq] at hnext
          have harrive := h.arrive hi method route
          rw [hnext] at harrive
          exact harrive
      | pending m r => simp [requests, Call.next, hi] at hnext
      | done => simp [requests, Call.next, hi] at hnext
  | finish outcome route =>
      cases hi : s.loc i with
      | pending method pendingRoute =>
          simp only [requests, Call.next, hi, Option.some.injEq, Prod.mk.injEq] at hnext
          obtain ⟨rfl, rfl⟩ := hnext
          exact h.finish hi outcome route
      | waiting => simp [requests, Call.next, hi] at hnext
      | done => simp [requests, Call.next, hi] at hnext

/-! ## Runs -/

/-- The series of the counter are few. -/
theorem card_series_le {labels : List Text} (htidy : Tidy labels)
    {total : List (Text × Text × Text)} (h : ∀ series ∈ total, IsSeries labels series) :
    total.toFinset.card ≤ 10 * (257 * 5) := by
  have hsubset : total.toFinset ⊆
      (str "OTHER" :: httpMethods).toFinset ×ˢ
        ((otherRoute :: labels).toFinset ×ˢ statusClasses.toFinset) := by
    intro series hseries
    obtain ⟨hmethod, hroute, hclass⟩ := h series (List.mem_toFinset.mp hseries)
    simp only [Finset.mem_product, List.mem_toFinset]
    exact ⟨hmethod, hroute, hclass⟩
  refine (Finset.card_le_card hsubset).trans ?_
  rw [Finset.card_product, Finset.card_product]
  have hlabels : (otherRoute :: labels).toFinset.card ≤ 257 :=
    (List.toFinset_card_le _).trans (Nat.succ_le_succ htidy.length_le)
  have hmethods : (str "OTHER" :: httpMethods).toFinset.card ≤ 10 := List.toFinset_card_le _
  have hclasses : statusClasses.toFinset.card ≤ 5 := List.toFinset_card_le _
  exact Nat.mul_le_mul hmethods (Nat.mul_le_mul hlabels hclasses)

/-- In every interleaving of any number of requests, whatever routes they resolve to and however
they end: the gauge of each series is the number of requests in flight there, each ended request is
counted once, every route label is a path without query of at most 128 characters or the label of
unmatched routes, and the counter has a bounded number of series. -/
theorem metrics_accounted {tr : List (Parties.State ι Registry Call × (ι × Act))}
    {s : Parties.State ι Registry Call} (h : (requestSystem upper ι).Run System.always tr s) :
    (∃ active : Finset ι, (∀ i, i ∈ active ↔ (s.loc i).isPending = true) ∧
      ∀ series, s.shared.inFlight series =
        (active.filter fun i =>
          (s.loc i).series upper s.shared.routeLabels = some series).card) ∧
      (∃ finished : Finset ι, (∀ i, i ∈ finished ↔ s.loc i = .done) ∧
        s.shared.requestCount.length = finished.card ∧
        s.shared.requestsTotal.length = finished.card) ∧
      (∀ label ∈ s.shared.routeLabels, IsRouteLabel label) ∧
      s.shared.requestsTotal.toFinset.card ≤ 10 * (257 * 5) := by
  have haccounted : Accounted upper s := by
    refine h.invariant (I := fun _ s => Accounted upper s) ?_ ?_
    · rintro ⟨r, loc⟩ ⟨rfl, hwaiting⟩
      have hloc : ∀ i, loc i = .waiting := hwaiting
      refine ⟨⟨List.nodup_nil, Nat.zero_le _, by simp⟩, fun i m r hi => ?_,
        ⟨∅, fun i => ?_, fun series => ?_⟩, ⟨∅, fun i => ?_, rfl, rfl⟩, by simp⟩
      · simp [hloc i] at hi
      · simp [hloc i, Call.isPending]
      · simp
      · simp [hloc i]
    · exact fun _ _ _ _ _ hs _ hstep => hs.step hstep
  exact ⟨haccounted.inFlight, haccounted.counted, haccounted.tidy.isRouteLabel,
    card_series_le haccounted.tidy haccounted.isSeries⟩

/-- Two requests of one route, one of which ends with an exception while the other waits. -/
def twoRequests : List (ℕ × Act) :=
  [(0, .arrive (str "get") (str "/api/chat")), (1, .arrive (str "GET") (str "/api/chat?q=1")),
    (0, .finish (.raised (str "timeout")) (str "/api/chat"))]

/-- The second one is still in the gauge. -/
theorem metrics_accounted_twoRequests :
    ∃ tr s, (requestSystem (List.map Char.toUpper) ℕ).Run System.always tr s ∧
      s.shared.inFlight (str "GET", str "/api/chat") = 1 ∧
      s.shared.requestsTotal.toFinset.card ≤ 10 * (257 * 5) := by
  let start : Parties.State ℕ Registry Call := ⟨{}, fun _ => .waiting⟩
  obtain ⟨s, hs⟩ := Option.isSome_iff_exists.mp
    (by decide : ((requests (List.map Char.toUpper) ℕ).exec start twoRequests).isSome = true)
  have hcheck : ((requests (List.map Char.toUpper) ℕ).exec start twoRequests).map (fun s =>
      s.shared.inFlight (str "GET", str "/api/chat")) = some 1 := by
    decide
  rw [hs] at hcheck
  have hrun : (requestSystem (List.map Char.toUpper) ℕ).Run System.always
      ((requests (List.map Char.toUpper) ℕ).traceOf start twoRequests) s :=
    ⟨start, ⟨rfl, fun _ => rfl⟩, System.exec_path hs⟩
  exact ⟨_, s, hrun, Option.some.inj hcheck, (metrics_accounted hrun).2.2.2⟩

end

end Odirag.HttpMetrics
