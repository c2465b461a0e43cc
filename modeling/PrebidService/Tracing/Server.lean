-- SUMMARY: The tracing middlewares for incoming requests (tracerHandler.Middleware, the httprouter wrapper) and the span exporter: the status recorded, the span a request gets, and what becomes of its trace data.
import PrebidService.Tracing.Http

/-!
# Traced incoming requests

`tracing/http/handler.go` (`tracerHandler.Middleware`) and `tracing/httprouter/router.go`
(the handle `Router.handle` registers) wrap the server's handlers in the same code: start a
span, put its trace ID into the request's context, set the request's attributes, run the
handler with a response writer that records the first status code written, then set the
status and the data the handler gathered for the trace (`GetTraceData`). Two calls are
deferred: `span.End()` and, after it in the code and so before it when they run,
`RemoveTraceData`. `span.End()` hands the span to the exporter of `tracing/exporter.go`
(`monitoring/tracing/tracer.go` installs it as a syncer), which appends the trace's data
again, if any is left.

`serveTraced` is the shared code from the moment the request's attributes are set. A handler
is seen through what the middleware sees of it: the codes it passes to `WriteHeader`, and
the trace map it leaves. The span's trace ID, and the host name `os.Hostname()` returns, are
inputs of a run.
-/

namespace PrebidService.Tracing

-- ----------------------------------------------------------------------------
-- The code both middlewares run
-- ----------------------------------------------------------------------------

/-- An `http.Handler`, run with a context on a request and a trace map: the codes it passes
to `WriteHeader`, in order, and the trace map it leaves. -/
abbrev Handler := Option Ctx → Request → TraceMap → List Int × TraceMap

/-- `ResponseWriter.Status` once the handler has returned: the `WriteHeader` hook of
`NewResponseWriter` keeps the first code. -/
def recordStatus (codes : List Int) : Int :=
  codes.foldl (fun status code => if status = 0 then code else status) 0

/-- The code the wrappers share once the span named `name` is started and the request's
attributes `props` are set: the handler runs with `traceID` and the span in its context,
the status and the trace's data are set, and the deferred `RemoveTraceData` runs. The span
as it ends, the codes the client gets, and the trace map left. -/
def serveTraced (name : String) (props : List KeyValue) (traceID : String)
    (serve : Option Ctx → TraceMap → List Int × TraceMap) (m : TraceMap) :
    Span × List Int × TraceMap :=
  let (codes, m) := serve (some ⟨some traceID, true⟩) m
  let status := recordStatus codes
  let status := if status = 0 then 200 else status
  (⟨name, ⟨"name", .string name⟩ :: props ++
      ⟨"resp.status_code", .int64 status⟩ :: getTraceData m traceID⟩,
    codes, removeTraceData m traceID)

/-- `WrapExporter.ExportSpan`: the attributes exported for a span of the trace `traceID`
that ended with `attributes`, with the trace map `m` at that moment; `fmtAttrs` is
`fmt.Sprintf("%+v", .)` on attributes. -/
def exportSpan (fmtAttrs : List KeyValue → String) (m : TraceMap) (traceID : String)
    (attributes : List KeyValue) : List KeyValue :=
  let attributes := attributes ++ getTraceData m traceID
  attributes ++ [⟨"meta.event.size", .int64 (fmtAttrs attributes).utf8ByteSize⟩]

private theorem foldl_recordStatus_of_ne {status : Int} (h : status ≠ 0) (codes : List Int) :
    codes.foldl (fun status code => if status = 0 then code else status) status = status := by
  induction codes with
  | nil => rfl
  | cons c cs ih => simpa [h] using ih

/-- The recorded status is the first code written that is not 0. -/
theorem recordStatus_eq (codes : List Int) :
    recordStatus codes = (codes.find? (· != 0)).getD 0 := by
  unfold recordStatus
  induction codes with
  | nil => rfl
  | cons c cs ih =>
    by_cases hc : c = 0
    · simpa [hc] using ih
    · simp [hc, foldl_recordStatus_of_ne hc]

/-- The span's status: the first code written, or 200 when the handler wrote none. -/
theorem status_eq (codes : List Int) :
    (if recordStatus codes = 0 then 200 else recordStatus codes) =
      (codes.find? (· != 0)).getD 200 := by
  rw [recordStatus_eq]
  cases h : codes.find? (· != 0) with
  | none => rfl
  | some c =>
    have hc : c ≠ 0 := by simpa using List.find?_some h
    simp [hc]

/-- A handler whose calls on the trace of its context run one after another, on a trace map
that holds nothing for the trace yet: the span carries, after the request's attributes and
the status, exactly the pairs the calls added, and the trace map is left as it was found. -/
theorem serveTraced_serial (name : String) (props : List KeyValue) {traceID : String}
    {m : TraceMap} (hm : m traceID = none) (codes : List Int) (adds : List Adder) :
    serveTraced name props traceID
        (fun ctx m => (codes, adds.foldl (fun m a => a.addToTrace m ctx) m)) m =
      (⟨name, ⟨"name", .string name⟩ :: props ++
          ⟨"resp.status_code", .int64 ((codes.find? (· != 0)).getD 200)⟩ ::
            (adds.reverse.flatMap Adder.front ++ adds.flatMap Adder.back)⟩,
        codes, m) := by
  have hdata := @getTraceData_foldl_addToTrace traceID true m adds
  rw [show getTraceData m traceID = [] by simp [getTraceData, hm], List.append_nil] at hdata
  simp only [serveTraced, hdata, status_eq, Prod.mk.injEq, true_and]
  funext t
  by_cases ht : t = traceID
  · simp [removeTraceData, ht, hm]
  · simp [removeTraceData, ht, foldl_addToTrace_of_ne _ _ ht]

/-- A key value pair. -/
def kvA : KeyValue := ⟨"a", .string "1"⟩

/-- Another key value pair. -/
def kvB : KeyValue := ⟨"b", .string "2"⟩

theorem serveTraced_serial_two_adds :
    serveTraced "s" [] "t"
        (fun ctx m => ([201, 500], [Adder.keyValue kvA, .interface [kvB]].foldl
          (fun m a => a.addToTrace m ctx) m)) TraceMap.empty =
      (⟨"s", ⟨"name", .string "s"⟩ :: [] ++
          ⟨"resp.status_code", .int64 (([201, 500].find? (· != 0)).getD 200)⟩ ::
            ([Adder.keyValue kvA, .interface [kvB]].reverse.flatMap Adder.front ++
              [Adder.keyValue kvA, .interface [kvB]].flatMap Adder.back)⟩,
        [201, 500], TraceMap.empty) :=
  serveTraced_serial "s" [] rfl [201, 500] [.keyValue kvA, .interface [kvB]]

/-- A handler whose goroutines make the calls `adds` on the trace of its context, each call's
`Load` and `Store` a step of its own, in the order `sched` picks, and that writes `codes`. -/
def concurrentAdds (codes : List Int) (adds : List Adder) (sched : List Nat) :
    Option Ctx → TraceMap → List Int × TraceMap := fun ctx m =>
  match ctx.bind Ctx.traceID with
  | none => (codes, m)
  | some traceID =>
    (codes, ((World.start m (adds.map fun a => (traceID, a))).run sched).traceMap)

/-- Scheduled one after another, in the order they were started, the handler's goroutines
are its calls made in that order: the serial handler above is the exact case of the
concurrent one. What it leaves is what the code's calls that add the same pairs,
`AddKeyValueToTrace` and `AddInterfaceToTrace` run one after another, leave. -/
theorem concurrentAdds_serial (codes : List Int) (adds : List Adder) (ctx : Ctx)
    (m : TraceMap) :
    concurrentAdds codes adds ((List.range adds.length).flatMap fun i => [i, i]) (some ctx) m =
      (codes, adds.foldl (fun m a => a.addToTrace m (some ctx)) m) ∧
    ∀ (fmtV : GoValue → String) (fuel : Nat) (calls : List TraceCall),
      calls.mapM (TraceCall.adder fmtV fuel) = some adds →
        calls.foldlM (fun (m : TraceMap) (c : TraceCall) => c.run fmtV fuel m (some ctx)) m =
          some (concurrentAdds codes adds ((List.range adds.length).flatMap fun i => [i, i])
            (some ctx) m).2 := by
  have hserial : concurrentAdds codes adds ((List.range adds.length).flatMap fun i => [i, i])
      (some ctx) m = (codes, adds.foldl (fun m a => a.addToTrace m (some ctx)) m) := by
    obtain ⟨_ | traceID, hasSpan⟩ := ctx
    · exact congrArg _ (List.foldl_fixed' (fun _ => rfl) adds).symm
    · exact congrArg _ (World.start_run_serial m traceID hasSpan adds)
  refine ⟨hserial, fun fmtV fuel calls hcalls => ?_⟩
  rw [hserial, TraceCall.foldlM_run fmtV fuel hcalls]

/-- `tracerHandler`, without its tracer. -/
structure TracerHandler where
  name : String
  deriving DecidableEq, Repr

/-- `NewHandler(name, tracer)`; `hasTracer` is whether `tracer` is not nil. -/
def newHandler (name : String) (hasTracer : Bool) : Except String TracerHandler :=
  if name = "" then .error "no name provided"
  else if !hasTracer then .error "no trace provider provided"
  else .ok ⟨name⟩

/-- `addRequestPropsAttributes(span, req)`: the attributes it sets, in order; `hostname` is
what `os.Hostname()` returns, `none` when it fails. -/
def addRequestPropsAttributes (hostname : Option String) (req : Request) : List KeyValue :=
  [⟨"req.path", .string req.urlPath⟩, ⟨"req.method", .string req.method⟩,
      ⟨"req.host", .string req.host⟩] ++
    (hostname.map fun hostname => ⟨"req.hostname", .string hostname⟩).toList ++
    paramsAttributes req.query

/-- `s.Middleware(h)` serving `req`, for a span of trace `traceID`. -/
def TracerHandler.middleware (s : TracerHandler) (hostname : Option String) (traceID : String)
    (h : Handler) (req : Request) (m : TraceMap) : Span × List Int × TraceMap :=
  serveTraced s.name (addRequestPropsAttributes hostname req) traceID (fun ctx => h ctx req) m

-- ----------------------------------------------------------------------------
-- Router.handle
-- ----------------------------------------------------------------------------

/-- `Router`, without the router it wraps and its tracer; the blacklist is the map's
lookup. -/
structure Router where
  name : String
  pathBlacklist : String → Bool

/-- `WrapRouter(name, tracer, router, pathBlacklist)`; `hasTracer` and `hasRouter` are
whether `tracer` and `router` are not nil, and a nil `pathBlacklist` is `none`. -/
def wrapRouter (name : String) (hasTracer hasRouter : Bool)
    (pathBlacklist : Option (String → Bool)) : Except String Router :=
  if name = "" then .error "no name provided"
  else if !hasTracer then .error "no trace provider provided"
  else if !hasRouter then .error "no router provider provided"
  else .ok ⟨name, pathBlacklist.getD fun _ => false⟩

/-- An `httprouter.Handle`, as a `Handler` that also gets the route's parameters. -/
abbrev Handle := Option Ctx → Request → List (String × String) → TraceMap → List Int × TraceMap

/-- `addRequestPropsAttributesHTTPRouter(span, req, ps)`: the attributes it sets, in order,
and the request with its body put back. The body's value is not set: that line is commented
out. -/
def addRequestPropsAttributesHTTPRouter (hostname : Option String) (req : Request)
    (ps : List (String × String)) : List KeyValue × Request :=
  let props : List KeyValue :=
    [⟨"req.path", .string req.urlPath⟩, ⟨"req.method", .string req.method⟩,
        ⟨"req.host", .string req.host⟩] ++
      (hostname.map fun hostname => ⟨"req.hostname", .string hostname⟩).toList ++
      ps.filterMap fun (k, v) => if v = "" then none else some ⟨"req.params." ++ k, .string v⟩
  let (reqMetaData, body) := readReqBody req.body (some rawUnmarshaler)
  (props ++ [⟨"req.size", .int64 reqMetaData.contentSize⟩], { req with body })

/-- The handle `r.handle(method, path, original)` registers, serving `req` with the route's
parameters `ps`: `original` itself on a blacklisted path, and otherwise `original` in a span
of trace `traceID`, which it returns. -/
def Router.handle (r : Router) (hostname : Option String) (traceID : String) (path : String)
    (original : Handle) (ctx : Option Ctx) (req : Request) (ps : List (String × String))
    (m : TraceMap) : Option Span × List Int × TraceMap :=
  if !r.pathBlacklist path then
    let (props, req) := addRequestPropsAttributesHTTPRouter hostname req ps
    let (span, served) := serveTraced r.name props traceID (fun ctx => original ctx req ps) m
    (some span, served)
  else (none, original ctx req ps m)

end PrebidService.Tracing
