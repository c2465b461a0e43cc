-- SUMMARY: The tracing package's HTTP client and round tripper: endpoint configs, how a body is read and put back, and what a traced request records on its span and returns.
import PrebidService.Tracing.Context

/-!
# Traced outgoing requests

`tracing/http` wraps an HTTP client (`NewHTTPClient`) or a round tripper
(`WrapRoundTripper`) so that every request it sends gets a span. The two wrappers run the
same code, up to the span's name and the call they wrap: look up the endpoint's config, set
the request's attributes (reading the body and putting it back), make the call, and set the
response's attributes (reading its body the same way). `roundTrip` is that code, once;
`Client.do` and `wrapRoundTripper` are it applied to their own values.

A tracer is only where spans come from here: a span is its name and the attributes set on
it, in order. Before the call, `httptrace.W3C` and `Inject` set the propagation headers of
the span on the request; those header lines are an input of a run, since they carry the
span's IDs (`go.opentelemetry.io` is not in `src/`). The request `W3C` returns is a shallow
copy that shares its header with the request it was given: in `client.Do` that is the
caller's request, whose header therefore gets the propagation headers too, while
`WrapRoundTripper` first gives its copy a header of its own (`cloneRequest`). In both, the
body reader is shared and read to its end.

A wrapper that traces a call should change it only by those headers. `roundTrip_returns`
says what the wrapper returns: what the wrapped call returns on the request with the
propagation headers set, except that a body whose read failed is handed on as the bytes read
before the failure, without the error. For bodies read without error the wrapper returns
exactly what the wrapped call returns, and the span records a failed call, and only a failed
one.
-/

namespace PrebidService.Tracing

-- ----------------------------------------------------------------------------
-- Configuration
-- ----------------------------------------------------------------------------

/-- An `Unmarshaler`: what its `Unmarshal(data)` returns. -/
abbrev Unmarshaler := String → Except String GoValue

/-- `RawUnmarshaler`: the body as a string. -/
def rawUnmarshaler : Unmarshaler := fun data => .ok (.string data)

/-- `ReqCfg`; a nil `Unmarshaler` is `none`. -/
structure ReqCfg where
  params : Bool
  body : Option Unmarshaler

/-- `RespCfg`. -/
structure RespCfg where
  body : Option Unmarshaler

/-- `EndpointConfig`. -/
structure EndpointConfig where
  request : ReqCfg
  response : RespCfg

/-- `Config`; its map of endpoint configs is the map's lookup. -/
structure Config where
  defaultCfg : EndpointConfig
  endpointCfgs : String → Option EndpointConfig

/-- `Config.Get(e)`: the endpoint's own config, or the default. -/
def Config.get (c : Config) (e : String) : EndpointConfig :=
  match c.endpointCfgs e with
  | some cfg => cfg
  | none => c.defaultCfg

/-- `NewCfg(d, eMap)`. -/
def newCfg (d : EndpointConfig) (eMap : String → Option EndpointConfig) : Config :=
  ⟨d, eMap⟩

/-- `NewEndpointCfg(reqParams, req, resp)`. -/
def newEndpointCfg (reqParams : Bool) (req resp : Option Unmarshaler) : EndpointConfig :=
  ⟨⟨reqParams, req⟩, ⟨resp⟩⟩

/-- Every value the unmarshaler returns, if there is one, is a value `getKeyValues` walks
without meeting a pointer. -/
def Unmarshaler.PointerFree (u : Option Unmarshaler) : Prop :=
  ∀ f ∈ u, ∀ data v, f data = .ok v → v.PointerFree

-- ----------------------------------------------------------------------------
-- Bodies
-- ----------------------------------------------------------------------------

/-- A request or response body: the bytes a read of it gets, and the error the read ends
with, if it does not end at EOF. -/
structure Body where
  bytes : String
  readError : Option String
  deriving DecidableEq, Repr

/-- `ioutil.NopCloser(bytes.NewBuffer(bodyBytes))` for the bytes read from `b`: the body put
back after reading it. -/
def Body.reread (b : Body) : Body := ⟨b.bytes, none⟩

theorem Body.reread_eq_self_iff (b : Body) : b.reread = b ↔ b.readError = none := by
  obtain ⟨bytes, err⟩ := b
  simp [reread, eq_comm]

/-- `reqMetaData`. -/
structure ReqMetaData where
  contentSize : Int
  value : GoValue

/-- The code of `readReqBody` and `readRespBody`: the body's size and value, and the body
left in its place. The error of `ioutil.ReadAll` is dropped. -/
def readBody (body : Option Body) (bodyUnmarshaler : Option Unmarshaler) :
    ReqMetaData × Option Body :=
  match body with
  | none => (⟨0, .string ""⟩, none)
  | some b =>
    let bodyBytes := b.bytes
    let value := match bodyUnmarshaler with
      | none => .string ""
      | some u =>
        match u bodyBytes with
        | .ok requestValue => requestValue
        | .error _ => .string bodyBytes
    (⟨bodyBytes.utf8ByteSize, value⟩, some (Body.reread b))

/-- `readReqBody(req, bodyUnmarshaler)` on `req.Body`. -/
def readReqBody : Option Body → Option Unmarshaler → ReqMetaData × Option Body := readBody

/-- `readRespBody(res, bodyUnmarshaler)` on `res.Body`. -/
def readRespBody : Option Body → Option Unmarshaler → ReqMetaData × Option Body := readBody

@[simp] theorem readBody_snd (body : Option Body) (u : Option Unmarshaler) :
    (readBody body u).2 = body.map Body.reread := by
  cases body <;> rfl

theorem readBody_value_pointerFree {u : Option Unmarshaler} (hu : Unmarshaler.PointerFree u)
    (body : Option Body) : (readBody body u).1.value.PointerFree := by
  rcases body with _ | b
  · exact .string _
  · rcases u with _ | f
    · exact .string _
    · dsimp only [readBody]
      split
      · exact hu f rfl _ _ ‹_›
      · exact .string _

/-- `RawUnmarshaler` yields strings, which hold no pointer. -/
theorem rawUnmarshaler_pointerFree : Unmarshaler.PointerFree (some rawUnmarshaler) := by
  rintro f ⟨⟩ data v ⟨⟩
  exact .string data

-- ----------------------------------------------------------------------------
-- Requests and responses
-- ----------------------------------------------------------------------------

/-- An `http.Header`: the values of each key, none for a key it does not hold. Keys are in
the canonical form `Header.Set` stores them in. -/
def Header := String → List String

namespace Header

/-- `h.Set(k, v)` for a canonical key `k`: `k` holds `v` alone. -/
def set (h : Header) (k v : String) : Header := fun j => if j = k then [v] else h j

/-- `Inject(ctx, req)` on the header `h`: the header lines `propagation` that the
propagators write for the span's context, each set in turn. -/
def inject (h : Header) (propagation : List (String × String)) : Header :=
  propagation.foldl (fun h p => h.set p.1 p.2) h

@[simp] theorem set_apply (h : Header) (k v j : String) :
    h.set k v j = if j = k then [v] else h j := rfl

/-- After `Inject`, a key holds the last value the propagators wrote for it, and every other
key what it held. -/
theorem inject_apply (h : Header) (propagation : List (String × String)) (k : String) :
    h.inject propagation k = match (propagation.filter (·.1 == k)).getLast? with
      | some p => [p.2]
      | none => h k := by
  induction propagation generalizing h with
  | nil => rfl
  | cons p ps ih =>
    rw [inject, List.foldl_cons, ← inject, ih]
    rcases hl : (ps.filter (·.1 == k)).getLast? with _ | q
    · by_cases hk : p.1 = k
      · simp [List.filter_cons, hk, List.getLast?_eq_none_iff.mp hl]
      · simp [List.filter_cons, hk, hl, Ne.symm hk]
    · by_cases hk : p.1 = k
      · simp [List.filter_cons, hk, hl, List.getLast?_cons]
      · simp [List.filter_cons, hk, hl]

end Header

/-- What the tracing code reads from an `http.Request`: `Method`, `Host`, `URL.Host`,
`URL.Path`, `URL.Query()` as its keys with their values, in the order the range over the
map visits them, `Header` and `Body`. -/
structure Request where
  method : String
  host : String
  urlHost : String
  urlPath : String
  query : List (String × List String)
  header : Header
  body : Option Body

/-- The request `W3C` returns once `Inject` has run on it: `req` with the propagation header
lines set. -/
def Request.propagate (req : Request) (propagation : List (String × String)) : Request :=
  { req with header := req.header.inject propagation }

/-- The request with its body put back after reading it. -/
def Request.rereadBody (req : Request) : Request := { req with body := req.body.map Body.reread }

/-- What the tracing code reads from an `http.Response`. -/
structure Response where
  statusCode : Int
  body : Option Body
  deriving DecidableEq, Repr

/-- The response with its body put back after reading it. -/
def Response.rereadBody (resp : Response) : Response :=
  { resp with body := resp.body.map Body.reread }

theorem Request.rereadBody_eq_self {req : Request} (h : ∀ b ∈ req.body, b.readError = none) :
    req.rereadBody = req := by
  obtain ⟨method, host, urlHost, urlPath, query, header, _ | b⟩ := req
  · rfl
  · simp [rereadBody, (Body.reread_eq_self_iff b).mpr (h b rfl)]

theorem Response.rereadBody_eq_self {resp : Response} (h : ∀ b ∈ resp.body, b.readError = none) :
    resp.rereadBody = resp := by
  obtain ⟨statusCode, _ | b⟩ := resp
  · rfl
  · simp [rereadBody, (Body.reread_eq_self_iff b).mpr (h b rfl)]

/-- What `Do` or `RoundTrip` of the wrapped client returns: a response, or an error with the
response that came with it, if any. Both `http.Client.Do` and `RoundTrip` return a response
when they return no error. -/
abbrev Outcome := Except (Option Response × String) Response

/-- A span: its name and the attributes set on it, in order. -/
structure Span where
  name : String
  attributes : List KeyValue
  deriving DecidableEq, Repr

/-- The loop over `req.URL.Query()` that `addReqAttributes` and `addRequestPropsAttributes`
share: `req.params.<key>` for every key whose first value is not empty. -/
def paramsAttributes (params : List (String × List String)) : List KeyValue :=
  params.filterMap fun (k, value) =>
    match value with
    | v :: _ => if v = "" then none else some ⟨"req.params." ++ k, .string v⟩
    | [] => none

section

variable (fmtV : GoValue → String)

/-- `addReqAttributes(span, req, reqCfg)`: the attributes it sets, in order, and the request
with its body put back; `none` when `AddInterfaceToSpan` does not return. The method
`(*client).addReqAttributes` has the same code. -/
def addReqAttributes (fuel : Nat) (req : Request) (reqCfg : ReqCfg) :
    Option (List KeyValue × Request) :=
  let hostPath : List KeyValue :=
    [⟨"req.host", .string req.urlHost⟩, ⟨"req.path", .string req.urlPath⟩]
  let params := if reqCfg.params then paramsAttributes req.query else []
  let (reqMetaData, body) := readReqBody req.body reqCfg.body
  (addInterfaceToSpan fmtV fuel true "req.body" reqMetaData.value).map fun bodyAttrs =>
    (hostPath ++ params ++ ⟨"req.size", .int64 reqMetaData.contentSize⟩ :: bodyAttrs,
      { req with body })

/-- `addRespAttributes(span, resp, respCfg)`, as `addReqAttributes`. -/
def addRespAttributes (fuel : Nat) (resp : Response) (respCfg : RespCfg) :
    Option (List KeyValue × Response) :=
  let (respMetaData, body) := readRespBody resp.body respCfg.body
  (addInterfaceToSpan fmtV fuel true "resp.body" respMetaData.value).map fun bodyAttrs =>
    (⟨"resp.size", .int64 respMetaData.contentSize⟩ :: bodyAttrs, { resp with body })

/-- The status attribute, set when there is a response. -/
def statusCodeAttributes : Option Response → List KeyValue
  | some resp => [⟨"resp.status_code", .int64 resp.statusCode⟩]
  | none => []

/-- The code that `client.Do` and the function of `WrapRoundTripper` share, for a span named
`name`, the wrapper's `config`, the header lines `propagation` of the span and the call
`inner` it wraps: the span and what the wrapper returns; `none` when it does not return. -/
def roundTrip (fuel : Nat) (name : String) (config : Config)
    (propagation : List (String × String)) (inner : Request → Outcome) (req : Request) :
    Option (Span × Outcome) := do
  let cfg := config.get (req.urlHost ++ req.urlPath)
  let req := req.propagate propagation
  let (reqAttrs, req) ← addReqAttributes fmtV fuel req cfg.request
  match inner req with
  | .error (resp, err) =>
    pure (⟨name, reqAttrs ++ statusCodeAttributes resp ++ [⟨"resp.error", .string err⟩]⟩,
      .error (resp, err))
  | .ok resp =>
    let statusAttrs := statusCodeAttributes (some resp)
    let (respAttrs, resp) ← addRespAttributes fmtV fuel resp cfg.response
    pure (⟨name, reqAttrs ++ statusAttrs ++ respAttrs⟩, .ok resp)

/-- `client`, without the tracer and the client it wraps. -/
structure Client where
  tag : String
  cfg : Config

/-- `NewHTTPClient(httpClient, tracer, tag, cfg)`; `hasHttpClient` is whether `httpClient`
is not nil. -/
def newHTTPClient (hasHttpClient : Bool) (tag : String) (cfg : Config) :
    Except String Client :=
  if !hasHttpClient then .error "no httpClient passed to tracing NewHTTPClient"
  else .ok ⟨tag ++ "-http", cfg⟩

/-- `(*client).Do(req)`, with `httpClient` the `Do` of the client it wraps and `propagation`
the header lines of its span: the span and what it returns, and the caller's header as the
call leaves it. The request `W3C` returns shares the caller's header, so `Inject` writes the
propagation headers into it. -/
def Client.«do» (fuel : Nat) (c : Client) (httpClient : Request → Outcome)
    (propagation : List (String × String)) (req : Request) : Option (Span × Outcome) × Header :=
  (roundTrip fmtV fuel c.tag c.cfg propagation httpClient req, req.header.inject propagation)

/-- The round tripper `WrapRoundTripper(original, tracer, config)` returns, run on `req`;
`original` is `none` when nil, and `http.DefaultTransport` is then used. With the caller's
header as the call leaves it: `cloneRequest` gives the copy a header of its own, so the
caller's is left as it was. -/
def wrapRoundTripper (fuel : Nat) (original : Option (Request → Outcome))
    (defaultTransport : Request → Outcome) (config : Config)
    (propagation : List (String × String)) (req : Request) : Option (Span × Outcome) × Header :=
  (roundTrip fmtV fuel ("http/" ++ req.host) config propagation (original.getD defaultTransport)
    req, req.header)

-- ----------------------------------------------------------------------------
-- What a traced request returns
-- ----------------------------------------------------------------------------

theorem addReqAttributes_eq_some {fuel : Nat} {req req' : Request} {reqCfg : ReqCfg}
    {attrs : List KeyValue} (h : addReqAttributes fmtV fuel req reqCfg = some (attrs, req')) :
    req' = req.rereadBody := by
  simp only [addReqAttributes, readReqBody, Option.map_eq_some'] at h
  obtain ⟨_, -, h⟩ := h
  simpa [Request.rereadBody] using (Prod.mk.inj h).2.symm

theorem addRespAttributes_eq_some {fuel : Nat} {resp resp' : Response} {respCfg : RespCfg}
    {attrs : List KeyValue}
    (h : addRespAttributes fmtV fuel resp respCfg = some (attrs, resp')) :
    resp' = resp.rereadBody := by
  simp only [addRespAttributes, readRespBody, Option.map_eq_some'] at h
  obtain ⟨_, -, h⟩ := h
  simpa [Response.rereadBody] using (Prod.mk.inj h).2.symm

theorem addReqAttributes_isSome (fuel : Nat) (req : Request) (reqCfg : ReqCfg) :
    (addReqAttributes fmtV fuel req reqCfg).isSome =
      (getKeyValues fmtV fuel "req.body" (readBody req.body reqCfg.body).1.value).isSome := by
  simp [addReqAttributes, readReqBody, addInterfaceToSpan]

theorem addRespAttributes_isSome (fuel : Nat) (resp : Response) (respCfg : RespCfg) :
    (addRespAttributes fmtV fuel resp respCfg).isSome =
      (getKeyValues fmtV fuel "resp.body" (readBody resp.body respCfg.body).1.value).isSome := by
  simp [addRespAttributes, readRespBody, addInterfaceToSpan]

/-- If the wrapper returns, its span has the wrapper's name and it returns what the wrapped
call returns on the request with the propagation headers set and its body put back, the
response's body put back too. -/
theorem roundTrip_eq_some {fuel : Nat} {name : String} {config : Config}
    {propagation : List (String × String)} {inner : Request → Outcome} {req : Request}
    {span : Span} {out : Outcome}
    (h : roundTrip fmtV fuel name config propagation inner req = some (span, out)) :
    span.name = name ∧
      out = (inner (req.propagate propagation).rereadBody).map Response.rereadBody := by
  simp only [roundTrip, Option.bind_eq_bind, Option.bind_eq_some] at h
  obtain ⟨⟨reqAttrs, req'⟩, hreq, h⟩ := h
  rw [addReqAttributes_eq_some fmtV hreq] at h
  dsimp only at h
  revert h
  cases inner (req.propagate propagation).rereadBody with
  | error e =>
    intro h
    cases h
    exact ⟨rfl, rfl⟩
  | ok resp =>
    simp only [Option.bind_eq_some]
    rintro ⟨⟨respAttrs, resp'⟩, hresp, h⟩
    cases h
    exact ⟨rfl, by rw [addRespAttributes_eq_some fmtV hresp]; rfl⟩

/-- With unmarshalers whose values hold no pointer, the wrapper returns once it has enough
fuel. -/
theorem roundTrip_isSome {config : Config} {req : Request}
    (hreq : Unmarshaler.PointerFree (config.get (req.urlHost ++ req.urlPath)).request.body)
    (hresp : Unmarshaler.PointerFree (config.get (req.urlHost ++ req.urlPath)).response.body)
    (name : String) (propagation : List (String × String)) (inner : Request → Outcome) :
    ∃ n, ∀ fuel, n ≤ fuel →
      (roundTrip fmtV fuel name config propagation inner req).isSome := by
  obtain ⟨n₁, hn₁⟩ :=
    getKeyValues_isSome_of_pointerFree fmtV (readBody_value_pointerFree hreq req.body)
  cases hinner : inner (req.propagate propagation).rereadBody with
  | error e =>
    refine ⟨n₁, fun fuel hfuel => ?_⟩
    obtain ⟨⟨reqAttrs, req'⟩, hreqAttrs⟩ := Option.isSome_iff_exists.mp
      ((addReqAttributes_isSome fmtV fuel (req.propagate propagation) _).trans
        (hn₁ fuel hfuel _))
    simp [roundTrip, hreqAttrs, addReqAttributes_eq_some fmtV hreqAttrs, hinner]
  | ok resp =>
    obtain ⟨n₂, hn₂⟩ := getKeyValues_isSome_of_pointerFree fmtV
      (readBody_value_pointerFree hresp resp.body)
    refine ⟨max n₁ n₂, fun fuel hfuel => ?_⟩
    obtain ⟨⟨reqAttrs, req'⟩, hreqAttrs⟩ := Option.isSome_iff_exists.mp
      ((addReqAttributes_isSome fmtV fuel (req.propagate propagation) _).trans
        (hn₁ fuel (by omega) _))
    obtain ⟨⟨respAttrs, resp'⟩, hrespAttrs⟩ := Option.isSome_iff_exists.mp
      ((addRespAttributes_isSome fmtV fuel resp _).trans (hn₂ fuel (by omega) _))
    simp [roundTrip, hreqAttrs, addReqAttributes_eq_some fmtV hreqAttrs, hinner, hrespAttrs]

/-- A traced call returns, given enough fuel, exactly what the wrapped call returns on the
request with the propagation headers set, with the request's and the response's bodies put
back after reading them. -/
theorem roundTrip_returns {config : Config} {req : Request}
    (hreq : Unmarshaler.PointerFree (config.get (req.urlHost ++ req.urlPath)).request.body)
    (hresp : Unmarshaler.PointerFree (config.get (req.urlHost ++ req.urlPath)).response.body)
    (name : String) (propagation : List (String × String)) (inner : Request → Outcome) :
    ∃ n, ∀ fuel, n ≤ fuel → ∃ span, span.name = name ∧
      roundTrip fmtV fuel name config propagation inner req =
        some (span, (inner (req.propagate propagation).rereadBody).map Response.rereadBody) := by
  obtain ⟨n, hn⟩ := roundTrip_isSome fmtV hreq hresp name propagation inner
  refine ⟨n, fun fuel hfuel => ?_⟩
  obtain ⟨⟨span, out⟩, h⟩ := Option.isSome_iff_exists.mp (hn fuel hfuel)
  obtain ⟨hname, rfl⟩ := roundTrip_eq_some fmtV h
  exact ⟨span, hname, h⟩

/-- Every header the caller set that the propagators do not write reaches the wrapped call
as the caller set it. -/
theorem Request.propagate_header_of_not_mem (req : Request)
    {propagation : List (String × String)} {k : String} (hk : k ∉ propagation.map Prod.fst) :
    (req.propagate propagation).header k = req.header k := by
  have hnil : propagation.filter (·.1 == k) = [] :=
    List.filter_eq_nil_iff.mpr fun p hp hpk => hk (List.mem_map.mpr ⟨p, hp, by simpa using hpk⟩)
  simp only [Request.propagate, Header.inject_apply, hnil, List.getLast?_nil]

/-- The endpoint config that reads request and response bodies as raw strings, for every
endpoint. -/
def rawCfg : Config :=
  newCfg (newEndpointCfg true (some rawUnmarshaler) (some rawUnmarshaler)) fun _ => none

/-- A `POST` to `h/p` with the body `x` and no header. -/
def postReq : Request := ⟨"POST", "h", "h", "/p", [], fun _ => [], some ⟨"x", none⟩⟩

/-- A 200 response with the body `y`. -/
def okResp : Response := ⟨200, some ⟨"y", none⟩⟩

/-- The header line of a W3C trace context. -/
def traceparent : List (String × String) :=
  [("Traceparent", "00-0af7651916cd43dd8448eb211c80319c-b7ad6b7169203331-01")]

/-- Two names differ when their first `n` characters do. -/
private theorem ne_append_of_take {s t : String} (n : Nat) (hn : n ≤ s.length)
    (h : t.data.take n ≠ s.data.take n) (rest : String) : t ≠ s ++ rest := by
  rintro rfl
  exact h (by rw [String.data_append, List.take_append_of_le_length hn])

theorem paramsAttributes_key {params : List (String × List String)} {kv : KeyValue}
    (h : kv ∈ paramsAttributes params) : ∃ k, kv.key = "req.params." ++ k := by
  obtain ⟨⟨k, value⟩, -, hkv⟩ := List.mem_filterMap.mp h
  rcases value with _ | ⟨v, _⟩
  · cases hkv
  · dsimp only at hkv
    split_ifs at hkv
    cases hkv
    exact ⟨k, rfl⟩

/-- None of the request's attributes is named `resp.error`: they are all named `req.*`. -/
private theorem addReqAttributes_key_ne {fuel : Nat} {req req' : Request} {reqCfg : ReqCfg}
    {attrs : List KeyValue} (h : addReqAttributes fmtV fuel req reqCfg = some (attrs, req')) :
    ∀ kv ∈ attrs, kv.key ≠ "resp.error" := by
  simp only [addReqAttributes, readReqBody, addInterfaceToSpan, if_true,
    Option.map_eq_some'] at h
  obtain ⟨bodyAttrs, hbody, h⟩ := h
  cases h
  have hreq : ∀ {s : String}, s.data.take 3 = "req".data → 3 ≤ s.length →
      ∀ rest, s ++ rest ≠ "resp.error" := fun hs hn rest =>
    (ne_append_of_take 3 hn (by rw [hs]; decide) rest).symm
  intro kv hkv
  simp only [List.mem_append, List.mem_cons, List.mem_singleton, List.not_mem_nil,
    or_false] at hkv
  rcases hkv with ((rfl | rfl) | hparams) | rfl | hkv
  · dsimp only; decide
  · dsimp only; decide
  · split_ifs at hparams
    · obtain ⟨k, hk⟩ := paramsAttributes_key hparams
      exact hk ▸ hreq (by decide) (by decide) k
    · cases hparams
  · dsimp only; decide
  · rcases getKeyValues_nestedUnder fmtV hbody kv hkv with hk | ⟨rest, hk⟩
    · rw [hk]; decide
    · rw [hk, String.append_assoc]
      exact hreq (by decide) (by decide) _

/-- None of the response's attributes is named `resp.error`. -/
private theorem addRespAttributes_key_ne {fuel : Nat} {resp resp' : Response}
    {respCfg : RespCfg} {attrs : List KeyValue}
    (h : addRespAttributes fmtV fuel resp respCfg = some (attrs, resp')) :
    ∀ kv ∈ attrs, kv.key ≠ "resp.error" := by
  simp only [addRespAttributes, readRespBody, addInterfaceToSpan, if_true,
    Option.map_eq_some'] at h
  obtain ⟨bodyAttrs, hbody, h⟩ := h
  cases h
  intro kv hkv
  rcases List.mem_cons.mp hkv with rfl | hkv
  · dsimp only; decide
  · rcases getKeyValues_nestedUnder fmtV hbody kv hkv with hk | ⟨rest, hk⟩
    · rw [hk]; decide
    · rw [hk, String.append_assoc]
      exact (ne_append_of_take 6 (by decide) (by decide) _).symm

private theorem statusCodeAttributes_key_ne (resp : Option Response) :
    ∀ kv ∈ statusCodeAttributes resp, kv.key ≠ "resp.error" := by
  cases resp <;> simp [statusCodeAttributes]

/-- The span records the error of the wrapped call, with its text, exactly when the call
failed: no other attribute of the span takes the name `resp.error`. -/
theorem roundTrip_resp_error {fuel : Nat} {name : String} {config : Config}
    {propagation : List (String × String)} {inner : Request → Outcome} {req : Request}
    {span : Span} {out : Outcome}
    (h : roundTrip fmtV fuel name config propagation inner req = some (span, out))
    (err : String) :
    (⟨"resp.error", .string err⟩ : KeyValue) ∈ span.attributes ↔
      ∃ resp, out = .error (resp, err) := by
  simp only [roundTrip, Option.bind_eq_bind, Option.bind_eq_some] at h
  obtain ⟨⟨reqAttrs, req'⟩, hreq, h⟩ := h
  have hkeys : ∀ attrs : List KeyValue, (∀ kv ∈ attrs, kv.key ≠ "resp.error") →
      (⟨"resp.error", .string err⟩ : KeyValue) ∉ attrs := fun _ hk hmem => hk _ hmem rfl
  dsimp only at h
  revert h
  cases inner req' with
  | error e =>
    obtain ⟨resp, e⟩ := e
    intro h
    cases h
    simp [hkeys _ (addReqAttributes_key_ne fmtV hreq),
      hkeys _ (statusCodeAttributes_key_ne resp), eq_comm]
  | ok resp =>
    simp only [Option.bind_eq_some]
    rintro ⟨⟨respAttrs, resp'⟩, hresp, h⟩
    cases h
    simp [hkeys _ (addReqAttributes_key_ne fmtV hreq),
      hkeys _ (statusCodeAttributes_key_ne (some resp)),
      hkeys _ (addRespAttributes_key_ne fmtV hresp)]

theorem roundTrip_resp_error_timeout :
    ∃ span out, roundTrip (fun _ => "") 5 "c" rawCfg traceparent
        (fun _ => .error (none, "timeout")) postReq = some (span, out) ∧
      ((⟨"resp.error", .string "timeout"⟩ : KeyValue) ∈ span.attributes ↔
        ∃ resp, out = .error (resp, "timeout")) :=
  have h : roundTrip (fun _ => "") 5 "c" rawCfg traceparent
      (fun _ => .error (none, "timeout")) postReq = some (⟨"c", [⟨"req.host", .string "h"⟩, ⟨"req.path", .string "/p"⟩,
        ⟨"req.size", .int64 1⟩, ⟨"req.body", .string "x"⟩, ⟨"resp.error", .string "timeout"⟩]⟩,
        .error (none, "timeout")) := rfl
  ⟨_, _, h, roundTrip_resp_error _ h "timeout"⟩

end

end PrebidService.Tracing
