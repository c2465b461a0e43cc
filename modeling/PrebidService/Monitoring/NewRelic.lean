-- SUMMARY: The New Relic monitoring package: the middlewares MakeMiddleware lists, AddTxnParams' query attributes, and the application and client set-up.
import Mathlib.Data.List.Infix
import Mathlib.Data.String.Basic

/-!
# New Relic monitoring

`src/monitoring/newrelic` wraps every request of the server in a New Relic transaction.
`MakeMiddleware` of `src/server/middleware.go` lists three middlewares: `Middleware(app)`
starts a transaction and passes it on as the response writer, `WithTxn` puts that writer
into the request's context, and `AddTxnParams` finds it there and adds one attribute per
query key. How the server applies the list is not in `src/`.

A handler is modelled by what it does to New Relic: the list of agent calls it makes, in
order, around what the handler it wraps does. A transaction is named by the URL path it
was started for. The agent itself (`go-agent`) is not in `src/`; where it can fail, its
result is a parameter.
-/

namespace PrebidService.NewRelic

/-- The response writer a handler gets: the server's, or a transaction of the agent, which
`Middleware` passes on in its place. -/
inductive Writer where
  | response
  | txn (name : String)
  deriving DecidableEq, Repr

/-- `ctx.Value(txnKey).(newrelic.Transaction)` for a context whose `txnKey` holds the writer
`w`: the assertion succeeds only on a transaction. -/
def Writer.asTxn : Writer → Option String
  | .response => none
  | .txn name => some name

/-- What the handlers read from a request: the URL path, `r.URL.Query()` as its keys with
their values in the order the range over the map visits them, and the transaction the
context holds under `txnKey`, if any. -/
structure Request where
  path : String
  query : List (String × List String)
  txn : Option String
  deriving DecidableEq, Repr

/-- A call a handler makes on the agent, or the call of the handler at the end of the chain
with the writer and request it gets. -/
inductive Event where
  | startTransaction (name : String)
  | addAttribute (txn key value : String)
  | serve (w : Writer) (r : Request)
  | endTransaction (name : String)
  deriving DecidableEq, Repr

/-- An `http.Handler`, by the calls it makes. -/
abbrev Handler := Writer → Request → List Event

/-- `server.Middleware`. -/
abbrev Middleware := Handler → Handler

/-- The handler at the end of the chain. -/
def serve : Handler := fun w r => [.serve w r]

/-- `Middleware(app)`: a transaction named by the path, passed on as the writer and ended
when the handler returns. -/
def middleware : Middleware := fun handler _ r =>
  .startTransaction r.path :: handler (.txn r.path) r ++ [.endTransaction r.path]

/-- `WithTxn`: the writer goes into the context under `txnKey`. -/
def withTxn : Middleware := fun handler w r =>
  handler w { r with txn := w.asTxn }

/-- The loop of `AddTxnParams` over the values of one query key. -/
def joinValues (vs : List String) : String :=
  vs.foldl (fun value v => if value.length = 0 then v else value ++ ", " ++ v) ""

/-- `AddTxnParams`: with a transaction in the context, one attribute per query key before the
handler it wraps runs; without one, only that handler. -/
def addTxnParams : Middleware := fun handler w r =>
  match r.txn with
  | none => handler w r
  | some txn => r.query.map (fun (k, vs) => .addAttribute txn k (joinValues vs)) ++ handler w r

/-- `MakeMiddleware(nrApp)` for an application that is enabled or not. -/
def makeMiddleware (enabled : Bool) : List Middleware :=
  if enabled then [addTxnParams, withTxn, middleware] else []

-- ----------------------------------------------------------------------------
-- Joining the values of a query key
-- ----------------------------------------------------------------------------

private theorem joinValues_foldl_of_ne {value : String} (hv : value ≠ "") (vs : List String) :
    vs.foldl (fun value v => if value.length = 0 then v else value ++ ", " ++ v) value =
      value ++ String.join (vs.map (", " ++ ·)) := by
  induction vs generalizing value with
  | nil => exact (String.append_empty value).symm
  | cons v vs ih =>
    have hlen : value.length ≠ 0 := fun h => hv (by
      obtain ⟨cs⟩ := value
      simp only [String.length_mk, List.length_eq_zero] at h
      subst h; rfl)
    have hne : value ++ ", " ++ v ≠ "" := by simp [String.ext_iff]
    rw [List.foldl_cons, if_neg hlen, ih hne]
    simp [String.ext_iff, String.join_eq, String.append_assoc]

/-- `AddTxnParams` joins a key's values with `", "`, but an empty value met while nothing has
been joined yet is dropped: the result joins the values from the first non-empty one on. -/
theorem joinValues_eq (vs : List String) :
    joinValues vs = match vs.dropWhile (· == "") with
      | [] => ""
      | v :: rest => v ++ String.join (rest.map (", " ++ ·)) := by
  unfold joinValues
  induction vs with
  | nil => rfl
  | cons v vs ih =>
    by_cases hv : v = ""
    · subst hv
      simpa using ih
    · simp [List.dropWhile_cons, hv, joinValues_foldl_of_ne hv]

/-- `strings.Join(elems, sep)`: the elements with `sep` between each two. -/
def stringsJoin (elems : List String) (sep : String) : String :=
  sep.intercalate elems

private theorem intercalate_go_append (sep : String) :
    ∀ (a b : String) (rest : List String),
      String.intercalate.go (a ++ b) sep rest = a ++ String.intercalate.go b sep rest
  | _, _, [] => rfl
  | a, b, x :: rest => by
    simp only [String.intercalate.go, String.append_assoc]
    exact intercalate_go_append sep a _ rest

theorem stringsJoin_cons_cons (v w : String) (rest : List String) (sep : String) :
    stringsJoin (v :: w :: rest) sep = v ++ sep ++ stringsJoin (w :: rest) sep :=
  intercalate_go_append sep (v ++ sep) w rest

theorem stringsJoin_cons (v : String) (rest : List String) (sep : String) :
    stringsJoin (v :: rest) sep = v ++ String.join (rest.map (sep ++ ·)) := by
  induction rest generalizing v with
  | nil => exact (String.append_empty v).symm
  | cons w rest ih =>
    rw [stringsJoin_cons_cons, ih]
    simp [String.ext_iff, String.join_eq, String.append_assoc]

/-- `AddTxnParams` joins the values of a key as `strings.Join` does, from the first
non-empty value on. -/
theorem joinValues_eq_stringsJoin (vs : List String) :
    joinValues vs = stringsJoin (vs.dropWhile (· == "")) ", " := by
  rw [joinValues_eq]
  cases vs.dropWhile (· == "") with
  | nil => rfl
  | cons v rest => exact (stringsJoin_cons v rest ", ").symm

/-- Dropping leading empty values never lengthens the joined text. -/
private theorem length_stringsJoin_dropWhile_le (vs : List String) :
    (stringsJoin (vs.dropWhile (· == "")) ", ").length ≤ (stringsJoin vs ", ").length := by
  induction vs with
  | nil => exact le_refl _
  | cons v vs ih =>
    by_cases hv : v = ""
    · subst hv
      rcases vs with _ | ⟨w, rest⟩
      · exact le_refl _
      · rw [List.dropWhile_cons_of_pos (by rfl), stringsJoin_cons_cons]
        simp only [String.length_append]
        omega
    · rw [List.dropWhile_cons_of_neg (by simpa using hv)]

/-- The values of a key are joined as `strings.Join(vs, ", ")` exactly when there is at most
one of them or the first is not empty. -/
theorem joinValues_eq_stringsJoin_iff (vs : List String) :
    joinValues vs = stringsJoin vs ", " ↔ vs.length ≤ 1 ∨ vs.head? ≠ some "" := by
  rw [joinValues_eq_stringsJoin]
  match vs with
  | [] => simp
  | [v] =>
    by_cases hv : v = "" <;> simp [hv, stringsJoin, String.intercalate, String.intercalate.go]
  | v :: w :: rest =>
    by_cases hv : v = ""
    · subst hv
      have hle := length_stringsJoin_dropWhile_le (w :: rest)
      rw [List.dropWhile_cons_of_pos (by rfl), stringsJoin_cons_cons]
      refine iff_of_false (fun h => ?_) (by simp)
      have hlen := congrArg String.length h
      simp only [String.length_append, show ", ".length = 2 from rfl] at hlen
      omega
    · rw [List.dropWhile_cons_of_neg (by simpa using hv)]
      simp [hv]

example : joinValues ["", "x"] = "x" ∧ stringsJoin ["", "x"] ", " = ", x" := by decide

/-- With a transaction in the context, `AddTxnParams` adds one attribute per query key, whose
value is the key's values joined by its loop; that value is `strings.Join(vs, ", ")` exactly
when the key has at most one value or its first value is not empty. -/
theorem addTxnParams_attribute_values (handler : Handler) (w : Writer) (r : Request)
    (txn : String) :
    addTxnParams handler w { r with txn := some txn } =
        r.query.map (fun (k, vs) => .addAttribute txn k (joinValues vs)) ++
          handler w { r with txn := some txn } ∧
      ∀ vs : List String, joinValues vs = stringsJoin vs ", " ↔
        vs.length ≤ 1 ∨ vs.head? ≠ some "" :=
  ⟨rfl, joinValues_eq_stringsJoin_iff⟩

-- ----------------------------------------------------------------------------
-- Setting up the application and the client
-- ----------------------------------------------------------------------------

/-- `makeApplication(appName, licenseKey, debug)`; `agent` is what the agent's
`newrelic.NewApplication(cfg)` returns, success or its error. -/
def makeApplication (appName licenseKey : String) (agent : Except String Unit) :
    Except String Unit :=
  if appName = "" then .error "no app name provided"
  else if licenseKey = "" then .error "no license key provided"
  else agent

/-- `NewApplication(cfg)`: whether the application it returns is enabled, or its error.
`noop` is what the agent returns for the disabled configuration. -/
def newApplication (appName licenseKey : String) (noop agent : Except String Unit) :
    Except String Bool :=
  let enabled := 0 < appName.utf8ByteSize && 0 < licenseKey.utf8ByteSize
  if !enabled then
    match noop with
    | .error e => .error ("error instantiating noop newrelic application: " ++ e)
    | .ok () => .ok false
  else
    match makeApplication appName licenseKey agent with
    | .error e => .error ("error instantiating newrelic.Application: " ++ e)
    | .ok () => .ok true

/-- `client` of the package, without its HTTP client. -/
structure Client where
  tag : String
  deriving DecidableEq, Repr

/-- `SegmentTag(tag)`: the option that sets the tag, spaces replaced by `_`. -/
def segmentTag (tag : String) : Client → Except String Client := fun c =>
  if tag = "" then .error "no tag provided"
  else .ok { c with tag := tag.map fun ch => if ch = ' ' then '_' else ch }

/-- `NewClient(httpClient, opts...)`: the options applied in order, the first error ending
it; `hasHttpClient` is whether `httpClient` is not nil. -/
def newClient (hasHttpClient : Bool) (opts : List (Client → Except String Client)) :
    Except String Client :=
  if !hasHttpClient then .error "no http client provided"
  else opts.foldlM (fun c opt => opt c) ⟨""⟩

/-- The URL of the external segment `makeExternalSegment` starts: `none` when there is no
tag, which keeps the agent's default, the request's host. -/
def externalSegmentURL (tag port : String) : Option String :=
  if tag = "" then none
  else
    let tag := if port ≠ "" then tag ++ ":" ++ port else tag
    some ("http://" ++ tag)

end PrebidService.NewRelic
