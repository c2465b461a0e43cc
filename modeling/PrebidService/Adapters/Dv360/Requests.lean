-- SUMMARY: The DV360 adapter's request side: openrtb values as the adapter sees them, their JSON encoding, and MakeRequests with its error paths.
import PrebidService.Go.Json

/-!
# DV360 requests

`DV360Adapter.MakeRequests` of `src/adapters/dv360/dv360.go` sends one request per imp of a
bid request. For each imp it decodes the imp's `ext` into the bidder extension and that
into an `ExtImpDV360`, drops the banner unless MRAID is supported, writes
`{"rewarded": r}` into a copy of the video, writes the imp's new `ext` (with the SKAdNetwork
data when it is supported and there is some), sets `request.Imp` to that one imp and
marshals the whole request as the body. Every step that fails adds an error and moves on
to the next imp.

The openrtb types and the `adapters` package are not in `src/`. An openrtb value is modelled
by the fields the adapter reads or writes; its other fields are the JSON members they
marshal to (`Marshaled`). What the `adapters` package does with the `prebid` part of the
extension (decoding it, and `FilterPrebidSKADNExt`) is a parameter.
-/

namespace PrebidService.Dv360

open Go

/-- The object members `json.Marshal` writes for the fields of a value that the adapter
does not look into, or the error it reports for one of them. -/
abbrev Marshaled := Except String (List (String × Json))

/-- `json.Marshal` of a field tagged `omitempty` that holds a pointer or a
`json.RawMessage`: nil is left out, and otherwise the field is the member `name` with the
value `marshal` writes. -/
def marshalOmitEmpty {A : Type} (name : String) (marshal : A → Except String Json) :
    Option A → Marshaled
  | none => .ok []
  | some a => (marshal a).map fun j => [(name, j)]

/-- `json.Marshal` of a `json.RawMessage`: a text that is not JSON is an error. -/
def marshalRaw : Except String Json → Except String Json :=
  Except.mapError ("json: error calling MarshalJSON for type json.RawMessage: " ++ ·)

theorem marshalOmitEmpty_eq_ok {A : Type} {name : String} {marshal : A → Except String Json}
    {x : Option A} {ms : List (String × Json)} :
    marshalOmitEmpty name marshal x = .ok ms ↔
      (x = none ∧ ms = []) ∨ ∃ a j, x = some a ∧ marshal a = .ok j ∧ ms = [(name, j)] := by
  cases x with
  | none => simp [marshalOmitEmpty, eq_comm]
  | some a =>
    cases h : marshal a <;>
      simp [marshalOmitEmpty, h, Except.map, eq_comm]

theorem marshalOmitEmpty_names {A : Type} {name : String} {marshal : A → Except String Json}
    {x : Option A} {ms : List (String × Json)} (h : marshalOmitEmpty name marshal x = .ok ms) :
    ∀ m ∈ ms, m.1 = name := by
  rcases marshalOmitEmpty_eq_ok.mp h with ⟨-, rfl⟩ | ⟨_, _, -, -, rfl⟩ <;> simp

/-- `openrtb.Video`: `ext` is the field MakeRequests writes, `rest` stands for the others. -/
structure Video where
  ext : JsonText
  rest : Marshaled

/-- `json.Marshal` of an `openrtb.Video`. -/
def Video.marshal (v : Video) : Except String Json := do
  let ms ← v.rest
  let ext ← marshalOmitEmpty "ext" marshalRaw v.ext
  pure (.object (ms ++ ext))

/-- `openrtb.Imp`: `banner`, `video` and `ext` are the fields MakeRequests reads and
writes, `rest` stands for the others; no other field is written as a member `video`. -/
structure Imp where
  banner : Option Marshaled
  video : Option Video
  ext : JsonText
  rest : Marshaled
  rest_video : ∀ ms, rest = .ok ms → ∀ m ∈ ms, keyMatches "video" m.1 = false

/-- `json.Marshal` of an `openrtb.Imp`; `banner` and `video` are `omitempty` pointers. -/
def Imp.marshal (i : Imp) : Except String Json := do
  let ms ← i.rest
  let banner ← marshalOmitEmpty "banner" (·.map .object) i.banner
  let video ← marshalOmitEmpty "video" Video.marshal i.video
  let ext ← marshalOmitEmpty "ext" marshalRaw i.ext
  pure (.object (ms ++ banner ++ video ++ ext))

/-- `openrtb.BidRequest`: `imp` is the field MakeRequests reads and writes, `rest` stands
for the others; no other field is written as a member `imp`. -/
structure BidRequest where
  imp : List Imp
  rest : Marshaled
  rest_imp : ∀ ms, rest = .ok ms → ∀ m ∈ ms, keyMatches "imp" m.1 = false

/-- `request.Imp = imps`. -/
def BidRequest.withImp (r : BidRequest) (imps : List Imp) : BidRequest :=
  { r with imp := imps }

/-- `json.Marshal` of an `openrtb.BidRequest`. -/
def BidRequest.marshal (r : BidRequest) : Except String Json := do
  let imps ← r.imp.mapM Imp.marshal
  let ms ← r.rest
  pure (.object (("imp", .array imps) :: ms))

@[simp] theorem BidRequest.withImp_imp (r : BidRequest) (imps : List Imp) :
    (r.withImp imps).imp = imps := rfl

@[simp] theorem BidRequest.withImp_rest (r : BidRequest) (imps : List Imp) :
    (r.withImp imps).rest = r.rest := rfl

@[simp] theorem BidRequest.withImp_withImp (r : BidRequest) (imps imps' : List Imp) :
    (r.withImp imps).withImp imps' = r.withImp imps' := rfl

/-- Setting `Imp` forgets the imps a request held: what is left depends on its other fields
only. -/
theorem BidRequest.withImp_eq_of_rest {r r' : BidRequest} (h : r.rest = r'.rest)
    (imps : List Imp) : r.withImp imps = r'.withImp imps := by
  cases r; cases r'; cases h; rfl

-- ----------------------------------------------------------------------------
-- The imp extension
-- ----------------------------------------------------------------------------

/-- `adapters.ExtImpBidder`, the `ext` of an imp: its `prebid` part, as the `adapters`
package decodes it, and its `bidder` part as a raw text. -/
structure ExtImpBidder (Prebid : Type) where
  prebid : Option Prebid
  bidder : JsonText

/-- `openrtb_ext.ExtImpDV360`. -/
structure ExtImpDV360 where
  region : String
  reward : Int
  skadnSupported : Bool
  mraidSupported : Bool
  deriving DecidableEq, Repr

/-- `json.Unmarshal` into an `openrtb_ext.ExtImpDV360`. -/
def unmarshalExtImpDV360 : Json → Except String ExtImpDV360 :=
  unmarshalStruct
    (fun k =>
      if keyMatches "region" k then
        some (decodeStringField "ExtImpDV360.region" fun x e => { e with region := x })
      else if keyMatches "reward" k then
        some (decodeIntField "ExtImpDV360.reward" fun x e => { e with reward := x })
      else if keyMatches "skadn_supported" k then
        some (decodeBoolField "ExtImpDV360.skadn_supported" fun x e =>
          { e with skadnSupported := x })
      else if keyMatches "mraid_supported" k then
        some (decodeBoolField "ExtImpDV360.mraid_supported" fun x e =>
          { e with mraidSupported := x })
      else none)
    (valueTypeError · "openrtb_ext.ExtImpDV360") ⟨"", 0, false, false⟩

/-- `openrtb_ext.SKADN`, seen through what the adapter does with it: its `SKADNetIDs`, and
what `json.Marshal` makes of it. -/
structure SKADN where
  skadNetIDs : List String
  marshaled : Except String Json

/-- `dv360SKADNetIDs`, the SKAdNetwork IDs DV360 accepts. -/
def dv360SKADNetIDs : List String := ["fill_me_in.skadnetwork"]

/-- `json.Marshal(&dv360VideoExt{Rewarded: rewarded})`, which cannot fail. -/
def dv360VideoExt (rewarded : Int) : Json :=
  .object [("rewarded", .number (toString rewarded))]

/-- `json.Marshal(&impExt)` for `impExt := dv360ImpExt{SKADN: skadn}`; `skadn` is an
`omitempty` pointer. -/
def marshalDv360ImpExt : Option SKADN → Except String Json
  | none => .ok (.object [])
  | some s => s.marshaled.map fun j => .object [("skadn", j)]

-- ----------------------------------------------------------------------------
-- Requests
-- ----------------------------------------------------------------------------

/-- `USEast`. -/
def usEast : String := "us_east"

/-- `DV360Adapter`, without its HTTP client. -/
structure DV360Adapter where
  uri : String
  supportedRegions : List (String × String)

/-- `adapter.Name()`. -/
def DV360Adapter.name (_ : DV360Adapter) : String := "dv360"

/-- `NewDV360Bidder(client, uri, useast)`. -/
def newDV360Bidder (uri useast : String) : DV360Adapter :=
  ⟨uri, [(usEast, useast)]⟩

/-- `adapters.SKAN`. -/
structure SKAN where
  supported : Bool
  sent : Bool

/-- `adapters.MRAID`. -/
structure MRAID where
  supported : Bool

/-- `adapters.TapjoyData`. -/
structure TapjoyData where
  bidder : String
  region : String
  skan : SKAN
  mraid : MRAID

/-- `adapters.RequestData`. -/
structure RequestData where
  method : String
  uri : String
  body : JsonText
  headers : List (String × String)
  tapjoyData : TapjoyData

/-- The headers MakeRequests puts on every request. -/
def headers : List (String × String) :=
  [("Content-Type", "application/json"), ("Accept", "application/json"),
    ("User-Agent", "prebid-server/1.0")]

/-- The errors adapters return: `errortypes.BadInput`, `errortypes.BadServerResponse`, or
an error from `encoding/json` passed on as it is. -/
inductive AdapterError where
  | badInput (message : String)
  | badServerResponse (message : String)
  | other (message : String)
  deriving DecidableEq, Repr

/-- The error of a result that failed. -/
def errorOf {ε α : Type} : Except ε α → Option ε
  | .error e => some e
  | .ok _ => none

private theorem filterMap_cons_toList {α β : Type} (g : α → Option β) (x : α) (l : List α) :
    (x :: l).filterMap g = (g x).toList ++ l.filterMap g := by
  cases h : g x <;> simp [List.filterMap_cons, h]

/-- Every result is a value or an error, so a list of results splits into its values and its
errors. -/
theorem length_filterMap_toOption_add_errorOf {ε α : Type} (rs : List (Except ε α)) :
    (rs.filterMap Except.toOption).length + (rs.filterMap errorOf).length = rs.length := by
  induction rs with
  | nil => rfl
  | cons r rs ih =>
    cases r <;> simp only [List.filterMap_cons, Except.toOption, errorOf, List.length_cons] <;>
      omega

/-- What the loop of MakeRequests has built so far, and the caller's request, which the
loop writes through its pointer. -/
structure MakeRequestsState where
  requestData : List RequestData
  errs : List AdapterError
  request : BidRequest

section

variable {Prebid : Type} (unmarshalPrebid : Json → Except String Prebid)
  (filterPrebidSKADNExt : Option Prebid → List String → SKADN)

/-- `json.Unmarshal` into an `adapters.ExtImpBidder`, with `unmarshalPrebid` decoding its
`prebid` part. -/
def unmarshalExtImpBidder : Json → Except String (ExtImpBidder Prebid) :=
  unmarshalStruct
    (fun k =>
      if keyMatches "prebid" k then
        some fun j e => match j with
          | .null => .ok { e with prebid := none }
          | j => (unmarshalPrebid j).map fun p => { e with prebid := some p }
      else if keyMatches "bidder" k then
        some fun j e => .ok { e with bidder := some (.ok j) }
      else none)
    (valueTypeError · "adapters.ExtImpBidder") ⟨none, none⟩

/-- The copy of an imp MakeRequests sends, before its new `ext`: the banner dropped unless
MRAID is supported, and `{"rewarded": r}` written into a copy of the video. -/
def transformImp (dv360Ext : ExtImpDV360) (impCopy : Imp) : Imp :=
  let rewarded : Int := if dv360Ext.reward = 1 then 1 else 0
  let impCopy :=
    if impCopy.banner.isSome && !dv360Ext.mraidSupported then { impCopy with banner := none }
    else impCopy
  match impCopy.video with
  | some videoCopy =>
    { impCopy with video := some { videoCopy with ext := some (.ok (dv360VideoExt rewarded)) } }
  | none => impCopy

/-- The SKAdNetwork data MakeRequests puts in the imp's `ext`: when it is supported and the
filtered list of IDs is not empty. -/
def skadnFor (dv360Ext : ExtImpDV360) (prebid : Option Prebid) : Option SKADN :=
  if dv360Ext.skadnSupported then
    let skadn := filterPrebidSKADNExt prebid dv360SKADNetIDs
    if 0 < skadn.skadNetIDs.length then some skadn else none
  else none

/-- The body of the loop of MakeRequests up to `request.Imp = ...`: the imp's extensions
decoded, and the copy of the imp to send, or the error that ends this imp's turn. -/
def prepareImp (impCopy : Imp) : Except AdapterError (ExtImpDV360 × Option SKADN × Imp) := do
  let bidderExt ← (impCopy.ext.parse >>= unmarshalExtImpBidder unmarshalPrebid).mapError .badInput
  let dv360Ext ← (bidderExt.bidder.parse >>= unmarshalExtImpDV360).mapError .badInput
  let impCopy := transformImp dv360Ext impCopy
  let skadn := skadnFor filterPrebidSKADNExt dv360Ext bidderExt.prebid
  let ext ← (marshalDv360ImpExt skadn).mapError .other
  pure (dv360Ext, skadn, { impCopy with ext := some (.ok ext) })

/-- The copy of an imp before its new `ext`: the banner kept only when MRAID is supported,
and the video, if any, with `ext` set to `{"rewarded": r}`. -/
theorem transformImp_eq (dv360Ext : ExtImpDV360) (imp : Imp) :
    transformImp dv360Ext imp =
      { imp with
        banner := if dv360Ext.mraidSupported then imp.banner else none
        video := imp.video.map fun v =>
          { v with
            ext := some (.ok (dv360VideoExt (if dv360Ext.reward = 1 then 1 else 0))) } } := by
  obtain ⟨banner, video, ext, rest, h⟩ := imp
  obtain ⟨region, reward, skadnSupported, mraidSupported⟩ := dv360Ext
  cases banner <;> cases video <;> cases mraidSupported <;> rfl

theorem skadnFor_isSome (dv360Ext : ExtImpDV360) (prebid : Option Prebid) :
    (skadnFor filterPrebidSKADNExt dv360Ext prebid).isSome = true ↔
      dv360Ext.skadnSupported = true ∧
        0 < (filterPrebidSKADNExt prebid dv360SKADNetIDs).skadNetIDs.length := by
  unfold skadnFor
  split_ifs <;> simp_all

/-- The imp extension MakeRequests writes has a member `skadn` exactly when it is given
SKAdNetwork data. -/
theorem marshalDv360ImpExt_skadn {skadn : Option SKADN} {ext : Json}
    (h : marshalDv360ImpExt skadn = .ok ext) :
    (∃ j, ext = .object [("skadn", j)]) ↔ skadn.isSome = true := by
  cases skadn with
  | none => cases h; simp
  | some s =>
    cases hm : s.marshaled with
    | error e => simp [marshalDv360ImpExt, hm, Except.map] at h
    | ok j =>
      simp only [marshalDv360ImpExt, hm, Except.map, Except.ok.injEq] at h
      subst h
      simp

/-- What `prepareImp` did to an imp it let through: both extensions decoded, and the copy to
send made by `transformImp` with the marshaled imp extension as `ext`. -/
theorem prepareImp_eq_ok {imp : Imp} {dv360Ext : ExtImpDV360} {skadn : Option SKADN}
    {sent : Imp}
    (h : prepareImp unmarshalPrebid filterPrebidSKADNExt imp = .ok (dv360Ext, skadn, sent)) :
    ∃ bidderExt ext,
      imp.ext.parse >>= unmarshalExtImpBidder unmarshalPrebid = .ok bidderExt ∧
      bidderExt.bidder.parse >>= unmarshalExtImpDV360 = .ok dv360Ext ∧
      skadn = skadnFor filterPrebidSKADNExt dv360Ext bidderExt.prebid ∧
      marshalDv360ImpExt skadn = .ok ext ∧
      sent = { transformImp dv360Ext imp with ext := some (.ok ext) } := by
  simp only [prepareImp, Except.bind_eq_ok, Except.mapError_eq_ok] at h
  obtain ⟨bidderExt, hb, d, hd, ext, he, h⟩ := h
  cases h
  exact ⟨bidderExt, ext, Except.bind_eq_ok.mpr hb, Except.bind_eq_ok.mpr hd, rfl, he, rfl⟩

/-- One turn of the loop of MakeRequests, on the imp `impCopy`. -/
def DV360Adapter.makeRequestsStep (a : DV360Adapter) (s : MakeRequestsState)
    (impCopy : Imp) : MakeRequestsState :=
  match prepareImp unmarshalPrebid filterPrebidSKADNExt impCopy with
  | .error e => { s with errs := s.errs ++ [e] }
  | .ok (dv360Ext, skadn, impCopy) =>
    let request := s.request.withImp [impCopy]
    match request.marshal with
    | .error e => { s with request, errs := s.errs ++ [.other e] }
    | .ok body =>
      let uri := (a.supportedRegions.lookup dv360Ext.region).getD a.uri
      { s with
        request
        requestData := s.requestData ++
          [⟨"POST", uri, some (.ok body), headers,
            ⟨a.name, dv360Ext.region, ⟨dv360Ext.skadnSupported, skadn.isSome⟩,
              ⟨dv360Ext.mraidSupported⟩⟩⟩] }

/-- `adapter.MakeRequests(request, _)`: the requests, the errors, and the caller's request
as the call leaves it. The loop runs over the imps the request held when it was called. -/
def DV360Adapter.makeRequests (a : DV360Adapter) (request : BidRequest) : MakeRequestsState :=
  request.imp.foldl (a.makeRequestsStep unmarshalPrebid filterPrebidSKADNExt) ⟨[], [], request⟩

-- ----------------------------------------------------------------------------
-- One request or one error per imp
-- ----------------------------------------------------------------------------

/-- What the turn of the loop on `imp` adds: the request it sends, or its error, for a
caller's request whose fields other than `Imp` are those of `request`. -/
def DV360Adapter.impResult (a : DV360Adapter) (request : BidRequest) (imp : Imp) :
    Except AdapterError RequestData :=
  match prepareImp unmarshalPrebid filterPrebidSKADNExt imp with
  | .error e => .error e
  | .ok (dv360Ext, skadn, impCopy) =>
    match (request.withImp [impCopy]).marshal with
    | .error e => .error (.other e)
    | .ok body =>
      .ok ⟨"POST", (a.supportedRegions.lookup dv360Ext.region).getD a.uri, some (.ok body),
        headers, ⟨a.name, dv360Ext.region, ⟨dv360Ext.skadnSupported, skadn.isSome⟩,
          ⟨dv360Ext.mraidSupported⟩⟩⟩

theorem impResult_of_rest (a : DV360Adapter) {request request' : BidRequest}
    (h : request.rest = request'.rest) (imp : Imp) :
    a.impResult unmarshalPrebid filterPrebidSKADNExt request imp =
      a.impResult unmarshalPrebid filterPrebidSKADNExt request' imp := by
  simp only [DV360Adapter.impResult, BidRequest.withImp_eq_of_rest h]

/-- A turn appends the imp's request or its error, and sets `request.Imp` to the copy of the
imp once `prepareImp` let it through. -/
theorem makeRequestsStep_eq (a : DV360Adapter) (s : MakeRequestsState) (imp : Imp) :
    a.makeRequestsStep unmarshalPrebid filterPrebidSKADNExt s imp =
      { requestData := s.requestData ++
          (a.impResult unmarshalPrebid filterPrebidSKADNExt s.request imp).toOption.toList
        errs := s.errs ++
          (errorOf (a.impResult unmarshalPrebid filterPrebidSKADNExt s.request imp)).toList
        request := ((prepareImp unmarshalPrebid filterPrebidSKADNExt imp).toOption.map
          fun p => s.request.withImp [p.2.2]).getD s.request } := by
  unfold DV360Adapter.makeRequestsStep DV360Adapter.impResult
  rcases prepareImp unmarshalPrebid filterPrebidSKADNExt imp with e | ⟨dv360Ext, skadn, impCopy⟩
  · simp [Except.toOption, errorOf]
  · cases hm : (s.request.withImp [impCopy]).marshal <;> simp [hm, Except.toOption, errorOf]

/-- A turn of the loop changes only `request.Imp` of the caller's request. -/
theorem makeRequestsStep_request_rest (a : DV360Adapter) (s : MakeRequestsState) (imp : Imp) :
    (a.makeRequestsStep unmarshalPrebid filterPrebidSKADNExt s imp).request.rest =
      s.request.rest := by
  rw [makeRequestsStep_eq]
  cases (prepareImp unmarshalPrebid filterPrebidSKADNExt imp).toOption <;> rfl

/-- The loop over `imps`, from a state whose caller's request has the fields other than `Imp`
of `request`: it appends the request or the error of each imp, in imp order, and leaves in
`request.Imp` the copy of the last imp that `prepareImp` let through, if there is one. -/
theorem foldl_makeRequestsStep (a : DV360Adapter) (request : BidRequest) :
    ∀ (imps : List Imp) (s : MakeRequestsState), s.request.rest = request.rest →
      imps.foldl (a.makeRequestsStep unmarshalPrebid filterPrebidSKADNExt) s =
        { requestData := s.requestData ++
            (imps.map (a.impResult unmarshalPrebid filterPrebidSKADNExt request)).filterMap
              Except.toOption
          errs := s.errs ++
            (imps.map (a.impResult unmarshalPrebid filterPrebidSKADNExt request)).filterMap errorOf
          request := (((imps.filterMap fun imp =>
              (prepareImp unmarshalPrebid filterPrebidSKADNExt imp).toOption).getLast?.map
            fun p => s.request.withImp [p.2.2]).getD s.request) }
  | [], s, _ => by simp
  | imp :: imps, s, hrest => by
    have hstep := (makeRequestsStep_request_rest unmarshalPrebid filterPrebidSKADNExt a s
      imp).trans hrest
    rw [List.foldl_cons, foldl_makeRequestsStep a request imps _ hstep, makeRequestsStep_eq,
      impResult_of_rest _ _ a hrest]
    simp only [List.map_cons, filterMap_cons_toList, List.append_assoc, List.getLast?_append]
    cases (prepareImp unmarshalPrebid filterPrebidSKADNExt imp).toOption <;>
      cases (imps.filterMap fun imp =>
        (prepareImp unmarshalPrebid filterPrebidSKADNExt imp).toOption).getLast? <;> rfl

/-- The caller's request as MakeRequests leaves it: its fields other than `Imp` as they were,
and `Imp` the copy of the last imp that `prepareImp` let through, or, when none got through,
the imps it held. -/
theorem makeRequests_request (a : DV360Adapter) (request : BidRequest) :
    (a.makeRequests unmarshalPrebid filterPrebidSKADNExt request).request =
      (((request.imp.filterMap fun imp =>
          (prepareImp unmarshalPrebid filterPrebidSKADNExt imp).toOption).getLast?.map
        fun p => request.withImp [p.2.2]).getD request) :=
  congrArg MakeRequestsState.request
    (foldl_makeRequestsStep unmarshalPrebid filterPrebidSKADNExt a request request.imp _ rfl)

/-- The requests MakeRequests returns: those of the imps that got one, in imp order. -/
theorem makeRequests_requestData (a : DV360Adapter) (request : BidRequest) :
    (a.makeRequests unmarshalPrebid filterPrebidSKADNExt request).requestData =
      (request.imp.map (a.impResult unmarshalPrebid filterPrebidSKADNExt request)).filterMap
        Except.toOption := by
  simpa using congrArg MakeRequestsState.requestData
    (foldl_makeRequestsStep unmarshalPrebid filterPrebidSKADNExt a request request.imp _ rfl)

/-- The errors MakeRequests returns: those of the imps that got no request, in imp order. -/
theorem makeRequests_errs (a : DV360Adapter) (request : BidRequest) :
    (a.makeRequests unmarshalPrebid filterPrebidSKADNExt request).errs =
      (request.imp.map (a.impResult unmarshalPrebid filterPrebidSKADNExt request)).filterMap
        errorOf := by
  simpa using congrArg MakeRequestsState.errs
    (foldl_makeRequestsStep unmarshalPrebid filterPrebidSKADNExt a request request.imp _ rfl)

/-- The request sent for `imp`, given the imp's decoded extensions and the imp placed in the
body: a POST to the region's endpoint when one is configured and to
the adapter's URI otherwise, whose body is the caller's request with `Imp` that one imp, in
which the banner is removed unless MRAID is supported, the video's `ext` is
`{"rewarded": 1}` when the reward is 1 and `{"rewarded": 0}` otherwise, and `ext` carries
SKAdNetwork data exactly when it is supported and the filtered list of IDs is not empty,
which is also when `SKAN.Sent` is set. -/
structure SentFor (a : DV360Adapter) (request : BidRequest) (imp : Imp) (r : RequestData)
    (bidderExt : ExtImpBidder Prebid) (dv360Ext : ExtImpDV360) (sent : Imp) : Prop where
  bidderExt_ok : imp.ext.parse >>= unmarshalExtImpBidder unmarshalPrebid = .ok bidderExt
  dv360Ext_ok : bidderExt.bidder.parse >>= unmarshalExtImpDV360 = .ok dv360Ext
  method_post : r.method = "POST"
  uri_region : r.uri = (a.supportedRegions.lookup dv360Ext.region).getD a.uri
  body_withImp : ∃ body, (request.withImp [sent]).marshal = .ok body ∧ r.body = some (.ok body)
  rest_eq : sent.rest = imp.rest
  banner_eq : sent.banner = if dv360Ext.mraidSupported then imp.banner else none
  video_eq : sent.video = imp.video.map fun v =>
    { v with ext := some (.ok (if dv360Ext.reward = 1 then .object [("rewarded", .number "1")]
      else .object [("rewarded", .number "0")])) }
  skadn_iff : (∃ j, sent.ext = some (.ok (.object [("skadn", j)]))) ↔
    dv360Ext.skadnSupported = true ∧
      0 < (filterPrebidSKADNExt bidderExt.prebid dv360SKADNetIDs).skadNetIDs.length
  skanSent_iff : r.tapjoyData.skan.sent = true ↔
    dv360Ext.skadnSupported = true ∧
      0 < (filterPrebidSKADNExt bidderExt.prebid dv360SKADNetIDs).skadNetIDs.length

theorem dv360VideoExt_rewarded (c : Prop) [Decidable c] :
    dv360VideoExt (if c then 1 else 0) =
      if c then .object [("rewarded", .number "1")] else .object [("rewarded", .number "0")] := by
  split <;> rfl

/-- Every request a turn sends is sent for its imp as `SentFor` says. -/
theorem impResult_sentFor {a : DV360Adapter} {request : BidRequest} {imp : Imp}
    {r : RequestData} (h : a.impResult unmarshalPrebid filterPrebidSKADNExt request imp = .ok r) :
    ∃ bidderExt dv360Ext sent,
      SentFor unmarshalPrebid filterPrebidSKADNExt a request imp r bidderExt dv360Ext sent := by
  unfold DV360Adapter.impResult at h
  split at h
  · cases h
  · rename_i dv360Ext skadn sent hprep
    split at h
    · cases h
    · rename_i body hbody
      cases h
      obtain ⟨bidderExt, ext, hb, hd, rfl, he, rfl⟩ :=
        prepareImp_eq_ok unmarshalPrebid filterPrebidSKADNExt hprep
      have hskadn := skadnFor_isSome filterPrebidSKADNExt dv360Ext bidderExt.prebid
      refine ⟨bidderExt, dv360Ext, _,
        ⟨hb, hd, rfl, rfl, ⟨body, hbody, rfl⟩, ?_, ?_, ?_, ?_, ?_⟩⟩ <;>
        simp only [transformImp_eq, dv360VideoExt_rewarded]
      · simpa [marshalDv360ImpExt_skadn he] using hskadn
      · exact hskadn

/-- Every request MakeRequests returns is sent for one of the caller's imps. -/
theorem mem_makeRequests {a : DV360Adapter} {request : BidRequest} {r : RequestData}
    (hr : r ∈ (a.makeRequests unmarshalPrebid filterPrebidSKADNExt request).requestData) :
    ∃ imp ∈ request.imp, ∃ bidderExt dv360Ext sent,
      SentFor unmarshalPrebid filterPrebidSKADNExt a request imp r bidderExt dv360Ext sent := by
  rw [makeRequests_requestData] at hr
  obtain ⟨res, hres, hok⟩ := List.mem_filterMap.mp hr
  obtain ⟨imp, himp, rfl⟩ := List.mem_map.mp hres
  have himpResult : a.impResult unmarshalPrebid filterPrebidSKADNExt request imp = .ok r := by
    cases h : a.impResult unmarshalPrebid filterPrebidSKADNExt request imp <;>
      simp_all [Except.toOption]
  exact ⟨imp, himp, impResult_sentFor unmarshalPrebid filterPrebidSKADNExt himpResult⟩

/-- MakeRequests gives each imp exactly one request or exactly one error: the requests are
those of the imps that got one, in imp order, the errors those of the others, and every
request is sent for its imp as `SentFor` says. -/
theorem makeRequests_one_result_per_imp (a : DV360Adapter) (request : BidRequest) :
    (a.makeRequests unmarshalPrebid filterPrebidSKADNExt request).requestData.length +
        (a.makeRequests unmarshalPrebid filterPrebidSKADNExt request).errs.length =
      request.imp.length ∧
    (a.makeRequests unmarshalPrebid filterPrebidSKADNExt request).requestData =
      (request.imp.map (a.impResult unmarshalPrebid filterPrebidSKADNExt request)).filterMap
        Except.toOption ∧
    (a.makeRequests unmarshalPrebid filterPrebidSKADNExt request).errs =
      (request.imp.map (a.impResult unmarshalPrebid filterPrebidSKADNExt request)).filterMap
        errorOf ∧
    ∀ imp r, a.impResult unmarshalPrebid filterPrebidSKADNExt request imp = .ok r →
      ∃ bidderExt dv360Ext sent,
        SentFor unmarshalPrebid filterPrebidSKADNExt a request imp r bidderExt dv360Ext sent := by
  refine ⟨?_, makeRequests_requestData unmarshalPrebid filterPrebidSKADNExt a request,
    makeRequests_errs unmarshalPrebid filterPrebidSKADNExt a request,
    fun _ _ => impResult_sentFor unmarshalPrebid filterPrebidSKADNExt⟩
  rw [makeRequests_requestData, makeRequests_errs, length_filterMap_toOption_add_errorOf,
    List.length_map]

/-- As soon as one imp of the caller's request gets through `prepareImp`, MakeRequests leaves
the request holding a single imp, the copy of the last imp that got through, in place of the
two or more it held. -/
theorem makeRequests_leaves_one_imp (a : DV360Adapter) (request : BidRequest) {imp : Imp}
    (himp : imp ∈ request.imp)
    (hok : (prepareImp unmarshalPrebid filterPrebidSKADNExt imp).toOption.isSome)
    (hlen : 2 ≤ request.imp.length) :
    ∃ sent, (a.makeRequests unmarshalPrebid filterPrebidSKADNExt request).request =
        request.withImp [sent] ∧
      (a.makeRequests unmarshalPrebid filterPrebidSKADNExt request).request.imp ≠ request.imp := by
  obtain ⟨p, hp⟩ : ∃ p, (request.imp.filterMap fun imp =>
      (prepareImp unmarshalPrebid filterPrebidSKADNExt imp).toOption).getLast? = some p := by
    obtain ⟨q, hq⟩ := Option.isSome_iff_exists.mp hok
    exact Option.isSome_iff_exists.mp
      (List.getLast?_isSome.mpr (List.ne_nil_of_mem (List.mem_filterMap.mpr ⟨imp, himp, hq⟩)))
  have hreq : (a.makeRequests unmarshalPrebid filterPrebidSKADNExt request).request =
      request.withImp [p.2.2] := by
    simpa only [hp, Option.map_some', Option.getD_some] using congrArg MakeRequestsState.request
      (foldl_makeRequestsStep unmarshalPrebid filterPrebidSKADNExt a request request.imp
        ⟨[], [], request⟩ rfl)
  refine ⟨p.2.2, hreq, fun h => ?_⟩
  have := congrArg List.length (hreq ▸ h)
  simp only [BidRequest.withImp_imp, List.length_singleton] at this
  omega

end

/-- An imp with the extension `{"bidder": {}}` and neither banner nor video. -/
def bidderImp : Imp :=
  ⟨none, none, some (.ok (.object [("bidder", .object [])])), .ok [], fun _ h => by cases h; simp⟩

/-- A request of two such imps. -/
def twoImpRequest : BidRequest :=
  ⟨[bidderImp, bidderImp], .ok [("id", .string "1")],
    fun _ h m hm => by cases h; simp at hm; subst hm; decide⟩

theorem makeRequests_leaves_one_imp_two_imps :
    ∃ sent, ((newDV360Bidder "uri" "useast").makeRequests (fun _ => .ok ())
        (fun _ _ => ⟨[], .ok .null⟩) twoImpRequest).request = twoImpRequest.withImp [sent] ∧
      ((newDV360Bidder "uri" "useast").makeRequests (fun _ => .ok ())
        (fun _ _ => ⟨[], .ok .null⟩) twoImpRequest).request.imp ≠ twoImpRequest.imp :=
  makeRequests_leaves_one_imp (fun _ => .ok ()) (fun _ _ => ⟨[], .ok .null⟩) _ twoImpRequest
    (List.mem_cons_self bidderImp [bidderImp]) rfl (by decide)

end PrebidService.Dv360
