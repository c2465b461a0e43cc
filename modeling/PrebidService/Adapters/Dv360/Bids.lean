-- SUMMARY: The DV360 adapter's response side: MakeBids with its status and decoding paths, and its agreement with the bodies MakeRequests sends.
import PrebidService.Adapters.Dv360.Requests

/-!
# DV360 bids

`DV360Adapter.MakeBids` of `src/adapters/dv360/dv360.go` checks the response's status,
decodes the bid response, decodes the body of the request it answers, and types every bid
by `bidReq.Imp[0].Video`: video when it is set, banner otherwise.

Of the decoded request MakeBids reads only `Imp[0].Video`, so the model decodes a body into
what that needs: for each imp, whether its `Video` is set (`unmarshalBidRequest`). The
members that select the other fields of the openrtb types still count, through the type
errors they get, which make `json.Unmarshal` fail and MakeBids return that error; which
errors those are is a parameter (`OtherFields`), as is the decoding of the bid response, since
the openrtb package is not in `src/`.

Two results tie the halves of the adapter together. Whatever that decoder does, MakeBids
never panics on a request MakeRequests built (`makeBids_ok_of_makeRequests`): its body holds
exactly one imp. And when the decoder takes what `json.Marshal` writes
(`OtherFields.ReadsBack`), the body decodes to that one imp, which has a video exactly when
the caller's imp has one, and MakeBids types the bids by it (`makeBids_makeRequests`).
-/

namespace PrebidService.Dv360

open Go

/-- `openrtb.Bid`: `price` holds the IEEE bits of `Price`, the field MakeBids reads, and
`other` stands for the other fields. -/
structure Bid where
  price : BitVec 64
  other : List (String × Json)

/-- `openrtb.SeatBid`. -/
structure SeatBid where
  bid : List Bid

/-- `openrtb.BidResponse`. -/
structure BidResponse where
  seatBid : List SeatBid

/-- `openrtb_ext.BidType`, of the two kinds MakeBids gives. -/
inductive BidType where
  | banner
  | video
  deriving DecidableEq, Repr

/-- `adapters.TypedBid`: `bid` is the bid its `Bid` pointer reads once MakeBids returned. -/
structure TypedBid where
  bid : Bid
  bidType : BidType

/-- `adapters.BidderResponse`. -/
structure BidderResponse where
  bids : List TypedBid

/-- `adapters.ResponseData`. -/
structure ResponseData where
  statusCode : Int
  body : JsonText

-- ----------------------------------------------------------------------------
-- Decoding the request body
-- ----------------------------------------------------------------------------

/-- The type errors `json.Unmarshal` reports on the members of a request body that select
fields MakeBids does not read: for a member of a `BidRequest`, of an `Imp` and of a `Video`,
the error its value gets, if any. The openrtb types are not in `src/`. -/
structure OtherFields where
  bidRequest : String × Json → Option String
  imp : String × Json → Option String
  video : String × Json → Option String

/-- A decoder of the openrtb types that reports no type error. -/
def OtherFields.accepting : OtherFields := ⟨fun _ => none, fun _ => none, fun _ => none⟩

section

variable (o : OtherFields)

/-- The fields of an `openrtb.Video`: `ext` is a `json.RawMessage`, the others are not
read. -/
def videoField (k : String) : Option (Json → Unit → Except String Unit) :=
  if keyMatches "ext" k then some decodeRawField else opaqueField o.video k

/-- The `video` member of an imp decoded into the `Video` pointer: `null` leaves it nil, and
any other value is decoded into the `openrtb.Video` it then points to. -/
def decodeVideoField : Json → Bool → Except String Bool
  | .null, _ => .ok false
  | j, _ =>
    (unmarshalStruct (videoField o) (fieldTypeError · "Imp.video" "openrtb.Video") () j).map
      fun _ => true

/-- The fields of an `openrtb.Imp`, seen through whether its `Video` is set: `ext` is a
`json.RawMessage`, and the others (`banner` among them) are not read. -/
def impField (k : String) : Option (Json → Bool → Except String Bool) :=
  if keyMatches "video" k then some (decodeVideoField o)
  else if keyMatches "ext" k then some decodeRawField
  else opaqueField o.imp k

/-- `json.Unmarshal` of an element of `imp` into an `openrtb.Imp`, seen through whether its
`Video` is set. -/
def unmarshalImp : Json → Except String Bool :=
  unmarshalStruct (impField o) (fieldTypeError · "BidRequest.imp" "openrtb.Imp") false

/-- The `imp` member of a request decoded into `Imp`: `null` leaves the slice nil, an array
gives one imp per element. A repeated `imp` member is decoded into fresh imps here, where
`encoding/json` decodes it into the elements the earlier one left. -/
def decodeImpField : Json → List Bool → Except String (List Bool)
  | .null, _ => .ok []
  | .array elems, _ => elems.mapM (unmarshalImp o)
  | j, _ => .error (fieldTypeError j.kind "BidRequest.imp" "[]openrtb.Imp")

/-- The fields of an `openrtb.BidRequest`, seen through its imps. -/
def requestField (k : String) : Option (Json → List Bool → Except String (List Bool)) :=
  if keyMatches "imp" k then some (decodeImpField o) else opaqueField o.bidRequest k

/-- `json.Unmarshal` into an `openrtb.BidRequest`, seen through what MakeBids reads: for each
imp, whether its `Video` is set. -/
def unmarshalBidRequest : Json → Except String (List Bool) :=
  unmarshalStruct (requestField o) (valueTypeError · "openrtb.BidRequest") []

end

/-- The openrtb decoder takes without a type error every member `json.Marshal` writes for
the fields of an imp that MakeBids does not read: the imp's own, its banner, and those of its
video. -/
structure OtherFields.ReadsBackImp (o : OtherFields) (imp : Imp) : Prop where
  rest : ∀ ms, imp.rest = .ok ms → ∀ m ∈ ms, o.imp m = none
  banner : ∀ ms, imp.banner = some (.ok ms) → o.imp ("banner", .object ms) = none
  video : ∀ v ∈ imp.video, ∀ ms, v.rest = .ok ms → ∀ m ∈ ms, o.video m = none

/-- The openrtb decoder takes without a type error every member `json.Marshal` writes for
the fields of a request that MakeBids does not read. -/
structure OtherFields.ReadsBack (o : OtherFields) (request : BidRequest) : Prop where
  rest : ∀ ms, request.rest = .ok ms → ∀ m ∈ ms, o.bidRequest m = none
  imp : ∀ imp ∈ request.imp, o.ReadsBackImp imp

section

variable {o : OtherFields}

theorem videoField_inert {m : String × Json}
    (h : keyMatches "ext" m.1 = false → o.video m = none) : Inert (videoField o) m := by
  intro dec hdec s
  unfold videoField at hdec
  split_ifs at hdec with he
  · cases hdec; rfl
  · exact opaqueField_inert (h (by simpa using he)) dec hdec s

theorem impField_inert {m : String × Json} (hv : keyMatches "video" m.1 = false)
    (h : keyMatches "ext" m.1 = false → o.imp m = none) : Inert (impField o) m := by
  intro dec hdec s
  simp only [impField, hv, Bool.false_eq_true, if_false] at hdec
  split_ifs at hdec with he
  · cases hdec; rfl
  · exact opaqueField_inert (h (by simpa using he)) dec hdec s

theorem impField_video : impField o "video" = some (decodeVideoField o) := rfl

theorem requestField_imp : requestField o "imp" = some (decodeImpField o) := rfl

/-- The rest of a request selects no `imp` field: its members decode into nothing MakeBids
reads, and can only add a type error. -/
theorem requestField_rest {r : BidRequest} {ms : List (String × Json)} (h : r.rest = .ok ms) :
    ∀ m ∈ ms, ∀ dec, requestField o m.1 = some dec → ∀ s s', dec m.2 s = .ok s' → s' = s :=
  fun m hm dec hdec => by
    simp only [requestField, r.rest_imp ms h m hm, Bool.false_eq_true, if_false] at hdec
    exact opaqueField_keeps _ m dec hdec

/-- A marshaled video decodes without a type error when the decoder takes its fields. -/
theorem decodeVideoField_marshal {v : Video} {j : Json} (h : v.marshal = .ok j)
    (hv : ∀ ms, v.rest = .ok ms → ∀ m ∈ ms, o.video m = none) (b : Bool) :
    decodeVideoField o j b = .ok true := by
  simp only [Video.marshal, Except.bind_eq_ok] at h
  obtain ⟨ms, hms, ext, he, h⟩ := h
  cases Except.ok.inj h
  have hinert : ∀ m ∈ ms ++ ext, Inert (videoField o) m := by
    intro m hm
    rcases List.mem_append.mp hm with hm | hm
    · exact videoField_inert fun _ => hv ms hms m hm
    · exact videoField_inert fun hk => absurd hk (by rw [marshalOmitEmpty_names he m hm]; decide)
  simp [decodeVideoField, unmarshalStruct, decodeMembers_of_forall_inert _ hinert, Except.map]

/-- A marshaled imp decodes to an imp whose `Video` is set exactly when the imp has one, when
the decoder takes the fields MakeBids does not read. -/
theorem unmarshalImp_marshal {i : Imp} (hi : o.ReadsBackImp i) {j : Json}
    (h : i.marshal = .ok j) : unmarshalImp o j = .ok i.video.isSome := by
  simp only [Imp.marshal, Except.bind_eq_ok] at h
  obtain ⟨ms, hms, banner, hb, video, hv, ext, he, h⟩ := h
  cases Except.ok.inj h
  have hrest : ∀ m ∈ ms, Inert (impField o) m := fun m hm =>
    impField_inert (i.rest_video ms hms m hm) fun _ => hi.rest ms hms m hm
  have hbanner : ∀ m ∈ banner, Inert (impField o) m := by
    rcases marshalOmitEmpty_eq_ok.mp hb with ⟨-, rfl⟩ | ⟨a, bj, ha, hbj, rfl⟩
    · simp
    · rcases a with _ | bms
      · cases hbj
      · cases hbj
        have hname : keyMatches "video" "banner" = false := by decide
        simpa using impField_inert (m := ("banner", .object bms)) hname fun _ => hi.banner bms ha
  have hext : ∀ m ∈ ext, Inert (impField o) m := fun m hm =>
    impField_inert (by rw [marshalOmitEmpty_names he m hm]; decide)
      fun hk => absurd hk (by rw [marshalOmitEmpty_names he m hm]; decide)
  simp only [unmarshalImp, unmarshalStruct, decodeMembers_append,
    decodeMembers_of_forall_inert _ hrest, decodeMembers_of_forall_inert _ hbanner]
  rcases marshalOmitEmpty_eq_ok.mp hv with ⟨hvn, rfl⟩ | ⟨v, vj, hvs, hvj, rfl⟩
  · simp [decodeMembers_of_forall_inert _ hext, hvn]
  · simp [decodeMember, impField_video, decodeVideoField_marshal hvj (hi.video v hvs),
      decodeMembers_of_forall_inert _ hext, hvs]

theorem mapM_unmarshalImp_marshal :
    ∀ {imps : List Imp} {js : List Json}, (∀ i ∈ imps, o.ReadsBackImp i) →
      imps.mapM Imp.marshal = .ok js →
      js.mapM (unmarshalImp o) = .ok (imps.map fun i => i.video.isSome)
  | [], _, _, h => by cases Except.ok.inj h; rfl
  | i :: imps, _, hi, h => by
    simp only [List.mapM_cons, Except.bind_eq_ok] at h
    obtain ⟨j, hj, js, hjs, h⟩ := h
    cases Except.ok.inj h
    rw [List.mapM_cons, unmarshalImp_marshal (hi i (.head _)) hj,
      mapM_unmarshalImp_marshal (fun i' hi' => hi i' (.tail _ hi')) hjs]
    rfl

/-- A marshaled request decodes to its imps, each with its `Video` set exactly when the imp
has one, when the decoder takes the fields MakeBids does not read. -/
theorem unmarshalBidRequest_marshal {r : BidRequest} (hr : o.ReadsBack r) {j : Json}
    (h : r.marshal = .ok j) :
    unmarshalBidRequest o j = .ok (r.imp.map fun i => i.video.isSome) := by
  simp only [BidRequest.marshal, Except.bind_eq_ok] at h
  obtain ⟨imps, himps, ms, hms, h⟩ := h
  cases Except.ok.inj h
  have hrest : ∀ m ∈ ms, Inert (requestField o) m := fun m hm dec hdec s => by
    simp only [requestField, r.rest_imp ms hms m hm, Bool.false_eq_true, if_false] at hdec
    exact opaqueField_inert (hr.rest ms hms m hm) dec hdec s
  simp only [unmarshalBidRequest, unmarshalStruct, decodeMembers_cons,
    decodeMembers_of_forall_inert _ hrest]
  simp only [decodeMember, requestField_imp, decodeImpField,
    mapM_unmarshalImp_marshal hr.imp himps]

private theorem length_eq_of_mapM_eq_ok {α β ε : Type} {f : α → Except ε β} :
    ∀ {xs : List α} {ys : List β}, xs.mapM f = .ok ys → ys.length = xs.length
  | [], _, h => by cases Except.ok.inj h; rfl
  | x :: xs, _, h => by
    simp only [List.mapM_cons, Except.bind_eq_ok] at h
    obtain ⟨y, -, ys, hys, h⟩ := h
    cases Except.ok.inj h
    simp [length_eq_of_mapM_eq_ok hys]

/-- Whatever type errors the decoder reports, the body of a request of one imp decodes to one
imp or to an error: the body has one `imp` member, an array of one element. -/
theorem unmarshalBidRequest_length {r : BidRequest} (hlen : r.imp.length = 1) {j : Json}
    (h : r.marshal = .ok j) {imps : List Bool} (hd : unmarshalBidRequest o j = .ok imps) :
    imps.length = 1 := by
  simp only [BidRequest.marshal, Except.bind_eq_ok] at h
  obtain ⟨js, hjs, ms, hms, h⟩ := h
  cases Except.ok.inj h
  simp only [unmarshalBidRequest, unmarshalStruct, decodeMembers_cons] at hd
  split at hd
  · rename_i s hs
    cases hd
    obtain ⟨rfl, hnone⟩ := decodeMembers_eq_of_forall_keeps _ (requestField_rest hms) hs
    cases hm : js.mapM (unmarshalImp o) with
    | error e =>
      simp only [decodeMember, requestField_imp, decodeImpField, hm] at hnone
      exact Option.noConfusion hnone
    | ok l =>
      simp only [decodeMember, requestField_imp, decodeImpField, hm]
      rw [length_eq_of_mapM_eq_ok hm, length_eq_of_mapM_eq_ok hjs, hlen]
  · cases hd

end

-- ----------------------------------------------------------------------------
-- MakeBids
-- ----------------------------------------------------------------------------

/-- The message of the errors MakeBids returns for an unexpected status `code`. -/
def statusMessage (code : Int) : String :=
  "Unexpected status code: " ++ toString code ++ ". Run with request.debug = 1 for more info"

/-- The inner loop `for _, b := range sb.Bid` of MakeBids, appending `&b` for each bid whose
price is not zero. Before Go 1.22, `b` is one variable for the whole loop, assigned each
bid in turn, so every pointer the loop appends points at that one variable, which holds
the last bid once the loop is over. -/
def seatTypedBids (bidType : BidType) (bids : List Bid) : List TypedBid :=
  match bids.getLast? with
  | none => []
  | some b => (bids.filter fun bid => !Float64.isZero bid.price).map fun _ => ⟨b, bidType⟩

/-- Every TypedBid of one seat reads that seat's last bid. -/
theorem mem_seatTypedBids {bidType : BidType} {bids : List Bid} {tb : TypedBid}
    (h : tb ∈ seatTypedBids bidType bids) : bids.getLast? = some tb.bid ∧ tb.bidType = bidType := by
  cases hl : bids.getLast? with
  | none => simp [seatTypedBids, hl] at h
  | some b =>
    simp only [seatTypedBids, hl, List.mem_map] at h
    obtain ⟨_, -, rfl⟩ := h
    exact ⟨rfl, rfl⟩

/-- The inner loop appends one TypedBid per bid whose price is not zero. -/
theorem length_seatTypedBids (bidType : BidType) (bids : List Bid) :
    (seatTypedBids bidType bids).length =
      (bids.filter fun bid => !Float64.isZero bid.price).length := by
  cases hl : bids.getLast? with
  | none => simp [List.getLast?_eq_none_iff.mp hl, seatTypedBids]
  | some b => simp [seatTypedBids, hl]

section

variable (o : OtherFields) (unmarshalBidResponse : Json → Except String BidResponse)

/-- `adapter.MakeBids(_, externalRequest, response)`: the bidder response and the errors, or
the panic that indexing `bidReq.Imp[0]` raises on a request without imps. -/
def DV360Adapter.makeBids (_ : DV360Adapter) (externalRequest : RequestData)
    (response : ResponseData) : Except String (Option BidderResponse × List AdapterError) :=
  if response.statusCode = 204 then .ok (none, [])
  else if response.statusCode = 400 then .ok (none, [.badInput (statusMessage 400)])
  else if response.statusCode ≠ 200 then
    .ok (none, [.badServerResponse (statusMessage response.statusCode)])
  else
    match response.body.parse >>= unmarshalBidResponse with
    | .error e => .ok (none, [.badServerResponse e])
    | .ok bidResp =>
      if bidResp.seatBid.isEmpty then .ok (none, [])
      else
        match externalRequest.body.parse >>= unmarshalBidRequest o with
        | .error e => .ok (none, [.other e])
        | .ok [] => .error "runtime error: index out of range [0] with length 0"
        | .ok (video :: _) =>
          let bidType := if video then BidType.video else .banner
          .ok (some ⟨bidResp.seatBid.flatMap fun sb => seatTypedBids bidType sb.bid⟩, [])

/-- The TypedBids of the bids of non-zero price across all seat bids, in order, each reading
its own bid. -/
def pricedTypedBids (bidType : BidType) (seatBids : List SeatBid) : List TypedBid :=
  ((seatBids.flatMap SeatBid.bid).filter fun bid => !Float64.isZero bid.price).map (⟨·, bidType⟩)

/-- MakeBids returns as many TypedBids as there are bids of non-zero price. -/
theorem length_flatMap_seatTypedBids (bidType : BidType) (seatBids : List SeatBid) :
    (seatBids.flatMap fun sb => seatTypedBids bidType sb.bid).length =
      (pricedTypedBids bidType seatBids).length := by
  induction seatBids with
  | nil => rfl
  | cons sb seatBids ih =>
    simp only [pricedTypedBids, List.length_map] at ih
    simp [pricedTypedBids, List.filter_append, length_seatTypedBids, ih]

/-- Every TypedBid MakeBids builds from the seat bids carries the one bid type. -/
theorem bidType_of_mem_flatMap_seatTypedBids {bidType : BidType} {seatBids : List SeatBid}
    {tb : TypedBid} (h : tb ∈ seatBids.flatMap fun sb => seatTypedBids bidType sb.bid) :
    tb.bidType = bidType := by
  obtain ⟨sb, -, hsb⟩ := List.mem_flatMap.mp h
  exact (mem_seatTypedBids hsb).2

/-- On a 200 response that decodes to seat bids, MakeBids types every bid by the first imp
of the request body, when the body decodes to at least one. -/
theorem makeBids_of_ok {a : DV360Adapter} {r : RequestData} {response : ResponseData}
    {bidResp : BidResponse} {video : Bool} {imps : List Bool}
    (h200 : response.statusCode = 200)
    (hresp : response.body.parse >>= unmarshalBidResponse = .ok bidResp)
    (hseat : bidResp.seatBid ≠ [])
    (hreq : r.body.parse >>= unmarshalBidRequest o = .ok (video :: imps)) :
    a.makeBids o unmarshalBidResponse r response =
      .ok (some ⟨bidResp.seatBid.flatMap fun sb =>
        seatTypedBids (if video then .video else .banner) sb.bid⟩, []) := by
  simp [DV360Adapter.makeBids, h200, hresp, hreq, List.isEmpty_iff, hseat]

/-- MakeBids panics only on a request body that decodes to no imp. -/
theorem makeBids_ok_of_ne_nil {a : DV360Adapter} {r : RequestData}
    (h : ∀ imps, r.body.parse >>= unmarshalBidRequest o = .ok imps → imps ≠ [])
    (response : ResponseData) : ∃ res, a.makeBids o unmarshalBidResponse r response = .ok res := by
  unfold DV360Adapter.makeBids
  split_ifs
  any_goals exact ⟨_, rfl⟩
  split
  · exact ⟨_, rfl⟩
  · split_ifs
    · exact ⟨_, rfl⟩
    · split
      · exact ⟨_, rfl⟩
      · exact absurd rfl (h [] ‹_›)
      · exact ⟨_, rfl⟩

end

section

variable {Prebid : Type} (unmarshalPrebid : Json → Except String Prebid)
  (filterPrebidSKADNExt : Option Prebid → List String → SKADN)
  (o : OtherFields) (unmarshalBidResponse : Json → Except String BidResponse)

/-- The imp MakeRequests sends keeps the fields MakeBids does not read, so the decoder takes
them there as it takes them in the caller's imp. -/
theorem SentFor.readsBackImp {a : DV360Adapter} {request : BidRequest} {imp : Imp}
    {r : RequestData} {bidderExt : ExtImpBidder Prebid} {dv360Ext : ExtImpDV360} {sent : Imp}
    (hs : SentFor unmarshalPrebid filterPrebidSKADNExt a request imp r bidderExt dv360Ext sent)
    (hi : o.ReadsBackImp imp) : o.ReadsBackImp sent where
  rest ms h := hi.rest ms (hs.rest_eq ▸ h)
  banner ms h := hi.banner ms (by
    rw [hs.banner_eq] at h
    split_ifs at h
    exact h)
  video v hv ms h := by
    rw [hs.video_eq] at hv
    obtain ⟨v', hv', rfl⟩ := Option.mem_map.mp hv
    exact hi.video v' hv' ms h

/-- MakeBids never panics on a request MakeRequests built, whatever the response and whatever
type errors the openrtb decoder reports: the body holds one imp, so decoding it gives that
imp or an error. -/
theorem makeBids_ok_of_makeRequests (a : DV360Adapter) (request : BidRequest) {r : RequestData}
    (hr : r ∈ (a.makeRequests unmarshalPrebid filterPrebidSKADNExt request).requestData)
    (response : ResponseData) :
    ∃ res, a.makeBids o unmarshalBidResponse r response = .ok res := by
  obtain ⟨imp, -, bidderExt, dv360Ext, sent, hs⟩ :=
    mem_makeRequests unmarshalPrebid filterPrebidSKADNExt hr
  obtain ⟨body, hbody, hrbody⟩ := hs.body_withImp
  refine makeBids_ok_of_ne_nil o unmarshalBidResponse (fun imps himps hnil => ?_) response
  rw [hrbody] at himps
  have := unmarshalBidRequest_length (r := request.withImp [sent]) rfl hbody himps
  simp [hnil] at this

/-- MakeBids agrees with MakeRequests: on every request MakeRequests sends and every 200
response that decodes to seat bids, the body decodes to exactly one imp, the one
MakeRequests placed there, so `Imp[0]` is in range; that imp has a video exactly when the
caller's imp has one, and MakeBids types every bid video when it has one and banner when it
has none. The decoder is one that takes what `json.Marshal` writes for the openrtb fields
MakeBids does not read. -/
theorem makeBids_makeRequests (a : DV360Adapter) (request : BidRequest)
    (ho : o.ReadsBack request) (r : RequestData)
    (hr : r ∈ (a.makeRequests unmarshalPrebid filterPrebidSKADNExt request).requestData)
    (response : ResponseData) (bidResp : BidResponse) (h200 : response.statusCode = 200)
    (hresp : response.body.parse >>= unmarshalBidResponse = .ok bidResp)
    (hseat : bidResp.seatBid ≠ []) :
    ∃ imp ∈ request.imp, ∃ placed body, (request.withImp [placed]).marshal = .ok body ∧
      r.body = some (.ok body) ∧
      r.body.parse >>= unmarshalBidRequest o = .ok [placed.video.isSome] ∧
      placed.video.isSome = imp.video.isSome ∧
      ∃ bids, a.makeBids o unmarshalBidResponse r response = .ok (some ⟨bids⟩, []) ∧
        bids = bidResp.seatBid.flatMap (fun sb =>
          seatTypedBids (if placed.video.isSome then .video else .banner) sb.bid) ∧
        ∀ tb ∈ bids, tb.bidType = if placed.video.isSome then .video else .banner := by
  obtain ⟨imp, himp, bidderExt, dv360Ext, placed, hs⟩ :=
    mem_makeRequests unmarshalPrebid filterPrebidSKADNExt hr
  obtain ⟨body, hbody, hrbody⟩ := hs.body_withImp
  have hplaced : o.ReadsBack (request.withImp [placed]) :=
    ⟨ho.rest, fun i hi => List.mem_singleton.mp hi ▸
      hs.readsBackImp unmarshalPrebid filterPrebidSKADNExt o (ho.imp imp himp)⟩
  have hdecode : r.body.parse >>= unmarshalBidRequest o = .ok [placed.video.isSome] := by
    simpa [hrbody, JsonText.parse] using unmarshalBidRequest_marshal hplaced hbody
  have hvideo : placed.video.isSome = imp.video.isSome := by
    rw [hs.video_eq, Option.isSome_map']
  exact ⟨imp, himp, placed, body, hbody, hrbody, hdecode, hvideo, _,
    makeBids_of_ok o unmarshalBidResponse h200 hresp hseat hdecode, rfl,
    fun _ => bidType_of_mem_flatMap_seatTypedBids⟩

end

/-- A request with one imp that has a video and the extension `{"bidder": {}}`. -/
def videoImpRequest : BidRequest :=
  ⟨[⟨none, some ⟨none, .ok []⟩, some (.ok (.object [("bidder", .object [])])), .ok [],
      fun _ h => by cases h; simp⟩],
    .ok [("id", .string "1")], fun _ h m hm => by cases h; simp at hm; subst hm; decide⟩

/-- The request MakeRequests sends for `videoImpRequest`. -/
def videoImpRequestData : RequestData :=
  ⟨"POST", "uri",
    some (.ok (.object [("imp", .array [.object [("video", .object [("ext", dv360VideoExt 0)]),
      ("ext", .object [])]]), ("id", .string "1")])),
    headers, ⟨"dv360", "", ⟨false, false⟩, ⟨false⟩⟩⟩

/-- A bid response with one seat bid holding one bid of price `1.0`. -/
def oneBidResponse : BidResponse :=
  ⟨[⟨[⟨0x3FF0000000000000#64, []⟩]⟩]⟩

/-- The decoder that reports no type error takes every request. -/
theorem OtherFields.accepting_readsBack (request : BidRequest) :
    OtherFields.accepting.ReadsBack request :=
  ⟨fun _ _ _ _ => rfl, fun _ _ => ⟨fun _ _ _ _ => rfl, fun _ _ => rfl, fun _ _ _ _ _ _ => rfl⟩⟩

theorem makeBids_makeRequests_video_imp :
    OtherFields.accepting.ReadsBack videoImpRequest ∧
    videoImpRequestData ∈ ((newDV360Bidder "uri" "useast").makeRequests (fun _ => .ok ())
      (fun _ _ => ⟨[], .ok .null⟩) videoImpRequest).requestData ∧
    ∃ imp ∈ videoImpRequest.imp, ∃ placed body,
      (videoImpRequest.withImp [placed]).marshal = .ok body ∧
      videoImpRequestData.body = some (.ok body) ∧
      videoImpRequestData.body.parse >>= unmarshalBidRequest OtherFields.accepting =
        .ok [placed.video.isSome] ∧
      placed.video.isSome = imp.video.isSome ∧
      ∃ bids, (newDV360Bidder "uri" "useast").makeBids OtherFields.accepting
          (fun _ => .ok oneBidResponse) videoImpRequestData ⟨200, some (.ok .null)⟩ =
          .ok (some ⟨bids⟩, []) ∧
        bids = oneBidResponse.seatBid.flatMap (fun sb =>
          seatTypedBids (if placed.video.isSome then .video else .banner) sb.bid) ∧
        ∀ tb ∈ bids, tb.bidType = if placed.video.isSome then .video else .banner := by
  have hr : videoImpRequestData ∈ ((newDV360Bidder "uri" "useast").makeRequests
      (fun _ => .ok ()) (fun _ _ => ⟨[], .ok .null⟩) videoImpRequest).requestData :=
    List.mem_singleton_self _
  have ho := OtherFields.accepting_readsBack videoImpRequest
  exact ⟨ho, hr, makeBids_makeRequests _ _ _ _ _ _ ho _ hr _ _ rfl rfl (by simp [oneBidResponse])⟩

theorem makeBids_ok_of_makeRequests_video_imp :
    videoImpRequestData ∈ ((newDV360Bidder "uri" "useast").makeRequests (fun _ => .ok ())
      (fun _ _ => ⟨[], .ok .null⟩) videoImpRequest).requestData ∧
    ∃ res, (newDV360Bidder "uri" "useast").makeBids ⟨fun _ => some "type error", fun _ => none,
        fun _ => none⟩ (fun _ => .ok oneBidResponse) videoImpRequestData ⟨200, some (.ok .null)⟩ =
      .ok res :=
  have hr : videoImpRequestData ∈ ((newDV360Bidder "uri" "useast").makeRequests
      (fun _ => .ok ()) (fun _ _ => ⟨[], .ok .null⟩) videoImpRequest).requestData :=
    List.mem_singleton_self _
  ⟨hr, makeBids_ok_of_makeRequests _ _ _ _ _ _ hr _⟩

-- ----------------------------------------------------------------------------
-- Two bids in one seat
-- ----------------------------------------------------------------------------

section

variable (o : OtherFields) (unmarshalBidResponse : Json → Except String BidResponse)

/-- On a 200 response whose first seat bid holds two bids of non-zero price, MakeBids returns
as many TypedBids as there are bids of non-zero price, but the first two both read the
second bid, where the first should read the first: the pointer `&b` is taken of the loop
variable. -/
theorem makeBids_two_bids_alias {a : DV360Adapter} {r : RequestData} {response : ResponseData}
    {video : Bool} {imps : List Bool} {b₁ b₂ : Bid} {seats : List SeatBid}
    (h200 : response.statusCode = 200)
    (hresp : response.body.parse >>= unmarshalBidResponse = .ok ⟨⟨[b₁, b₂]⟩ :: seats⟩)
    (hreq : r.body.parse >>= unmarshalBidRequest o = .ok (video :: imps))
    (h₁ : Float64.isZero b₁.price = false) (h₂ : Float64.isZero b₂.price = false) :
    ∃ bids, a.makeBids o unmarshalBidResponse r response = .ok (some ⟨bids⟩, []) ∧
      bids.length = (pricedTypedBids (if video then .video else .banner)
        (⟨[b₁, b₂]⟩ :: seats)).length ∧
      (bids.map TypedBid.bid).take 2 = [b₂, b₂] ∧
      ((pricedTypedBids (if video then .video else .banner)
        (⟨[b₁, b₂]⟩ :: seats)).map TypedBid.bid).take 2 = [b₁, b₂] := by
  refine ⟨_, makeBids_of_ok o unmarshalBidResponse h200 hresp (List.cons_ne_nil _ _) hreq,
    length_flatMap_seatTypedBids _ _, ?_, ?_⟩ <;>
  simp [seatTypedBids, pricedTypedBids, h₁, h₂]

end

/-- A bid response with one seat bid holding two bids, of prices `1.0` and `2.0`. -/
def twoBidResponse : BidResponse :=
  ⟨[⟨[⟨0x3FF0000000000000#64, []⟩, ⟨0x4000000000000000#64, []⟩]⟩]⟩

theorem makeBids_two_bids_alias_video_imp :
    ∃ bids, (newDV360Bidder "uri" "useast").makeBids OtherFields.accepting
        (fun _ => .ok twoBidResponse) videoImpRequestData ⟨200, some (.ok .null)⟩ =
        .ok (some ⟨bids⟩, []) ∧
      bids.length = (pricedTypedBids .video twoBidResponse.seatBid).length ∧
      (bids.map TypedBid.bid).take 2 =
        [⟨0x4000000000000000#64, []⟩, ⟨0x4000000000000000#64, []⟩] ∧
      ((pricedTypedBids .video twoBidResponse.seatBid).map TypedBid.bid).take 2 =
        [⟨0x3FF0000000000000#64, []⟩, ⟨0x4000000000000000#64, []⟩] :=
  @makeBids_two_bids_alias OtherFields.accepting (fun _ => .ok twoBidResponse)
    (newDV360Bidder "uri" "useast") videoImpRequestData ⟨200, some (.ok .null)⟩ true []
    ⟨0x3FF0000000000000#64, []⟩ ⟨0x4000000000000000#64, []⟩ [] rfl rfl rfl rfl rfl

end PrebidService.Dv360
