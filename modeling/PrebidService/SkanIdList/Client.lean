-- SUMMARY: The cached SKAdNetwork ID list client: `NewClient`, `fetchFromCache`, `fetchFromBidder`, `Fetch`, sequential fetches, and interleavings of concurrent fetches.
import PrebidService.Cache.Ops

/-!
# The SKAdNetwork ID list client

`src/cache/skanidlistcache/client.go` puts a cache of capacity one and TTL one hour in
front of the bidder's list, under the single key `url`. `Fetch` reads the cache; on a miss
it asks the bidder and stores the answer. `fetchFromBidder` is modelled down to the calls
it makes into `net/http`, `ioutil` and `encoding/json`, whose results are inputs; a
`Fetch` takes the bidder's answer, what `fetchFromBidder` returns, as an input.

The cache holds `interface{}` values; `Value` is that type as far as the assertion
`v.(model.SKANIDList)` of `fetchFromCache` can tell.

One `Fetch` after another, a list the bidder sent and `Fetch` stored is served from the
cache for the hour that follows. Across any interleaving of the cache steps of concurrent
`Fetch` calls, every `Set` leaves a live entry for `url`, and the conversion error of
`fetchFromCache` never happens. Both need the stored expiration `now + 1h` to be an
`int64`, which fails only within an hour of the end of 2262-04-11. In every interleaving,
a live list is never replaced before it expires, and every `Fetch` returns an answer the
bidder gave: a list it sent, or the error of a request, which names the URL.
-/

namespace PrebidService.SkanIdList

open TtlCache

variable {L : Type}

/-- A value in the cache, seen through the assertion `v.(model.SKANIDList)`. -/
inductive Value (L : Type) where
  | skanIDList (l : L)
  | other
  deriving DecidableEq

/-- `client`. The `http.Client` is left out: the bidder's answers are inputs. -/
structure Client (L : Type) where
  cacheClient : Cache (Value L)
  url : String

/-- `1 * time.Hour`, in nanoseconds. -/
def hour : Int := 3600 * 1000000000

/-- `NewClient(httpClient, url)`. -/
def Client.new (url : String) : Client L := { cacheClient := Cache.new hour 1, url }

/-- `fetchFromCache` at clock reading `now`: the list if the cache has one, or the error of
the failed assertion. -/
def Client.fetchFromCache (c : Client L) (now : Int) : Except String (Option L) :=
  match (c.cacheClient.get now c.url).1 with
  | none => .ok none
  | some (.skanIDList l) => .ok (some l)
  | some .other => .error ("error converting cache item to model.SKANIDList for: " ++ c.url)

/-- The text of the errors of `fetchFromBidder`,
`fmt.Sprintf("<what> for: %s - %v", c.url, err)`. -/
def bidderError (what url err : String) : String := what ++ " for: " ++ url ++ " - " ++ err

/-- What the calls that `fetchFromBidder` makes return: the error of `http.NewRequest`, if
any; the status code of the response of `httpClient.Do`, or its error; the body that
`ioutil.ReadAll` reads, or its error; and what `json.Unmarshal` decodes from a body. -/
structure BidderCalls (L : Type) where
  newRequest : Option String
  statusCode : Except String Int
  readAll : Except String String
  unmarshal : String → Except String L

/-- `fetchFromBidder`: the list or the error, and its second result. The message of a status
other than 200 formats `err`, which is nil there and prints as `<nil>`. -/
def Client.fetchFromBidder (c : Client L) (calls : BidderCalls L) : Except String L × Bool :=
  match calls.newRequest with
  | some err => (.error (bidderError "error making request for bidder's servers" c.url err), false)
  | none =>
    match calls.statusCode with
    | .error err =>
      (.error (bidderError "error fetching skanidlist from bidder's servers" c.url err), false)
    | .ok statusCode =>
      if statusCode ≠ 200 then
        (.error (bidderError ("error statuscode (" ++ toString statusCode ++
          ") received from bidder's servers") c.url "<nil>"), false)
      else
        match calls.readAll with
        | .error err =>
          (.error (bidderError "error reading skanidlist response body" c.url err), true)
        | .ok data =>
          match calls.unmarshal data with
          | .error err =>
            (.error (bidderError "error unmarshaling response to skanidlist" c.url err), true)
          | .ok l => (.ok l, true)

/-- Every error of `fetchFromBidder` names the client's URL. -/
theorem Client.fetchFromBidder_error (c : Client L) (calls : BidderCalls L) {e : String}
    (h : (c.fetchFromBidder calls).1 = .error e) : ∃ what err, e = bidderError what c.url err := by
  unfold Client.fetchFromBidder at h
  repeat' split at h
  all_goals first | exact ⟨_, _, (Except.error.inj h).symm⟩ | cases h

/-- `c.cacheClient.Set(c.url, skanIDList)` at clock reading `now`; the range of its sweep
visits the keys of the map. -/
def Client.store (c : Client L) (now : Int) (l : L) : Client L :=
  { c with cacheClient :=
      (c.cacheClient.set now c.cacheClient.items.keys c.url (.skanIDList l)).1 }

/-- One `Fetch`: the cache is read at `tGet`; on a miss the bidder answers `bidder`, and a
list it sends is stored at `tSet`. -/
structure FetchCall (L : Type) where
  tGet : Int
  tSet : Int
  bidder : Except String L

/-- What `Fetch` returns, the client after it, and whether it asked the bidder. -/
structure Fetched (L : Type) where
  result : Except String L
  client : Client L
  requested : Bool

/-- `Fetch`. -/
def Client.fetch (c : Client L) (f : FetchCall L) : Fetched L :=
  match c.fetchFromCache f.tGet with
  | .error e => ⟨.error e, c, false⟩
  | .ok (some l) => ⟨.ok l, c, false⟩
  | .ok none =>
    match f.bidder with
    | .error e => ⟨.error e, c, true⟩
    | .ok l => ⟨.ok l, c.store f.tSet l, true⟩

/-- The client after fetches made one after another. -/
def Client.fetchAll (c : Client L) (fs : List (FetchCall L)) : Client L :=
  fs.foldl (fun c f => (c.fetch f).client) c

@[simp] theorem Client.fetchAll_nil (c : Client L) : c.fetchAll [] = c := rfl

@[simp] theorem Client.fetchAll_cons (c : Client L) (f : FetchCall L) (fs : List (FetchCall L)) :
    c.fetchAll (f :: fs) = (c.fetch f).client.fetchAll fs := rfl

theorem Client.fetchAll_append (c : Client L) (fs gs : List (FetchCall L)) :
    c.fetchAll (fs ++ gs) = (c.fetchAll fs).fetchAll gs := by
  simp [Client.fetchAll, List.foldl_append]

-- ---------------------------------------------------------------------------
-- The client's invariant
-- ---------------------------------------------------------------------------

/-- What every state of the client keeps: the one-slot, one-hour cache, with at most an
entry under `url`, and that entry a list. -/
structure Client.Good (c : Client L) : Prop where
  capacity : c.cacheClient.capacity = 1
  ttl : c.cacheClient.ttl = hour
  length_le : (c.cacheClient.items.entries.length : Int) ≤ 1
  keys : ∀ j ∈ c.cacheClient.items, j = c.url
  lists : ∀ i, c.cacheClient.items.lookup c.url = some i → ∃ l, i.value = .skanIDList l

theorem Client.Good.new (url : String) : (Client.new url : Client L).Good where
  capacity := rfl
  ttl := rfl
  length_le := by simp [Client.new, Cache.new]
  keys := by simp [Client.new, Cache.new, AList.not_mem_empty]
  lists := by simp [Client.new, Cache.new]

theorem Client.Good.store {c : Client L} (h : c.Good) (now : Int) (l : L) :
    (c.store now l).Good where
  capacity := h.capacity
  ttl := h.ttl
  length_le := by
    have := c.cacheClient.set_length_le now c.cacheClient.items.keys c.url (.skanIDList l)
      (by rw [h.capacity]; exact h.length_le)
    simpa [Client.store, h.capacity] using this
  keys := by
    intro j hj
    show j = c.url
    rw [← AList.lookup_isSome] at hj
    by_contra hne
    have hjc : j ∉ c.cacheClient.items := fun hm => hne (h.keys j hm)
    simp only [Client.store, Cache.set_lookup, Cache.cleanup_lookup] at hj
    simp [hne, AList.lookup_eq_none.mpr hjc] at hj
  lists := by
    intro i hi
    simp only [Client.store, Cache.set_lookup, Cache.cleanup_lookup] at hi
    split_ifs at hi with h₁ h₂
    · exact ⟨l, by cases hi; rfl⟩
    · exact h.lists i hi

/-- Under the invariant the assertion of `fetchFromCache` never fails. -/
theorem Client.Good.fetchFromCache_ne_error {c : Client L} (h : c.Good) (now : Int)
    (e : String) : c.fetchFromCache now ≠ .error e := by
  rw [Client.fetchFromCache, Cache.get_fst]
  cases hi : c.cacheClient.items.lookup c.url with
  | none => simp
  | some i =>
    obtain ⟨l, hl⟩ := h.lists i hi
    cases hx : i.expired now <;> simp [Option.filter, hx, hl]

theorem Client.Good.fetch {c : Client L} (h : c.Good) (f : FetchCall L) :
    (c.fetch f).client.Good := by
  unfold Client.fetch
  split
  · exact h
  · exact h
  · split
    · exact h
    · exact h.store _ _

theorem Client.Good.fetchAll {c : Client L} (h : c.Good) (fs : List (FetchCall L)) :
    (c.fetchAll fs).Good := by
  induction fs generalizing c with
  | nil => exact h
  | cons f fs ih => exact ih (h.fetch f)

@[simp] theorem Client.store_url (c : Client L) (now : Int) (l : L) :
    (c.store now l).url = c.url := rfl

/-- A `Set` of the client leaves under `url` the list it was given, or what was there. -/
theorem Client.lookup_store {c : Client L} {now : Int} {l l' : L} {e : Int}
    (h : (c.store now l).cacheClient.items.lookup c.url = some ⟨.skanIDList l', e⟩) :
    l' = l ∨ c.cacheClient.items.lookup c.url = some ⟨.skanIDList l', e⟩ := by
  simp only [Client.store, Cache.set_lookup, Cache.cleanup_lookup] at h
  split_ifs at h
  · simp only [newItem, Option.some.injEq, Item.mk.injEq, Value.skanIDList.injEq] at h
    exact .inl h.1.symm
  · exact .inr h

-- ---------------------------------------------------------------------------
-- One Fetch after another
-- ---------------------------------------------------------------------------

/-- A `Fetch` that missed the cache and got a list from the bidder stores it, when the
expiration `tSet + 1h` is an `int64`. -/
theorem Client.Good.store_lookup {c : Client L} (h : c.Good) {tGet tSet : Int} {l : L}
    (hmiss : c.fetchFromCache tGet = .ok none) (hle : tGet ≤ tSet)
    (hlo : -2 ^ 63 ≤ tSet + hour) (hhi : tSet + hour < 2 ^ 63) :
    (c.store tSet l).cacheClient.items.lookup c.url = some ⟨.skanIDList l, tSet + hour⟩ := by
  have hnone : (c.cacheClient.get tGet c.url).1 = none := by
    unfold Client.fetchFromCache at hmiss
    split at hmiss <;> simp_all
  have hstore := c.cacheClient.set_stores_of_get_none tSet c.cacheClient.items.keys c.url
    (.skanIDList l) h.keys (fun _ hj => AList.mem_keys.mp hj) (by rw [h.capacity]; decide)
    (by rw [h.capacity]; exact h.length_le) (Cache.get_eq_none_of_le hnone hle)
  rw [Client.store, hstore, h.ttl, newItem, unixNano_of_le_of_lt hlo hhi]

/-- A `Fetch` that finds the stored list live returns it without asking the bidder, and
leaves the client as it was. -/
theorem Client.fetch_of_lookup {c : Client L} {l : L} {e : Int} (f : FetchCall L)
    (hl : c.cacheClient.items.lookup c.url = some ⟨.skanIDList l, e⟩) (hle : f.tGet ≤ e) :
    c.fetch f = ⟨.ok l, c, false⟩ := by
  have : c.fetchFromCache f.tGet = .ok (some l) := by
    simp [Client.fetchFromCache, Cache.get_fst, hl, Option.filter, hle]
  simp [Client.fetch, this]

theorem Client.fetchAll_of_lookup {c : Client L} {l : L} {e : Int} (fs : List (FetchCall L))
    (hl : c.cacheClient.items.lookup c.url = some ⟨.skanIDList l, e⟩)
    (hle : ∀ f ∈ fs, f.tGet ≤ e) : c.fetchAll fs = c := by
  induction fs with
  | nil => rfl
  | cons f fs ih =>
    rw [Client.fetchAll_cons, Client.fetch_of_lookup f hl (hle f (List.mem_cons_self _ _))]
    exact ih (fun g hg => hle g (List.mem_cons_of_mem _ hg))

/-- One `Fetch` after another at clock readings that do not go back: once a `Fetch` has
stored the list `l` the bidder sent, at `t₀`, every later `Fetch` up to `t₀ + 1h` returns
`l` without asking the bidder. -/
theorem Client.fetch_served_within_hour (url : String) (pre mid : List (FetchCall L))
    (f₀ f : FetchCall L) (l : L)
    (hmono : ((pre ++ f₀ :: mid ++ [f]).flatMap fun g => [g.tGet, g.tSet]).Chain' (· ≤ ·))
    (hreq : (((Client.new url).fetchAll pre).fetch f₀).requested = true)
    (hbid : f₀.bidder = .ok l) (hwithin : f.tGet ≤ f₀.tSet + hour)
    (hlo : -2 ^ 63 ≤ f₀.tSet + hour) (hhi : f₀.tSet + hour < 2 ^ 63) :
    ((Client.new url).fetchAll (pre ++ f₀ :: mid)).fetch f =
      ⟨.ok l, (Client.new url).fetchAll (pre ++ f₀ :: mid), false⟩ := by
  have hg : ((Client.new url : Client L).fetchAll pre).Good := (Client.Good.new url).fetchAll pre
  have hmiss : ((Client.new url : Client L).fetchAll pre).fetchFromCache f₀.tGet = .ok none := by
    unfold Client.fetch at hreq
    split at hreq <;> simp_all
  have hf₀ : ((Client.new url : Client L).fetchAll pre).fetch f₀ =
      ⟨.ok l, ((Client.new url).fetchAll pre).store f₀.tSet l, true⟩ := by
    simp [Client.fetch, hmiss, hbid]
  have hshape : ((pre ++ f₀ :: mid ++ [f]).flatMap fun g => [g.tGet, g.tSet]) =
      pre.flatMap (fun g => [g.tGet, g.tSet]) ++
        (f₀.tGet :: f₀.tSet :: mid.flatMap (fun g => [g.tGet, g.tSet])) ++ [f.tGet, f.tSet] := by
    simp
  rw [hshape, List.chain'_iff_pairwise, List.pairwise_append, List.pairwise_append] at hmono
  obtain ⟨⟨-, hM, -⟩, -, hcross⟩ := hmono
  have h₀ : f₀.tGet ≤ f₀.tSet := (List.pairwise_cons.mp hM).1 _ (List.mem_cons_self _ _)
  have hmid : ∀ g ∈ mid, g.tGet ≤ f₀.tSet + hour := fun g hg =>
    (hcross _ (List.mem_append_right _ (List.mem_cons_of_mem _ (List.mem_cons_of_mem _
      (List.mem_flatMap.mpr ⟨g, hg, List.mem_cons_self _ _⟩)))) _
      (List.mem_cons_self _ _)).trans hwithin
  have hl := hg.store_lookup (l := l) hmiss h₀ hlo hhi
  rw [Client.fetchAll_append, Client.fetchAll_cons, hf₀, Client.fetchAll_of_lookup mid hl hmid]
  exact Client.fetch_of_lookup f hl hwithin

-- ---------------------------------------------------------------------------
-- Concurrent Fetch calls
-- ---------------------------------------------------------------------------

/-- Where a `Fetch` is: before its cache read, waiting for the bidder after a miss, or
returned with its result. -/
inductive Phase (L : Type) where
  | start
  | requesting
  | returned (r : Except String L)

/-- The shared client and the `Fetch` calls made on it so far. -/
structure World (L : Type) where
  client : Client L
  fetches : List (Phase L)

/-- An atomic step of concurrent callers: a `Fetch` starts; `Fetch` number `i` reads the
cache at `now`; or the bidder answers `Fetch` number `i`, which stores a list it gets at
`now`. A step for a `Fetch` that is not at that point changes nothing. -/
inductive Event (L : Type) where
  | call
  | read (i : Nat) (now : Int)
  | reply (i : Nat) (now : Int) (bidder : Except String L)

/-- The phase a `Fetch` reaches by reading the cache at `now`. -/
def Client.readPhase (c : Client L) (now : Int) : Phase L :=
  match c.fetchFromCache now with
  | .error e => .returned (.error e)
  | .ok (some l) => .returned (.ok l)
  | .ok none => .requesting

/-- One atomic step. -/
def World.step (w : World L) : Event L → World L
  | .call => { w with fetches := w.fetches ++ [.start] }
  | .read i now =>
    match w.fetches[i]? with
    | some .start => { w with fetches := w.fetches.set i (w.client.readPhase now) }
    | _ => w
  | .reply i now bidder =>
    match w.fetches[i]?, bidder with
    | some .requesting, .error e => { w with fetches := w.fetches.set i (.returned (.error e)) }
    | some .requesting, .ok l => ⟨w.client.store now l, w.fetches.set i (.returned (.ok l))⟩
    | _, _ => w

/-- The world after the steps `es`, in the order they interleave. -/
def World.run (w : World L) (es : List (Event L)) : World L := es.foldl World.step w

/-- `NewClient(httpClient, url)`, before any `Fetch`. -/
def World.init (url : String) : World L := ⟨Client.new url, []⟩

theorem World.step_good {w : World L} (h : w.client.Good) (e : Event L) :
    (w.step e).client.Good := by
  cases e with
  | call => exact h
  | read i now => simp only [World.step]; split <;> exact h
  | reply i now bidder =>
    simp only [World.step]
    split
    · exact h
    · exact h.store _ _
    · exact h

@[simp] theorem World.step_url (w : World L) (e : Event L) :
    (w.step e).client.url = w.client.url := by
  cases e with
  | call => rfl
  | read i now => simp only [World.step]; split <;> rfl
  | reply i now bidder => simp only [World.step]; split <;> rfl

theorem World.run_url (w : World L) (es : List (Event L)) :
    (w.run es).client.url = w.client.url := by
  induction es generalizing w with
  | nil => rfl
  | cons e es ih => exact (ih _).trans (World.step_url w e)

theorem World.run_good {w : World L} (h : w.client.Good) (es : List (Event L)) :
    (w.run es).client.Good := by
  induction es generalizing w with
  | nil => exact h
  | cons e es ih => exact ih (World.step_good h e)

/-- Setting the phase of `Fetch` number `j` to `p` keeps a property of each `Fetch`'s phase
wherever it held, when `p` has it or the old phase of `j` did not. -/
private theorem fetches_set_keeps {Q : Option (Phase L) → Prop} {ps : List (Phase L)} {j : Nat}
    {p : Phase L} (hp : Q (some p) ∨ ¬ Q ps[j]?) (i : Nat) (hi : Q ps[i]?) :
    Q (ps.set j p)[i]? := by
  rw [List.getElem?_set']
  split
  · rename_i hji
    subst hji
    cases h : ps[j]? with
    | none => rwa [h] at hi
    | some _ =>
      rw [h] at hp hi
      exact hp.resolve_right (not_not.mpr hi)
  · exact hi

/-- A `Fetch` that starts keeps a property of each `Fetch`'s phase wherever it held, when a
`Fetch` not yet started, or just started, has it. -/
private theorem fetches_append_start_keeps {Q : Option (Phase L) → Prop} {ps : List (Phase L)}
    (hnone : Q none) (hstart : Q (some .start)) (i : Nat) (hi : Q ps[i]?) :
    Q (ps ++ [.start])[i]? := by
  rcases Nat.lt_trichotomy i ps.length with hlt | rfl | hgt
  · rwa [List.getElem?_append_left hlt]
  · rwa [List.getElem?_concat_length]
  · rwa [List.getElem?_eq_none (by simp; omega)]

/-- When the bidder's list reaches a `Fetch` waiting for it, the `Set` it makes leaves a
live entry for `url`: the new list, or a live list another `Fetch` stored first. -/
theorem World.reply_get_isSome {w : World L} (h : w.client.Good) {i : Nat} {now : Int} (l : L)
    (hreq : w.fetches[i]? = some .requesting) (hlo : -2 ^ 63 ≤ now + hour)
    (hhi : now + hour < 2 ^ 63) :
    ((w.step (.reply i now (.ok l))).client.cacheClient.get now w.client.url).1.isSome := by
  simp only [World.step, hreq]
  exact w.client.cacheClient.set_get_isSome now _ _ _ h.keys (fun _ hj => AList.mem_keys.mp hj)
    (by rw [h.capacity]; decide) (by rw [h.capacity]; exact h.length_le)
    (by rw [h.ttl]; decide) (by rw [h.ttl]; exact hlo) (by rw [h.ttl]; exact hhi)

-- ---------------------------------------------------------------------------
-- A live list stays until it expires
-- ---------------------------------------------------------------------------

/-- Under the invariant, a live list fills the cache's one slot, and nothing in the map has
expired. -/
theorem Client.Good.full_of_live {c : Client L} (h : c.Good) {l : L} {e now : Int}
    (hl : c.cacheClient.items.lookup c.url = some ⟨.skanIDList l, e⟩) (hnow : now ≤ e) :
    (c.cacheClient.items.entries.length : Int) = c.cacheClient.capacity ∧
      ∀ j, c.cacheClient.items.expiredAt now j = false := by
  refine ⟨?_, fun j => ?_⟩
  · have := List.length_pos_of_mem (AList.mem_lookup_iff.mp hl)
    have := h.length_le
    rw [h.capacity]
    omega
  · by_cases hj : j = c.url
    · subst hj
      simp [Store.expiredAt, hl, hnow]
    · have hout : j ∉ c.cacheClient.items := fun hm => hj (h.keys j hm)
      simp [Store.expiredAt, AList.lookup_eq_none.mpr hout]

/-- While the cache holds a live list, a `Set` changes nothing: the one slot is taken. -/
theorem Client.Good.store_of_live {c : Client L} (h : c.Good) {l : L} {e now : Int}
    (hl : c.cacheClient.items.lookup c.url = some ⟨.skanIDList l, e⟩) (hnow : now ≤ e)
    (l' : L) : c.store now l' = c := by
  obtain ⟨hfull, hlive⟩ := h.full_of_live hl hnow
  rw [Client.store, Cache.set_fst_eq_self _ _ _ _ _ hfull hlive]

/-- While the cache holds a live list, a read returns it. -/
theorem Client.readPhase_of_live {c : Client L} {l : L} {e now : Int}
    (hl : c.cacheClient.items.lookup c.url = some ⟨.skanIDList l, e⟩) (hnow : now ≤ e) :
    c.readPhase now = .returned (.ok l) := by
  simp [Client.readPhase, Client.fetchFromCache, Cache.get_fst, hl, Option.filter, hnow]

/-- The phase of a `Fetch` that has not started, or has not read the cache yet, or has read
`l` from it. -/
def SeesOnly (l : L) : Option (Phase L) → Prop
  | none | some .start => True
  | some (.returned (.ok l')) => l' = l
  | some _ => False

/-- A step made while the cache holds the live list `l`, at a clock reading before it
expires, leaves the client as it was, and a `Fetch` that could only see `l` still can. -/
theorem World.step_of_live {w : World L} (h : w.client.Good) {l : L} {e : Int}
    (hl : w.client.cacheClient.items.lookup w.client.url = some ⟨.skanIDList l, e⟩)
    (ev : Event L) (hnow : ∀ i now, (ev = .read i now ∨ ∃ b, ev = .reply i now b) → now ≤ e) :
    (w.step ev).client = w.client ∧
      ∀ i : Nat, SeesOnly l w.fetches[i]? → SeesOnly l (w.step ev).fetches[i]? := by
  cases ev with
  | call => exact ⟨rfl, fetches_append_start_keeps trivial trivial⟩
  | read j now =>
    simp only [World.step]
    split
    · refine ⟨rfl, fetches_set_keeps (.inl ?_)⟩
      rw [Client.readPhase_of_live hl (hnow j now (.inl rfl))]
      rfl
    · exact ⟨rfl, fun _ hi => hi⟩
  | reply j now b =>
    have hreq : w.fetches[j]? = some .requesting → ¬ SeesOnly l w.fetches[j]? :=
      fun hj => by rw [hj]; exact id
    simp only [World.step]
    split
    · exact ⟨rfl, fetches_set_keeps (.inr (hreq ‹_›))⟩
    · exact ⟨h.store_of_live hl (hnow j now (.inr ⟨_, rfl⟩)) _, fetches_set_keeps (.inr (hreq ‹_›))⟩
    · exact ⟨rfl, fun _ hi => hi⟩

/-- Once the cache holds a live list `l` that expires at `e`, no interleaving of the steps of
concurrent `Fetch` calls made up to `e` changes the client. A `Fetch` that gets another list
from the bidder returns it, but its `Set` finds the one slot taken by a live entry and drops
the list. Every `Fetch` that reads the cache meanwhile, started before the interleaving or
during it, returns `l`. -/
theorem World.run_keeps_live_list {w : World L} (h : w.client.Good) {l : L} {e : Int}
    (hl : w.client.cacheClient.items.lookup w.client.url = some ⟨.skanIDList l, e⟩)
    (es : List (Event L))
    (hnow : ∀ i now, (.read i now ∈ es ∨ ∃ b, .reply i now b ∈ es) → now ≤ e) :
    (w.run es).client = w.client ∧
      ∀ i : Nat, SeesOnly l w.fetches[i]? → SeesOnly l (w.run es).fetches[i]? := by
  induction es generalizing w with
  | nil => exact ⟨rfl, fun _ hi => hi⟩
  | cons ev es ih =>
    obtain ⟨hc, hs⟩ := World.step_of_live h hl ev fun i now hev => hnow i now (by
      rcases hev with rfl | ⟨b, rfl⟩
      · exact .inl (.head _)
      · exact .inr ⟨b, .head _⟩)
    obtain ⟨hc', hs'⟩ := ih (by rw [hc]; exact h) (by rw [hc]; exact hl)
      fun i now hev => hnow i now (by
        rcases hev with hev | ⟨b, hev⟩
        · exact .inl (.tail _ hev)
        · exact .inr ⟨b, .tail _ hev⟩)
    exact ⟨hc'.trans hc, fun i hi => hs' i (hs i hi)⟩

/-- Two `Fetch` calls that both missed the empty cache at clock reading 0; the first has
stored the list 5 the bidder sent it, the second still waits for the bidder. -/
def racingFetches : World Nat :=
  (World.init "u").run [.call, .call, .read 0 0, .read 1 0, .reply 0 0 (.ok 5)]

theorem World.run_keeps_live_list_racing :
    (racingFetches.run [.reply 1 1 (.ok 6), .call, .read 2 2]).client = racingFetches.client ∧
      ∀ i : Nat, SeesOnly 5 racingFetches.fetches[i]? →
        SeesOnly 5 (racingFetches.run [.reply 1 1 (.ok 6), .call, .read 2 2]).fetches[i]? :=
  World.run_keeps_live_list (World.run_good (Client.Good.new "u") _) (e := hour) (by decide) _
    fun _ now h => by
      simp at h
      rcases h with ⟨-, rfl⟩ | ⟨-, rfl⟩ <;> decide

-- ---------------------------------------------------------------------------
-- Every answer comes from the bidder
-- ---------------------------------------------------------------------------

/-- Under the invariant, a `Fetch` that returns on reading the cache returns the list stored
under `url`, never an error. -/
theorem Client.Good.readPhase_returned {c : Client L} (h : c.Good) {now : Int}
    {r : Except String L} (hr : c.readPhase now = .returned r) :
    ∃ l e, r = .ok l ∧ c.cacheClient.items.lookup c.url = some ⟨.skanIDList l, e⟩ := by
  rcases hc : c.fetchFromCache now with e' | _ | l
  · exact absurd hc (h.fetchFromCache_ne_error now e')
  · simp [Client.readPhase, hc] at hr
  · simp only [Client.readPhase, hc, Phase.returned.injEq] at hr
    subst hr
    cases hi : c.cacheClient.items.lookup c.url with
    | none => simp [Client.fetchFromCache, Cache.get_fst, hi] at hc
    | some i =>
      obtain ⟨l', hl'⟩ := h.lists i hi
      obtain ⟨v, e⟩ := i
      subst hl'
      have hl : l' = l := by
        by_cases hle : now ≤ e <;>
          simp [Client.fetchFromCache, Cache.get_fst, hi, Option.filter, hle] at hc
        exact hc
      exact ⟨l, e, rfl, hl ▸ rfl⟩

/-- The answer of a `Fetch` that has returned satisfies `P`. -/
def ReturnsIn (P : Except String L → Prop) : Option (Phase L) → Prop
  | some (.returned r) => P r
  | _ => True

/-- What every world reached keeps, for a property `P` of the bidder's answers: the cache
holds only lists that satisfy it, and so does the answer of every `Fetch` that has
returned. -/
structure World.Answers (P : Except String L → Prop) (w : World L) : Prop where
  cached : ∀ l e, w.client.cacheClient.items.lookup w.client.url = some ⟨.skanIDList l, e⟩ →
    P (.ok l)
  returned : ∀ i : Nat, ReturnsIn P w.fetches[i]?

theorem World.Answers.init (P : Except String L → Prop) (url : String) :
    (World.init url : World L).Answers P where
  cached := by simp [World.init, Client.new, Cache.new]
  returned := by simp [World.init, ReturnsIn]

/-- One step keeps the property, when the bidder's answer it brings satisfies it. -/
theorem World.Answers.step {P : Except String L → Prop} {w : World L} (hg : w.client.Good)
    (h : w.Answers P) (ev : Event L) (hev : ∀ i now b, ev = .reply i now b → P b) :
    (w.step ev).Answers P := by
  cases ev with
  | call => exact ⟨h.cached, fun i => fetches_append_start_keeps trivial trivial i (h.returned i)⟩
  | read j now =>
    simp only [World.step]
    split
    · refine ⟨h.cached, fun i => fetches_set_keeps (.inl ?_) i (h.returned i)⟩
      cases hr : w.client.readPhase now with
      | returned r =>
        obtain ⟨l, e, rfl, hl⟩ := hg.readPhase_returned hr
        exact h.cached l e hl
      | _ => trivial
    · exact h
  | reply j now b =>
    have hb := hev j now b rfl
    simp only [World.step]
    split
    · exact ⟨h.cached, fun i => fetches_set_keeps (.inl hb) i (h.returned i)⟩
    · refine ⟨fun l' e hl' => ?_, fun i => fetches_set_keeps (.inl hb) i (h.returned i)⟩
      simp only [Client.store_url] at hl'
      rcases Client.lookup_store hl' with rfl | hold
      · exact hb
      · exact h.cached l' e hold
    · exact h

theorem World.Answers.run {P : Except String L → Prop} {w : World L} (hg : w.client.Good)
    (h : w.Answers P) (es : List (Event L)) (hes : ∀ i now b, .reply i now b ∈ es → P b) :
    (w.run es).Answers P := by
  induction es generalizing w with
  | nil => exact h
  | cons ev es ih =>
    exact ih (World.step_good hg ev)
      (h.step hg ev fun i now b hev => hes i now b (hev ▸ .head _))
      fun i now b hb => hes i now b (.tail _ hb)

/-- In every interleaving of concurrent `Fetch` calls on the client of `NewClient`, every
`Fetch` that has returned returns an answer the bidder gave to some `Fetch` of the run: a
list it sent, read from the cache or received, or the error of a request. No `Fetch`
returns a list the bidder never sent, nor the conversion error of `fetchFromCache`. -/
theorem World.run_returns_bidder_answer (url : String) (es : List (Event L)) {i : Nat}
    {r : Except String L} (h : ((World.init url).run es).fetches[i]? = some (.returned r)) :
    ∃ j now, .reply j now r ∈ es := by
  have := ((World.Answers.init (fun r => ∃ j now, .reply j now r ∈ es) url).run
    (Client.Good.new url) es fun j now b hb => ⟨j, now, hb⟩).returned i
  rwa [h] at this

/-- A `Fetch` of the run above: it missed the empty cache at clock reading 0 and returned
the list 5 the bidder sent it. -/
theorem World.run_returns_bidder_answer_one_fetch :
    ((World.init "u" : World Nat).run [.call, .read 0 0, .reply 0 0 (.ok 5)]).fetches[0]? =
        some (.returned (.ok 5)) ∧
      ∃ j now, (.reply j now (.ok 5) : Event Nat) ∈ [.call, .read 0 0, .reply 0 0 (.ok 5)] :=
  have h : ((World.init "u" : World Nat).run [.call, .read 0 0, .reply 0 0 (.ok 5)]).fetches[0]? =
      some (.returned (.ok 5)) := rfl
  ⟨h, World.run_returns_bidder_answer "u" _ h⟩

/-- In every interleaving of concurrent `Fetch` calls on the client of `NewClient` whose
requests to the bidder are `fetchFromBidder`, every `Fetch` that failed returns the error
of the bidder's call, which names the URL. -/
theorem World.run_error_names_url (url : String) (es : List (Event L))
    (hes : ∀ j now b, .reply j now b ∈ es → ∃ calls, b = ((Client.new url).fetchFromBidder calls).1)
    {i : Nat} {e : String} (h : ((World.init url).run es).fetches[i]? = some (.returned (.error e))) :
    ∃ what err, e = bidderError what url err := by
  have := ((World.Answers.init (fun r => ∀ e, r = .error e → ∃ what err, e = bidderError what url err)
    url).run (Client.Good.new url) es fun j now b hb e he => ?_).returned i
  · rw [h] at this
    exact this e rfl
  · obtain ⟨calls, rfl⟩ := hes j now b hb
    exact (Client.new url).fetchFromBidder_error calls he

/-- The bidder's calls for a request that `http.NewRequest` refuses. -/
def badRequestCalls : BidderCalls Nat := ⟨some "bad url", .ok 200, .ok "", fun _ => .ok 0⟩

theorem World.run_error_names_url_bad_request :
    (∀ j now b, (.reply j now b : Event Nat) ∈
        [.call, .read 0 0, .reply 0 0 ((Client.new "u").fetchFromBidder badRequestCalls).1] →
      ∃ calls, b = ((Client.new "u").fetchFromBidder calls).1) ∧
    ((World.init "u" : World Nat).run
        [.call, .read 0 0, .reply 0 0 ((Client.new "u").fetchFromBidder badRequestCalls).1]).fetches[0]? =
      some (.returned (.error (bidderError "error making request for bidder's servers" "u"
        "bad url"))) ∧
    ∃ what err, bidderError "error making request for bidder's servers" "u" "bad url" =
      bidderError what "u" err :=
  have hes : ∀ j now b, (.reply j now b : Event Nat) ∈
      [.call, .read 0 0, .reply 0 0 ((Client.new "u").fetchFromBidder badRequestCalls).1] →
      ∃ calls, b = ((Client.new "u").fetchFromBidder calls).1 := by
    intro j now b hb
    simp only [List.mem_cons, List.mem_singleton, reduceCtorEq, false_or, Event.reply.injEq,
      List.not_mem_nil, or_false] at hb
    exact ⟨badRequestCalls, hb.2.2⟩
  have h : ((World.init "u" : World Nat).run
      [.call, .read 0 0, .reply 0 0 ((Client.new "u").fetchFromBidder badRequestCalls).1]).fetches[0]? =
      some (.returned (.error (bidderError "error making request for bidder's servers" "u"
        "bad url"))) := rfl
  ⟨hes, h, World.run_error_names_url "u" _ hes h⟩

/-- The client of `NewClient`, used only under `url`. One `Fetch` after another at clock
readings that do not go back, a list the bidder sent and a `Fetch` stored at `t₀` is what
every later `Fetch` up to `t₀ + 1h` returns, with no request to the bidder. In every
interleaving of the cache steps of concurrent `Fetch` calls, right after a `Fetch` sets
the list the cache holds a live entry for `url`, and `fetchFromCache` never returns its
conversion error. The `Set` is taken at a clock reading whose `now + 1h` is an `int64`. -/
theorem Client.fetch_law (url : String) :
    (∀ (pre mid : List (FetchCall L)) (f₀ f : FetchCall L) (l : L),
      ((pre ++ f₀ :: mid ++ [f]).flatMap fun g => [g.tGet, g.tSet]).Chain' (· ≤ ·) →
      (((Client.new url).fetchAll pre).fetch f₀).requested = true → f₀.bidder = .ok l →
      f.tGet ≤ f₀.tSet + hour → -2 ^ 63 ≤ f₀.tSet + hour → f₀.tSet + hour < 2 ^ 63 →
      ((Client.new url).fetchAll (pre ++ f₀ :: mid)).fetch f =
        ⟨.ok l, (Client.new url).fetchAll (pre ++ f₀ :: mid), false⟩) ∧
    (∀ (es : List (Event L)) (i : Nat) (now : Int) (l : L),
      ((World.init url).run es).fetches[i]? = some .requesting →
      -2 ^ 63 ≤ now + hour → now + hour < 2 ^ 63 →
      ((((World.init url).run es).step (.reply i now (.ok l))).client.cacheClient.get now
        url).1.isSome) ∧
    (∀ (es : List (Event L)) (now : Int) (e : String),
      ((World.init url).run es).client.fetchFromCache now ≠ .error e) := by
  have hgood : ∀ es : List (Event L), ((World.init url).run es).client.Good :=
    World.run_good (Client.Good.new url)
  refine ⟨Client.fetch_served_within_hour url, fun es i now l hreq hlo hhi => ?_,
    fun es now e => (hgood es).fetchFromCache_ne_error now e⟩
  have hurl : ((World.init url : World L).run es).client.url = url := World.run_url _ es
  simpa [hurl] using World.reply_get_isSome (hgood es) l hreq hlo hhi

theorem Client.fetch_law_after_first_fetch :
    ((Client.new "u" : Client Nat).fetchAll ([] ++ ⟨0, 0, .ok 5⟩ :: [])).fetch ⟨10, 10, .ok 6⟩ =
        ⟨.ok 5, (Client.new "u").fetchAll ([] ++ ⟨0, 0, .ok 5⟩ :: []), false⟩ ∧
      ((((World.init "u" : World Nat).run [.call, .read 0 0]).step (.reply 0 0 (.ok 5))).client.cacheClient.get
        0 "u").1.isSome :=
  ⟨(Client.fetch_law "u").1 [] [] ⟨0, 0, .ok 5⟩ ⟨10, 10, .ok 6⟩ 5 (by simp) (by decide) rfl
      (by decide) (by decide) (by decide),
    (Client.fetch_law "u").2.1 [.call, .read 0 0] 0 0 5 rfl (by decide) (by decide)⟩

end PrebidService.SkanIdList
