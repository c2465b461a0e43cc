-- SUMMARY: The cache operations `New`, `Get`, `Set` (with its capacity sweep), `Delete` and `Size`, and one specification lemma per operation.
import Mathlib.Data.Set.Card
import PrebidService.Cache.Item

/-!
# Cache operations

Each operation takes its lock, computes under it, releases it, and then fires the hooks
that are set. The lock only makes each call one atomic step, so an operation is a function
of the cache and the clock reading; it returns the hooks it fires, with their arguments,
in the order it fires them. A hook is modelled by whether it is set (non-nil): what a user
callback does is outside the cache.

`Set` ranges over the map to sweep it. Go fixes no iteration order, so the sweep takes the
order as an argument; no result below depends on it beyond what it states.
-/

namespace PrebidService.TtlCache

variable {V : Type}

/-- `Cache`. The `sync.RWMutex` is left out: every call is one atomic step. -/
structure Cache (V : Type) where
  items : Store V
  ttl : Int
  capacity : Int
  onCacheHit : Bool
  onCacheMiss : Bool
  onSet : Bool
  onCleanup : Bool

/-- A hook call with its arguments. -/
inductive Callback (V : Type) where
  | onCacheHit (k : String) (v : V)
  | onCacheMiss (k : String)
  | onSet (capacity : Int) (currSize : Nat) (k : String)
  | onCleanup (capacity : Int) (currSize : Nat) (expiredKeys : List String)
  deriving DecidableEq, Repr

/-- `New(ttl, capacity)`: a non-positive argument falls back to its default; no hook is
set. -/
def Cache.new (ttl capacity : Int) : Cache V :=
  { items := ∅
    ttl := if ttl ≤ 0 then defaultTTL else ttl
    capacity := if capacity ≤ 0 then defaultCapacity else capacity
    onCacheHit := false
    onCacheMiss := false
    onSet := false
    onCleanup := false }

theorem Cache.new_ttl_pos (ttl capacity : Int) : 0 < (Cache.new ttl capacity : Cache V).ttl := by
  simp only [Cache.new, defaultTTL]; split <;> omega

theorem Cache.new_capacity_pos (ttl capacity : Int) :
    0 < (Cache.new ttl capacity : Cache V).capacity := by
  simp only [Cache.new, defaultCapacity]; split <;> omega

-- ---------------------------------------------------------------------------
-- Get
-- ---------------------------------------------------------------------------

/-- `Get(k)` at clock reading `now`: the value if found, and the hook it fires. -/
def Cache.get (c : Cache V) (now : Int) (k : String) : Option V × List (Callback V) :=
  let miss := (none, if c.onCacheMiss then [.onCacheMiss k] else [])
  match c.items.lookup k with
  | some item =>
    if item.expired now then miss
    else (some item.value, if c.onCacheHit then [.onCacheHit k item.value] else [])
  | none => miss

/-- `Get` finds exactly the entries that have not expired. -/
theorem Cache.get_fst (c : Cache V) (now : Int) (k : String) :
    (c.get now k).1 = ((c.items.lookup k).filter (fun i => !i.expired now)).map Item.value := by
  simp only [Cache.get]
  cases c.items.lookup k with
  | none => rfl
  | some item => cases h : item.expired now <;> simp [Option.filter, h]

/-- `Get` fires `onCacheHit` on a hit and `onCacheMiss` otherwise, each only when set. -/
theorem Cache.get_snd (c : Cache V) (now : Int) (k : String) :
    (c.get now k).2 = match (c.get now k).1 with
      | some v => if c.onCacheHit then [.onCacheHit k v] else []
      | none => if c.onCacheMiss then [.onCacheMiss k] else [] := by
  simp only [Cache.get]
  cases c.items.lookup k with
  | none => rfl
  | some item => cases h : item.expired now <;> simp [h]

/-- An entry that has expired stays expired. -/
theorem Cache.get_eq_none_of_le {c : Cache V} {k : String} {t t' : Int}
    (h : (c.get t k).1 = none) (hle : t ≤ t') : (c.get t' k).1 = none := by
  rw [Cache.get_fst] at h ⊢
  cases hi : c.items.lookup k with
  | none => rfl
  | some i => simp_all [Option.filter]; omega

-- ---------------------------------------------------------------------------
-- The capacity sweep
-- ---------------------------------------------------------------------------

/-- The capacity sweep of `Set`:
`for k, v := range c.items { if v.expired() { delete(c.items, k); expiredKeys = append(expiredKeys, k) } }`.
The range visits the keys in `order`; an entry deleted before the range reaches it is not
produced. -/
def sweep (now : Int) : List String → Store V → List String → Store V × List String
  | [], items, expiredKeys => (items, expiredKeys)
  | k :: order, items, expiredKeys =>
    match items.lookup k with
    | some v =>
      if v.expired now then sweep now order (items.erase k) (expiredKeys ++ [k])
      else sweep now order items expiredKeys
    | none => sweep now order items expiredKeys

/-- Whether the entry of `j` in `s` exists and has expired at `now`. -/
def Store.expiredAt (s : Store V) (now : Int) (j : String) : Bool :=
  (s.lookup j).any (·.expired now)

theorem Store.expiredAt_erase (s : Store V) (now : Int) (k j : String) :
    Store.expiredAt (s.erase k) now j = (j ≠ k && s.expiredAt now j) := by
  by_cases h : j = k
  · subst h; simp [Store.expiredAt, AList.lookup_erase]
  · simp [Store.expiredAt, AList.lookup_erase_ne h, h]

/-- One turn of the sweep: it deletes and reports the key it visits iff that entry is there
and has expired. -/
theorem sweep_cons (now : Int) (k : String) (order : List String) (items : Store V)
    (ek : List String) : sweep now (k :: order) items ek =
      if items.expiredAt now k then sweep now order (items.erase k) (ek ++ [k])
      else sweep now order items ek := by
  simp only [sweep, Store.expiredAt]
  split <;> rename_i h <;> simp [h]

/-- The sweep deletes exactly the visited entries that have expired. -/
theorem sweep_lookup (now : Int) (order : List String) (items : Store V) (ek : List String)
    (j : String) : (sweep now order items ek).1.lookup j =
      if j ∈ order ∧ items.expiredAt now j then none else items.lookup j := by
  induction order generalizing items ek with
  | nil => simp [sweep]
  | cons k order ih =>
    rw [sweep_cons]
    split
    · rw [ih, Store.expiredAt_erase]
      by_cases hj : j = k
      · subst hj; simp [AList.lookup_erase, *]
      · simp [AList.lookup_erase_ne hj, hj]
    · rw [ih]
      by_cases hj : j = k
      · subst hj; simp [*]
      · simp [hj]

/-- The sweep reports each key it deletes once, after the keys already reported, and the
entries it keeps and the keys it reports add up to the entries it started from. -/
theorem sweep_expiredKeys (now : Int) (order : List String) (items : Store V)
    (ek : List String) :
    ∃ removed, (sweep now order items ek).2 = ek ++ removed ∧ removed.Nodup ∧
      (∀ j, j ∈ removed ↔ j ∈ order ∧ items.expiredAt now j) ∧
      (sweep now order items ek).1.entries.length + removed.length = items.entries.length := by
  induction order generalizing items ek with
  | nil => exact ⟨[], by simp [sweep]⟩
  | cons k order ih =>
    rw [sweep_cons]
    split
    · rename_i hk
      have hmem : k ∈ items := AList.lookup_isSome.mp (by
        simp only [Store.expiredAt] at hk; cases h : items.lookup k <;> simp_all)
      obtain ⟨r, h₁, h₂, h₃, h₄⟩ := ih (items.erase k) (ek ++ [k])
      have hkr : k ∉ r := by simp [h₃, Store.expiredAt_erase]
      refine ⟨k :: r, by simp [h₁], List.nodup_cons.mpr ⟨hkr, h₂⟩, fun j => ?_, ?_⟩
      · rw [List.mem_cons, h₃, Store.expiredAt_erase]
        by_cases hj : j = k
        · subst hj; simp [hk]
        · simp [hj]
      · have := Store.length_erase_add_one hmem
        simp only [List.length_cons]; omega
    · obtain ⟨r, h₁, h₂, h₃, h₄⟩ := ih items ek
      refine ⟨r, h₁, h₂, fun j => ?_, h₄⟩
      rw [h₃]
      by_cases hj : j = k
      · subst hj; simp [*]
      · simp [hj]

-- ---------------------------------------------------------------------------
-- Set
-- ---------------------------------------------------------------------------

/-- The state of `Set` once the sweep has run: the map, the `onCleanup` flag and
`expiredKeys`. -/
structure Swept (V : Type) where
  items : Store V
  onCleanup : Bool
  expiredKeys : List String

/-- The part of `Set` before the insert: the sweep, run only when the map is full. -/
def Cache.cleanup (c : Cache V) (now : Int) (order : List String) : Swept V :=
  if (c.items.entries.length : Int) = c.capacity then
    let r := sweep now order c.items []
    { items := r.1, onCleanup := true, expiredKeys := r.2 }
  else { items := c.items, onCleanup := false, expiredKeys := [] }

/-- `Set(k, v)` under the lock: the map it leaves, and the flags and `currSize` that the
hooks read after it. -/
structure Locked (V : Type) extends Swept V where
  onSet : Bool
  currSize : Nat

/-- `Set(k, v)` up to releasing the lock: insert when there is room after the sweep. -/
def Cache.setLocked (c : Cache V) (now : Int) (order : List String) (k : String) (v : V) :
    Locked V :=
  let s := c.cleanup now order
  if (s.items.entries.length : Int) < c.capacity then
    let items := s.items.insert k (newItem v c.ttl now)
    { s with items, onSet := true, currSize := items.entries.length }
  else { s with onSet := false, currSize := s.items.entries.length }

/-- `Set(k, v)` at clock reading `now`, the range visiting the keys in `order`: the new
cache and the hooks fired after unlocking, `onSet` before `onCleanup`. -/
def Cache.set (c : Cache V) (now : Int) (order : List String) (k : String) (v : V) :
    Cache V × List (Callback V) :=
  let r := c.setLocked now order k v
  ({ c with items := r.items },
    (if r.onSet && c.onSet then [.onSet c.capacity r.currSize k] else []) ++
    (if r.onCleanup && c.onCleanup then [.onCleanup c.capacity r.currSize r.expiredKeys] else []))

theorem Store.mem_of_expiredAt {s : Store V} {now : Int} {j : String}
    (h : s.expiredAt now j = true) : j ∈ s := by
  rw [← AList.lookup_isSome]
  cases hj : s.lookup j <;> simp_all [Store.expiredAt]

@[simp] theorem Cache.cleanup_onCleanup (c : Cache V) (now : Int) (order : List String) :
    (c.cleanup now order).onCleanup = decide ((c.items.entries.length : Int) = c.capacity) := by
  unfold Cache.cleanup; split <;> simp [*]

/-- The sweep of `Set` deletes the visited entries that have expired, and only when the map
is full. -/
theorem Cache.cleanup_lookup (c : Cache V) (now : Int) (order : List String) (j : String) :
    (c.cleanup now order).items.lookup j =
      if (c.items.entries.length : Int) = c.capacity ∧ j ∈ order ∧ c.items.expiredAt now j
      then none else c.items.lookup j := by
  unfold Cache.cleanup; split <;> simp [sweep_lookup, *]

/-- The keys `Set` hands to `onCleanup` are distinct and are exactly the keys the sweep
removed; the entries kept and the keys removed add up to the entries before. -/
theorem Cache.cleanup_expiredKeys (c : Cache V) (now : Int) (order : List String) :
    (c.cleanup now order).expiredKeys.Nodup ∧
      (∀ j, j ∈ (c.cleanup now order).expiredKeys ↔
        j ∈ c.items ∧ j ∉ (c.cleanup now order).items) ∧
      (c.cleanup now order).items.entries.length + (c.cleanup now order).expiredKeys.length =
        c.items.entries.length := by
  dsimp only [Cache.cleanup]
  split
  · obtain ⟨r, h₁, h₂, h₃, h₄⟩ := sweep_expiredKeys now order c.items []
    simp only [List.nil_append] at h₁
    refine ⟨h₁ ▸ h₂, fun j => ?_, h₁ ▸ h₄⟩
    rw [h₁, h₃, ← AList.lookup_eq_none, sweep_lookup]
    by_cases hj : j ∈ order ∧ c.items.expiredAt now j
    · simp [hj, Store.mem_of_expiredAt hj.2]
    · simp [hj, AList.lookup_eq_none]
  · simp

@[simp] theorem Cache.setLocked_items (c : Cache V) (now : Int) (order : List String)
    (k : String) (v : V) : (c.setLocked now order k v).items =
      if ((c.cleanup now order).items.entries.length : Int) < c.capacity
      then (c.cleanup now order).items.insert k (newItem v c.ttl now)
      else (c.cleanup now order).items := by
  dsimp only [Cache.setLocked]; split <;> rfl

@[simp] theorem Cache.setLocked_onSet (c : Cache V) (now : Int) (order : List String)
    (k : String) (v : V) : (c.setLocked now order k v).onSet =
      decide (((c.cleanup now order).items.entries.length : Int) < c.capacity) := by
  dsimp only [Cache.setLocked]; split <;> simp [*]

@[simp] theorem Cache.setLocked_currSize (c : Cache V) (now : Int) (order : List String)
    (k : String) (v : V) :
    (c.setLocked now order k v).currSize = (c.setLocked now order k v).items.entries.length := by
  dsimp only [Cache.setLocked]; split <;> rfl

@[simp] theorem Cache.setLocked_onCleanup (c : Cache V) (now : Int) (order : List String)
    (k : String) (v : V) :
    (c.setLocked now order k v).onCleanup = (c.cleanup now order).onCleanup := by
  dsimp only [Cache.setLocked]; split <;> rfl

@[simp] theorem Cache.setLocked_expiredKeys (c : Cache V) (now : Int) (order : List String)
    (k : String) (v : V) :
    (c.setLocked now order k v).expiredKeys = (c.cleanup now order).expiredKeys := by
  dsimp only [Cache.setLocked]; split <;> rfl

@[simp] theorem Cache.set_fst (c : Cache V) (now : Int) (order : List String) (k : String)
    (v : V) : (c.set now order k v).1 = { c with items := (c.setLocked now order k v).items } :=
  rfl

/-- What `Set` leaves in the map: the swept map, with the new item under `k` when the sweep
left room. -/
theorem Cache.set_lookup (c : Cache V) (now : Int) (order : List String) (k : String) (v : V)
    (j : String) : (c.set now order k v).1.items.lookup j =
      if j = k ∧ ((c.cleanup now order).items.entries.length : Int) < c.capacity
      then some (newItem v c.ttl now) else (c.cleanup now order).items.lookup j := by
  simp only [Cache.set_fst, Cache.setLocked_items]
  by_cases hj : j = k
  · subst hj; split <;> simp [AList.lookup_insert, *]
  · split <;> simp [AList.lookup_insert_ne hj, hj]

/-- `Set` never takes the map past the capacity it found it within. -/
theorem Cache.set_length_le (c : Cache V) (now : Int) (order : List String) (k : String)
    (v : V) (h : (c.items.entries.length : Int) ≤ c.capacity) :
    ((c.set now order k v).1.items.entries.length : Int) ≤ c.capacity := by
  have hs := (c.cleanup_expiredKeys now order).2.2
  simp only [Cache.set_fst, Cache.setLocked_items]
  split
  · have := Store.length_insert_le (c.cleanup now order).items k (newItem v c.ttl now)
    omega
  · omega

/-- A `Set(k, v)` that finds no live entry for `k`, in a map holding no other key, stores
`v` under `k`, provided its range visits every key. -/
theorem Cache.set_stores_of_get_none (c : Cache V) (now : Int) (order : List String)
    (k : String) (v : V) (hkeys : ∀ j ∈ c.items, j = k) (hcov : ∀ j ∈ c.items, j ∈ order)
    (hcap : 0 < c.capacity) (hlen : (c.items.entries.length : Int) ≤ c.capacity)
    (hmiss : (c.get now k).1 = none) :
    (c.set now order k v).1.items.lookup k = some (newItem v c.ttl now) := by
  have hroom : ((c.cleanup now order).items.entries.length : Int) < c.capacity := by
    obtain ⟨-, hmem, hsum⟩ := c.cleanup_expiredKeys now order
    by_cases hfull : (c.items.entries.length : Int) = c.capacity
    · obtain ⟨j, hj⟩ := Store.exists_mem_of_length_pos (s := c.items) (by omega)
      obtain rfl := hkeys j hj
      obtain ⟨i, hi⟩ := Option.isSome_iff_exists.mp (AList.lookup_isSome.mpr hj)
      have hexp : c.items.expiredAt now j = true := by
        rw [Cache.get_fst, hi] at hmiss
        cases he : i.expired now <;> simp_all [Store.expiredAt, Option.filter]
      have hrem : j ∈ (c.cleanup now order).expiredKeys := (hmem j).mpr ⟨hj, by
        rw [← AList.lookup_eq_none, Cache.cleanup_lookup, if_pos ⟨hfull, hcov j hj, hexp⟩]⟩
      have := List.length_pos_of_mem hrem
      omega
    · have : (c.cleanup now order).items = c.items := by simp [Cache.cleanup, hfull]
      rw [this]; omega
  rw [Cache.set_lookup, if_pos ⟨rfl, hroom⟩]

/-- A `Set(k, v)` on a map holding no key but `k` leaves a live entry under `k` at the
instant of the `Set`: the new item, or the live one it kept. -/
theorem Cache.set_get_isSome (c : Cache V) (now : Int) (order : List String) (k : String)
    (v : V) (hkeys : ∀ j ∈ c.items, j = k) (hcov : ∀ j ∈ c.items, j ∈ order)
    (hcap : 0 < c.capacity) (hlen : (c.items.entries.length : Int) ≤ c.capacity) (httl : 0 ≤ c.ttl)
    (hlo : -2 ^ 63 ≤ now + c.ttl) (hhi : now + c.ttl < 2 ^ 63) :
    ((c.set now order k v).1.get now k).1.isSome := by
  have hnew : (newItem v c.ttl now).expired now = false := by
    simp [newItem_expiration_of_lt hlo hhi, httl]
  by_cases hmiss : (c.get now k).1 = none
  · rw [Cache.get_fst, c.set_stores_of_get_none now order k v hkeys hcov hcap hlen hmiss]
    simp [Option.filter, hnew]
  · rw [Cache.get_fst] at hmiss ⊢
    rw [Cache.set_lookup, Cache.cleanup_lookup]
    cases hi : c.items.lookup k with
    | none => simp [hi] at hmiss
    | some i =>
      have hlive : i.expired now = false := by simpa [hi, Option.filter] using hmiss
      split_ifs with hstored hswept
      · simp [Option.filter, hnew]
      · simp [Store.expiredAt, hi, hlive] at hswept
      · simp [Option.filter, hi, hlive]

-- ---------------------------------------------------------------------------
-- The capacity policy
-- ---------------------------------------------------------------------------

/-- A sweep that visits no expired entry changes nothing. -/
theorem sweep_of_forall_expiredAt_false (now : Int) (items : Store V) (ek : List String) :
    ∀ order : List String, (∀ j ∈ order, items.expiredAt now j = false) →
      sweep now order items ek = (items, ek)
  | [], _ => rfl
  | k :: order, h => by
    rw [sweep_cons, if_neg (by simp [h k (.head _)])]
    exact sweep_of_forall_expiredAt_false now items ek order fun j hj => h j (.tail _ hj)

/-- With the map within capacity and the range visiting every key, the sweep leaves room
exactly when the map had room or held an expired entry. -/
theorem Cache.cleanup_length_lt_iff (c : Cache V) (now : Int) (order : List String)
    (hlen : (c.items.entries.length : Int) ≤ c.capacity) (hcov : ∀ j ∈ c.items, j ∈ order) :
    ((c.cleanup now order).items.entries.length : Int) < c.capacity ↔
      (c.items.entries.length : Int) < c.capacity ∨ ∃ j, c.items.expiredAt now j = true := by
  by_cases hfull : (c.items.entries.length : Int) = c.capacity
  · obtain ⟨-, hmem, hsum⟩ := c.cleanup_expiredKeys now order
    have hremoved : (c.cleanup now order).expiredKeys ≠ [] ↔
        ∃ j, c.items.expiredAt now j = true := by
      constructor
      · intro hne
        obtain ⟨j, hj⟩ := List.exists_mem_of_ne_nil _ hne
        obtain ⟨hin, hout⟩ := (hmem j).mp hj
        have hgone := c.cleanup_lookup now order j
        rw [AList.lookup_eq_none.mpr hout] at hgone
        split_ifs at hgone with hswept
        · exact ⟨j, hswept.2.2⟩
        · exact absurd hgone.symm (by simpa [AList.lookup_eq_none] using hin)
      · rintro ⟨j, hj⟩
        have hin := Store.mem_of_expiredAt hj
        refine List.ne_nil_of_mem ((hmem j).mpr ⟨hin, ?_⟩)
        rw [← AList.lookup_eq_none, Cache.cleanup_lookup, if_pos ⟨hfull, hcov j hin, hj⟩]
    rw [← hremoved, ← List.length_pos]
    omega
  · have hkeep : (c.cleanup now order).items = c.items := by simp [Cache.cleanup, hfull]
    rw [hkeep]
    omega

/-- A `Set` that finds the map full and no entry expired changes nothing, whatever its key,
even one already in the map. -/
theorem Cache.set_fst_eq_self (c : Cache V) (now : Int) (order : List String) (k : String)
    (v : V) (hfull : (c.items.entries.length : Int) = c.capacity)
    (hlive : ∀ j, c.items.expiredAt now j = false) : (c.set now order k v).1 = c := by
  have hkeep : (c.cleanup now order).items = c.items := by
    simp [Cache.cleanup, hfull, sweep_of_forall_expiredAt_false now c.items [] order
      fun j _ => hlive j]
  simp [Cache.setLocked_items, hkeep, hfull]

/-- The capacity policy of `Set`, on a map within capacity whose sweep visits every key:
`Set(k, v)` stores its item exactly when the map has room or holds an entry that has
expired; otherwise the map is left as it was, and a value already under `k` is not
replaced. -/
theorem Cache.set_capacity_policy (c : Cache V) (now : Int) (order : List String) (k : String)
    (v : V) (hlen : (c.items.entries.length : Int) ≤ c.capacity)
    (hcov : ∀ j ∈ c.items, j ∈ order) :
    (((c.items.entries.length : Int) < c.capacity ∨ ∃ j, c.items.expiredAt now j = true) →
      (c.set now order k v).1.items.lookup k = some (newItem v c.ttl now)) ∧
    ((c.items.entries.length : Int) = c.capacity → (∀ j, c.items.expiredAt now j = false) →
      (c.set now order k v).1 = c) :=
  ⟨fun h => by
    rw [Cache.set_lookup, if_pos ⟨rfl, (c.cleanup_length_lt_iff now order hlen hcov).mpr h⟩],
    c.set_fst_eq_self now order k v⟩

/-- A cache of one slot holding `"k"`, set at clock reading 0 with TTL 10. -/
def oneSlotCache : Cache Nat := ((Cache.new 10 1 : Cache Nat).set 0 [] "k" 1).1

theorem Cache.set_capacity_policy_one_slot :
    (((oneSlotCache.items.entries.length : Int) < oneSlotCache.capacity ∨
        ∃ j, oneSlotCache.items.expiredAt 5 j = true) →
      (oneSlotCache.set 5 ["k"] "k" 2).1.items.lookup "k" =
        some (newItem 2 oneSlotCache.ttl 5)) ∧
    ((oneSlotCache.items.entries.length : Int) = oneSlotCache.capacity →
      (∀ j, oneSlotCache.items.expiredAt 5 j = false) →
      (oneSlotCache.set 5 ["k"] "k" 2).1 = oneSlotCache) :=
  oneSlotCache.set_capacity_policy 5 ["k"] "k" 2 (by decide) fun j hj => by
    have hkeys : oneSlotCache.items.keys = ["k"] := by decide
    have hj' : j ∈ oneSlotCache.items.keys := AList.mem_keys.mp hj
    rwa [hkeys] at hj'

/-- At `ttl = math.MaxInt64` `Set` stores the wrapped expiration `t + ttl - 2^64`, not
`t + ttl`. -/
theorem Cache.set_stores_wrapped_expiration :
    ((Cache.new (2 ^ 63 - 1) 1 : Cache Nat).set 1762646400000000000 [] "k" 7).1.items.lookup "k" =
        some ⟨7, 1762646400000000000 + (2 ^ 63 - 1) - 2 ^ 64⟩ ∧
      1762646400000000000 + (2 ^ 63 - 1) - 2 ^ 64 < (1762646400000000000 : Int) := by
  decide

-- ---------------------------------------------------------------------------
-- Delete and Size
-- ---------------------------------------------------------------------------

/-- `Delete(k)`. -/
def Cache.delete (c : Cache V) (k : String) : Cache V := { c with items := c.items.erase k }

/-- `Size()` at clock reading `now`: the loop counting the entries that have not expired. -/
def Cache.size (c : Cache V) (now : Int) : Nat := c.items.entries.countP (fun e => !e.2.expired now)

/-- `Size` counts exactly the keys `Get` finds at the same instant, which are the keys whose
entry expires at `t` or later. -/
theorem Cache.size_eq_ncard_found (c : Cache V) (t : Int) :
    c.size t = {k | ((c.get t k).1).isSome}.ncard ∧
      {k | ((c.get t k).1).isSome} = {k | ∃ i, c.items.lookup k = some i ∧ t ≤ i.expiration} := by
  have hset : {k | ((c.get t k).1).isSome} =
      {k | ∃ i, c.items.lookup k = some i ∧ t ≤ i.expiration} := by
    ext k
    cases h : c.items.lookup k with
    | none => simp [Cache.get_fst, h]
    | some i => cases he : i.expired t <;> simp_all [Cache.get_fst, Option.filter]
  refine ⟨?_, hset⟩
  let live := (c.items.entries.filter (fun e => !e.2.expired t)).keys
  have hnd : live.Nodup := c.items.nodupKeys.sublist (List.filter_sublist _)
  have hlive : {k | ∃ i, c.items.lookup k = some i ∧ t ≤ i.expiration} = ↑live.toFinset := by
    ext k
    simp [live, List.mem_keys, ← AList.mem_lookup_iff]
  rw [hset, hlive, Set.ncard_coe_Finset, List.toFinset_card_of_nodup hnd]
  simp [Cache.size, live, List.keys, List.countP_eq_length_filter]

/-- At `ttl = math.MaxInt64` an entry `Set` stores is already expired: `Get` misses it and
`Size` does not count it at the same instant. -/
theorem Cache.get_misses_after_set_overflow :
    (newItem 7 (2 ^ 63 - 1) 1762646400000000000).expiration < 1762646400000000000 ∧
      (((Cache.new (2 ^ 63 - 1) 1 : Cache Nat).set 1762646400000000000 [] "k" 7).1.get
        1762646400000000000 "k").1 = none ∧
      ((Cache.new (2 ^ 63 - 1) 1 : Cache Nat).set 1762646400000000000 [] "k" 7).1.size
        1762646400000000000 = 0 := by
  have hexp : (newItem 7 (2 ^ 63 - 1) 1762646400000000000).expiration < 1762646400000000000 :=
    newItem_expiration_lt_of_overflow (by norm_num) (by norm_num) (by norm_num)
  have hentries : ((Cache.new (2 ^ 63 - 1) 1 : Cache Nat).set 1762646400000000000 [] "k"
      7).1.items.entries = [⟨"k", newItem 7 (2 ^ 63 - 1) 1762646400000000000⟩] := by
    decide
  have hlookup : ((Cache.new (2 ^ 63 - 1) 1 : Cache Nat).set 1762646400000000000 [] "k"
      7).1.items.lookup "k" = some (newItem 7 (2 ^ 63 - 1) 1762646400000000000) := by
    rw [AList.lookup, hentries]
    rfl
  refine ⟨hexp, ?_, ?_⟩
  · rw [Cache.get_fst, hlookup]
    simp only [Option.filter, Item.expired_eq_true.mpr hexp]
    rfl
  · rw [Cache.size, hentries]
    simp only [List.countP_cons, List.countP_nil, Item.expired_eq_true.mpr hexp]
    rfl

-- ---------------------------------------------------------------------------
-- One call
-- ---------------------------------------------------------------------------

/-- A call on the cache. `set` carries the order in which its sweep ranges over the map. -/
inductive Call (V : Type) where
  | get (k : String)
  | set (k : String) (v : V) (order : List String)
  | delete (k : String)
  | size

/-- What a call returns to its caller. -/
inductive Reply (V : Type) where
  | get (v : Option V)
  | set
  | delete
  | size (n : Nat)

/-- The cache after a call, the call's reply, and the hooks it fired. -/
structure Outcome (V : Type) where
  cache : Cache V
  reply : Reply V
  callbacks : List (Callback V)

/-- One call at clock reading `now`. -/
def Cache.call (c : Cache V) (now : Int) : Call V → Outcome V
  | .get k => ⟨c, .get (c.get now k).1, (c.get now k).2⟩
  | .set k v order => ⟨(c.set now order k v).1, .set, (c.set now order k v).2⟩
  | .delete k => ⟨c.delete k, .delete, []⟩
  | .size => ⟨c, .size (c.size now), []⟩

/-- The hooks each call fires. `Set` stores `k` exactly when the sweep left room, fires
`onSet` exactly then and `onCleanup` exactly when the map was full on entry, both with the
size of the map it leaves; `onCleanup` gets the keys the sweep removed, each once. `Get`
fires the hook of its answer; `Delete` and `Size` fire none. -/
theorem Cache.call_callbacks (c : Cache V) (now : Int) :
    (∀ k v order,
      let o := c.call now (.set k v order)
      let s := c.cleanup now order
      let stored := (s.items.entries.length : Int) < c.capacity
      o.cache.items = (if stored then s.items.insert k (newItem v c.ttl now) else s.items) ∧
      o.callbacks =
        (if stored ∧ c.onSet then [.onSet c.capacity o.cache.items.entries.length k] else []) ++
        (if (c.items.entries.length : Int) = c.capacity ∧ c.onCleanup then
          [.onCleanup c.capacity o.cache.items.entries.length s.expiredKeys] else []) ∧
      s.expiredKeys.Nodup ∧ (∀ j, j ∈ s.expiredKeys ↔ j ∈ c.items ∧ j ∉ s.items)) ∧
    (∀ k, (c.call now (.get k)).callbacks = match (c.get now k).1 with
      | some v => if c.onCacheHit then [.onCacheHit k v] else []
      | none => if c.onCacheMiss then [.onCacheMiss k] else []) ∧
    (∀ k, (c.call now (.delete k)).callbacks = []) ∧
    (c.call now .size).callbacks = [] := by
  refine ⟨fun k v order => ?_, fun k => c.get_snd now k, fun _ => rfl, rfl⟩
  obtain ⟨hnd, hmem, -⟩ := c.cleanup_expiredKeys now order
  refine ⟨by simp [Cache.call], ?_, hnd, hmem⟩
  simp [Cache.call, Cache.set]

end PrebidService.TtlCache
