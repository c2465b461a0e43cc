-- SUMMARY: Runs of the cache from `New`: the capacity invariant, and `Get` answering from the last `Set` that stored its key.
import PrebidService.Cache.Ops

/-!
# Runs of the cache

A run is a list of calls, each made at a clock reading. Two facts hold along every run
from `New`:

* the map never holds more entries than the capacity, whatever the clock does;
* when the clock does not go back, `Get(k)` answers from the most recent `Set` on `k` that
  stored `k` and was not followed by `Delete(k)`: its value while its expiration lasts,
  nothing after. Sweeps, dropped `Set`s and calls on other keys do not change that answer.

The second fact is a simulation: `Tracks` relates the map's entry for `k` to the abstract
record `lastStored`, and each step keeps the relation.
-/

namespace PrebidService.TtlCache

variable {V : Type}

/-- A call and the clock reading it is made at. -/
structure Timed (V : Type) where
  now : Int
  call : Call V

/-- The cache after one timed call. -/
def Cache.step (c : Cache V) (x : Timed V) : Cache V := (c.call x.now x.call).cache

/-- The cache after a sequence of timed calls. -/
def Cache.run (c : Cache V) (xs : List (Timed V)) : Cache V := xs.foldl Cache.step c

@[simp] theorem Cache.run_nil (c : Cache V) : c.run [] = c := rfl

@[simp] theorem Cache.run_cons (c : Cache V) (x : Timed V) (xs : List (Timed V)) :
    c.run (x :: xs) = (c.step x).run xs := rfl

@[simp] theorem Cache.step_ttl (c : Cache V) (x : Timed V) : (c.step x).ttl = c.ttl := by
  obtain ⟨now, call⟩ := x
  cases call <;> rfl

@[simp] theorem Cache.run_ttl (c : Cache V) (xs : List (Timed V)) : (c.run xs).ttl = c.ttl := by
  induction xs generalizing c with
  | nil => rfl
  | cons x xs ih => simp [ih]

@[simp] theorem Cache.step_capacity (c : Cache V) (x : Timed V) :
    (c.step x).capacity = c.capacity := by
  obtain ⟨now, call⟩ := x
  cases call <;> rfl

-- ---------------------------------------------------------------------------
-- The capacity bound
-- ---------------------------------------------------------------------------

/-- The capacity is positive and the map holds at most that many entries, expired ones
included. -/
structure Cache.Bounded (c : Cache V) : Prop where
  capacity_pos : 0 < c.capacity
  length_le : (c.items.entries.length : Int) ≤ c.capacity

theorem Cache.Bounded.new (ttl capacity : Int) : (Cache.new ttl capacity : Cache V).Bounded :=
  ⟨Cache.new_capacity_pos ttl capacity, by simp [Cache.new, defaultCapacity]; split <;> omega⟩

theorem Cache.Bounded.step {c : Cache V} (h : c.Bounded) (x : Timed V) : (c.step x).Bounded := by
  refine ⟨by simpa using h.capacity_pos, ?_⟩
  obtain ⟨now, call⟩ := x
  cases call with
  | get k => exact h.length_le
  | set k v order => exact c.set_length_le now order k v h.length_le
  | delete k =>
    have := Store.length_erase c.items k
    have := h.length_le
    simp only [Cache.step, Cache.call, Cache.delete]
    split at * <;> omega
  | size => exact h.length_le

theorem Cache.Bounded.run {c : Cache V} (h : c.Bounded) (xs : List (Timed V)) :
    (c.run xs).Bounded := by
  induction xs generalizing c with
  | nil => exact h
  | cons x xs ih => exact ih (h.step x)

/-- Every state reached from `New`, at any clock readings, has a positive capacity and at
most that many entries; so the sweep guard `len(c.items) == c.capacity` of `Set` holds
exactly when there is no room left. -/
theorem Cache.run_new_bounded (ttl capacity : Int) (xs : List (Timed V)) :
    0 < ((Cache.new ttl capacity : Cache V).run xs).capacity ∧
      ((((Cache.new ttl capacity : Cache V).run xs).items.entries.length : Int) ≤
        ((Cache.new ttl capacity : Cache V).run xs).capacity) ∧
      ((((Cache.new ttl capacity : Cache V).run xs).items.entries.length : Int) =
          ((Cache.new ttl capacity : Cache V).run xs).capacity ↔
        ¬ (((Cache.new ttl capacity : Cache V).run xs).items.entries.length : Int) <
          ((Cache.new ttl capacity : Cache V).run xs).capacity) := by
  have h := (Cache.Bounded.new ttl capacity).run (V := V) xs
  exact ⟨h.capacity_pos, h.length_le, by have := h.length_le; omega⟩

-- ---------------------------------------------------------------------------
-- Get answers from the last stored Set
-- ---------------------------------------------------------------------------

/-- How one timed call changes the record of the last `Set` on `k` that stored `k`: a
`Set(k, v)` that stores replaces it, `Delete(k)` clears it, every other call keeps it. -/
def Cache.record (c : Cache V) (k : String) (x : Timed V) (acc : Option (Int × V)) :
    Option (Int × V) :=
  match x.call with
  | .set k' v order =>
    if k' = k ∧ (c.setLocked x.now order k' v).onSet = true then some (x.now, v) else acc
  | .delete k' => if k' = k then none else acc
  | _ => acc

/-- The most recent `Set` on `k` in `xs` that stored `k`, with its clock reading and value,
unless a `Delete(k)` came after it; `acc` is the record before `xs`. -/
def Cache.lastStored (k : String) : Cache V → List (Timed V) → Option (Int × V) →
    Option (Int × V)
  | _, [], acc => acc
  | c, x :: xs, acc => Cache.lastStored k (c.step x) xs (c.record k x acc)

/-- What `Get(k)` at `t` answers from a record: its value until its expiration. -/
def answer (ttl t : Int) : Option (Int × V) → Option V
  | some (t0, v) => if t ≤ t0 + ttl then some v else none
  | none => none

/-- The map's entry for `k` against the record `g`, the clock having reached `last`: with no
record there is no entry; with a record, the entry is the stored item, or it is gone and
the item had expired by `last`. -/
def Tracks (c : Cache V) (k : String) (last : Int) : Option (Int × V) → Prop
  | none => c.items.lookup k = none
  | some (t0, v) => c.items.lookup k = some ⟨v, t0 + c.ttl⟩ ∨
      (c.items.lookup k = none ∧ t0 + c.ttl < last)

theorem Tracks.mono {c : Cache V} {k : String} {last now : Int} {g : Option (Int × V)}
    (h : Tracks c k last g) (hle : last ≤ now) : Tracks c k now g := by
  match g, h with
  | none, h => exact h
  | some _, .inl h => exact .inl h
  | some _, .inr ⟨h, hlt⟩ => exact .inr ⟨h, by omega⟩

theorem Tracks.of_lookup {c c' : Cache V} {k : String} {last : Int} {g : Option (Int × V)}
    (h : Tracks c k last g) (hl : c'.items.lookup k = c.items.lookup k) (ht : c'.ttl = c.ttl) :
    Tracks c' k last g := by
  match g, h with
  | none, h => exact hl.trans h
  | some _, .inl h => exact .inl (by rw [hl, h, ht])
  | some _, .inr ⟨h, hlt⟩ => exact .inr ⟨hl.trans h, by rw [ht]; exact hlt⟩

/-- `Get` answers from the record the map tracks. -/
theorem Tracks.get {c : Cache V} {k : String} {t : Int} {g : Option (Int × V)}
    (h : Tracks c k t g) : (c.get t k).1 = answer c.ttl t g := by
  rw [Cache.get_fst]
  match g, h with
  | none, h => simp [show c.items.lookup k = none from h, answer]
  | some (t0, v), .inl h => by_cases ht : t ≤ t0 + c.ttl <;> simp [h, answer, Option.filter, ht]
  | some (t0, v), .inr ⟨h, hlt⟩ => simp [h, answer, not_le.mpr hlt]

/-- The sweep of `Set` keeps the relation: it only removes an entry that has expired, and
the clock has then passed its expiration. -/
theorem Tracks.cleanup {c : Cache V} {k : String} {last now : Int} {g : Option (Int × V)}
    (h : Tracks c k last g) (hle : last ≤ now) (order : List String) :
    Tracks { c with items := (c.cleanup now order).items } k now g := by
  have hl := c.cleanup_lookup now order k
  split at hl
  · rename_i hx
    match g, h with
    | none, h => exact hl
    | some _, .inl h =>
      refine .inr ⟨hl, ?_⟩
      simpa [Store.expiredAt, h] using hx.2.2
    | some _, .inr ⟨_, hlt⟩ => exact .inr ⟨hl, by dsimp only; omega⟩
  · exact (h.mono hle).of_lookup hl rfl

/-- One step keeps the relation when the clock does not go back and a `Set` computes its
expiration without overflow. -/
theorem Tracks.step {c : Cache V} {k : String} {last : Int} {g : Option (Int × V)}
    (h : Tracks c k last g) (x : Timed V) (hle : last ≤ x.now)
    (hrange : ∀ k' v order, x.call = .set k' v order →
      -2 ^ 63 ≤ x.now + c.ttl ∧ x.now + c.ttl < 2 ^ 63) :
    Tracks (c.step x) k x.now (c.record k x g) := by
  obtain ⟨now, call⟩ := x
  dsimp only at hle hrange ⊢
  cases call with
  | get k' => exact h.mono hle
  | size => exact h.mono hle
  | delete k' =>
    by_cases hk : k' = k
    · subst hk; simp [Tracks, Cache.record, Cache.step, Cache.call, Cache.delete,
        AList.lookup_erase]
    · simp only [Cache.record, if_neg hk]
      exact (h.mono hle).of_lookup (AList.lookup_erase_ne (Ne.symm hk)) rfl
  | set k' v order =>
    obtain ⟨hlo, hhi⟩ := hrange k' v order rfl
    have hs := c.set_lookup now order k' v k
    simp only [Cache.record, Cache.setLocked_onSet, decide_eq_true_eq]
    by_cases hk : k' = k ∧ ((c.cleanup now order).items.entries.length : Int) < c.capacity
    · obtain ⟨rfl, hroom⟩ := hk
      rw [if_pos ⟨rfl, hroom⟩] at hs
      rw [if_pos ⟨rfl, hroom⟩]
      have he : newItem v c.ttl now = ⟨v, now + c.ttl⟩ := by
        simp only [newItem, unixNano_of_le_of_lt hlo hhi]
      exact .inl (hs.trans (by rw [he]; rfl))
    · rw [if_neg (fun h' => hk ⟨h'.1, h'.2⟩)]
      rw [if_neg (fun h' => hk ⟨h'.1.symm, h'.2⟩)] at hs
      exact (h.cleanup hle order).of_lookup hs rfl

/-- Along a run whose clock readings do not go back, the map tracks `lastStored`. -/
theorem Tracks.run {k : String} (xs : List (Timed V)) :
    ∀ (c : Cache V) (last t : Int) (g : Option (Int × V)), Tracks c k last g →
      List.Chain (· ≤ ·) last (xs.map Timed.now ++ [t]) →
      (∀ x ∈ xs, ∀ k' v order, x.call = .set k' v order →
        -2 ^ 63 ≤ x.now + c.ttl ∧ x.now + c.ttl < 2 ^ 63) →
      Tracks (c.run xs) k t (c.lastStored k xs g) := by
  induction xs with
  | nil => intro c last t g h hc _; exact h.mono (List.chain_singleton.mp hc)
  | cons x xs ih =>
    intro c last t g h hc hr
    rw [List.map_cons, List.cons_append, List.chain_cons] at hc
    exact ih (c.step x) x.now t _ (h.step x hc.1 (hr x (List.mem_cons_self _ _))) hc.2
      (fun y hy => by simpa using hr y (List.mem_cons_of_mem _ hy))

/-- From `New`, at clock readings that do not go back, `Get(k)` at `t` returns the value of
the most recent `Set` on `k` that stored `k` and was not followed by `Delete(k)`, as long
as `t` is within the cache's TTL of that `Set`, and nothing otherwise. The TTL is the one
`New` settled on, and each `Set`'s `now + ttl` is taken to fit in an `int64`. -/
theorem Cache.get_run_new (ttl capacity : Int) (xs : List (Timed V)) (k : String) (t : Int)
    (hmono : (xs.map Timed.now ++ [t]).Chain' (· ≤ ·))
    (hrange : ∀ x ∈ xs, ∀ k' v order, x.call = .set k' v order →
      -2 ^ 63 ≤ x.now + (Cache.new ttl capacity : Cache V).ttl ∧
        x.now + (Cache.new ttl capacity : Cache V).ttl < 2 ^ 63) :
    (((Cache.new ttl capacity : Cache V).run xs).get t k).1 =
      answer (Cache.new ttl capacity : Cache V).ttl t
        ((Cache.new ttl capacity : Cache V).lastStored k xs none) := by
  have h₀ : ∀ last, Tracks (Cache.new ttl capacity : Cache V) k last none := fun _ => rfl
  have hchain : List.Chain (· ≤ ·) ((xs.map Timed.now ++ [t]).headI)
      (xs.map Timed.now ++ [t]) := by
    cases hl : xs.map Timed.now ++ [t] with
    | nil => exact .nil
    | cons a l => rw [hl] at hmono; exact .cons le_rfl hmono
  have := (Tracks.run xs _ _ t none (h₀ _) hchain hrange).get
  rwa [Cache.run_ttl] at this

theorem Cache.get_run_new_after_one_set :
    (((Cache.new 10 2 : Cache Nat).run [⟨0, .set "a" 1 []⟩]).get 5 "a").1 =
      answer (Cache.new 10 2 : Cache Nat).ttl 5
        ((Cache.new 10 2 : Cache Nat).lastStored "a" [⟨0, .set "a" 1 []⟩] none) :=
  Cache.get_run_new 10 2 [⟨0, .set "a" 1 []⟩] "a" 5 (by simp)
    (by simp [Cache.new])

/-- With `New(0, 1)` the cache keeps a value well past `t0 + 0`, since the TTL falls back
to five minutes; with `New(math.MaxInt64, 1)` it misses at the very instant of the `Set`. -/
theorem Cache.get_run_new_ttl_mismatch :
    (((Cache.new 0 1 : Cache Nat).run [⟨0, .set "k" 7 []⟩]).get 1 "k").1 = some 7 ∧
      ¬ ((1 : Int) ≤ 0 + 0) ∧
      (((Cache.new (2 ^ 63 - 1) 1 : Cache Nat).run [⟨1762646400000000000, .set "k" 7 []⟩]).get
        1762646400000000000 "k").1 = none ∧
      (1762646400000000000 : Int) ≤ 1762646400000000000 + (2 ^ 63 - 1) := by
  decide

end PrebidService.TtlCache
