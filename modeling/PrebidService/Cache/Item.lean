-- SUMMARY: Entries of the bounded TTL cache: int64 nanosecond timestamps, `item`, `newItem`, `expired`, and the Go map that holds them.
import Mathlib.Data.List.AList
import Mathlib.Algebra.Group.Int

/-!
# Cache items

The cache of `src/cache/skanidlistcache/cache/cache.go` stores each value with an absolute
expiration, the `int64` Unix time in nanoseconds that `time.Now().Add(ttl).UnixNano()`
computes. A clock reading is modelled as the `int64` value `time.Now().UnixNano()`, read
once per operation. `Time.Add` is exact, but `UnixNano` multiplies and adds in `int64`,
which wraps: the expiration is `now + ttl` reduced into `[-2^63, 2^63)`.
-/

namespace PrebidService.TtlCache

/-- `t.UnixNano()` for the instant `t` nanoseconds after the Unix epoch: Go's `int64`
arithmetic wraps it into `[-2^63, 2^63)`. -/
def unixNano (t : Int) : Int := t.bmod (2 ^ 64)

theorem unixNano_of_le_of_lt {t : Int} (h₁ : -2 ^ 63 ≤ t) (h₂ : t < 2 ^ 63) :
    unixNano t = t := by
  rw [unixNano, Int.bmod_def]
  split <;> omega

theorem unixNano_of_le_of_lt_add {t : Int} (h₁ : 2 ^ 63 ≤ t) (h₂ : t < 2 ^ 63 + 2 ^ 64) :
    unixNano t = t - 2 ^ 64 := by
  rw [unixNano, Int.bmod_def]
  split <;> omega

/-- `DefaultTTL`: `5 * time.Minute`, in nanoseconds. -/
def defaultTTL : Int := 5 * 60 * 1000000000

/-- `DefaultCapacity`. -/
def defaultCapacity : Int := 10000

/-- `item`: a stored value and its expiration in Unix nanoseconds. -/
structure Item (V : Type) where
  value : V
  expiration : Int
  deriving DecidableEq, Repr

variable {V : Type}

/-- `newItem(v, ttl)` at clock reading `now`. -/
def newItem (v : V) (ttl : Int) (now : Int) : Item V :=
  { value := v, expiration := unixNano (now + ttl) }

/-- `item.expired()` at clock reading `now`: `time.Now().UnixNano() > i.expiration`. -/
def Item.expired (i : Item V) (now : Int) : Bool := now > i.expiration

@[simp] theorem Item.expired_eq_true {i : Item V} {now : Int} :
    i.expired now = true ↔ i.expiration < now := by
  simp [Item.expired]

@[simp] theorem Item.expired_eq_false {i : Item V} {now : Int} :
    i.expired now = false ↔ now ≤ i.expiration := by
  simp [Item.expired]

@[simp] theorem newItem_value (v : V) (ttl now : Int) : (newItem v ttl now).value = v := rfl

theorem newItem_expiration_of_lt {v : V} {ttl now : Int} (h₁ : -2 ^ 63 ≤ now + ttl)
    (h₂ : now + ttl < 2 ^ 63) : (newItem v ttl now).expiration = now + ttl :=
  unixNano_of_le_of_lt h₁ h₂

/-- When `now + ttl` passes the largest `int64`, the expiration wraps below `now`: the item
has expired the moment it is made. -/
theorem newItem_expiration_lt_of_overflow {v : V} {ttl now : Int} (hnow : now < 2 ^ 63)
    (httl : ttl < 2 ^ 63) (h : 2 ^ 63 ≤ now + ttl) : (newItem v ttl now).expiration < now := by
  show unixNano (now + ttl) < now
  rw [unixNano_of_le_of_lt_add h (by omega)]
  omega

-- ---------------------------------------------------------------------------
-- The map
-- ---------------------------------------------------------------------------

/-- `map[string]item`: an association list with distinct keys. Go gives a map no order,
so the statements below are about lookups and the number of entries. -/
abbrev Store (V : Type) := AList (fun _ : String => Item V)

theorem Store.length_entries (s : Store V) : s.entries.length = s.keys.length := by
  simp [AList.keys, List.keys]

/-- `len` after an insert: one more entry unless the key was present. -/
theorem Store.length_insert (s : Store V) (k : String) (i : Item V) :
    (s.insert k i).entries.length = if k ∈ s then s.entries.length else s.entries.length + 1 := by
  simp only [Store.length_entries, AList.keys_insert, List.length_cons, AList.mem_keys]
  split
  · rename_i h
    have := List.length_erase_of_mem h
    have : 0 < s.keys.length := List.length_pos_of_mem h
    omega
  · rw [List.erase_of_not_mem ‹_›]

/-- `len` after `delete`: one fewer entry if the key was present. -/
theorem Store.length_erase (s : Store V) (k : String) :
    (s.erase k).entries.length = if k ∈ s then s.entries.length - 1 else s.entries.length := by
  simp only [Store.length_entries, AList.keys_erase, AList.mem_keys]
  split
  · exact List.length_erase_of_mem ‹_›
  · rw [List.erase_of_not_mem ‹_›]

theorem Store.length_erase_add_one {s : Store V} {k : String} (h : k ∈ s) :
    (s.erase k).entries.length + 1 = s.entries.length := by
  have : 0 < s.entries.length := by
    rw [Store.length_entries]; exact List.length_pos_of_mem (AList.mem_keys.mp h)
  rw [Store.length_erase, if_pos h]; omega

theorem Store.exists_mem_of_length_pos {s : Store V} (h : 0 < s.entries.length) :
    ∃ j, j ∈ s := by
  obtain ⟨e, he⟩ := List.exists_mem_of_length_pos h
  exact ⟨e.1, AList.mem_keys.mpr (List.mem_keys_of_mem he)⟩

theorem Store.length_insert_le (s : Store V) (k : String) (i : Item V) :
    (s.insert k i).entries.length ≤ s.entries.length + 1 := by
  rw [Store.length_insert]; split <;> omega

end PrebidService.TtlCache
