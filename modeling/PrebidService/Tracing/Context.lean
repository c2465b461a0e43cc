-- SUMMARY: The trace map of context.go and the span helpers: atomic calls, and concurrent calls as interleaved Load and Store steps.
import Mathlib.Data.List.FinRange
import PrebidService.Tracing.KeyValues

/-!
# Trace data shared across a request

`src/vendor/github.com/tapjoy/go-tracing/tracing/context.go` keeps one package-level
`syncmap.Map`, `traceMap`, from trace IDs to the `[]core.KeyValue` gathered for the trace.
`AddKeyValueToTrace` and `AddInterfaceToTrace` each `Load` the slice of their trace and
`Store` a longer one; the HTTP middleware reads it back with `GetTraceData` and removes it
with `RemoveTraceData` when the request ends.

`Load` and `Store` are each atomic, but nothing makes a call's `Load` and `Store` one step.
The atomic functions are the calls run alone. `World` runs any number of calls
concurrently, each call's `Load` and `Store` a step of its own, in any order a schedule
picks. `World.step_step_load` says that the two steps of a call run back to back are the
atomic function, and `World.run_serial` that calls run one after another are the atomic
calls run in that order; `World.Sound` is what every other schedule still keeps. An atomic
call is one of the code's (`TraceCall.run_eq_addToTrace`): `AddKeyValueToTrace`, or
`AddInterfaceToTrace` once its `getKeyValues` has returned. Calls on
different traces do not interfere (`World.AgreeOn`), and while the calls on each trace do
not overlap no update is lost (`World.Intact`).
-/

namespace PrebidService.Tracing

/-- What the tracing functions read from a `context.Context` that is not nil: the string
stored under `TraceKey`, if there is one, and whether `CurrentSpan` finds a span. -/
structure Ctx where
  traceID : Option String
  hasSpan : Bool

/-- `traceMap`. Only `[]core.KeyValue` values are ever stored in it, so the type assertions
after each `Load` succeed. -/
def TraceMap := String → Option (List KeyValue)

namespace TraceMap

/-- The map before any trace has data. -/
def empty : TraceMap := fun _ => none

/-- `traceMap.Store(traceID, kvs)`. -/
def store (m : TraceMap) (traceID : String) (kvs : List KeyValue) : TraceMap :=
  fun j => if j = traceID then some kvs else m j

/-- `traceMap.Delete(traceID)`. -/
def delete (m : TraceMap) (traceID : String) : TraceMap :=
  fun j => if j = traceID then none else m j

@[simp] theorem empty_apply (j : String) : empty j = none := rfl

@[simp] theorem store_apply (m : TraceMap) (traceID j : String) (kvs : List KeyValue) :
    m.store traceID kvs j = if j = traceID then some kvs else m j := rfl

@[simp] theorem delete_apply (m : TraceMap) (traceID j : String) :
    m.delete traceID j = if j = traceID then none else m j := rfl

end TraceMap

/-- `GetTraceData(traceID)`; the nil slice is `[]`. -/
def getTraceData (m : TraceMap) (traceID : String) : List KeyValue :=
  (m traceID).getD []

/-- `RemoveTraceData(traceID)`. -/
def removeTraceData (m : TraceMap) (traceID : String) : TraceMap :=
  m.delete traceID

@[simp] theorem getTraceData_removeTraceData (m : TraceMap) (traceID : String) :
    getTraceData (removeTraceData m traceID) traceID = [] := by
  simp [getTraceData, removeTraceData]

/-- `AddKeyValueToTrace(ctx, kv)` with nothing running between its `Load` and its
`Store`; `none` is a nil context. -/
def addKeyValueToTrace (m : TraceMap) (ctx : Option Ctx) (kv : KeyValue) : TraceMap :=
  match ctx with
  | none => m
  | some ctx =>
    match ctx.traceID with
    | none => m
    | some traceID =>
      let result := match m traceID with
        | some kvs => kvs ++ [kv]
        | none => [kv]
      m.store traceID result

section

variable (fmtV : GoValue → String)

/-- `AddInterfaceToTrace(ctx, key, data)` with nothing running between its `Load` and its
`Store`, given `fuel` for `getKeyValues`; `none` when it does not return. -/
def addInterfaceToTrace (fuel : Nat) (m : TraceMap) (ctx : Option Ctx) (key : String)
    (data : GoValue) : Option TraceMap :=
  match ctx with
  | none => some m
  | some ctx =>
    match ctx.traceID with
    | none => some m
    | some traceID =>
      (getKeyValues fmtV fuel key data).map fun result =>
        let result := match m traceID with
          | some kvs => result ++ kvs
          | none => result
        m.store traceID result

/-- `AddInterfaceToSpan(span, key, data)`: the attributes it sets, none on a nil span (`span`
false); `none` when it does not return. -/
def addInterfaceToSpan (fuel : Nat) (span : Bool) (key : String) (data : GoValue) :
    Option (List KeyValue) :=
  if span then getKeyValues fmtV fuel key data else some []

/-- `AddInterfaceToActiveSpan(ctx, key, data)`: `AddInterfaceToSpan` on `CurrentSpan(ctx)`. -/
def addInterfaceToActiveSpan (fuel : Nat) (ctx : Ctx) (key : String) (data : GoValue) :
    Option (List KeyValue) :=
  addInterfaceToSpan fmtV fuel ctx.hasSpan key data

/-- None of the three callers of `getKeyValues` returns when handed a pointer, and neither
does `getKeyValues` on a nil pointer or on a struct with an exported pointer field. -/
theorem addInterface_pointer_never_returns (fuel : Nat) (m : TraceMap) :
    getKeyValues fmtV fuel "k" (.ptr (some (.int 1))) = none ∧
      getKeyValues fmtV fuel "k" (.ptr none) = none ∧
      getKeyValues fmtV fuel "req"
        (.struct [(⟨"Device", true, "device,omitempty", false⟩, .ptr (some (.string "ios")))]) =
        none ∧
      addInterfaceToSpan fmtV fuel true "k" (.ptr (some (.int 1))) = none ∧
      addInterfaceToActiveSpan fmtV fuel ⟨some "t", true⟩ "k" (.ptr (some (.int 1))) = none ∧
      addInterfaceToTrace fmtV fuel m (some ⟨some "t", true⟩) "k" (.ptr (some (.int 1))) =
        none := by
  have hptr := getKeyValues_ptr fmtV fuel
  refine ⟨hptr _ _, hptr _ _, ?_, by simp [addInterfaceToSpan, hptr],
    by simp [addInterfaceToActiveSpan, addInterfaceToSpan, hptr],
    by simp [addInterfaceToTrace, hptr]⟩
  cases fuel with
  | zero => rfl
  | succ n =>
    exact addStruct_eq_none_of_mem (List.mem_singleton_self _) rfl
      (by decide : jsonFieldName "Device" "device,omitempty" false = some "device")
      (getKeyValues_ptr fmtV _ _ _)

end

-- ----------------------------------------------------------------------------
-- Concurrent calls
-- ----------------------------------------------------------------------------

/-- What a call adds to its trace. -/
inductive Adder where
  /-- `AddKeyValueToTrace(ctx, kv)`. -/
  | keyValue (kv : KeyValue)
  /-- `AddInterfaceToTrace(ctx, key, data)`, once `getKeyValues(key, data)` has returned
  `result`. -/
  | interface (result : List KeyValue)
  deriving DecidableEq, Repr

namespace Adder

/-- The slice a call stores, given what its `Load` returned. -/
def stored : Adder → Option (List KeyValue) → List KeyValue
  | .keyValue kv, some kvs => kvs ++ [kv]
  | .keyValue kv, none => [kv]
  | .interface result, some kvs => result ++ kvs
  | .interface result, none => result

/-- The pairs a call adds. -/
def pairs : Adder → List KeyValue
  | .keyValue kv => [kv]
  | .interface result => result

@[simp] theorem mem_stored (a : Adder) (loaded : Option (List KeyValue)) (kv : KeyValue) :
    kv ∈ a.stored loaded ↔ kv ∈ loaded.getD [] ∨ kv ∈ a.pairs := by
  cases a <;> cases loaded <;> simp [stored, pairs, or_comm]

end Adder

theorem addKeyValueToTrace_eq (m : TraceMap) (traceID : String) (hasSpan : Bool)
    (kv : KeyValue) :
    addKeyValueToTrace m (some ⟨some traceID, hasSpan⟩) kv =
      m.store traceID ((Adder.keyValue kv).stored (m traceID)) := by
  simp only [addKeyValueToTrace]
  split <;> simp_all [Adder.stored]

theorem addInterfaceToTrace_eq (fmtV : GoValue → String) (fuel : Nat) (m : TraceMap)
    (traceID : String) (hasSpan : Bool) (key : String) (data : GoValue) :
    addInterfaceToTrace fmtV fuel m (some ⟨some traceID, hasSpan⟩) key data =
      (getKeyValues fmtV fuel key data).map fun result =>
        m.store traceID ((Adder.interface result).stored (m traceID)) := by
  simp only [addInterfaceToTrace]
  congr
  funext result
  split <;> simp_all [Adder.stored]

/-- A struct with one exported string field tagged `device`. -/
def deviceStruct : GoValue := .struct [(⟨"Device", true, "device", false⟩, .string "ios")]

/-- Run alone, a call keeps every pair of its trace and adds its own. -/
theorem mem_getTraceData_store_stored (m : TraceMap) (traceID t : String) (a : Adder)
    (kv : KeyValue) :
    kv ∈ getTraceData (m.store traceID (a.stored (m traceID))) t ↔
      kv ∈ getTraceData m t ∨ (t = traceID ∧ kv ∈ a.pairs) := by
  by_cases h : t = traceID
  · subst h; simp [getTraceData]
  · simp [getTraceData, h]

-- ----------------------------------------------------------------------------
-- Calls run one after another
-- ----------------------------------------------------------------------------

namespace Adder

/-- What a call puts before the slice it loaded: `AddInterfaceToTrace` prepends. -/
def front : Adder → List KeyValue
  | .keyValue _ => []
  | .interface result => result

/-- What a call puts after the slice it loaded: `AddKeyValueToTrace` appends. -/
def back : Adder → List KeyValue
  | .keyValue kv => [kv]
  | .interface _ => []

theorem stored_eq (a : Adder) (loaded : Option (List KeyValue)) :
    a.stored loaded = a.front ++ loaded.getD [] ++ a.back := by
  cases a <;> cases loaded <;> simp [stored, front, back]

/-- The call run alone under the context `ctx`: it changes nothing without a trace ID
there. -/
def addToTrace (m : TraceMap) (ctx : Option Ctx) (a : Adder) : TraceMap :=
  match ctx.bind Ctx.traceID with
  | none => m
  | some traceID => m.store traceID (a.stored (m traceID))

end Adder

theorem addKeyValueToTrace_eq_addToTrace (m : TraceMap) (ctx : Option Ctx) (kv : KeyValue) :
    addKeyValueToTrace m ctx kv = (Adder.keyValue kv).addToTrace m ctx := by
  rcases ctx with _ | ⟨_ | traceID, hasSpan⟩
  · rfl
  · rfl
  · exact addKeyValueToTrace_eq m traceID hasSpan kv

/-- `AddInterfaceToTrace`, once `getKeyValues` has returned `result`, is the call that adds
`result`; on a context without a trace ID it returns at once. -/
theorem addInterfaceToTrace_eq_addToTrace (fmtV : GoValue → String) {fuel : Nat} {key : String}
    {data : GoValue} {result : List KeyValue} (h : getKeyValues fmtV fuel key data = some result)
    (m : TraceMap) (ctx : Option Ctx) :
    addInterfaceToTrace fmtV fuel m ctx key data = some ((Adder.interface result).addToTrace m ctx) := by
  rcases ctx with _ | ⟨_ | traceID, hasSpan⟩
  · rfl
  · rfl
  · rw [addInterfaceToTrace_eq, h]
    rfl

-- ----------------------------------------------------------------------------
-- The calls of the code
-- ----------------------------------------------------------------------------

/-- A call the code makes on the trace of its context. -/
inductive TraceCall where
  /-- `AddKeyValueToTrace(ctx, kv)`. -/
  | addKeyValue (kv : KeyValue)
  /-- `AddInterfaceToTrace(ctx, key, data)`. -/
  | addInterface (key : String) (data : GoValue)

namespace TraceCall

variable (fmtV : GoValue → String) (fuel : Nat)

/-- The call run alone by the code, given `fuel` for `getKeyValues`; `none` when it does not
return. -/
def run (m : TraceMap) (ctx : Option Ctx) : TraceCall → Option TraceMap
  | .addKeyValue kv => some (addKeyValueToTrace m ctx kv)
  | .addInterface key data => addInterfaceToTrace fmtV fuel m ctx key data

/-- What the call adds, once `getKeyValues` has returned; `none` when it does not. -/
def adder : TraceCall → Option Adder
  | .addKeyValue kv => some (.keyValue kv)
  | .addInterface key data => (getKeyValues fmtV fuel key data).map .interface

/-- A call whose `getKeyValues` returns is, run alone, the call of `Adder.addToTrace` that adds
what it adds. -/
theorem run_eq_addToTrace {c : TraceCall} {a : Adder} (h : c.adder fmtV fuel = some a)
    (m : TraceMap) (ctx : Option Ctx) : c.run fmtV fuel m ctx = some (a.addToTrace m ctx) := by
  cases c with
  | addKeyValue kv =>
    cases h
    exact congrArg some (addKeyValueToTrace_eq_addToTrace m ctx kv)
  | addInterface key data =>
    obtain ⟨result, hresult, rfl⟩ := Option.map_eq_some'.mp h
    exact addInterfaceToTrace_eq_addToTrace fmtV hresult m ctx

/-- Calls of the code run one after another are the calls of `Adder.addToTrace` made in that
order. -/
theorem foldlM_run {calls : List TraceCall} {adds : List Adder}
    (h : calls.mapM (adder fmtV fuel) = some adds) (ctx : Option Ctx) (m : TraceMap) :
    calls.foldlM (fun m c => c.run fmtV fuel m ctx) m =
      some (adds.foldl (fun m a => a.addToTrace m ctx) m) := by
  induction calls generalizing adds m with
  | nil => cases h; rfl
  | cons c calls ih =>
    simp only [List.mapM_cons, Option.bind_eq_bind, Option.bind_eq_some, Option.pure_def,
      Option.some.injEq] at h
    obtain ⟨a, ha, adds', hadds', rfl⟩ := h
    rw [List.foldlM_cons, run_eq_addToTrace fmtV fuel ha]
    exact ih hadds' _

end TraceCall

section

variable {traceID : String} {hasSpan : Bool}

/-- Calls run one after another on one trace: the interface results end up first, the
latest first, then what the trace held, then the key values in the order they were added. -/
theorem getTraceData_foldl_addToTrace (m : TraceMap) (adds : List Adder) :
    getTraceData (adds.foldl (fun m a => a.addToTrace m (some ⟨some traceID, hasSpan⟩)) m)
        traceID =
      adds.reverse.flatMap Adder.front ++ getTraceData m traceID ++ adds.flatMap Adder.back := by
  induction adds generalizing m with
  | nil => simp
  | cons a adds ih =>
    have hstep : getTraceData (a.addToTrace m (some ⟨some traceID, hasSpan⟩)) traceID =
        a.front ++ getTraceData m traceID ++ a.back := by
      simp [Adder.addToTrace, getTraceData, Adder.stored_eq]
    rw [List.foldl_cons, ih, hstep]
    simp

/-- Calls on one trace leave every other trace as it was. -/
theorem foldl_addToTrace_of_ne (m : TraceMap) (adds : List Adder) {t : String}
    (ht : t ≠ traceID) :
    adds.foldl (fun m a => a.addToTrace m (some ⟨some traceID, hasSpan⟩)) m t = m t := by
  induction adds generalizing m with
  | nil => rfl
  | cons a adds ih =>
    rw [List.foldl_cons, ih]
    simp [Adder.addToTrace, ht]

end

/-- Where a call is: before its `Load`, between its `Load` and its `Store` holding what it
loaded, or returned. -/
inductive Phase where
  | load
  | store (loaded : Option (List KeyValue))
  | done
  deriving DecidableEq, Repr

/-- Whether a call has made its `Load` and not yet its `Store`. -/
def Phase.pending : Phase → Bool
  | .store _ => true
  | _ => false

/-- A call that has a trace ID: calls on a nil context or with no trace ID return before
their `Load` and leave the map alone. -/
structure Call where
  traceID : String
  adder : Adder
  phase : Phase
  deriving DecidableEq, Repr

/-- The trace map and the calls running on it. -/
structure World where
  traceMap : TraceMap
  calls : List Call

namespace World

/-- The map `m` and the calls `calls`, each with its trace ID and what it adds, none of them
past its `Load`. -/
def start (m : TraceMap) (calls : List (String × Adder)) : World :=
  ⟨m, calls.map fun (traceID, a) => ⟨traceID, a, .load⟩⟩

/-- Call `i` takes its next atomic step: its `Load`, or its `Store`. A step of a call that
has returned, or of no call, changes nothing. -/
def step (w : World) (i : Nat) : World :=
  match w.calls[i]? with
  | some ⟨traceID, a, .load⟩ =>
    { w with calls := w.calls.set i ⟨traceID, a, .store (w.traceMap traceID)⟩ }
  | some ⟨traceID, a, .store loaded⟩ =>
    ⟨w.traceMap.store traceID (a.stored loaded), w.calls.set i ⟨traceID, a, .done⟩⟩
  | _ => w

/-- The world after the steps a schedule picks, in order. -/
def run (w : World) (sched : List Nat) : World :=
  sched.foldl step w

@[simp] theorem run_nil (w : World) : w.run [] = w := rfl

@[simp] theorem run_cons (w : World) (i : Nat) (sched : List Nat) :
    w.run (i :: sched) = (w.step i).run sched := rfl

theorem run_append (w : World) (s₁ s₂ : List Nat) :
    w.run (s₁ ++ s₂) = (w.run s₁).run s₂ :=
  List.foldl_append _ _ _ _

/-- The two steps of a call run back to back are the call run alone. -/
theorem step_step_load {w : World} {i : Nat} {c : Call} (hc : w.calls[i]? = some c)
    (hload : c.phase = .load) :
    (w.step i).step i =
      ⟨w.traceMap.store c.traceID (c.adder.stored (w.traceMap c.traceID)),
        w.calls.set i { c with phase := .done }⟩ := by
  obtain ⟨traceID, a, phase⟩ := c
  subst hload
  have hi : i < w.calls.length := (List.getElem?_eq_some_iff.mp hc).1
  simp [step, hc, List.getElem?_set_self hi]

/-- Calls that each run their `Load` and `Store` back to back, one call after another, are the
atomic calls run in that order: on serial schedules the interleaved model refines the atomic
one. -/
theorem run_serial {w : World} {ids : List Nat} (hnd : ids.Nodup)
    (hload : ∀ i ∈ ids, ∃ c, w.calls[i]? = some c ∧ c.phase = .load) :
    (w.run (ids.flatMap fun i => [i, i])).traceMap =
      (ids.filterMap fun i => w.calls[i]?).foldl
        (fun m c => m.store c.traceID (c.adder.stored (m c.traceID))) w.traceMap := by
  induction ids generalizing w with
  | nil => rfl
  | cons i ids ih =>
    obtain ⟨c, hc, hph⟩ := hload i (.head _)
    obtain ⟨hi, hnd⟩ := List.nodup_cons.mp hnd
    have hcalls : ∀ j ∈ ids, (w.calls.set i { c with phase := .done })[j]? = w.calls[j]? :=
      fun j hj => List.getElem?_set_ne (ne_of_mem_of_not_mem hj hi).symm
    rw [List.flatMap_cons, run_append, show w.run [i, i] = (w.step i).step i from rfl,
      step_step_load hc hph, ih hnd fun j hj => (hcalls j hj).symm ▸ hload j (.tail _ hj),
      List.filterMap_cons, hc, List.foldl_cons, List.filterMap_congr hcalls]

/-- The pairs of a trace after atomic calls run in order: what it held, and what every call
on it adds. -/
private theorem mem_getTraceData_foldl_store (cs : List Call) (m : TraceMap) (t : String)
    (kv : KeyValue) :
    kv ∈ getTraceData (cs.foldl
        (fun m c => m.store c.traceID (c.adder.stored (m c.traceID))) m) t ↔
      kv ∈ getTraceData m t ∨ ∃ c ∈ cs, c.traceID = t ∧ kv ∈ c.adder.pairs := by
  induction cs generalizing m with
  | nil => simp
  | cons c cs ih =>
    rw [List.foldl_cons, ih, mem_getTraceData_store_stored]
    constructor
    · rintro ((h | ⟨rfl, h⟩) | ⟨c', hc', h⟩)
      · exact .inl h
      · exact .inr ⟨c, .head _, rfl, h⟩
      · exact .inr ⟨c', .tail _ hc', h⟩
    · rintro (h | ⟨c', hc', h⟩)
      · exact .inl (.inl h)
      · rcases List.mem_cons.mp hc' with rfl | hc'
        · exact .inl (.inr ⟨h.1.symm, h.2⟩)
        · exact .inr ⟨c', hc', h⟩

/-- Calls that each run their `Load` and `Store` back to back, one call after another, lose
nothing: every trace keeps what it held and gains every pair of every call on it. -/
theorem mem_getTraceData_run_serial {w : World} {ids : List Nat} (hnd : ids.Nodup)
    (hload : ∀ i ∈ ids, ∃ c, w.calls[i]? = some c ∧ c.phase = .load) (t : String)
    (kv : KeyValue) :
    kv ∈ getTraceData (w.run (ids.flatMap fun i => [i, i])).traceMap t ↔
      kv ∈ getTraceData w.traceMap t ∨
        ∃ i ∈ ids, ∃ c, w.calls[i]? = some c ∧ c.traceID = t ∧ kv ∈ c.adder.pairs := by
  rw [run_serial hnd hload, mem_getTraceData_foldl_store]
  simp only [List.mem_filterMap]
  constructor
  · rintro (h | ⟨c, ⟨i, hi, hc⟩, h⟩)
    · exact .inl h
    · exact .inr ⟨i, hi, c, hc, h⟩
  · rintro (h | ⟨i, hi, c, hc, h⟩)
    · exact .inl h
    · exact .inr ⟨c, ⟨i, hi, hc⟩, h⟩

private theorem filterMap_getElem?_range {α : Type} (l : List α) :
    (List.range l.length).filterMap (fun i => l[i]?) = l := by
  rw [← List.map_coe_finRange, List.filterMap_map]
  conv_rhs => rw [← List.finRange_map_get l]
  rw [← List.filterMap_eq_map]
  congr 1
  funext i
  simp

/-- Run one after another, in the order they were started, calls on one trace are the calls
of `Adder.addToTrace` made in that order. -/
theorem start_run_serial (m : TraceMap) (traceID : String) (hasSpan : Bool)
    (adds : List Adder) :
    ((start m (adds.map fun a => (traceID, a))).run
        ((List.range adds.length).flatMap fun i => [i, i])).traceMap =
      adds.foldl (fun m a => a.addToTrace m (some ⟨some traceID, hasSpan⟩)) m := by
  have hcalls : (start m (adds.map fun a => (traceID, a))).calls =
      adds.map fun a => ⟨traceID, a, .load⟩ := by
    simp [start, Function.comp_def]
  have hlen : adds.length = (start m (adds.map fun a => (traceID, a))).calls.length := by
    simp [hcalls]
  rw [hlen, run_serial (List.nodup_range _), filterMap_getElem?_range, hcalls, List.foldl_map]
  · rfl
  · intro i hi
    obtain ⟨c, hc⟩ : ∃ c, (start m (adds.map fun a => (traceID, a))).calls[i]? = some c :=
      ⟨_, List.getElem?_eq_getElem (List.mem_range.mp hi)⟩
    have hmem := List.getElem?_mem hc
    rw [hcalls] at hmem
    obtain ⟨a, -, rfl⟩ := List.mem_map.mp hmem
    exact ⟨_, hc, rfl⟩

-- ----------------------------------------------------------------------------
-- What every interleaving keeps
-- ----------------------------------------------------------------------------

/-- Where a pair found under trace `t` can come from: the map the calls started from, or a
call on `t`. -/
def Origin (w₀ : World) (t : String) (kv : KeyValue) : Prop :=
  kv ∈ getTraceData w₀.traceMap t ∨ ∃ c ∈ w₀.calls, c.traceID = t ∧ kv ∈ c.adder.pairs

/-- What every world reached from `w₀` keeps: its calls are calls of `w₀`, and every pair in
the map, or held by a call between its `Load` and its `Store`, comes from `w₀`. -/
structure Sound (w₀ w : World) : Prop where
  calls : ∀ c ∈ w.calls, ∃ c₀ ∈ w₀.calls, c₀.traceID = c.traceID ∧ c₀.adder = c.adder
  traceMap : ∀ t, ∀ kv ∈ getTraceData w.traceMap t, w₀.Origin t kv
  loaded : ∀ c ∈ w.calls, ∀ loaded, c.phase = .store loaded →
    ∀ kv ∈ loaded.getD [], w₀.Origin c.traceID kv

theorem Sound.start (m : TraceMap) (calls : List (String × Adder)) :
    (start m calls).Sound (start m calls) where
  calls c hc := ⟨c, hc, rfl, rfl⟩
  traceMap _ _ hkv := .inl hkv
  loaded c hc loaded hph := by
    obtain ⟨_, -, rfl⟩ := List.mem_map.mp hc
    cases hph

/-- A step keeps `Sound`: a `Load` holds what the map holds, and a `Store` writes what its
call loaded and the call's own pairs. -/
theorem Sound.step {w₀ w : World} (h : w₀.Sound w) (i : Nat) : w₀.Sound (w.step i) := by
  unfold World.step
  split
  · rename_i traceID a hc
    have hmem := List.getElem?_mem hc
    refine ⟨fun c hc' => ?_, h.traceMap, fun c hc' loaded hph kv hkv => ?_⟩
    · rcases List.mem_or_eq_of_mem_set hc' with hc' | rfl
      · exact h.calls c hc'
      · exact h.calls ⟨traceID, a, .load⟩ hmem
    · rcases List.mem_or_eq_of_mem_set hc' with hc' | rfl
      · exact h.loaded c hc' loaded hph kv hkv
      · cases hph
        exact h.traceMap traceID kv hkv
  · rename_i traceID a loaded hc
    have hmem := List.getElem?_mem hc
    refine ⟨fun c hc' => ?_, fun t kv hkv => ?_, fun c hc' loaded' hph => ?_⟩
    · rcases List.mem_or_eq_of_mem_set hc' with hc' | rfl
      · exact h.calls c hc'
      · exact h.calls ⟨traceID, a, .store loaded⟩ hmem
    · by_cases ht : t = traceID
      · subst ht
        have hkv : kv ∈ a.stored loaded := by simpa [getTraceData] using hkv
        rcases (Adder.mem_stored a loaded kv).mp hkv with hkv | hkv
        · exact h.loaded _ hmem loaded rfl kv hkv
        · obtain ⟨c₀, hc₀, hid, had⟩ := h.calls _ hmem
          exact .inr ⟨c₀, hc₀, hid, had ▸ hkv⟩
      · exact h.traceMap t kv (by simpa [getTraceData, ht] using hkv)
    · rcases List.mem_or_eq_of_mem_set hc' with hc' | rfl
      · exact h.loaded c hc' loaded' hph
      · cases hph
  · exact h

theorem Sound.run {w₀ w : World} (h : w₀.Sound w) (sched : List Nat) :
    w₀.Sound (w.run sched) := by
  induction sched generalizing w with
  | nil => exact h
  | cons i sched ih => exact ih (h.step i)

/-- A step of calls on other traces leaves trace `t` alone, and its calls stay on other
traces. -/
theorem step_of_ne {w : World} {t : String} (h : ∀ c ∈ w.calls, c.traceID ≠ t) (i : Nat) :
    (∀ c ∈ (w.step i).calls, c.traceID ≠ t) ∧ (w.step i).traceMap t = w.traceMap t := by
  unfold World.step
  split
  · rename_i traceID a hc
    refine ⟨fun c hc' => ?_, rfl⟩
    rcases List.mem_or_eq_of_mem_set hc' with hc' | rfl
    · exact h c hc'
    · exact h ⟨traceID, a, .load⟩ (List.getElem?_mem hc)
  · rename_i traceID a loaded hc
    have hne : traceID ≠ t := h _ (List.getElem?_mem hc)
    refine ⟨fun c hc' => ?_, by simp [Ne.symm hne]⟩
    rcases List.mem_or_eq_of_mem_set hc' with hc' | rfl
    · exact h c hc'
    · exact hne
  · exact ⟨h, rfl⟩

/-- Calls on other traces leave trace `t` alone, whatever the schedule. -/
theorem run_traceMap_of_ne {w : World} {t : String} (h : ∀ c ∈ w.calls, c.traceID ≠ t)
    (sched : List Nat) : (w.run sched).traceMap t = w.traceMap t := by
  induction sched generalizing w with
  | nil => rfl
  | cons i sched ih =>
    obtain ⟨hcalls, hmap⟩ := step_of_ne h i
    rw [run_cons, ih hcalls, hmap]

-- ----------------------------------------------------------------------------
-- Calls on different traces do not interfere
-- ----------------------------------------------------------------------------

/-- A step of call `i` changes no other call. -/
theorem step_getElem?_of_ne (w : World) {i j : Nat} (hij : i ≠ j) :
    (w.step i).calls[j]? = w.calls[j]? := by
  unfold World.step
  split <;> simp [List.getElem?_set_ne hij]

/-- No step changes the trace of a call. -/
theorem step_getElem?_traceID (w : World) (i j : Nat) :
    (w.step i).calls[j]?.map Call.traceID = w.calls[j]?.map Call.traceID := by
  by_cases hij : i = j
  · subst hij
    unfold World.step
    split <;> simp_all [List.getElem?_set_self']
  · rw [step_getElem?_of_ne w hij]

/-- A step of a call on another trace leaves trace `u` alone. -/
theorem step_traceMap_of_ne (w : World) {i : Nat} {u : String}
    (h : w.calls[i]?.map Call.traceID ≠ some u) : (w.step i).traceMap u = w.traceMap u := by
  unfold World.step
  split
  · rfl
  · rename_i traceID a loaded hc
    have hne : traceID ≠ u := fun he => h (by simp [hc, he])
    simp [Ne.symm hne]
  · rfl

/-- A step of call `c` depends only on `c` and on what the map holds for its trace. -/
theorem step_congr {w₁ w₂ : World} {i : Nat} {c : Call} (h₁ : w₁.calls[i]? = some c)
    (h₂ : w₂.calls[i]? = some c) (hm : w₁.traceMap c.traceID = w₂.traceMap c.traceID) :
    (w₁.step i).calls[i]? = (w₂.step i).calls[i]? ∧
      (w₁.step i).traceMap c.traceID = (w₂.step i).traceMap c.traceID := by
  have hi₁ : i < w₁.calls.length := (List.getElem?_eq_some_iff.mp h₁).1
  have hi₂ : i < w₂.calls.length := (List.getElem?_eq_some_iff.mp h₂).1
  obtain ⟨traceID, a, phase⟩ := c
  cases phase <;> simp_all [World.step, List.getElem?_set_self]

/-- Two worlds that agree on the data of trace `t` and on every call on `t`. -/
structure AgreeOn (t : String) (w₁ w₂ : World) : Prop where
  traceMap : w₁.traceMap t = w₂.traceMap t
  calls : ∀ (j : Nat) (c : Call), w₁.calls[j]? = some c → c.traceID = t → w₂.calls[j]? = some c

/-- A step of a call on `t`, taken in both worlds, keeps them in agreement. -/
theorem AgreeOn.step_both {t : String} {w₁ w₂ : World} (h : AgreeOn t w₁ w₂) {i : Nat}
    (hi : w₁.calls[i]?.map Call.traceID = some t) : AgreeOn t (w₁.step i) (w₂.step i) := by
  obtain ⟨c, hc, hct⟩ := Option.map_eq_some'.mp hi
  obtain ⟨hcalls, hmap⟩ := step_congr hc (h.calls i c hc hct) (hct ▸ h.traceMap)
  refine ⟨hct ▸ hmap, fun j c' hj hct' => ?_⟩
  by_cases hij : i = j
  · subst hij
    rwa [← hcalls]
  · rw [step_getElem?_of_ne _ hij] at hj ⊢
    exact h.calls j c' hj hct'

/-- A step of a call on another trace, taken in the first world only, keeps them in
agreement. -/
theorem AgreeOn.step_left {t : String} {w₁ w₂ : World} (h : AgreeOn t w₁ w₂) {i : Nat}
    (hi : w₁.calls[i]?.map Call.traceID ≠ some t) : AgreeOn t (w₁.step i) w₂ := by
  refine ⟨(step_traceMap_of_ne w₁ hi).trans h.traceMap, fun j c hj hct => ?_⟩
  by_cases hij : i = j
  · subst hij
    rw [← step_getElem?_traceID w₁ i i, hj] at hi
    exact absurd (by rw [Option.map_some', hct]) hi
  · rw [step_getElem?_of_ne _ hij] at hj
    exact h.calls j c hj hct

theorem AgreeOn.run {t : String} (w : World) (sched : List Nat) {w₁ w₂ : World}
    (h : AgreeOn t w₁ w₂)
    (hid : ∀ j : Nat, w₁.calls[j]?.map Call.traceID = w.calls[j]?.map Call.traceID) :
    AgreeOn t (w₁.run sched)
      (w₂.run (sched.filter fun i => w.calls[i]?.map Call.traceID = some t)) := by
  induction sched generalizing w₁ w₂ with
  | nil => exact h
  | cons i sched ih =>
    have hid' : ∀ j : Nat,
        (w₁.step i).calls[j]?.map Call.traceID = w.calls[j]?.map Call.traceID :=
      fun j => (step_getElem?_traceID w₁ i j).trans (hid j)
    by_cases hi : w.calls[i]?.map Call.traceID = some t
    · rw [List.filter_cons_of_pos (by simpa using hi)]
      exact ih (h.step_both ((hid i).trans hi)) hid'
    · rw [List.filter_cons_of_neg (by simpa using hi)]
      exact ih (h.step_left ((hid i).trans_ne hi)) hid'

/-- Calls on different traces do not interfere: whatever the interleaving, the data of a
trace is what the steps of the calls on that trace alone, taken in the same order, leave. -/
theorem run_traceMap_eq_filter (w : World) (sched : List Nat) (t : String) :
    (w.run sched).traceMap t =
      (w.run (sched.filter fun i => w.calls[i]?.map Call.traceID = some t)).traceMap t :=
  (AgreeOn.run w sched ⟨rfl, fun _ _ hj _ => hj⟩ fun _ => rfl).traceMap

/-- Atomic calls all on trace `t` are the calls of `Adder.addToTrace` in a context of `t`. -/
theorem foldl_store_eq_foldl_addToTrace {t : String} (hasSpan : Bool) :
    ∀ {cs : List Call}, (∀ c ∈ cs, c.traceID = t) → ∀ m : TraceMap,
      cs.foldl (fun m c => m.store c.traceID (c.adder.stored (m c.traceID))) m =
        (cs.map Call.adder).foldl (fun m a => a.addToTrace m (some ⟨some t, hasSpan⟩)) m
  | [], _, _ => rfl
  | c :: cs, h, m => by
    rw [List.foldl_cons, List.map_cons, List.foldl_cons, h c (.head _)]
    exact foldl_store_eq_foldl_addToTrace hasSpan (fun c' hc' => h c' (.tail _ hc')) _

/-- On a trace whose calls run one after another, each `Load` followed by its own `Store`,
the data is what those calls, made atomically in that order, leave, however the steps of
calls on other traces fall between them: what the code's `AddKeyValueToTrace` and
`AddInterfaceToTrace` calls that add the same pairs leave, run one after another in a context
of the trace. -/
theorem run_traceMap_of_serial_on_trace {w : World} {sched ids : List Nat} {t : String}
    (hnd : ids.Nodup) (hload : ∀ i ∈ ids, ∃ c, w.calls[i]? = some c ∧ c.phase = .load)
    (hsched : sched.filter (fun i => w.calls[i]?.map Call.traceID = some t) =
      ids.flatMap fun i => [i, i]) :
    (w.run sched).traceMap t =
      (ids.filterMap fun i => w.calls[i]?).foldl
        (fun m c => m.store c.traceID (c.adder.stored (m c.traceID))) w.traceMap t ∧
    ∀ (fmtV : GoValue → String) (fuel : Nat) (calls : List TraceCall) (hasSpan : Bool),
      calls.mapM (TraceCall.adder fmtV fuel) =
          some ((ids.filterMap fun i => w.calls[i]?).map Call.adder) →
        (calls.foldlM (fun (m : TraceMap) (c : TraceCall) => c.run fmtV fuel m
          (some ⟨some t, hasSpan⟩)) w.traceMap).map (· t) = some ((w.run sched).traceMap t) := by
  have hrun : (w.run sched).traceMap t = (ids.filterMap fun i => w.calls[i]?).foldl
      (fun m c => m.store c.traceID (c.adder.stored (m c.traceID))) w.traceMap t := by
    rw [(AgreeOn.run w sched ⟨rfl, fun _ _ hj _ => hj⟩ fun _ => rfl).traceMap, hsched,
      run_serial hnd hload]
  refine ⟨hrun, fun fmtV fuel calls hasSpan hcalls => ?_⟩
  have hon : ∀ c ∈ ids.filterMap (fun i => w.calls[i]?), c.traceID = t := by
    intro c hc
    obtain ⟨i, hi, hci⟩ := List.mem_filterMap.mp hc
    have hmem : i ∈ sched.filter fun i => w.calls[i]?.map Call.traceID = some t := by
      rw [hsched]
      exact List.mem_flatMap.mpr ⟨i, hi, .head _⟩
    simpa [hci] using (List.mem_filter.mp hmem).2
  rw [TraceCall.foldlM_run fmtV fuel hcalls, hrun, foldl_store_eq_foldl_addToTrace hasSpan hon]
  rfl

/-- Three calls started on an empty map, two on trace `a` and one on trace `b`: the call on
`b` loads before the calls on `a` and stores between them. -/
def twoTraces : World :=
  start TraceMap.empty [("a", .keyValue ⟨"x", .bool true⟩), ("b", .keyValue ⟨"y", .bool true⟩),
    ("a", .interface [⟨"z", .bool false⟩])]

theorem run_traceMap_of_serial_on_trace_two_traces :
    [0, 2].Nodup ∧ (∀ i ∈ [0, 2], ∃ c, twoTraces.calls[i]? = some c ∧ c.phase = .load) ∧
      [1, 0, 0, 1, 2, 2].filter (fun i => twoTraces.calls[i]?.map Call.traceID = some "a") =
        [0, 2].flatMap (fun i => [i, i]) ∧
      ((twoTraces.run [1, 0, 0, 1, 2, 2]).traceMap "a" =
        ([0, 2].filterMap fun i => twoTraces.calls[i]?).foldl
          (fun m c => m.store c.traceID (c.adder.stored (m c.traceID))) twoTraces.traceMap "a" ∧
      ∀ (fmtV : GoValue → String) (fuel : Nat) (calls : List TraceCall) (hasSpan : Bool),
        calls.mapM (TraceCall.adder fmtV fuel) =
            some (([0, 2].filterMap fun i => twoTraces.calls[i]?).map Call.adder) →
          (calls.foldlM (fun (m : TraceMap) (c : TraceCall) => c.run fmtV fuel m
            (some ⟨some "a", hasSpan⟩)) twoTraces.traceMap).map (· "a") =
            some ((twoTraces.run [1, 0, 0, 1, 2, 2]).traceMap "a")) :=
  have hload : ∀ i ∈ [0, 2], ∃ c, twoTraces.calls[i]? = some c ∧ c.phase = .load := by
    intro i hi
    rcases List.mem_pair.mp hi with rfl | rfl <;> exact ⟨_, rfl, rfl⟩
  have hsched : [1, 0, 0, 1, 2, 2].filter
      (fun i => twoTraces.calls[i]?.map Call.traceID = some "a") = [0, 2].flatMap fun i => [i, i] :=
    by decide
  ⟨by decide, hload, hsched, run_traceMap_of_serial_on_trace (by decide) hload hsched⟩

/-- No interleaving invents a pair: whatever the schedule, the data of a trace holds only
pairs it held before the calls, or that a call on that trace adds. -/
theorem mem_getTraceData_run_start (m : TraceMap) (calls : List (String × Adder))
    (sched : List Nat) (t : String) (kv : KeyValue)
    (hkv : kv ∈ getTraceData ((start m calls).run sched).traceMap t) :
    kv ∈ getTraceData m t ∨ ∃ p ∈ calls, p.1 = t ∧ kv ∈ p.2.pairs := by
  rcases ((Sound.start m calls).run sched).traceMap t kv hkv with h | ⟨c, hc, hid, hpairs⟩
  · exact .inl h
  · obtain ⟨p, hp, rfl⟩ := List.mem_map.mp hc
    exact .inr ⟨p, hp, hid, hpairs⟩

-- ----------------------------------------------------------------------------
-- Calls on a trace that do not overlap
-- ----------------------------------------------------------------------------

/-- No two calls on one trace are between their `Load` and their `Store` at once: the calls
on each trace run one at a time, as when one goroutine makes them. -/
def Exclusive (w : World) : Prop :=
  ∀ i (hi : i < w.calls.length) j (hj : j < w.calls.length), i ≠ j →
    w.calls[i].traceID = w.calls[j].traceID → w.calls[i].phase.pending = true →
      w.calls[j].phase.pending = false

instance (w : World) : Decidable w.Exclusive :=
  inferInstanceAs (Decidable (∀ i (hi : i < w.calls.length) j (hj : j < w.calls.length),
    i ≠ j → w.calls[i].traceID = w.calls[j].traceID → w.calls[i].phase.pending = true →
      w.calls[j].phase.pending = false))

/-- What no step breaks while the calls on each trace do not overlap: a call between its
`Load` and its `Store` holds what the map holds for its trace, and the pairs of a call that
has returned are in its trace's data. -/
structure Intact (w : World) : Prop where
  fresh : ∀ (j : Nat) (c : Call), w.calls[j]? = some c → ∀ loaded, c.phase = .store loaded →
    loaded = w.traceMap c.traceID
  returned : ∀ c ∈ w.calls, c.phase = .done → ∀ kv ∈ c.adder.pairs,
    kv ∈ getTraceData w.traceMap c.traceID

theorem Intact.start (m : TraceMap) (calls : List (String × Adder)) :
    (start m calls).Intact where
  fresh j c hj loaded hph := by
    obtain ⟨_, -, rfl⟩ := List.mem_map.mp (List.getElem?_mem hj)
    cases hph
  returned c hc hph := by
    obtain ⟨_, -, rfl⟩ := List.mem_map.mp hc
    cases hph

/-- A step from a state where no two calls on a trace overlap keeps `Intact`, and the data of
every trace only grows: a `Store` writes its trace's current data with its call's pairs. -/
theorem Intact.step {w : World} (h : w.Intact) (hex : w.Exclusive) (i : Nat) :
    (w.step i).Intact ∧ ∀ t, ∀ kv ∈ getTraceData w.traceMap t,
      kv ∈ getTraceData (w.step i).traceMap t := by
  unfold World.step
  split
  · rename_i traceID a hc
    refine ⟨⟨fun j c hj loaded hph => ?_, fun c hc' hph => ?_⟩, fun _ _ hkv => hkv⟩
    · rw [List.getElem?_set] at hj
      split_ifs at hj with hij
      · cases hj; cases hph; rfl
      · exact h.fresh j c hj loaded hph
    · rcases List.mem_or_eq_of_mem_set hc' with hc' | rfl
      · exact h.returned c hc' hph
      · cases hph
  · rename_i traceID a loaded hc
    obtain rfl : loaded = w.traceMap traceID := h.fresh i _ hc loaded rfl
    have hgrow : ∀ t, ∀ kv ∈ getTraceData w.traceMap t,
        kv ∈ getTraceData (w.traceMap.store traceID (a.stored (w.traceMap traceID))) t :=
      fun t kv hkv => (mem_getTraceData_store_stored _ _ _ _ _).mpr (.inl hkv)
    refine ⟨⟨fun j c hj loaded' hph => ?_, fun c hc' hph kv hkv => ?_⟩, hgrow⟩
    · rw [List.getElem?_set] at hj
      split_ifs at hj with hij
      · cases hj; cases hph
      · obtain ⟨hi, hci⟩ := List.getElem?_eq_some_iff.mp hc
        obtain ⟨hj', hcj⟩ := List.getElem?_eq_some_iff.mp hj
        have hne : c.traceID ≠ traceID := fun heq => by
          have := hex i hi j hj' hij (by rw [hci, hcj, heq]) (by rw [hci]; rfl)
          rw [hcj, hph] at this
          simp [Phase.pending] at this
        rw [h.fresh j c hj loaded' hph]
        simp [hne]
    · rcases List.mem_or_eq_of_mem_set hc' with hc' | rfl
      · exact hgrow _ kv (h.returned c hc' hph kv hkv)
      · exact (mem_getTraceData_store_stored _ _ _ _ _).mpr (.inr ⟨rfl, hkv⟩)
  · exact ⟨h, fun _ _ hkv => hkv⟩

theorem Intact.run {w : World} (h : w.Intact) (sched : List Nat)
    (hex : ∀ n, (w.run (sched.take n)).Exclusive) :
    (w.run sched).Intact ∧ ∀ t, ∀ kv ∈ getTraceData w.traceMap t,
      kv ∈ getTraceData (w.run sched).traceMap t := by
  induction sched generalizing w with
  | nil => exact ⟨h, fun _ _ hkv => hkv⟩
  | cons i sched ih =>
    obtain ⟨h', hgrow⟩ := h.step (hex 0) i
    obtain ⟨h'', hgrow'⟩ := ih h' fun n => hex (n + 1)
    exact ⟨h'', fun t kv hkv => hgrow' t kv (hgrow t kv hkv)⟩

/-- When the calls on each trace do not overlap, whatever the interleaving of calls on
different traces, no update is lost: the data of a trace keeps all it held before the calls,
and every pair of every call on it that has returned. -/
theorem run_no_lost_update (m : TraceMap) (calls : List (String × Adder)) (sched : List Nat)
    (hex : ∀ n, ((start m calls).run (sched.take n)).Exclusive) (t : String) :
    (∀ kv ∈ getTraceData m t, kv ∈ getTraceData ((start m calls).run sched).traceMap t) ∧
      ∀ c ∈ ((start m calls).run sched).calls, c.traceID = t → c.phase = .done →
        ∀ kv ∈ c.adder.pairs, kv ∈ getTraceData ((start m calls).run sched).traceMap t := by
  obtain ⟨h, hgrow⟩ := (Intact.start m calls).run sched hex
  exact ⟨hgrow t, fun c hc ht hph => ht ▸ h.returned c hc hph⟩

theorem run_no_lost_update_two_traces :
    (∀ kv ∈ getTraceData TraceMap.empty "a", kv ∈ getTraceData ((start TraceMap.empty
        [("a", .keyValue ⟨"x", .bool true⟩), ("b", .keyValue ⟨"y", .bool true⟩)]).run
          [0, 1, 0, 1]).traceMap "a") ∧
      ∀ c ∈ ((start TraceMap.empty [("a", .keyValue ⟨"x", .bool true⟩),
          ("b", .keyValue ⟨"y", .bool true⟩)]).run [0, 1, 0, 1]).calls,
        c.traceID = "a" → c.phase = .done → ∀ kv ∈ c.adder.pairs,
          kv ∈ getTraceData ((start TraceMap.empty [("a", .keyValue ⟨"x", .bool true⟩),
            ("b", .keyValue ⟨"y", .bool true⟩)]).run [0, 1, 0, 1]).traceMap "a" :=
  run_no_lost_update _ _ _ (fun n => match n with
    | 0 | 1 | 2 | 3 => by decide
    | n + 4 => by rw [List.take_of_length_le (by simp)]; decide) "a"

end World

/-- Two `AddKeyValueToTrace` calls on one trace, both `Load`s before both `Store`s: both
return, and the trace keeps only the pair of the call that stored last. Run one after the
other, the same calls keep both pairs, as calls on a trace that do not overlap always do. -/
theorem getTraceData_after_racing_adds (t : String) (kv₁ kv₂ : KeyValue) :
    ((World.start TraceMap.empty [(t, .keyValue kv₁), (t, .keyValue kv₂)]).run
        [0, 1, 0, 1]).calls = [⟨t, .keyValue kv₁, .done⟩, ⟨t, .keyValue kv₂, .done⟩] ∧
      getTraceData ((World.start TraceMap.empty [(t, .keyValue kv₁), (t, .keyValue kv₂)]).run
        [0, 1, 0, 1]).traceMap t = [kv₂] ∧
      ∀ kv, kv ∈ getTraceData ((World.start TraceMap.empty
          [(t, .keyValue kv₁), (t, .keyValue kv₂)]).run [0, 0, 1, 1]).traceMap t ↔
        kv = kv₁ ∨ kv = kv₂ := by
  refine ⟨by simp [World.start, World.step], by simp [World.start, World.step, getTraceData,
    Adder.stored], fun kv => ?_⟩
  have hload : ∀ i ∈ [0, 1], ∃ c, (World.start TraceMap.empty
      [(t, .keyValue kv₁), (t, .keyValue kv₂)]).calls[i]? = some c ∧ c.phase = .load := by
    intro i hi
    rcases List.mem_pair.mp hi with rfl | rfl <;> exact ⟨_, rfl, rfl⟩
  rw [show [0, 0, 1, 1] = [0, 1].flatMap fun i => [i, i] from rfl,
    World.mem_getTraceData_run_serial (by decide) hload]
  simp [World.start, getTraceData, Adder.pairs]

end PrebidService.Tracing
