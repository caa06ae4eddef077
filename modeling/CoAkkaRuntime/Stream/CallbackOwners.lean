import CoAkkaRuntime.Dictionary.Basic
import CoAkkaRuntime.Models
import CoAkkaRuntime.Throwing.Exec
import CoAkkaRuntime.Transition.System

/-!
# Stream — `StreamCallbackOwners`

The ownership table of `StreamCallbackOwners.swift`. `Entry` objects are shared by reference, so
they live in a heap, and the dictionary and the chains through `previous` hold their addresses,
which are positions in the heap. The heap only grows: an address names one entry for good.

The two closures `admit` takes are represented by what they answer. A pruning pass asks
`presence` at most once per stored key, so the answers of a pass are a function of the key; the two
passes of one `admit` have a function each. `call` either returns a status or throws.

* `StreamCallbackOwners` — the table with its limit; `Mutation` adds the list of retired entries.
* `prune`, `publish`, `settle` — the parts of `admit`, and `admitRoot` the whole method.
* `forget`, `detach` — the other two methods.
* `callbackSystem` — the histories of one lane, with any answers of Core.
-/

namespace CoAkka.Stream

open Throwing

inductive StreamDirection where
  | publish
  | subscribe
  deriving DecidableEq, Repr

/-- The key of a table, over the session ids that are in use. Which keys are one is not for this
structure to say: a table compares its keys through an `ident`. -/
structure StreamCallbackKey (ID : Type) where
  id : ID
  direction : StreamDirection
  deriving DecidableEq, Repr

/-- What a table holds for a key: the callback's root, the entry it replaces while the outcome of
its admission is open, and that outcome. -/
structure Entry (Root : Type) where
  root : Root
  previous : Option Nat
  status : Option Int32
  deriving DecidableEq, Repr

/-- The owners: keys are compared through `ident`. -/
structure StreamCallbackOwners {K I : Type} (ident : K → I) (Root : Type) where
  limit : Nat
  entries : Dictionary ident Nat
  heap : List (Entry Root)

section Methods

variable {K I Root : Type} {ident : K → I}

namespace StreamCallbackOwners

def init (capacity : Int) : Except RuntimeError (StreamCallbackOwners ident Root) :=
  if 0 < capacity ∧ capacity < 2 ^ 63 - 1 then
    .ok { limit := (capacity + 1).toNat, entries := .empty, heap := [] }
  else
    .error (.contractViolation "Core returned an unrepresentable Stream callback capacity")

def status? (o : StreamCallbackOwners ident Root) (id : Nat) : Option Int32 :=
  o.heap[id]?.bind Entry.status

def previous? (o : StreamCallbackOwners ident Root) (id : Nat) : Option Nat :=
  o.heap[id]?.bind Entry.previous

def root? (o : StreamCallbackOwners ident Root) (id : Nat) : Option Root :=
  o.heap[id]?.map Entry.root

end StreamCallbackOwners

/-- What a callback mutation works on: the owners, and the `retired: inout` list whose entries the
caller releases. -/
structure Mutation {K I : Type} (ident : K → I) (Root : Type) where
  owners : StreamCallbackOwners ident Root
  retired : List Nat

/-- The local variables of `admit` across its `call()`. -/
structure Candidate (K : Type) where
  key : K
  entry : Nat
  previous : Option Nat

variable [DecidableEq I]

/-- `if let entry = entries.removeValue(forKey: key) { retired.append(entry) }`. -/
def Mutation.retire (m : Mutation ident Root) (key : K) : Mutation ident Root :=
  match m.owners.entries.get? key with
  | some entry =>
    { owners := { m.owners with entries := m.owners.entries.remove key }
      retired := m.retired ++ [entry] }
  | none => m

/-- The keys the first loop of `prune` appends to `retiredKeys`. -/
def absentKeys (o : StreamCallbackOwners ident Root) (presence : K → Int32) : List K :=
  (o.entries.pairs.filter fun p =>
    (o.status? p.2).isSome ∧ presence p.1 = Status.badState).map Prod.fst

def prune (presence : K → Int32) : StateM (Mutation ident Root) Unit := do
  let retiredKeys := absentKeys (← get).owners presence
  for key in retiredKeys do
    modify fun m => m.retire key

/-- `admit` up to its `call()`: the checks, and the publication of the candidate. -/
def publish (key : K) (root : Root) (presence : K → Int32) :
    ExceptT RuntimeError (StateM (Mutation ident Root)) (Candidate K) := do
  let owners := (← get).owners
  let previous := owners.entries.get? key
  if let some previous := previous then
    if owners.status? previous = none then
      throw (.contractViolation
        "Stream callback outcome unresolved; successful forget or close required")
  if previous = none ∧ owners.entries.count = owners.limit then
    (prune presence : StateM (Mutation ident Root) Unit)
    let owners := (← get).owners
    if ¬ owners.entries.count < owners.limit then
      throw (.resourceLimit "Stream callback ownership storage exhausted")
  let owners := (← get).owners
  let candidate := owners.heap.length
  modify fun m => { m with owners := { owners with
    heap := owners.heap ++ [{ root, previous, status := none }]
    entries := owners.entries.set key candidate } }
  return { key, entry := candidate, previous }

/-- `admit` after its `call()` has returned `status`. -/
def settle (candidate : Candidate K) (status : Int32) (presence : K → Int32) :
    StateM (Mutation ident Root) Unit := do
  modify fun m => { m with owners := { m.owners with
    heap := m.owners.heap.modify candidate.entry fun entry => { entry with status := some status } } }
  if status ≠ 0 then
    modify fun m =>
      { owners := { m.owners with
          entries := match candidate.previous with
            | some previous => m.owners.entries.set candidate.key previous
            | none => m.owners.entries.remove candidate.key }
        retired := m.retired ++ [candidate.entry] }
  else
    modify fun m =>
      { owners := { m.owners with
          heap := m.owners.heap.modify candidate.entry fun entry => { entry with previous := none } }
        retired := m.retired ++ candidate.previous.toList }
    prune presence

/-- `admit`, with what `call()` returns or throws and the answers of the two pruning passes. -/
def admitRoot (key : K) (root : Root) (call : Except RuntimeError Int32)
    (presence presence' : K → Int32) :
    ExceptT RuntimeError (StateM (Mutation ident Root)) Int32 := do
  let candidate ← publish key root presence
  match call with
  | .error error => throw error
  | .ok status =>
    (settle candidate status presence' : StateM (Mutation ident Root) Unit)
    return status

def forget (key : K) : StateM (Mutation ident Root) Unit :=
  modify fun m => m.retire key

/-- `detach`, with the entries it hands out appended to those handed out before. -/
def detach : StateM (Mutation ident Root) Unit :=
  modify fun m =>
    { owners := { m.owners with entries := .empty }
      retired := m.retired ++ m.owners.entries.values }

/-! ## Histories

Mutations of one lane are serialised by its condition. `admit` is cut at its `call()`, so that the
state Core sees during the call is a state of the history. -/

/-- The owners, every entry handed to a caller so far, and the `admit` whose call is running. -/
structure CallbackState {K I : Type} (ident : K → I) (Root : Type) where
  owners : StreamCallbackOwners ident Root
  retired : List Nat
  pending : Option (Candidate K)

inductive CallbackEvent (K Root : Type) where
  | publish (key : K) (root : Root) (presence : K → Int32)
  | received (status : Int32) (presence : K → Int32)
  | unreceived
  | forget (key : K)
  | detach

namespace CallbackState

def mutation (s : CallbackState ident Root) : Mutation ident Root := ⟨s.owners, s.retired⟩

def after (m : Mutation ident Root) (pending : Option (Candidate K)) : CallbackState ident Root :=
  ⟨m.owners, m.retired, pending⟩

def step (s : CallbackState ident Root) :
    CallbackEvent K Root → Option (CallbackState ident Root)
  | .publish key root presence =>
    match s.pending, exec (publish key root presence) s.mutation with
    | some _, _ => none
    | none, (.ok candidate, m) => some (after m (some candidate))
    | none, (.error _, m) => some (after m none)
  | .received status presence =>
    s.pending.map fun candidate =>
      after ((settle candidate status presence).run s.mutation).2 none
  | .unreceived => s.pending.map fun _ => { s with pending := none }
  | .forget key =>
    if s.pending.isSome then none else some (after ((forget key).run s.mutation).2 none)
  | .detach => if s.pending.isSome then none else some (after (detach.run s.mutation).2 none)

end CallbackState

/-- Every history of owners that `init` accepted. -/
def callbackSystem {K I : Type} (ident : K → I) (Root : Type) [DecidableEq I] :
    Transition.System (CallbackState ident Root) (CallbackEvent K Root) where
  init s := ∃ capacity owners, StreamCallbackOwners.init capacity = .ok owners ∧
    s = ⟨owners, [], none⟩
  step s event s' := s.step event = some s'

/-- `admit` is its two halves with the call in between. -/
theorem exec_admitRoot (key : K) (root : Root) (call : Except RuntimeError Int32)
    (presence presence' : K → Int32) (m : Mutation ident Root) :
    exec (admitRoot key root call presence presence') m =
      match exec (publish key root presence) m, call with
      | (.error error, m'), _ => (.error error, m')
      | (.ok _, m'), .error error => (.error error, m')
      | (.ok candidate, m'), .ok status =>
        (.ok status, ((settle candidate status presence').run m').2) := by
  rw [admitRoot, exec_bind]
  obtain ⟨outcome, m'⟩ := exec (publish key root presence) m
  cases outcome with
  | error error => rfl
  | ok candidate => cases call <;> rfl

end Methods

end CoAkka.Stream
