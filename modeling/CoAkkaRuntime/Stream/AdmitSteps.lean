import CoAkkaRuntime.Stream.OwnersSpec
import CoAkkaRuntime.Throwing.Steps

/-!
# Stream — `StreamCallbackOwners`, statement by statement

`admit`, `forget` and `detach` once more, with every statement a step of its own: the scratch list
`retiredKeys`, the entries that only a local variable holds between two statements, and the calls of
Core are part of the state. What the programs leave is what the methods of `CallbackOwners` leave.

* `MutationFrame` — the state of a mutation with its local variables.
* `pruneSteps`, `storeSteps`, `publishSteps`, `settleSteps` — the parts of `admitSteps`, one program
  each.
* `run_admitSteps` — the program run to its end is `admitRoot`, for every answer of Core.

What is wanted of the intermediate states is proved in `RootsKept` (no root is lost between two
statements) and in `StorageBounds` (no array grows past its reserve).
-/

namespace CoAkka.Stream

open Throwing Steps

variable {K I Root : Type} {ident : K → I}

/-- The state of a callback mutation between two of its statements. -/
structure MutationFrame {K I : Type} (ident : K → I) (Root : Type) where
  owners : StreamCallbackOwners ident Root
  retiredKeys : List K
  /-- The caller's `retired` list. -/
  retired : List Nat
  /-- The entries a local variable holds for a later statement. -/
  locals : List Nat
  /-- How often `call()` has run. -/
  calls : Nat

def MutationFrame.mutation (f : MutationFrame ident Root) : Mutation ident Root :=
  ⟨f.owners, f.retired⟩

/-- The frame with the owners and the list of `m`. -/
def MutationFrame.put (f : MutationFrame ident Root) (m : Mutation ident Root) :
    MutationFrame ident Root :=
  { f with owners := m.owners, retired := m.retired }

/-- A frame between two operations. -/
def MutationFrame.idle (m : Mutation ident Root) : MutationFrame ident Root :=
  ⟨m.owners, [], m.retired, [], 0⟩

variable [DecidableEq I]

/-! ## The programs -/

/-- `if let entry = entries.removeValue(forKey: key) { retired.append(entry) }`. -/
def retireSteps (key : K) : Steps RuntimeError (MutationFrame ident Root) Unit := do
  match (← current).owners.entries.get? key with
  | some entry =>
    statement fun f => { f with
      owners := { f.owners with entries := f.owners.entries.remove key }
      locals := [entry] }
    statement fun f => { f with retired := f.retired ++ [entry], locals := [] }
  | none => pure ()

/-- One turn of the first loop of `prune`. -/
def collectSteps (presence : K → Int32) (p : K × Nat) :
    Steps RuntimeError (MutationFrame ident Root) Unit := do
  if ((← current).owners.status? p.2).isSome ∧ presence p.1 = Status.badState then
    statement fun f => { f with retiredKeys := f.retiredKeys ++ [p.1] }

def pruneSteps (presence : K → Int32) : Steps RuntimeError (MutationFrame ident Root) Unit := do
  statement fun f => { f with retiredKeys := [] }
  forEach (collectSteps presence) (← current).owners.entries.pairs
  -- the table is not changed while it is read: the absent keys are collected first
  forEach retireSteps (← current).retiredKeys
  statement fun f => { f with retiredKeys := [] }

/-- `let candidate = Entry(root, previous: previous); entries[key] = candidate`. -/
def storeSteps (key : K) (root : Root) (previous : Option Nat) :
    Steps RuntimeError (MutationFrame ident Root) (Candidate K) := do
  let candidate := (← current).owners.heap.length
  statement fun f => { f with
    owners := { f.owners with heap := f.owners.heap ++ [{ root, previous, status := none }] }
    locals := [candidate] }
  statement fun f => { f with
    owners := { f.owners with entries := f.owners.entries.set key candidate } }
  return { key, entry := candidate, previous }

/-- `admit` up to the publication of its candidate. -/
def publishSteps (key : K) (root : Root) (presence : K → Int32) :
    Steps RuntimeError (MutationFrame ident Root) (Candidate K) := do
  let owners := (← current).owners
  let previous := owners.entries.get? key
  if ∃ entry ∈ previous, owners.status? entry = none then
    throw (.contractViolation
      "Stream callback outcome unresolved; successful forget or close required")
  -- only a new key needs a place
  if previous = none ∧ owners.entries.count = owners.limit then
    pruneSteps presence
    let owners := (← current).owners
    if ¬ owners.entries.count < owners.limit then
      throw (.resourceLimit "Stream callback ownership storage exhausted")
  storeSteps key root previous

/-- `admit` once `call()` has returned `status`. -/
def settleSteps (candidate : Candidate K) (status : Int32) (presence : K → Int32) :
    Steps RuntimeError (MutationFrame ident Root) Unit := do
  statement fun f => { f with owners := { f.owners with
    heap := f.owners.heap.modify candidate.entry fun entry => { entry with status := some status } } }
  if status ≠ 0 then
    -- refused: the entry of before comes back, and the candidate is handed out
    statement fun f => { f with owners := { f.owners with
      entries := match candidate.previous with
        | some previous => f.owners.entries.set candidate.key previous
        | none => f.owners.entries.remove candidate.key } }
    statement fun f => { f with retired := f.retired ++ [candidate.entry], locals := [] }
  else
    -- accepted: what the candidate replaced is handed out before it is unchained
    statement fun f => { f with retired := f.retired ++ candidate.previous.toList }
    statement fun f => { f with
      owners := { f.owners with
        heap := f.owners.heap.modify candidate.entry fun entry => { entry with previous := none } }
      locals := [] }
    pruneSteps presence

def admitSteps (key : K) (root : Root) (call : Except RuntimeError Int32)
    (presence presence' : K → Int32) : Steps RuntimeError (MutationFrame ident Root) Int32 := do
  let candidate ← publishSteps key root presence
  statement fun f => { f with calls := f.calls + 1 }
  match call with
  | .error error =>
    -- the outcome stays unknown: the candidate is left where it is
    -- the local variables go out of scope
    statement fun f => { f with locals := [] }
    throw error
  | .ok status =>
    settleSteps candidate status presence'
    return status

omit [DecidableEq I] in
/-- `detach`, where `retired` stands for the table it returns. -/
def detachSteps : Steps RuntimeError (MutationFrame ident Root) Unit := do
  statement fun f => { f with retired := f.retired ++ f.owners.entries.values }
  statement fun f => { f with owners := { f.owners with entries := .empty } }

/-! ## What the programs leave

Each program, run to its end, is the method of the table that it spells out.
-/

section Run

variable {f : MutationFrame ident Root}

/-- The statements of each operation add up to its model. First the removal of one key. -/
theorem run_retireSteps (key : K) (hlocals : f.locals = []) :
    (retireSteps key).run f = (.ok (), f.put (f.mutation.retire key)) := by
  unfold retireSteps
  rw [run_current_bind]
  cases hget : f.owners.entries.get? key with
  | none =>
    rw [Mutation.retire_of_none (m := f.mutation) hget]
    rfl
  | some entry =>
    rw [Mutation.retire_of_some (m := f.mutation) hget]
    obtain ⟨owners, retiredKeys, retired, locals, calls⟩ := f
    obtain rfl : locals = [] := hlocals
    rfl

theorem run_retireAll (keys : List K) (hlocals : f.locals = []) :
    (forEach retireSteps keys).run f = (.ok (), f.put (keys.foldl Mutation.retire f.mutation)) := by
  induction keys generalizing f with
  | nil => rfl
  | cons key keys ih =>
    rw [forEach, run_bind_ok (run_retireSteps key hlocals)]
    exact ih (f := f.put (f.mutation.retire key)) hlocals

omit [DecidableEq I] in
/-- The first loop of a pass collects the absent keys. -/
theorem run_collectAll (presence : K → Int32) (ps : List (K × Nat)) :
    (forEach (collectSteps presence) ps).run f = (.ok (), { f with
      retiredKeys := f.retiredKeys ++ (ps.filter fun p =>
        (f.owners.status? p.2).isSome ∧ presence p.1 = Status.badState).map Prod.fst }) := by
  induction ps generalizing f with
  | nil =>
    rw [List.filter_nil, List.map_nil, List.append_nil]
    rfl
  | cons p ps ih =>
    by_cases habsent : (f.owners.status? p.2).isSome ∧ presence p.1 = Status.badState
    · have hrun : (collectSteps presence p).run f
          = (.ok (), { f with retiredKeys := f.retiredKeys ++ [p.1] }) := by
        rw [collectSteps, run_current_bind, if_pos habsent, run_statement]
      rw [forEach, run_bind_ok hrun, ih, List.filter_cons_of_pos (by simpa using habsent),
        List.map_cons, List.append_assoc]
      rfl
    · have hrun : (collectSteps presence p).run f = (.ok (), f) := by
        rw [collectSteps, run_current_bind, if_neg habsent, run_pure]
      rw [forEach, run_bind_ok hrun, ih, List.filter_cons_of_neg (by simpa using habsent)]

/-- The pass, which leaves its scratch list empty. -/
theorem run_pruneSteps (presence : K → Int32) (hlocals : f.locals = []) :
    (pruneSteps presence).run f
      = (.ok (), { f.put (f.mutation.pruned presence) with retiredKeys := [] }) := by
  unfold pruneSteps
  rw [run_statement_bind, run_current_bind, run_bind_ok (run_collectAll presence _),
    run_current_bind]
  exact run_bind_ok (run_retireAll (f := { f with retiredKeys := absentKeys f.owners presence })
    (absentKeys f.owners presence) hlocals) _

/-- The frame in which `call()` runs. -/
def MutationFrame.published (f : MutationFrame ident Root) (m : Mutation ident Root)
    (c : Candidate K) : MutationFrame ident Root :=
  { f.put m with locals := [c.entry] }

theorem run_storeSteps (key : K) (root : Root) (previous : Option Nat) :
    (storeSteps key root previous).run f =
      (.ok ⟨key, f.owners.heap.length, previous⟩, f.published (f.mutation.published key root previous)
        ⟨key, f.owners.heap.length, previous⟩) := rfl

/-- The first half of `admit`. -/
theorem run_publishSteps (key : K) (root : Root) (presence : K → Int32) (hlocals : f.locals = [])
    (hkeys : f.retiredKeys = []) :
    (publishSteps key root presence).run f =
      ((exec (publish key root presence) f.mutation).1,
        match exec (publish key root presence) f.mutation with
        | (.ok c, m) => f.published m c
        | (.error _, m) => f.put m) := by
  have hrun := exec_publish key root presence f.mutation
  have hpruned : (pruneSteps presence).run f = (.ok (), f.put (f.mutation.pruned presence)) := by
    rw [run_pruneSteps presence hlocals, ← hkeys]
    rfl
  unfold publishSteps
  rw [run_current_bind]
  generalize exec (publish key root presence) f.mutation = out at hrun
  cases hrun with
  | unresolved previous hget hstatus =>
    dsimp only
    rw [if_pos ⟨previous, hget, hstatus⟩]
    rfl
  | exhausted hget hfull hstill =>
    dsimp only
    have hget : f.owners.entries.get? key = none := hget
    -- the guard is read before the pass, the room after it
    rw [if_neg (by simp [hget]), if_pos ⟨hget, hfull⟩, run_bind_ok hpruned, run_current_bind]
    show Steps.run (if ¬ (f.mutation.pruned presence).owners.entries.count
      < (f.mutation.pruned presence).owners.limit then _ else _) _ = _
    rw [if_pos hstill]
    rfl
  | pruned hget hfull hroom =>
    dsimp only
    have hget : f.owners.entries.get? key = none := hget
    rw [if_neg (by simp [hget]), if_pos ⟨hget, hfull⟩, run_bind_ok hpruned, run_current_bind]
    show Steps.run (if ¬ (f.mutation.pruned presence).owners.entries.count
      < (f.mutation.pruned presence).owners.limit then _ else _) _ = _
    rw [if_neg (not_not.mpr hroom), run_storeSteps, hget]
    rfl
  | published hprevious hroom =>
    dsimp only
    have hopen : ¬ ∃ entry ∈ f.owners.entries.get? key, f.owners.status? entry = none := by
      rintro ⟨entry, hget, hstatus⟩
      exact hprevious entry hget hstatus
    rw [if_neg hopen, if_neg (fun h => hroom h.1 h.2), run_storeSteps]
    rfl

/-- The second half. -/
theorem run_settleSteps (c : Candidate K) (status : Int32) (presence : K → Int32) :
    (settleSteps c status presence).run f = (.ok (),
      { f.put ((settle c status presence).run f.mutation).2 with
        retiredKeys := if status = 0 then [] else f.retiredKeys, locals := [] }) := by
  rw [run_settle]
  unfold settleSteps
  rw [run_statement_bind]
  by_cases hstatus : status = 0
  · subst hstatus
    rw [if_neg (not_not.mpr rfl), if_pos rfl, if_pos rfl, run_statement_bind, run_statement_bind,
      run_pruneSteps presence rfl]
    have haccepted : f.mutation.accepted c =
        ⟨{ f.owners with
          heap := List.modify (List.modify f.owners.heap c.entry
            fun entry => { entry with status := some 0 }) c.entry
              fun entry => { entry with previous := none } },
          f.retired ++ c.previous.toList⟩ := by
      rw [List.modify_modify_eq]
      rfl
    rw [haccepted]
    rfl
  · rw [if_pos hstatus, if_neg hstatus, if_neg hstatus, run_statement_bind, run_statement]
    rfl

/-- **The statements of `admit` make up `admit`**: the same outcome, owners and list, with one call
of Core unless the candidate was never published. -/
theorem run_admitSteps (key : K) (root : Root) (call : Except RuntimeError Int32)
    (presence presence' : K → Int32) (hlocals : f.locals = []) (hkeys : f.retiredKeys = []) :
    (admitSteps key root call presence presence').run f =
      ((exec (admitRoot key root call presence presence') f.mutation).1,
        { f.put (exec (admitRoot key root call presence presence') f.mutation).2 with
          calls := f.calls +
            if (exec (publish key root presence) f.mutation).1.toOption.isSome then 1 else 0 }) := by
  have hpublished := run_publishSteps key root presence hlocals hkeys
  rw [exec_admitRoot]
  unfold admitSteps
  generalize exec (publish key root presence) f.mutation = out at hpublished
  obtain ⟨outcome, m⟩ := out
  cases outcome with
  | error error =>
    rw [run_bind_error hpublished]
    rfl
  | ok c =>
    rw [run_bind_ok hpublished, run_statement_bind]
    cases call with
    | error error =>
      dsimp only
      rw [run_statement_bind, run_throw, ← hlocals]
      rfl
    | ok status =>
      dsimp only
      rw [run_bind_ok (run_settleSteps c status presence'), run_pure]
      -- the scratch list is empty either way
      have hscratch : (if status = 0 then [] else f.retiredKeys) = f.retiredKeys := by
        rw [hkeys, ite_self]
      refine Prod.ext rfl ?_
      show MutationFrame.mk _ (if status = 0 then [] else f.retiredKeys) _ [] _
        = MutationFrame.mk _ f.retiredKeys _ f.locals _
      rw [hscratch, hlocals]
      rfl

end Run

end CoAkka.Stream
