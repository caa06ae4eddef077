import CoAkkaRuntime.Lane.Close
import CoAkkaRuntime.Transition.History

/-!
# Lane — the close protocol

The flags of a lane, its counter and its log are tied to where the threads are (`LaneInv`): one
`close` at most is on its way from `closing` to the destroy, and `activeCalls` counts the threads
in a `withLane` body. The rule each event of the log follows (`Protocol`) is a consequence.

* `Counts` — the counter and the flags as numbers of threads at a position.
* `LaneInv` — the invariant: the counts, the rule of the log, and who may still touch the lane.
* `laneInv_step` — one case per section; in each one thread moves, and `countP_set` says what that
  does to the counts.
* `close_protocol` — for both kinds of lane, over any number of threads.
-/

namespace CoAkka.Lane

open Transition

/-! ## The protocol -/

/-- Everybody `withLane` let in has left. -/
def Drained (before : List LaneEvent) : Prop := before.count .admitted = before.count .exited

/-- The native stop has returned. -/
def Stopped (before : List LaneEvent) : Prop := ∃ status, .stopReturned status ∈ before

/-- What must have come before an event of a lane, and what may not. -/
def Protocol (before : List LaneEvent) : LaneEvent → Prop
  | .admitted => .closing ∉ before
  | .nativeCall => .destroyed ∉ before
  | .closing => .closing ∉ before
  | .stopCalled => .stopCalled ∉ before ∧ .destroyed ∉ before
  | .destroyed => .destroyed ∉ before ∧ Stopped before ∧ Drained before
  | .detached => .destroyed ∈ before ∧ Stopped before ∧ Drained before
  | .released | .joined | .closed _ => .destroyed ∈ before
  | _ => True

namespace LaneEvent

def isStopReturn : LaneEvent → Bool
  | .stopReturned _ => true
  | _ => false

end LaneEvent

namespace Pc

def isInside : Pc → Bool
  | .inside => true
  | _ => false

def isStopping : Pc → Bool
  | .stopping => true
  | _ => false

def isInStop : Pc → Bool
  | .inStop => true
  | _ => false

def isDraining : Pc → Bool
  | .draining _ => true
  | _ => false

end Pc

/-- The flags, the counter and the log of a lane, against the number of threads in a `withLane`
body, before the native stop, in it and after it. -/
structure Counts (s : LaneState) (inside stopping inStop draining : Nat) : Prop where
  active : s.activeCalls = inside
  admitted : s.log.count .admitted = s.log.count .exited + inside
  closing : s.log.count .closing = s.closing.toNat
  lane : s.log.count .destroyed + s.lane.toNat = 1
  stopCalled : s.log.count .stopCalled + stopping = s.log.count .closing
  stopReturned : s.log.countP LaneEvent.isStopReturn + stopping + inStop = s.log.count .closing
  /-- Between `closing` and the destroy exactly one thread closes. -/
  destroyed : s.log.count .destroyed + stopping + inStop + draining = s.log.count .closing
  empty : s.log.count .destroyed = 0 ∨ inside = 0

namespace Counts

variable {s s' : LaneState} {inside stopping inStop draining : Nat}

/-- A lane begins to close once at most. -/
theorem closing_le_one (h : Counts s inside stopping inStop draining) :
    s.log.count .closing ≤ 1 := by
  rw [h.closing]
  exact Bool.toNat_le _

/-- **One step keeps the counts.** Only the activity that moves can change what is counted of it. -/
theorem step {kind : LaneKind} {pc pc' : Pc} {inside' stopping' inStop' draining' : Nat}
    (h : Counts s inside stopping inStop draining) (hstep : LaneStep kind s pc s' pc')
    (hinside : inside' + (if pc.isInside then 1 else 0)
      = inside + (if pc'.isInside then 1 else 0))
    (hstopping : stopping' + (if pc.isStopping then 1 else 0)
      = stopping + (if pc'.isStopping then 1 else 0))
    (hinStop : inStop' + (if pc.isInStop then 1 else 0)
      = inStop + (if pc'.isInStop then 1 else 0))
    (hdraining : draining' + (if pc.isDraining then 1 else 0)
      = draining + (if pc'.isDraining then 1 else 0)) :
    Counts s' inside' stopping' inStop' draining' := by
  have hle := h.closing_le_one
  obtain ⟨hactive, hadmitted, hclosing, hlane, hcalled, hreturned, hdestroyed, hempty⟩ := h
  cases hstep <;>
    simp only [Pc.isInside, Pc.isStopping, Pc.isInStop, Pc.isDraining, Bool.false_eq_true,
      if_true, if_false] at hinside hstopping hinStop hdraining
  case refused | waits => constructor <;> omega
  case admitted hopen hlaneOpen =>
    rw [hlaneOpen] at hlane
    constructor <;> simp [LaneEvent.isStopReturn, hlaneOpen] <;> simp at hlane <;> omega
  case nativeCalls =>
    constructor <;> simp [List.count_replicate, List.countP_replicate, LaneEvent.isStopReturn] <;>
      omega
  case closes hlaneOpen hopen =>
    rw [hopen] at hclosing
    constructor <;> simp [LaneEvent.isStopReturn] <;> simp at hclosing <;> omega
  case retired hdrained =>
    -- the draining thread is the closing one, so the lane is not destroyed yet
    cases hcallbacks : kind.callbacks <;>
      constructor <;> simp [LaneEvent.isStopReturn, retire, hcallbacks] <;> omega
  case finished =>
    cases hcallbacks : kind.callbacks <;>
      constructor <;> simp [LaneEvent.isStopReturn] <;> omega
  case exited | closedBefore | stopCalled | stopReturned | joined =>
    constructor <;> simp [LaneEvent.isStopReturn] <;> omega

end Counts

/-- **The invariant of a lane.** -/
structure LaneInv (p : Pool LaneState Pc) : Prop where
  counts : Counts p.shared (p.threads.countP Pc.isInside) (p.threads.countP Pc.isStopping)
    (p.threads.countP Pc.isInStop) (p.threads.countP Pc.isDraining)
  draining : ∀ status, .draining status ∈ p.threads → .stopReturned status ∈ p.shared.log
  finishing : ∀ status, .finishing status ∈ p.threads →
    .stopReturned status ∈ p.shared.log ∧ .destroyed ∈ p.shared.log
  log : Justified Protocol p.shared.log

/-! ## The invariant is kept

One case for each section. In each of them one thread moves from one position to another.
-/

section Step

variable {kind : LaneKind} {s' : LaneState} {pc pc' : Pc}

/-- A step only adds to the log. -/
theorem LaneStep.log_append {s : LaneState} (h : LaneStep kind s pc s' pc') :
    ∃ events, s'.log = s.log ++ events := by
  cases h <;> first | exact ⟨_, rfl⟩ | exact ⟨[], (List.append_nil _).symm⟩

/-- A step takes a thread to `draining` with the status the stop has just returned, and to
`finishing` right after the destroy. -/
theorem LaneStep.leaves_stop {s : LaneState} (h : LaneStep kind s pc s' pc') (status : Int32) :
    (pc' = .draining status → .stopReturned status ∈ s'.log) ∧
    (pc' = .finishing status → pc = .draining status ∧ .destroyed ∈ s'.log) := by
  cases h <;> simp +contextual [retire]

/-- The events of a step follow the protocol. -/
theorem LaneInv.step_log {p : Pool LaneState Pc} {i : Nat} (h : LaneInv p)
    (hpc : p.threads[i]? = some pc) (hstep : LaneStep kind p.shared pc s' pc') :
    Justified Protocol s'.log := by
  have hle := h.counts.closing_le_one
  have hpos := fun (q : Pc → Bool) (hq : q pc) => countP_pos_of_getElem? hpc hq
  have hmem := List.mem_of_getElem? hpc
  cases hstep with
  | refused | waits => exact h.log
  | exited | stopReturned => exact h.log.concat trivial
  | admitted hopen | closes _ hopen =>
    have hclosing := h.counts.closing
    rw [hopen] at hclosing
    exact h.log.concat (List.count_eq_zero.mp hclosing)
  | nativeCalls calls =>
    have hdestroyed : .destroyed ∉ p.shared.log := by
      apply List.count_eq_zero.mp
      have := hpos Pc.isInside rfl
      exact h.counts.empty.resolve_right (by omega)
    apply h.log.append_of_forall
    intro before e hbefore he
    obtain rfl : e = .nativeCall := List.eq_of_mem_replicate he
    have hnew : .destroyed ∉ before := fun hin =>
      absurd (List.eq_of_mem_replicate (hbefore hin)) (by decide)
    show .destroyed ∉ p.shared.log ++ before
    simp [hdestroyed, hnew]
  | stopCalled =>
    have := hpos Pc.isStopping rfl
    have hcalled := h.counts.stopCalled
    have hdestroyed := h.counts.destroyed
    exact h.log.concat ⟨List.count_eq_zero.mp (by omega), List.count_eq_zero.mp (by omega)⟩
  | retired status hdrained =>
    have := hpos Pc.isDraining rfl
    have hdestroyed := h.counts.destroyed
    have hactive := h.counts.active
    have hadmitted := h.counts.admitted
    have hnot : .destroyed ∉ p.shared.log := List.count_eq_zero.mp (by omega)
    have hstopped : Stopped p.shared.log := ⟨status, h.draining status hmem⟩
    have hdestroy : Justified Protocol (p.shared.log ++ [.destroyed]) :=
      h.log.concat ⟨hnot, hstopped, show _ = _ by omega⟩
    show Justified Protocol (p.shared.log ++
      (.destroyed :: if kind.callbacks then [.detached] else []))
    cases kind.callbacks
    · exact hdestroy
    · -- the destroy takes nobody in, so the lane is still drained at the detach
      have hdetach : Protocol (p.shared.log ++ [.destroyed]) .detached := by
        refine ⟨by simp, ⟨status, by simp [h.draining status hmem]⟩, ?_⟩
        show _ = _
        simp
        omega
      simpa using hdestroy.concat hdetach
  | finished status =>
    have hdestroyed := (h.finishing status hmem).2
    show Justified Protocol (p.shared.log ++ ((if kind.callbacks then [.released] else []) ++
      [.closed (stopFailure kind status)]))
    rw [← List.append_assoc]
    apply Justified.concat
    · cases kind.callbacks
      · simpa using h.log
      · exact h.log.concat hdestroyed
    · exact List.mem_append_left _ hdestroyed
  | closedBefore hlane | joined hlane =>
    -- a lane that is gone has been destroyed
    have hdestroyed := h.counts.lane
    rw [hlane] at hdestroyed
    apply h.log.concat
    show .destroyed ∈ p.shared.log
    exact List.count_pos_iff.mp (by rw [Bool.toNat_false] at hdestroyed; omega)

/-- **A step keeps the invariant.** -/
theorem laneInv_step {p p' : Pool LaneState Pc} {a : Nat × LaneAction} (h : LaneInv p)
    (hstep : (laneSystem kind).step p a p') : LaneInv p' := by
  obtain ⟨pc, s', pc', hpc, hnext, rfl⟩ := Pool.advance_eq_some hstep
  have hrun := laneStep_of_next hnext
  obtain ⟨events, hevents⟩ := hrun.log_append
  have hkept : ∀ e ∈ p.shared.log, e ∈ s'.log := by
    intro e he
    rw [hevents]
    exact List.mem_append_left _ he
  refine ⟨?_, ?_, ?_, h.step_log hpc hrun⟩
  · apply h.counts.step hrun <;> exact countP_set hpc pc' _
  · intro status hmem
    rcases List.mem_or_eq_of_mem_set hmem with hold | hnew
    · exact hkept _ (h.draining status hold)
    · exact (hrun.leaves_stop status).1 hnew.symm
  · intro status hmem
    rcases List.mem_or_eq_of_mem_set hmem with hold | hnew
    · have ⟨hreturned, hdestroyed⟩ := h.finishing status hold
      exact ⟨hkept _ hreturned, hkept _ hdestroyed⟩
    · obtain ⟨hpcDraining, hdestroyed⟩ := (hrun.leaves_stop status).2 hnew.symm
      rw [hpcDraining] at hpc
      exact ⟨hkept _ (h.draining status (List.mem_of_getElem? hpc)), hdestroyed⟩

theorem laneInv_init {p : Pool LaneState Pc} (h : (laneSystem kind).init p) : LaneInv p := by
  obtain ⟨hshared, hidle⟩ := h
  have hnone : ∀ q : Pc → Bool, q .idle = false → p.threads.countP q = 0 := by
    intro q hq
    apply List.countP_eq_zero.mpr
    intro pc hpc
    rw [hidle pc hpc, hq]
    decide
  refine ⟨?_, ?_, ?_, ?_⟩
  · rw [hnone _ rfl, hnone _ rfl, hnone _ rfl, hnone _ rfl, hshared]
    constructor <;> decide
  · intro status hmem
    cases hidle _ hmem
  · intro status hmem
    cases hidle _ hmem
  · rw [hshared]
    exact .nil

/-- The invariant holds in every reachable state. -/
theorem laneInv_reachable {p : Pool LaneState Pc} (hp : (laneSystem kind).Reachable p) :
    LaneInv p :=
  hp.invariant (fun _ h => laneInv_init h) fun _ _ _ _ hinv hstep => laneInv_step hinv hstep

end Step

/-! ## The close protocol -/

/-- **The close protocol of a lane.** In every run of any number of threads, whatever the native
stop answers: the counter counts the threads in a `withLane` body; stop is called at most once
and destroy at most once; and each event comes after what it needs. Destroy needs a returned stop
and a drained lane; no native call and no stop follows destroy; nobody is admitted once `closing`
is set; a `close` returns after destroy, also one that waited for another; the callback roots are
detached after stop, drain and destroy. -/
theorem close_protocol (kind : LaneKind) {p : Pool LaneState Pc}
    (hp : (laneSystem kind).Reachable p) :
    p.shared.activeCalls = p.threads.countP Pc.isInside ∧ 0 ≤ p.shared.activeCalls ∧
    p.shared.log.count .admitted
      = p.shared.log.count .exited + p.threads.countP Pc.isInside ∧
    p.shared.log.count .stopCalled ≤ 1 ∧ p.shared.log.count .destroyed ≤ 1 ∧
    Justified Protocol p.shared.log := by
  have h := laneInv_reachable hp
  have hactive := h.counts.active
  refine ⟨hactive, by omega, h.counts.admitted, ?_, ?_, h.log⟩
  · exact h.log.count_le_one fun _ hrule => hrule.1
  · exact h.log.count_le_one fun _ hrule => hrule.1

/-- A caller drains out while a `close` stops the lane, and a second `close` waits for it. -/
theorem close_protocol_twoClosers :
    ∃ p, (laneSystem streamLane).Reachable p ∧ .joined ∈ p.shared.log ∧
      p.shared.log.count .destroyed ≤ 1 ∧ Justified Protocol p.shared.log := by
  let start : Pool LaneState Pc := ⟨{}, [.idle, .idle, .idle]⟩
  have hstart : (laneSystem streamLane).Reachable start := .init ⟨rfl, by simp [start]⟩
  obtain ⟨p, hrun, hjoined⟩ : ∃ p, [(0, LaneAction.withLane), (1, .close), (2, .close),
      (1, .callStop), (0, .callbackMutation 2), (1, .returnStop Status.ok), (0, .exitLane),
      (1, .retire), (2, .wake), (1, .finish)].foldlM (laneStep streamLane) start = some p ∧
      .joined ∈ p.shared.log := ⟨_, rfl, by decide⟩
  have hp : (laneSystem streamLane).Reachable p :=
    hstart.trans (System.Reaches.foldlM (fun _ _ _ h => h) _ hrun)
  have h := close_protocol streamLane hp
  exact ⟨p, hp, hjoined, h.2.2.2.2.1, h.2.2.2.2.2⟩

end CoAkka.Lane
