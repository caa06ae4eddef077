import CoAkkaRuntime.Host.Registrations
import Mathlib.Algebra.GroupWithZero.Nat

/-!
# Host — the registration budget

A host has room for 256 handlers and 64 KiB of targets. `registrationBytes` is what the targets in
the table take, in every state of every run; a registration is accepted exactly while there is
room, and what the table says of a target it says for the rest of the run.

* `Budgeted` — the invariant: the counter is the sum over the table, and both bounds hold.
* `register_eq_ok_iff` — when a registration is accepted, exactly.
* `register_refused`, `register_accepted` — what it leaves of the host in either case.
* `registration_budget` — all this over every run, in which frames, closes and registrations
  alternate.
-/

namespace CoAkka.Host

open Codec Session Throwing

variable {I H E : Type} [DecidableEq I] {ident : String → I}

/-- The UTF-8 bytes of the registered targets. -/
def RuntimeHost.targetBytes (host : RuntimeHost ident H) : Nat :=
  (host.handlers.pairs.map fun p => p.1.utf8ByteSize).sum

/-- The bytes are counted, and neither budget is exceeded. -/
structure Budgeted (host : RuntimeHost ident H) : Prop where
  counted : host.registrationBytes = host.targetBytes
  bytes : host.registrationBytes ≤ 64 * 1024
  handlers : host.handlers.count ≤ 256

/-- What a registration of `target` needs. -/
structure Accepts (host : RuntimeHost ident H) (target : String) : Prop where
  nonempty : target ≠ ""
  noNul : 0 ∉ target.toByteArray.data.toList
  bounded : target.utf8ByteSize ≤ 2 ^ 31 - 1
  isOpen : host.sessionOpen = true
  /-- No target equal to it is registered. -/
  unregistered : ∀ p ∈ host.handlers.pairs, ident p.1 ≠ ident target
  count : host.handlers.count < 256
  room : (target.utf8ByteSize : Int) ≤ 64 * 1024 - host.registrationBytes

/-! ## One registration

The two bounds are tested with the size of the new target, before anything is changed.
-/

section Register

variable {host : RuntimeHost ident H} {target : String} {handler : Handler H}

/-- A registration is accepted exactly where no check refuses it. -/
theorem register_eq_ok_iff :
    (exec (register target handler) host).1 = .ok () ↔ Accepts host target := by
  have hrun := exec_register host target handler
  generalize exec (register target handler) host = out at hrun
  cases hrun with
  | registered hvalid hnonempty hopen hnew hroom =>
    obtain ⟨hnul, hbounded⟩ := validateCString_eq_ok_iff.mp hvalid
    have haccepts : Accepts host target :=
      ⟨hnonempty, hnul, hbounded, hopen, Dictionary.get?_eq_none_iff.mp hnew, hroom.1, hroom.2⟩
    exact ⟨fun _ => haccepts, fun _ => rfl⟩
  | invalid error hinvalid =>
    refine ⟨fun h => (by cases h), fun h => ?_⟩
    rw [validateCString_eq_ok_iff.mpr ⟨h.noNul, h.bounded⟩] at hinvalid
    cases hinvalid
  | empty hempty => exact ⟨fun h => (by cases h), fun h => absurd hempty h.nonempty⟩
  | closed hclosed =>
    refine ⟨fun h => (by cases h), fun h => ?_⟩
    rw [h.isOpen] at hclosed
    cases hclosed
  | duplicate _ _ old hold =>
    refine ⟨fun h => (by cases h), fun h => ?_⟩
    rw [Dictionary.get?_eq_none_iff.mpr h.unregistered] at hold
    cases hold
  | exhausted _ hfull => exact ⟨fun h => (by cases h), fun h => absurd ⟨h.count, h.room⟩ hfull⟩

/-- A refused registration changes nothing. -/
theorem register_refused (h : ¬ Accepts host target) :
    (exec (register target handler) host).2 = host := by
  have hthrown : (exec (register target handler) host).1 ≠ .ok () := mt register_eq_ok_iff.mp h
  have hrun := exec_register host target handler
  generalize exec (register target handler) host = out at hrun hthrown
  cases hrun with
  | invalid | empty | closed | duplicate | exhausted => rfl
  | registered => exact absurd rfl hthrown

/-- An accepted one adds its handler and its bytes. -/
theorem register_accepted (h : Accepts host target) :
    (exec (register target handler) host).2 = { host with
      handlers := host.handlers.set target handler
      registrationBytes := host.registrationBytes + target.utf8ByteSize
      log := host.log ++ [.registered target handler] } := by
  have hreturned : (exec (register target handler) host).1 = .ok () := register_eq_ok_iff.mpr h
  have hrun := exec_register host target handler
  generalize exec (register target handler) host = out at hrun hreturned
  cases hrun with
  | invalid | empty | closed | duplicate | exhausted => cases hreturned
  | registered => rfl

/-- What an accepted target adds to the sum of the bytes. -/
theorem targetBytes_set (h : Accepts host target) :
    (((host.handlers.set target handler).pairs.map fun p => p.1.utf8ByteSize).sum)
      = host.targetBytes + target.utf8ByteSize := by
  rw [Dictionary.set, dif_pos (Dictionary.get?_eq_none_iff.mpr h.unregistered)]
  simp [RuntimeHost.targetBytes]

/-- And to the number of the handlers. -/
theorem count_set (h : Accepts host target) :
    (host.handlers.set target handler).count = host.handlers.count + 1 := by
  rw [Dictionary.set, dif_pos (Dictionary.get?_eq_none_iff.mpr h.unregistered)]
  simp [Dictionary.count]

/-- **The registration step.** -/
theorem Budgeted.register (hbudget : Budgeted host) :
    Budgeted (exec (register target handler) host).2 := by
  by_cases h : Accepts host target
  · rw [register_accepted h]
    have hcounted := hbudget.counted
    have hcount := h.count
    have hroom := h.room
    refine ⟨?_, ?_, ?_⟩
    · show host.registrationBytes + (target.utf8ByteSize : Int) = _
      rw [RuntimeHost.targetBytes, targetBytes_set h, hcounted]
      exact (Int.natCast_add _ _).symm
    · show host.registrationBytes + (target.utf8ByteSize : Int) ≤ 64 * 1024
      omega
    · show (host.handlers.set target handler).count ≤ 256
      rw [count_set h]
      omega
  · rwa [register_refused h]

end Register

/-! ## Whole runs -/

/-- **One action keeps the budget.** -/
theorem Budgeted.act {host : RuntimeHost ident H} (h : Budgeted host) (action : HostAction H) :
    Budgeted (host.act action) := by
  cases action with
  | register target handler => exact h.register
  | requestRetirement => exact ⟨h.counted, h.bytes, h.handlers⟩

omit [DecidableEq I] in
/-- So does whatever leaves the registrations alone. -/
theorem Budgeted.leaves {host host' : RuntimeHost ident H} (hleaves : Leaves host host')
    (h : Budgeted host) : Budgeted host' := by
  obtain ⟨hcounted, hbytes, hhandlers⟩ := h
  refine ⟨?_, ?_, ?_⟩
  · rw [hleaves.budget, hcounted, RuntimeHost.targetBytes, RuntimeHost.targetBytes, hleaves.handlers]
  · rwa [hleaves.budget]
  · rwa [hleaves.handlers]

/-- The budget holds after every run. -/
theorem budgeted_run (failureText : DispatchError E → String) (inputs : List (HostInput H E)) :
    Budgeted (RuntimeHost.run failureText projectDispatchTarget inputs : RuntimeHost ident H) :=
  run_rule failureText (fun _ => True) projectDispatchTarget_quiet
    (fun _ _ hleaves h => h.leaves hleaves) (fun _ action _ h => h.act action)
    (fun _ _ _ _ => trivial) ⟨rfl, show (0 : Int) ≤ 64 * 1024 by decide, Nat.zero_le _⟩

/-- What the table says of a target it keeps saying. -/
theorem handler_kept (failureText : DispatchError E → String) (later : List (HostInput H E))
    {host : RuntimeHost ident H} {target : String} {handler : Handler H}
    (h : host.handlers.get? target = some handler) :
    (later.foldl (RuntimeHost.step failureText projectDispatchTarget) host).handlers.get? target
      = some handler := by
  refine run_rule (P := fun host => host.handlers.get? target = some handler) failureText
    (fun _ => True) projectDispatchTarget_quiet ?_ ?_ (fun _ _ _ _ => trivial) h
  · intro host host' hleaves hget
    rwa [hleaves.handlers]
  · intro host action _ hget
    cases action with
    | register target' handler' => exact (register_keeps host target' handler').handlers _ _ hget
    | requestRetirement => exact hget

/-- **The registration budget.** In every run of registrations, retirements and dispatches the bytes
are those of the registered targets and neither budget is exceeded. A registration is accepted
exactly where `Accepts` says, a refused one leaves the host as it was, and an accepted one changes
the handler of its own target only. No handler is changed or removed later. -/
theorem registration_budget (failureText : DispatchError E → String)
    (inputs : List (HostInput H E)) :
    let host : RuntimeHost ident H := RuntimeHost.run failureText projectDispatchTarget inputs
    Budgeted host ∧
    (∀ target handler, (exec (register target handler) host).1 = .ok () ↔ Accepts host target) ∧
    (∀ target handler, (exec (register target handler) host).1 ≠ .ok () →
      (exec (register target handler) host).2 = host) ∧
    (∀ target handler, (exec (register target handler) host).1 = .ok () →
      ∀ target', (exec (register target handler) host).2.handlers.get? target'
        = if ident target = ident target' then some handler else host.handlers.get? target') ∧
    ∀ target handler, host.handlers.get? target = some handler →
      ∀ later : List (HostInput H E),
        (later.foldl (RuntimeHost.step failureText projectDispatchTarget) host).handlers.get? target
          = some handler := by
  intro host
  refine ⟨budgeted_run failureText inputs, fun _ _ => register_eq_ok_iff, ?_, ?_, ?_⟩
  · intro target handler hrefused
    exact register_refused (mt register_eq_ok_iff.mpr hrefused)
  · intro target handler haccepted target'
    rw [register_accepted (register_eq_ok_iff.mp haccepted)]
    exact Dictionary.get?_set _ _ _ _
  · intro target handler hget later
    exact handler_kept failureText later hget

end CoAkka.Host
