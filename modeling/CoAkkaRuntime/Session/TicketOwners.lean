import CoAkkaRuntime.Session.SessionProtocol

/-!
# Session — the tickets of a session

The native calls for one ticket in the log of its session (`ticketTrace`), and what a step of the
session means for the tickets: `begin` makes a new one, with nothing done for it; a borrower goes on
with its own; and every other step leaves the tickets alone.

* `KeepsTickets` — a step after which every ticket has the calls that it had before; one lemma for
  each section of the session.
* `TicketMove` — what a step of a caller can do: issue a ticket, make one more call with its own, or
  neither.
* `callerStep_ticketMove` — the inversion of a caller's step in these terms, which
  `Ask.TicketCustody` uses in place of the step function.
* `ticketTrace_eq_nil` — a ticket that was not issued has no calls, so a new one starts with none.
-/

namespace CoAkka.Session

open Transition

/-- What a native call does with the ticket `ticket`. -/
def SessionEvent.forTicket? (ticket : Nat) : SessionEvent → Option TicketEvent
  | .ticket other event => if other = ticket then some event else none
  | _ => none

/-- The native calls for a ticket, and the end of its borrow, in order. -/
def ticketTrace (log : List SessionEvent) (ticket : Nat) : List TicketEvent :=
  log.filterMap (·.forTicket? ticket)

section Trace

variable {log events : List SessionEvent} {ticket : Nat}

theorem ticketTrace_append (log events : List SessionEvent) (ticket : Nat) :
    ticketTrace (log ++ events) ticket = ticketTrace log ticket ++ ticketTrace events ticket :=
  List.filterMap_append

/-- A native call that is for no ticket. -/
def SessionEvent.ticketless : SessionEvent → Bool
  | .ticket _ _ => false
  | _ => true

/-- Events that use no ticket leave its trace. -/
theorem ticketTrace_ticketless (h : ∀ e ∈ events, e.ticketless) (log : List SessionEvent)
    (ticket : Nat) : ticketTrace (log ++ events) ticket = ticketTrace log ticket := by
  have hnone : ticketTrace events ticket = [] := by
    apply List.filterMap_eq_nil_iff.mpr
    intro e he
    have hfree := h e he
    cases e <;> first | rfl | cases hfree
  rw [ticketTrace_append, hnone, List.append_nil]

/-- The use of one ticket is in the trace of that one alone. -/
theorem ticketTrace_concat (log : List SessionEvent) (other : Nat) (event : TicketEvent)
    (ticket : Nat) : ticketTrace (log ++ [.ticket other event]) ticket
      = ticketTrace log ticket ++ if other = ticket then [event] else [] := by
  rw [ticketTrace_append]
  by_cases h : other = ticket <;> simp [ticketTrace, SessionEvent.forTicket?, h]

/-- What is in the trace of a ticket is in the log. -/
theorem mem_of_mem_ticketTrace {event : TicketEvent} (h : event ∈ ticketTrace log ticket) :
    .ticket ticket event ∈ log := by
  obtain ⟨e, he, hfor⟩ := List.mem_filterMap.mp h
  cases e with
  | ticket other event' =>
    simp only [SessionEvent.forTicket?] at hfor
    split at hfor
    · next heq =>
      rw [← heq, ← Option.some.inj hfor]
      exact he
    · cases hfor
  | _ => cases hfor

end Trace

/-! ## What a step means for the tickets

Section by section, and then for a whole step of a caller.
-/

/-- Neither a new ticket, nor anything done with one. -/
structure KeepsTickets (s s' : SessionState) : Prop where
  tickets : s'.tickets = s.tickets
  trace : ∀ ticket, ticketTrace s'.log ticket = ticketTrace s.log ticket

section Keeps

variable {s s' s'' : SessionState}

theorem KeepsTickets.refl : KeepsTickets s s := ⟨rfl, fun _ => rfl⟩

theorem KeepsTickets.trans (h : KeepsTickets s s') (h' : KeepsTickets s' s'') : KeepsTickets s s'' :=
  ⟨h'.tickets.trans h.tickets, fun ticket => (h'.trace ticket).trans (h.trace ticket)⟩

/-- Logging what uses no ticket keeps the tickets. -/
theorem KeepsTickets.logged {events : List SessionEvent} (h : ∀ e ∈ events, e.ticketless)
    (s : SessionState) : KeepsTickets s (s.logged events) :=
  ⟨rfl, ticketTrace_ticketless h s.log⟩

/-- The sections of the session that are not about asks keep the tickets. -/
theorem withOpen_keeps (operation : List RuntimeCall × Except RuntimeError Unit)
    (s : SessionState) : KeepsTickets s (withOpen operation s).2 := by
  unfold withOpen
  cases requireOpenLocked s with
  | error => exact .refl
  | ok =>
    apply KeepsTickets.logged
    intro e he
    obtain ⟨call, -, rfl⟩ := List.mem_map.mp he
    rfl

theorem stopLocked_keeps (status : Int32) (s : SessionState) :
    KeepsTickets s (stopLocked status s) := by
  unfold stopLocked
  split
  · exact ⟨rfl, ticketTrace_ticketless (by simp [SessionEvent.ticketless]) s.log⟩
  · exact .refl

theorem retireLocked_keeps (s : SessionState) : KeepsTickets s (retireLocked s) := by
  unfold retireLocked
  split
  · exact ⟨rfl, ticketTrace_ticketless (by simp [retirement, SessionEvent.ticketless]) s.log⟩
  · exact .refl

theorem stopAndRetire_keeps (status : Int32) (s : SessionState) :
    KeepsTickets s (stopAndRetire status s) := by
  unfold stopAndRetire
  split
  · exact .refl
  · exact (stopLocked_keeps status s).trans (retireLocked_keeps _)

/-- So does the runner. -/
theorem runnerStep_keeps {action : RunnerAction} (h : runnerStep s action = some s') :
    KeepsTickets s s' := by
  unfold runnerStep at h
  split at h
  case h_8 frame again hpc =>
    cases h
    exact ⟨rfl, ticketTrace_ticketless (by cases frame <;> simp [SessionEvent.ticketless]) s.log⟩
  case h_10 status _ =>
    cases h
    let retiring : SessionState :=
      { s with readerRetired := true, closing := true, runner := .departing }
    have hsealed : KeepsTickets s retiring := ⟨rfl, fun _ => rfl⟩
    exact (hsealed.trans (stopLocked_keeps status retiring)).trans (retireLocked_keeps _)
  case h_12 => cases h
  all_goals
    cases h
    first
    | exact .refl
    | exact ⟨rfl, fun _ => rfl⟩
    | exact ⟨rfl, ticketTrace_ticketless (by simp [SessionEvent.ticketless]) s.log⟩

end Keeps

/-- A call that has nothing to do with a ticket. -/
def CallerAction.unrelated : CallerAction → Bool
  | .begin .. | .ask => false
  | _ => true

/-- What the caller at `pc` does to the tickets with a step. -/
inductive TicketMove (s s' : SessionState) : CallerPc → CallerAction → CallerPc → Prop where
  | begun (answer : BeginAnswer) (messageID : String) (call : AskCall)
      (hok : (begin answer s).1 = .ok s.tickets) (hnext : s'.tickets = s.tickets + 1)
      (htrace : ∀ ticket, ticketTrace s'.log ticket = ticketTrace s.log ticket) :
      TicketMove s s' .idle (.begin answer messageID call)
        (.awaiting s.tickets (runAwait messageID false call).2.trace)
  | refused (answer : BeginAnswer) (messageID : String) (call : AskCall) (error : RuntimeError)
      (herror : (begin answer s).1 = .error error) (hkeeps : KeepsTickets s s') :
      TicketMove s s' .idle (.begin answer messageID call) .idle
  | used (ticket : Nat) (event : TicketEvent) (rest : List TicketEvent)
      (hnext : s'.tickets = s.tickets)
      (htrace : ∀ other, ticketTrace s'.log other
        = ticketTrace s.log other ++ if ticket = other then [event] else []) :
      TicketMove s s' (.asking ticket (event :: rest)) .ask (.awaiting ticket rest)
  | other {pc pc' : CallerPc} {action : CallerAction} (hold : pc.isAsking = false)
      (hnew : pc'.isAsking = false) (hunrelated : action.unrelated) (hkeeps : KeepsTickets s s') :
      TicketMove s s' pc action pc'

/-- A step of a caller begins a ticket, uses the one it has, or keeps them all. -/
theorem callerStep_ticketMove {s s' : SessionState} {pc pc' : CallerPc} {action : CallerAction}
    (h : callerStep s pc action = some (s', pc')) : TicketMove s s' pc action pc' := by
  unfold callerStep at h
  split at h
  case h_1 operation =>
    cases h
    exact .other rfl rfl rfl (withOpen_keeps operation s)
  -- `begin`: a ticket is there only where the native call was made and returned one
  case h_2 answer messageID call =>
    have hbegins := begin_begins answer s
    generalize hresult : begin answer s = result at h hbegins
    cases hbegins with
    | refused error =>
      cases h
      exact .refused answer messageID call error (by rw [hresult]) .refl
    | failed hopen error =>
      cases h
      refine .refused answer messageID call error (by rw [hresult]) (.logged ?_ s)
      simp [SessionEvent.ticketless]
    | begun hopen hlt =>
      cases h
      refine .begun answer messageID call (by rw [hresult]) rfl ?_
      exact ticketTrace_ticketless (by simp [SessionEvent.ticketless]) s.log
  case h_3 ticket rest =>
    cases h
    -- the end of the borrow is the last event of the ticket; the retirement behind it is for none
    have hretired := retireLocked_keeps
      ({ s with activeAsks := s.activeAsks - 1 }.logged [.ticket ticket .endBorrow])
    refine .used ticket .endBorrow rest hretired.tickets fun other => ?_
    exact (hretired.trace other).trans (ticketTrace_concat s.log ticket .endBorrow other)
  case h_4 ticket event rest hne =>
    cases h
    exact .used ticket event rest rfl (ticketTrace_concat s.log ticket event)
  case h_5 =>
    cases h
    exact .other rfl rfl rfl ⟨rfl, fun _ => rfl⟩
  -- the positions of `close` make no call for a ticket
  case h_6 onQueue =>
    split_ifs at h
    all_goals
      cases h
      refine .other rfl rfl rfl ?_
      first
      | exact ⟨rfl, fun _ => rfl⟩
      | exact .logged (by simp [SessionEvent.ticketless]) s
  case h_7 =>
    cases h
    exact .other rfl rfl rfl ⟨rfl, fun _ => rfl⟩
  case h_8 joined =>
    split_ifs at h <;> cases h <;> exact .other rfl rfl rfl .refl
  case h_9 status =>
    have hmoves : s' = stopAndRetire status s ∧ pc'.isAsking = false := by
      dsimp only at h
      split at h <;> cases h <;> exact ⟨rfl, rfl⟩
    rw [hmoves.1]
    exact .other rfl hmoves.2 rfl (stopAndRetire_keeps status s)
  case h_10 joined =>
    split_ifs at h <;> cases h <;> exact .other rfl rfl rfl .refl
  case h_11 failure =>
    cases h
    refine .other rfl rfl rfl ⟨rfl, ?_⟩
    exact ticketTrace_ticketless (by simp [SessionEvent.ticketless]) s.log
  case h_12 => cases h

/-! ## Tickets that are not there yet -/

/-- Nothing is done with a ticket before `begin` returns it. -/
theorem ticketTrace_eq_nil {p : Pool SessionState CallerPc} (hp : sessionSystem.Reachable p)
    {ticket : Nat} (h : p.shared.tickets ≤ ticket) : ticketTrace p.shared.log ticket = [] := by
  have hinv := (atRest_reachable hp).inv
  apply List.eq_nil_iff_forall_not_mem.mpr
  intro event hevent
  obtain ⟨before, after, hlog⟩ := List.append_of_mem (mem_of_mem_ticketTrace hevent)
  obtain ⟨-, hbegun⟩ : Protocol before (.ticket ticket event) := hinv.log before _ after hlog
  obtain ⟨status, hmem⟩ := hbegun
  have hlt := hinv.borrows.fresh ticket ⟨status, by rw [hlog]; exact List.mem_append_left _ hmem⟩
  omega

end CoAkka.Session
