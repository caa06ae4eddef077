import CoAkkaRuntime.Ask.JobCustody

/-!
# Ask — who has a ticket

An activity that got a ticket has it at its own place in the session until its `awaitResult` is
over, whoever runs that. What the native calls have done with the ticket and what is still to do is
the run that `awaitResult` makes alone, and nobody else has the ticket.

* `Held` — an activity, the ticket it has and the calls already made with it.
* `Tickets` — the invariant: each activity is where its ticket says, and no two have the same one.
* `Tickets.submitted`, `laneTurn`, `laneAwaited`, `resumed` — the moves of a suspended ask, one by
  one; `quiet` and `begun` are those of all others.
* `tickets_of_reachable` — so it holds in every state of every process.

The session counts borrows and does not know their owners. The invariant is what gives each borrow
an owner, and it needs that a step of one activity leaves the tickets of the others alone.
-/

namespace CoAkka.Ask

open Host Session Transition

/-! ## Held tickets -/

/-- The place `index` of a session has the ticket of `run`, with `rest` still to do. -/
structure Held (session : Pool SessionState CallerPc) (index : Nat) (run : AskRun)
    (rest : List TicketEvent) : Prop where
  slot : session.threads[index]? = some (.awaiting run.ticket.ticket rest)
  trace : ticketTrace session.shared.log run.ticket.ticket ++ rest = run.trace
  old : run.ticket.ticket < session.shared.tickets

/-- What an activity at `pc` has at its place in the session. -/
def Custody (session : Pool SessionState CallerPc) (index : Nat) : TaskPc → Prop
  | .idle | .beginning .. => True
  | .returning _ run | .choosing run | .submitting run _ _ => Held session index run run.trace
  | .awaiting _ run | .suspended run _ => ∃ rest, Held session index run rest
  | .accepting _ run => Held session index run []
  | .projecting _ run result => Held session index run [] ∧ run.outcome = .ok result

/-- A step that leaves the place `index` and the ticket `ticket` alone. -/
structure Undisturbed (session session' : Pool SessionState CallerPc) (index ticket : Nat) :
    Prop where
  slot : session'.threads[index]? = session.threads[index]?
  trace : ticketTrace session'.shared.log ticket = ticketTrace session.shared.log ticket
  tickets : session.shared.tickets ≤ session'.shared.tickets

section Held

variable {session session' : Pool SessionState CallerPc} {index : Nat} {run : AskRun}
  {rest : List TicketEvent} {pc : TaskPc}

theorem Undisturbed.refl (session : Pool SessionState CallerPc) (index ticket : Nat) :
    Undisturbed session session index ticket := ⟨rfl, rfl, Nat.le_refl _⟩

/-- A ticket is held on where nothing touched it. -/
theorem Held.undisturbed (h : Held session index run rest)
    (hsame : Undisturbed session session' index run.ticket.ticket) :
    Held session' index run rest :=
  ⟨hsame.slot.trans h.slot, by rw [hsame.trace, h.trace], Nat.lt_of_lt_of_le h.old hsame.tickets⟩

/-- Whoever is at a place with a ticket holds it. -/
theorem Custody.held (h : Custody session index pc) (hrun : pc.run? = some run) :
    ∃ rest, Held session index run rest := by
  cases pc with
  | idle | beginning => cases hrun
  | returning | choosing | submitting =>
    cases hrun
    exact ⟨_, h⟩
  | awaiting | suspended =>
    cases hrun
    exact h
  | accepting =>
    cases hrun
    exact ⟨[], h⟩
  | projecting =>
    cases hrun
    exact ⟨[], h.1⟩

/-- Custody survives what does not touch the ticket. -/
theorem Custody.undisturbed (h : Custody session index pc)
    (hsame : ∀ run, pc.run? = some run → Undisturbed session session' index run.ticket.ticket) :
    Custody session' index pc := by
  cases pc with
  | idle | beginning => exact trivial
  | returning _ run | choosing run | submitting run => exact Held.undisturbed h (hsame run rfl)
  | awaiting _ run | suspended run =>
    obtain ⟨rest, hheld⟩ := h
    exact ⟨rest, hheld.undisturbed (hsame run rfl)⟩
  | accepting _ run => exact Held.undisturbed h (hsame run rfl)
  | projecting _ run => exact ⟨h.1.undisturbed (hsame run rfl), h.2⟩

/-- A caller that still awaits is at the rest it was given. -/
theorem awaiting_eq_asking {ticket ticket' : Nat} {rest' : List TicketEvent}
    (h : CallerPc.awaiting ticket rest = .asking ticket' rest') : ticket = ticket' ∧ rest = rest' := by
  cases rest with
  | nil => cases h
  | cons => exact CallerPc.asking.inj h

/-- A place at rest has nothing left to do. -/
theorem Held.resting (h : Held session index run rest) (hresting : resting session index) :
    rest = [] := by
  unfold Ask.resting at hresting
  rw [h.slot] at hresting
  cases rest with
  | nil => rfl
  | cons => cases hresting

end Held

/-! ## What the steps of a host do to the tickets

A step of `beginAsk` is quiet or makes a ticket; a step of `awaitResult` adds one event to its
own.
-/

section HostSteps

variable {q q' : Pool AskState AskPc} {index : Nat} {run : AskRun}

/-- A step of the session besides the asks keeps the tickets, and moves its own caller only. -/
theorem unrelated_keeps {action : SessionAction}
    (hstep : hostAskStep q (.session action) = some q')
    (hunrelated : ∀ i caller, action = .caller i caller → caller.unrelated) :
    KeepsTickets q.shared.session.shared q'.shared.session.shared ∧
    ∀ index, (∀ caller, action ≠ .caller index caller) →
      q'.shared.session.threads[index]? = q.shared.session.threads[index]? := by
  obtain ⟨session, hsession, rfl⟩ := Option.map_eq_some_iff.mp hstep
  cases action with
  | runner action =>
    obtain ⟨s', hrunner, rfl⟩ := Option.map_eq_some_iff.mp hsession
    exact ⟨runnerStep_keeps hrunner, fun _ _ => rfl⟩
  | caller i caller =>
    have hcaller := hunrelated i caller rfl
    have hadvance : q.shared.session.advance (fun s pc => callerStep s pc caller) i
        = some session := hsession
    obtain ⟨pc, s', pc', hpc, hnext, rfl⟩ := Pool.advance_eq_some hadvance
    cases callerStep_ticketMove hnext with
    | other _ _ _ hkeeps =>
      refine ⟨hkeeps, fun index hother => List.getElem?_set_ne ?_⟩
      rintro rfl
      exact hother caller rfl
    | begun | refused | used => cases hcaller

/-- What a step of `beginAsk` does to the tickets. -/
inductive BeginMove (q q' : Pool AskState AskPc) (index : Nat) : AskAction → Prop where
  | quiet {action : AskAction}
      (hthreads : q'.shared.session.threads = q.shared.session.threads)
      (hkeeps : KeepsTickets q.shared.session.shared q'.shared.session.shared)
      (hslot : ∀ wire ticket, q'.threads[index]? = some (.releasing wire (.ok ticket)) →
        q.threads[index]? = some (.releasing wire (.ok ticket))) :
      BeginMove q q' index action
  | begun (answer : BeginAnswer) (call : AskCall) (id : String) (wire : Option Address)
      (hslot : q'.threads[index]? = some
        (.releasing wire (.ok ⟨q.shared.session.shared.tickets, id⟩)))
      (hidle : q.shared.session.threads[index]? = some .idle)
      (hthreads : q'.shared.session.threads = q.shared.session.threads.set index
        (.awaiting q.shared.session.shared.tickets (runAwait id false call).2.trace))
      (htickets : q'.shared.session.shared.tickets = q.shared.session.shared.tickets + 1)
      (htrace : ∀ ticket, ticketTrace q'.shared.session.shared.log ticket
        = ticketTrace q.shared.session.shared.log ticket) :
      BeginMove q q' index (.begin index answer call)

/-- Every step within a `beginAsk` is quiet, or the `begin` that returns a ticket. -/
theorem beginStep_move {action : AskAction} (howns : owns index action)
    (hstep : hostAskStep q (.caller index action) = some q') : BeginMove q q' index action := by
  obtain ⟨pc, s', pc', hpc, hnext, rfl⟩ := caller_moves hstep
  have hmoved := getElem?_set_moved hpc pc'
  -- of the steps of `beginAsk`, only `session.begin` reaches the session
  have hquiet : s'.session = q.shared.session → (∀ wire ticket, pc' ≠ .releasing wire (.ok ticket)) →
      BeginMove q ⟨s', q.threads.set index pc'⟩ index action := by
    intro hsame hne
    refine .quiet (by rw [hsame]) (by rw [hsame]; exact .refl) fun wire ticket hslot => ?_
    exact absurd (Option.some.inj (hmoved.symm.trans hslot)) (hne wire ticket)
  unfold askStep at hnext
  split at hnext
  case h_1 ask =>
    split at hnext <;> cases hnext <;> exact hquiet rfl (by simp)
  case h_2 ask =>
    have hsame : (identify ask.source q.shared).2.session = q.shared.session := by
      unfold identify
      split
      · split <;> rfl
      · rfl
    split at hnext <;> next hidentify =>
      rw [hidentify] at hsame
      cases hnext
      exact hquiet hsame (by simp)
  case h_3 ask id answer =>
    dsimp only at hnext
    split at hnext <;> cases hnext <;> exact hquiet rfl (by simp)
  case h_4 id wire caller answer call =>
    obtain rfl : caller = index := beq_iff_eq.mp howns
    obtain ⟨session, hsession, heq⟩ := Option.map_eq_some_iff.mp hnext
    cases heq
    obtain ⟨pc, s₁, pc₁, hpc₁, hcaller, rfl⟩ := Pool.advance_eq_some hsession
    generalize haction : CallerAction.begin answer id call = action at hcaller
    -- there it is the step of a caller, and either it got a new ticket or nothing happened
    cases callerStep_ticketMove hcaller with
    | begun answer' id' call' hok hnext' htrace =>
      cases haction
      refine .begun answer call id wire (hmoved.trans ?_) hpc₁ rfl hnext' htrace
      rw [hok]
      rfl
    | refused answer' id' call' error herror hkeeps =>
      cases haction
      refine .quiet ?_ hkeeps fun wire' ticket hslot => ?_
      · obtain ⟨hi, hidle⟩ := List.getElem?_eq_some_iff.mp hpc₁
        show q.shared.session.threads.set caller .idle = _
        rw [← hidle]
        exact List.set_getElem_self hi
      · have hends := hmoved.symm.trans hslot
        rw [herror] at hends
        cases hends
    | used => cases haction
    | other _ _ hunrelated =>
      cases haction
      cases hunrelated
  case h_5 wire outcome =>
    cases hnext
    exact hquiet rfl (by simp)
  case h_6 => cases hnext

/-- A `begin` that returned a ticket. -/
theorem beginStep_begun {answer : BeginAnswer} {call : AskCall} {wire : Option Address}
    {ticket : AskTicket} (hstep : hostAskStep q (.caller index (.begin index answer call)) = some q')
    (hslot : q'.threads[index]? = some (.releasing wire (.ok ticket))) :
    ∃ id, ticket = ⟨q.shared.session.shared.tickets, id⟩ ∧
      q.shared.session.threads[index]? = some .idle ∧
      q'.shared.session.threads = q.shared.session.threads.set index
        (.awaiting q.shared.session.shared.tickets (runAwait id false call).2.trace) ∧
      q'.shared.session.shared.tickets = q.shared.session.shared.tickets + 1 ∧
      ∀ ticket, ticketTrace q'.shared.session.shared.log ticket
        = ticketTrace q.shared.session.shared.log ticket := by
  have howns : owns index (.begin index answer call) := beq_self_eq_true index
  generalize haction : AskAction.begin index answer call = action at hstep howns
  cases beginStep_move howns hstep with
  | quiet _ _ hbefore =>
    -- a caller in its `defer` does not begin
    have hbefore := hbefore wire ticket hslot
    obtain ⟨pc, s', pc', hat, hnext, -⟩ := caller_moves hstep
    obtain rfl := Option.some.inj (hbefore.symm.trans hat)
    rw [← haction] at hnext
    cases hnext
  | begun answer' call' id wire' hslot' hidle hthreads htickets htrace =>
    cases haction
    obtain ⟨-, hticket⟩ := AskPc.releasing.inj (Option.some.inj (hslot'.symm.trans hslot))
    obtain rfl := Except.ok.inj hticket
    exact ⟨id, rfl, hidle, hthreads, htickets, htrace⟩

/-- Releasing the frame is the last step, behind which no ticket is in hand. -/
theorem release_slot (hstep : hostAskStep q (.caller index .release) = some q')
    (wire : Option Address) (ticket : AskTicket) :
    q'.threads[index]? ≠ some (.releasing wire (.ok ticket)) := by
  obtain ⟨pc, s', pc', hat, hnext, rfl⟩ := caller_moves hstep
  intro hticket
  have hmoved := (getElem?_set_moved hat pc').symm.trans hticket
  cases pc <;> cases hnext
  cases hmoved

/-- A step of `awaitResult`, which is for the ticket at its place. -/
theorem awaitStep_move (hstep : hostAskStep q (.session (.caller index .ask)) = some q') :
    ∃ ticket event rest, q.shared.session.threads[index]? = some (.asking ticket (event :: rest)) ∧
      q'.shared.session.threads = q.shared.session.threads.set index (.awaiting ticket rest) ∧
      q'.shared.session.shared.tickets = q.shared.session.shared.tickets ∧
      ∀ other, ticketTrace q'.shared.session.shared.log other
        = ticketTrace q.shared.session.shared.log other ++ if ticket = other then [event] else [] := by
  obtain ⟨session, hsession, rfl⟩ := Option.map_eq_some_iff.mp hstep
  have hadvance : q.shared.session.advance (fun s pc => callerStep s pc .ask) index
      = some session := hsession
  obtain ⟨pc, s', pc', hpc, hnext, rfl⟩ := Pool.advance_eq_some hadvance
  generalize haction : CallerAction.ask = action at hnext
  cases callerStep_ticketMove hnext with
  | used ticket event rest htickets htrace => exact ⟨ticket, event, rest, hpc, rfl, htickets, htrace⟩
  | begun | refused => cases haction
  | other _ _ hunrelated =>
    cases haction
    cases hunrelated

end HostSteps

/-! ## The tickets of a process

The invariant of the whole process, one lemma for each kind of move.
-/

structure Tickets (p : Process) : Prop where
  custody : ∀ a, Custody (p.session a.host) a.index (p.tasks a)
  /-- No two activities of a host have one ticket. -/
  apart : ∀ a a' run run', a.host = a'.host → (p.tasks a).run? = some run →
    (p.tasks a').run? = some run' → run.ticket.ticket = run'.ticket.ticket → a = a'
  /-- Nothing is done with a ticket whose job waits. -/
  waiting : ∀ (l : Nat) (lane : Lane), p.lanes.queues[l]? = some lane → ∀ job ∈ lane.queue.waiting,
    Held (p.session job.activity.host) job.activity.index job.run job.run.trace

/-- Only the host that moved has another session. -/
theorem session_setHost (p : Process) (host k : Nat) (asks : Pool AskState AskPc) :
    (p.setHost host asks).session k = if k = host then asks.shared.session else p.session k := by
  by_cases hk : k = host
  · subst hk
    simp [Process.session, Process.setHost]
  · simp [Process.session, Process.setHost, hk]

/-- A job that waits is live. -/
theorem mem_live_of_waiting {lane : Lane} {job : Job} (h : job ∈ lane.queue.waiting) :
    job ∈ lane.live := List.mem_append_right _ h

/-- Two activities of one host have different places in its session. -/
theorem index_ne {a b : Activity} (hba : b ≠ a) (hhost : b.host = a.host) : a.index ≠ b.index := by
  intro heq
  apply hba
  cases a
  cases b
  simp_all

namespace Tickets

variable {p p' : Process} {a : Activity} {pc : TaskPc}

/-- What a move of the activity `a` has to show: that it leaves the tickets of the others alone,
what it has now, and which jobs wait. -/
theorem of_step (h : Tickets p) (hjobs : Jobs p)
    (htasks : p'.tasks = Function.update p.tasks a pc)
    (hsame : ∀ b run, b ≠ a → (p.tasks b).run? = some run →
      Undisturbed (p.session b.host) (p'.session b.host) b.index run.ticket.ticket)
    (hown : Custody (p'.session a.host) a.index pc)
    (hrun : ∀ run, pc.run? = some run → (p.tasks a).run? = some run ∨
      (p.session a.host).shared.tickets ≤ run.ticket.ticket)
    (hwaiting : ∀ (l : Nat) (lane' : Lane), p'.lanes.queues[l]? = some lane' →
      ∀ job ∈ lane'.queue.waiting,
        (job.activity = a → Held (p'.session a.host) a.index job.run job.run.trace) ∧
        (job.activity ≠ a → ∃ (k : Nat) (lane : Lane), p.lanes.queues[k]? = some lane ∧
          job ∈ lane.queue.waiting)) : Tickets p' := by
  -- a ticket that `a` has is not older than those of the others
  have hnew : ∀ b run run', b ≠ a → b.host = a.host → (p.tasks b).run? = some run →
      pc.run? = some run' → run.ticket.ticket ≠ run'.ticket.ticket := by
    intro b run run' hba hhost hb hpc heq
    rcases hrun run' hpc with hold | hfresh
    · exact hba (h.apart b a run run' hhost hb hold heq)
    · obtain ⟨rest, hheld⟩ := (h.custody b).held hb
      have hlt := hheld.old
      rw [hhost] at hlt
      omega
  refine ⟨?_, ?_, ?_⟩
  · intro b
    rw [htasks]
    by_cases hba : b = a
    · subst hba
      rw [Function.update_self]
      exact hown
    · rw [Function.update_of_ne hba]
      exact (h.custody b).undisturbed fun run hb => hsame b run hba hb
  · intro b b' run run' hhost hb hb' heq
    rw [htasks] at hb hb'
    by_cases hba : b = a
    · by_cases hba' : b' = a
      · rw [hba, hba']
      · subst hba
        rw [Function.update_self] at hb
        rw [Function.update_of_ne hba'] at hb'
        exact absurd heq.symm (hnew b' run' run hba' hhost.symm hb' hb)
    · rw [Function.update_of_ne hba] at hb
      by_cases hba' : b' = a
      · subst hba'
        rw [Function.update_self] at hb'
        exact absurd heq (hnew b run run' hba hhost hb hb')
      · rw [Function.update_of_ne hba'] at hb'
        exact h.apart b b' run run' hhost hb hb' heq
  · intro l lane' hlane' job hjob
    obtain ⟨hmine, hothers⟩ := hwaiting l lane' hlane' job hjob
    by_cases hja : job.activity = a
    · rw [hja]
      exact hmine hja
    · obtain ⟨k, lane, hlane, hmem⟩ := hothers hja
      have htask := hjobs.live k lane hlane job (mem_live_of_waiting hmem)
      exact (h.waiting k lane hlane job hmem).undisturbed
        (hsame job.activity job.run hja (by rw [htask]; rfl))

/-- A move of an activity that has no job. -/
theorem move (h : Tickets p) (hjobs : Jobs p) (hqueues : p'.lanes.queues = p.lanes.queues)
    (htasks : p'.tasks = Function.update p.tasks a pc)
    (hfree : ∀ run number, p.tasks a ≠ .suspended run number)
    (hsame : ∀ b run, b ≠ a → (p.tasks b).run? = some run →
      Undisturbed (p.session b.host) (p'.session b.host) b.index run.ticket.ticket)
    (hown : Custody (p'.session a.host) a.index pc)
    (hrun : ∀ run, pc.run? = some run → (p.tasks a).run? = some run ∨
      (p.session a.host).shared.tickets ≤ run.ticket.ticket) : Tickets p' := by
  refine h.of_step hjobs htasks hsame hown hrun fun l lane hlane job hjob => ?_
  rw [hqueues] at hlane
  refine ⟨fun hja => ?_, fun _ => ⟨l, lane, hlane, hjob⟩⟩
  have htask := hjobs.live l lane hlane job (mem_live_of_waiting hjob)
  rw [hja] at htask
  exact absurd htask (hfree _ _)

/-- A move of an activity that leaves the sessions alone. -/
theorem turn (h : Tickets p) (hjobs : Jobs p) (hqueues : p'.lanes.queues = p.lanes.queues)
    (hsessions : ∀ host, p'.session host = p.session host)
    (htasks : p'.tasks = Function.update p.tasks a pc)
    (hfree : ∀ run number, p.tasks a ≠ .suspended run number)
    (hown : Custody (p.session a.host) a.index pc)
    (hrun : pc.run? = none ∨ pc.run? = (p.tasks a).run?) : Tickets p' := by
  refine h.move hjobs hqueues htasks hfree (fun b run _ _ => ?_) ?_ fun run hpc => ?_
  · rw [hsessions]
    exact .refl _ _ _
  · rw [hsessions]
    exact hown
  · rcases hrun with hnone | hsame
    · rw [hnone] at hpc
      cases hpc
    · exact .inl (hsame ▸ hpc)

/-- Steps that move no activity and put no job into a lane. -/
theorem same (h : Tickets p) (hjobs : Jobs p) (htasks : p'.tasks = p.tasks)
    (hsame : ∀ b run, (p.tasks b).run? = some run →
      Undisturbed (p.session b.host) (p'.session b.host) b.index run.ticket.ticket)
    (hwaiting : ∀ (l : Nat) (lane' : Lane), p'.lanes.queues[l]? = some lane' →
      ∀ job ∈ lane'.queue.waiting, ∃ (k : Nat) (lane : Lane), p.lanes.queues[k]? = some lane ∧
        job ∈ lane.queue.waiting) : Tickets p' := by
  refine ⟨?_, ?_, ?_⟩
  · intro b
    rw [htasks]
    exact (h.custody b).undisturbed (hsame b)
  · rw [htasks]
    exact h.apart
  · intro l lane' hlane' job hjob
    obtain ⟨k, lane, hlane, hmem⟩ := hwaiting l lane' hlane' job hjob
    have htask := hjobs.live k lane hlane job (mem_live_of_waiting hmem)
    exact (h.waiting k lane hlane job hmem).undisturbed
      (hsame job.activity job.run (by rw [htask]; rfl))

/-- What a quiet step of a host leaves alone. -/
theorem quiet_undisturbed {host : Nat} {asks : Pool AskState AskPc}
    (hthreads : asks.shared.session.threads = (p.session host).threads)
    (hkeeps : KeepsTickets (p.session host).shared asks.shared.session.shared)
    (k index ticket : Nat) :
    Undisturbed (p.session k) ((p.setHost host asks).session k) index ticket := by
  rw [session_setHost]
  split_ifs with hk
  · subst hk
    exact ⟨by rw [hthreads], hkeeps.trace ticket, Nat.le_of_eq hkeeps.tickets.symm⟩
  · exact .refl _ _ _

/-- An activity goes on in `beginAsk` or leaves it, without touching a ticket. -/
theorem quiet (h : Tickets p) (hjobs : Jobs p) {asks : Pool AskState AskPc} {action : AskAction}
    (howns : owns a.index action) (hstep : p.beginStep a action = some asks)
    (hslot : ∀ wire ticket, asks.threads[a.index]? ≠ some (.releasing wire (.ok ticket)))
    (hqueues : p'.lanes.queues = p.lanes.queues) (hhosts : p'.hosts = (p.setHost a.host asks).hosts)
    (htasks : p'.tasks = Function.update p.tasks a pc)
    (hfree : ∀ run number, p.tasks a ≠ .suspended run number)
    (hown : Custody (p.session a.host) a.index pc)
    (hrun : pc.run? = none ∨ pc.run? = (p.tasks a).run?) : Tickets p' := by
  have hsession : ∀ host, p'.session host = (p.setHost a.host asks).session host := by
    intro host
    unfold Process.session
    rw [hhosts]
  cases beginStep_move howns hstep with
  | quiet hthreads hkeeps =>
    have hsame := quiet_undisturbed hthreads hkeeps
    refine h.move hjobs hqueues htasks hfree (fun b run _ _ => ?_) ?_ fun run hpc => ?_
    · rw [hsession]
      exact hsame _ _ _
    · rw [hsession]
      exact hown.undisturbed fun run _ => hsame _ _ _
    · rcases hrun with hnone | hrun
      · rw [hnone] at hpc
        cases hpc
      · exact .inl (hrun ▸ hpc)
  | begun answer call id wire hticket => exact absurd hticket (hslot _ _)

/-- A step of `awaitResult` leaves the tickets of the others alone, and goes on with its own. -/
theorem await_effect (h : Tickets p) {asks : Pool AskState AskPc} {run : AskRun}
    (hrun : (p.tasks a).run? = some run) (hstep : p.awaitStep a = some asks) :
    (∀ b run', b ≠ a → (p.tasks b).run? = some run' →
      Undisturbed (p.session b.host) ((p.setHost a.host asks).session b.host) b.index
        run'.ticket.ticket) ∧
    ∃ event rest, Held (p.session a.host) a.index run (event :: rest) ∧
      Held asks.shared.session a.index run rest := by
  obtain ⟨ticket, event, rest, hpc, hthreads, htickets, htrace⟩ := awaitStep_move hstep
  obtain ⟨rest', hheld⟩ := (h.custody a).held hrun
  obtain ⟨rfl, rfl⟩ := awaiting_eq_asking (Option.some.inj (hheld.slot.symm.trans hpc))
  refine ⟨?_, event, rest, hheld, ?_, ?_, ?_⟩
  · intro b run' hba hb
    rw [session_setHost]
    split_ifs with hhost
    · have hindex : a.index ≠ b.index := index_ne hba hhost
      have hticket : run.ticket.ticket ≠ run'.ticket.ticket := fun heq =>
        hba (h.apart a b run run' hhost.symm hrun hb heq).symm
      rw [hhost]
      refine ⟨?_, ?_, Nat.le_of_eq htickets.symm⟩
      · rw [hthreads]
        exact List.getElem?_set_ne hindex
      · rw [htrace, if_neg hticket, List.append_nil]
        rfl
    · exact .refl _ _ _
  · rw [hthreads]
    exact getElem?_set_moved hpc _
  · rw [htrace, if_pos rfl, List.append_assoc]
    exact hheld.trace
  · rw [htickets]
    exact hheld.old

/-- A ticket that `begin` returned is new, and nothing is done with it. -/
theorem begun (h : Tickets p) (hjobs : Jobs p) (hreach : askSystem.Reachable (p.hosts a.host))
    {mode : AskMode} {answer : BeginAnswer} {call : AskCall} {wire : Option Address}
    {ticket : AskTicket} {asks : Pool AskState AskPc} (hpc : (p.tasks a).run? = none)
    (hstep : p.beginStep a (.begin a.index answer call) = some asks)
    (hslot : asks.threads[a.index]? = some (.releasing wire (.ok ticket))) :
    Tickets ((p.setHost a.host asks).setTask a (.returning mode ⟨ticket, call⟩)) := by
  obtain ⟨id, rfl, hidle, hthreads, htickets, htrace⟩ := beginStep_begun hstep hslot
  have hnil := ticketTrace_eq_nil (session_reachable hreach) (Nat.le_refl _)
  refine h.move hjobs rfl rfl ?_ (fun b run hba hb => ?_) ?_ fun run hrun => ?_
  · intro run number hsuspended
    rw [hsuspended] at hpc
    cases hpc
  · show Undisturbed _ ((p.setHost a.host asks).session b.host) _ _
    rw [session_setHost]
    split_ifs with hhost
    · -- the others have their own places, and older tickets
      have hindex : a.index ≠ b.index := index_ne hba hhost
      rw [hhost]
      refine ⟨?_, htrace _, by rw [htickets]; exact Nat.le_succ _⟩
      rw [hthreads]
      exact List.getElem?_set_ne hindex
    · exact .refl _ _ _
  · show Custody ((p.setHost a.host asks).session a.host) _ _
    rw [session_setHost, if_pos rfl]
    refine ⟨?_, ?_, ?_⟩
    · rw [hthreads]
      exact getElem?_set_moved hidle _
    · rw [htrace, hnil]
      rfl
    · rw [htickets]
      exact Nat.lt_succ_self _
  · obtain rfl := Option.some.inj hrun
    exact .inr (Nat.le_refl _)

/-- The steps of a session that a process admits from elsewhere use no ticket. -/
theorem allows_unrelated {host : Nat} {action : SessionAction} (h : p.allows host action) :
    ∀ i caller, action = .caller i caller → caller.unrelated := by
  rintro i caller rfl
  exact (Bool.and_eq_true_iff.mp h).1

/-- A caller that steps on its own is in no entry point of the executor. -/
theorem allows_idle {host i : Nat} {action : CallerAction} (h : p.allows host (.caller i action)) :
    p.tasks ⟨host, i⟩ = .idle := by
  unfold Process.allows at h
  cases hpc : p.tasks ⟨host, i⟩ with
  | idle => rfl
  | _ => simp [hpc] at h

/-- A job that is put into a lane waits there with a ticket nothing was done with. -/
theorem submitted (h : Tickets p) (hjobs : Jobs p) {run : AskRun} {number l : Nat}
    (hpc : p.tasks a = .submitting run number l) :
    Tickets ({ p with lanes := p.lanes.async l ⟨number, a, run⟩ }.setTask a
      (.suspended run number)) := by
  have hcustody := h.custody a
  rw [hpc] at hcustody
  refine h.of_step hjobs rfl (fun _ _ _ _ => .refl _ _ _) ⟨_, hcustody⟩
    (fun run' hrun => .inl (by rw [hpc]; exact hrun)) fun k lane' hlane' job hjob => ?_
  have hl : l < p.lanes.queues.length := by
    rw [hjobs.lanes.eight, (hjobs.submitting a run number l hpc).1]
    exact Nat.mod_lt _ (by decide)
  simp only [Process.setTask] at hlane'
  rw [Lanes.Valid.async_eq_set (List.getElem?_eq_getElem hl), List.getElem?_set] at hlane'
  have hbefore : job = ⟨number, a, run⟩ ∨ ∃ (k : Nat) (lane : Lane),
      p.lanes.queues[k]? = some lane ∧ job ∈ lane.queue.waiting := by
    split_ifs at hlane' with heq
    · obtain rfl := Option.some.inj hlane'
      rcases List.mem_append.mp hjob with hold | hlast
      · exact .inr ⟨l, _, List.getElem?_eq_getElem hl, hold⟩
      · exact .inl (List.mem_singleton.mp hlast)
    · exact .inr ⟨k, lane', hlane', hjob⟩
  rcases hbefore with rfl | ⟨k', lane, hlane, hmem⟩
  · exact ⟨fun _ => hcustody, fun hne => absurd rfl hne⟩
  · refine ⟨fun hja => ?_, fun _ => ⟨k', lane, hlane, hmem⟩⟩
    have htask := hjobs.live k' lane hlane job (mem_live_of_waiting hmem)
    rw [hja, hpc] at htask
    cases htask

/-- A lane that begins with a job, or is done with one, leaves the tickets alone. -/
theorem laneTurn (h : Tickets p) (hjobs : Jobs p) {l : Nat} {lane lane' : Lane}
    (hlane : p.lanes.queues[l]? = some lane)
    (hmove : lane.start = some lane' ∨ lane.finish = some lane') : Tickets (p.setLane l lane') := by
  refine h.same hjobs rfl (fun _ _ _ => .refl _ _ _) fun k lane₁ hlane₁ job hjob => ?_
  have hwaiting : ∀ job ∈ lane'.queue.waiting, job ∈ lane.queue.waiting := by
    intro job hjob
    rcases hmove with hstart | hfinish
    · obtain ⟨first, rest, -, -, hrest, rfl⟩ := Lane.Valid.start_eq_some hstart
      rw [hrest]
      exact List.mem_cons_of_mem _ hjob
    · obtain ⟨first, -, -, rfl⟩ := Lane.Valid.finish_eq_some hfinish
      exact hjob
  simp only [Process.setLane] at hlane₁
  rw [List.getElem?_set] at hlane₁
  split_ifs at hlane₁
  · obtain rfl := Option.some.inj hlane₁
    exact ⟨l, lane, hlane, hwaiting job hjob⟩
  · exact ⟨k, lane₁, hlane₁, hjob⟩

/-- A lane that awaits for its job uses the ticket of that job's activity. -/
theorem laneAwaited (h : Tickets p) (hjobs : Jobs p) {l : Nat} {lane : Lane} {job : Job}
    {asks : Pool AskState AskPc} (hlane : p.lanes.queues[l]? = some lane)
    (hjob : lane.current = some job) (hstep : p.awaitStep job.activity = some asks) :
    Tickets (p.setHost job.activity.host asks) := by
  have hvalid := hjobs.lanes.lane l lane hlane
  have hcurrent := Jobs.mem_live_current hjob
  have htask := hjobs.live l lane hlane job hcurrent
  obtain ⟨hothers, event, rest, -, hheld⟩ :=
    h.await_effect (hjobs.run?_current hlane hjob) hstep
  have hsame : (p.setHost job.activity.host asks).tasks
      = Function.update p.tasks job.activity (.suspended job.run job.number) := by
    rw [← htask, Function.update_eq_self]
    rfl
  refine h.of_step hjobs hsame hothers ?_ (fun run hrun => .inl (by rw [htask]; exact hrun))
    fun k lane₁ hlane₁ other hother => ?_
  · rw [session_setHost, if_pos rfl]
    exact ⟨rest, hheld⟩
  · refine ⟨fun hsame => ?_, fun _ => ⟨k, lane₁, hlane₁, hother⟩⟩
    -- the job that runs is the only one of its task
    have htask' := hjobs.live k lane₁ hlane₁ other (mem_live_of_waiting hother)
    rw [hsame, htask] at htask'
    obtain ⟨-, hnumber⟩ := TaskPc.suspended.inj htask'
    obtain ⟨rfl, -⟩ := hjobs.lanes.job_unique hlane₁ hlane
      ((hjobs.lanes.lane k lane₁ hlane₁).submitted_of_live (mem_live_of_waiting hother))
      (hvalid.submitted_of_live hcurrent) hnumber.symm
    obtain rfl := Option.some.inj (hlane.symm.trans hlane₁)
    exact absurd hnumber.symm (hvalid.current_notMem_waiting hjob other hother)

/-- A task that is resumed has its ticket back, used up. -/
theorem resumed (h : Tickets p) (hjobs : Jobs p) {l : Nat} {lane : Lane} {job : Job}
    (hlane : p.lanes.queues[l]? = some lane) (hjob : lane.current = some job)
    (hresting : resting (p.session job.activity.host) job.activity.index) :
    Tickets ((p.setLane l { lane with worker := .ending }).resume job) := by
  have hcurrent := Jobs.mem_live_current hjob
  have htask := hjobs.live l lane hlane job hcurrent
  obtain ⟨rest, hheld⟩ := (h.custody job.activity).held (hjobs.run?_current hlane hjob)
  obtain rfl := hheld.resting hresting
  rw [hjobs.resume_eq hlane hjob]
  refine h.of_step hjobs rfl (fun _ _ _ _ => .refl _ _ _) hheld
    (fun run hrun => .inl (by rw [htask]; exact hrun)) fun k lane₁ hlane₁ other hother => ?_
  have hbefore : ∃ (k : Nat) (lane : Lane), p.lanes.queues[k]? = some lane ∧
      other ∈ lane.queue.waiting := by
    simp only [Process.logged, Process.setTask, Process.setLane] at hlane₁
    rw [List.getElem?_set] at hlane₁
    split_ifs at hlane₁
    · obtain rfl := Option.some.inj hlane₁
      exact ⟨l, lane, hlane, hother⟩
    · exact ⟨k, lane₁, hlane₁, hother⟩
  obtain ⟨k', lane₀, hlane₀, hmem⟩ := hbefore
  refine ⟨fun hsame => ?_, fun _ => ⟨k', lane₀, hlane₀, hmem⟩⟩
  -- nothing is done with a ticket whose job waits, and this one is used up
  have htask' := hjobs.live k' lane₀ hlane₀ other (mem_live_of_waiting hmem)
  have hwaits := h.waiting k' lane₀ hlane₀ other hmem
  rw [hsame] at htask' hwaits
  exact hwaits

/-- **A step keeps the tickets with their activities.** -/
theorem step (h : Tickets p) (hjobs : Jobs p)
    (hhosts : ∀ host, askSystem.Reachable (p.hosts host)) (hmove : ProcessMove p p') :
    Tickets p' := by
  have hfree : ∀ {b : Activity} {pc : TaskPc}, pc.aside → p.tasks b = pc →
      ∀ run number, p.tasks b ≠ .suspended run number := by
    intro b pc haside hb run number hsuspended
    rw [← hb, hsuspended] at haside
    cases haside
  have hnone : ∀ {b : Activity}, (p.tasks b).run? = none →
      ∀ run number, p.tasks b ≠ .suspended run number := fun hb =>
    hfree (Jobs.aside_of_run?_none hb) rfl
  cases hmove with
  | session host action asks hallows hstep =>
    refine h.same hjobs rfl (fun b run hb => ?_) fun l lane hlane job hjob =>
      ⟨l, lane, hlane, hjob⟩
    rw [session_setHost]
    split_ifs with hhost
    · subst hhost
      obtain ⟨hkeeps, hthreads⟩ := unrelated_keeps hstep (allows_unrelated hallows)
      refine ⟨hthreads b.index fun caller haction => ?_, hkeeps.trace _,
        Nat.le_of_eq hkeeps.tickets.symm⟩
      -- the caller is in no entry point, so it has no ticket
      rw [haction] at hallows
      rw [allows_idle hallows] at hb
      cases hb
    · exact .refl _ _ _
  | cancelled a mode hpc =>
    exact h.same hjobs rfl (fun _ _ _ => .refl _ _ _) fun l lane hlane job hjob =>
      ⟨l, lane, hlane, hjob⟩
  | entered a mode ask action asks hpc howns hstep hslot =>
    exact h.quiet hjobs howns hstep hslot rfl rfl rfl (hnone hpc) trivial (.inl rfl)
  | failed a mode error action asks hpc howns hstep hslot =>
    refine h.quiet hjobs howns hstep (fun wire ticket hticket => ?_) rfl rfl rfl (hnone hpc) trivial
      (.inl rfl)
    cases hslot.symm.trans hticket
  | begun a mode ask answer call wire ticket asks hpc hfits hstep hslot =>
    exact h.begun hjobs (hhosts a.host) hpc hstep hslot
  | trapped a action asks hstep hslot =>
    have halive := (identified_of_reachable (.step (hhosts a.host) hstep)).alive
    exact absurd (List.mem_of_getElem? hslot) halive
  | released a mode run asks hpc hstep =>
    have hcustody := h.custody a
    rw [hpc] at hcustody
    have howns : owns a.index .release := rfl
    refine h.quiet hjobs howns hstep (release_slot hstep) rfl rfl rfl (hfree rfl hpc) ?_ (.inr ?_)
    · split
      · exact hcustody
      · exact ⟨_, hcustody⟩
    · rw [hpc]
      split <;> rfl
  | awaited a mode run asks hpc hstep =>
    have hrun : (p.tasks a).run? = some run := by rw [hpc]; rfl
    obtain ⟨hothers, event, rest, -, hheld⟩ := h.await_effect hrun hstep
    refine h.move hjobs rfl rfl (hfree rfl hpc) hothers ?_ fun run' hrun => .inl ?_
    · show Custody ((p.setHost a.host asks).session a.host) _ _
      rw [session_setHost, if_pos rfl]
      split_ifs with hresting
      · obtain rfl := hheld.resting hresting
        exact hheld
      · exact ⟨rest, hheld⟩
    · rw [hpc]
      split_ifs at hrun <;> exact hrun
  | chosen a run l lanes hpc hchoose =>
    have hcustody := h.custody a
    rw [hpc] at hcustody
    have hqueues : lanes.queues = p.lanes.queues := by
      rw [hjobs.lanes.choose] at hchoose
      cases hchoose
      rfl
    exact h.turn hjobs hqueues (fun _ => rfl) rfl (hfree rfl hpc) hcustody (.inr (by rw [hpc]; rfl))
  | unchosen hchoose =>
    rw [hjobs.lanes.choose] at hchoose
    cases hchoose
  | submitted a run number l hpc => exact h.submitted hjobs hpc
  | refused a mode run failure hpc houtcome =>
    exact h.turn hjobs rfl (fun _ => rfl) rfl (hfree rfl hpc) trivial (.inl rfl)
  | counted a mode run result hpc houtcome =>
    have hcustody := h.custody a
    rw [hpc] at hcustody
    exact h.turn hjobs rfl (fun _ => rfl) rfl (hfree rfl hpc) ⟨hcustody, houtcome⟩
      (.inr (by rw [hpc]; rfl))
  | projected a mode run result reasonName hpc =>
    exact h.turn hjobs rfl (fun _ => rfl) rfl (hfree rfl hpc) trivial (.inl rfl)
  | lane l lane lane' hlane hmove => exact h.laneTurn hjobs hlane hmove
  | laneAwaited l lane job asks hlane hjob hstep => exact h.laneAwaited hjobs hlane hjob hstep
  | resumed l lane job hlane hjob hresting => exact h.resumed hjobs hlane hjob hresting

end Tickets

/-- Every ticket is in the custody of one activity, in every reachable process. -/
theorem tickets_of_reachable {p : Process} (hp : processSystem.Reachable p) : Tickets p := by
  refine System.Reachable.invariant ?_ ?_ hp
  · rintro p ⟨-, hp⟩
    rw [hp]
    refine ⟨fun _ => trivial, ?_, ?_⟩
    · intro a a' run run' _ ha
      cases ha
    · intro l lane hlane job hjob
      obtain rfl := List.eq_of_mem_replicate (List.mem_of_getElem? hlane)
      cases hjob
  · intro p action p' hp h hstep
    exact h.step (jobs_of_reachable hp) (host_reachable hp) (processStep_move hstep)

end CoAkka.Ask
