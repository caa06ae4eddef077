import CoAkkaRuntime.Ask.TicketCustody
import CoAkkaRuntime.Transition.Tokens

/-!
# Ask — the laws of the executor and of the suspended tasks

The eight lanes take every job once, in turn and in order. A task that `askPayloadAsync` suspends is
resumed once, by its own job, after its ticket is given back; until then its job is in one lane. Of
each host at most 64 asks have a ticket, and of all hosts at most eight suspended tasks are in
`awaitResult`.

* `executor_law` — of a lane: each job taken once, one after the other, in the order it was handed
  over, and its number tells its lane.
* `suspended_law` — of a suspended task: one live job, one resume with the outcome of its own
  `awaitResult`, after the ticket is destroyed and the borrow has ended.
* `twoAsks_reaches` — a run with two asks of one host, both laws' example.

What is proved of the lanes is in `RuntimeAskExecutor`, of the jobs in `JobCustody` and of the
tickets in `TicketCustody`. Here the three are put together along a run.
-/

namespace CoAkka.Ask

open Host Session Transition

/-! ## Completed tickets

A ticket is done when its borrow has ended, and nothing happens to it afterwards: its calls in the
log are those of the whole `awaitResult`.
-/

/-- The `awaitResult` of `run` is over, with everything it does to its ticket. -/
structure Done (session : Pool SessionState CallerPc) (run : AskRun) : Prop where
  trace : ticketTrace session.shared.log run.ticket.ticket = run.trace
  old : run.ticket.ticket < session.shared.tickets

/-- Nothing is left to do with a ticket that is held with an empty rest. -/
theorem Held.done {session : Pool SessionState CallerPc} {index : Nat} {run : AskRun}
    (h : Held session index run []) : Done session run :=
  ⟨by simpa using h.trace, h.old⟩

/-- Every `awaitResult` ends by destroying its ticket and giving the borrow back, and gives it back
once. -/
theorem AskRun.trace_ends (run : AskRun) : ∃ body, run.trace = body ++ [.destroy, .endBorrow] ∧
    TicketEvent.endBorrow ∉ body := by
  obtain ⟨body, htrace, -, hborrow, -⟩ :=
    (runAwait_first run.ticket.messageID run.call).2.2.protocol.ends
  exact ⟨body, htrace, hborrow⟩

/-- Nothing comes after the end of a borrow. -/
theorem AskRun.trace_maximal {run run' : AskRun} {event : TicketEvent} {rest : List TicketEvent}
    (h : run.trace ++ event :: rest = run'.trace) : False := by
  obtain ⟨body, htrace, -⟩ := run.trace_ends
  obtain ⟨body', htrace', hborrow'⟩ := run'.trace_ends
  have hsplit : (body' ++ [.destroy]) ++ .endBorrow :: [] =
      (body ++ [.destroy]) ++ .endBorrow :: event :: rest := by
    rw [htrace, htrace'] at h
    simpa using h.symm
  have hnot : TicketEvent.endBorrow ∉ body' ++ [.destroy] := by simpa using hborrow'
  have hends := ((List.append_cons_inj_of_notMem hnot List.not_mem_nil).mp hsplit).2.2
  cases hends

/-- A ticket that is done was destroyed and returned to its session. -/
theorem Done.returned {session : Pool SessionState CallerPc} {run : AskRun}
    (h : Done session run) : .ticket run.ticket.ticket .destroy ∈ session.shared.log ∧
      .ticket run.ticket.ticket .endBorrow ∈ session.shared.log := by
  obtain ⟨body, htrace, -⟩ := run.trace_ends
  have hmem : ∀ event ∈ [TicketEvent.destroy, .endBorrow],
      .ticket run.ticket.ticket event ∈ session.shared.log := by
    intro event hevent
    apply mem_of_mem_ticketTrace
    rw [h.trace, htrace]
    exact List.mem_append_right _ hevent
  exact ⟨hmem _ (by simp), hmem _ (by simp)⟩

section Step

variable {p p' : Process}

/-- What a step does to the tickets of a host: it goes on with one that its activity has, or it
leaves the traces as they are. -/
theorem Tickets.traces (h : Tickets p) (hjobs : Jobs p)
    (hhosts : ∀ host, askSystem.Reachable (p.hosts host)) (hmove : ProcessMove p p') (host : Nat) :
    (p.session host).shared.tickets ≤ (p'.session host).shared.tickets ∧ ∀ ticket,
      ticketTrace (p'.session host).shared.log ticket
        = ticketTrace (p.session host).shared.log ticket ∨
      ∃ a run event rest, (p.tasks a).run? = some run ∧ run.ticket.ticket = ticket ∧
        Held (p.session host) a.index run (event :: rest) := by
  -- three kinds of moves: those that leave the session alone, those of `beginAsk`, of `awaitResult`
  have hsame : ∀ {session : Pool SessionState CallerPc}, session = p.session host →
      (p.session host).shared.tickets ≤ session.shared.tickets ∧ ∀ ticket,
        ticketTrace session.shared.log ticket = ticketTrace (p.session host).shared.log ticket ∨
        ∃ a run event rest, (p.tasks a).run? = some run ∧ run.ticket.ticket = ticket ∧
          Held (p.session host) a.index run (event :: rest) := by
    rintro _ rfl
    exact ⟨Nat.le_refl _, fun _ => .inl rfl⟩
  have hbegin : ∀ {a : Activity} {action : AskAction} {asks : Pool AskState AskPc},
      owns a.index action → p.beginStep a action = some asks →
      (p.session host).shared.tickets ≤ ((p.setHost a.host asks).session host).shared.tickets ∧
      ∀ ticket, ticketTrace ((p.setHost a.host asks).session host).shared.log ticket
        = ticketTrace (p.session host).shared.log ticket := by
    intro a action asks howns hstep
    rw [session_setHost]
    split_ifs with hhost
    · subst hhost
      cases beginStep_move howns hstep with
      | quiet _ hkeeps => exact ⟨Nat.le_of_eq hkeeps.tickets.symm, hkeeps.trace⟩
      | begun _ _ _ _ _ _ _ htickets htrace =>
        exact ⟨by rw [htickets]; exact Nat.le_succ _, htrace⟩
    · exact ⟨Nat.le_refl _, fun _ => rfl⟩
  have hawait : ∀ {a : Activity} {run : AskRun} {asks : Pool AskState AskPc},
      (p.tasks a).run? = some run → p.awaitStep a = some asks →
      (p.session host).shared.tickets ≤ ((p.setHost a.host asks).session host).shared.tickets ∧
      ∀ ticket, ticketTrace ((p.setHost a.host asks).session host).shared.log ticket
        = ticketTrace (p.session host).shared.log ticket ∨
      ∃ a run event rest, (p.tasks a).run? = some run ∧ run.ticket.ticket = ticket ∧
        Held (p.session host) a.index run (event :: rest) := by
    intro a run asks hrun hstep
    rw [session_setHost]
    split_ifs with hhost
    · subst hhost
      obtain ⟨ticket, event, rest, hpc, -, htickets, htrace⟩ := awaitStep_move hstep
      obtain ⟨rest', hheld⟩ := (h.custody a).held hrun
      obtain ⟨rfl, rfl⟩ := awaiting_eq_asking (Option.some.inj (hheld.slot.symm.trans hpc))
      refine ⟨Nat.le_of_eq htickets.symm, fun other => ?_⟩
      -- only the ticket of this activity gets a call, and the activity holds it
      by_cases hother : run.ticket.ticket = other
      · exact .inr ⟨a, run, event, rest, hrun, hother, hheld⟩
      · left
        rw [htrace, if_neg hother, List.append_nil]
        rfl
    · exact ⟨Nat.le_refl _, fun _ => .inl rfl⟩
  cases hmove with
  | session k action asks hallows hstep =>
    rw [session_setHost]
    split_ifs with hhost
    · subst hhost
      obtain ⟨hkeeps, -⟩ := unrelated_keeps hstep (allows_unrelated hallows)
      exact ⟨Nat.le_of_eq hkeeps.tickets.symm, fun ticket => .inl (hkeeps.trace ticket)⟩
    · exact ⟨Nat.le_refl _, fun _ => .inl rfl⟩
  | entered a mode ask action asks _ howns hstep =>
    exact ⟨(hbegin howns hstep).1, fun ticket => .inl ((hbegin howns hstep).2 ticket)⟩
  | failed a mode error action asks _ howns hstep =>
    exact ⟨(hbegin howns hstep).1, fun ticket => .inl ((hbegin howns hstep).2 ticket)⟩
  | begun a mode ask answer call wire ticket asks _ _ hstep =>
    have howns : owns a.index (.begin a.index answer call) := beq_self_eq_true a.index
    exact ⟨(hbegin howns hstep).1, fun ticket => .inl ((hbegin howns hstep).2 ticket)⟩
  | trapped a action asks hstep hslot =>
    have halive := (identified_of_reachable (.step (hhosts a.host) hstep)).alive
    exact absurd (List.mem_of_getElem? hslot) halive
  | released a mode run asks hpc hstep =>
    have howns : owns a.index .release := rfl
    exact ⟨(hbegin howns hstep).1, fun ticket => .inl ((hbegin howns hstep).2 ticket)⟩
  | awaited a mode run asks hpc hstep =>
    have hrun : (p.tasks a).run? = some run := by rw [hpc]; rfl
    exact hawait hrun hstep
  | laneAwaited l lane job asks hlane hjob hstep =>
    exact hawait (hjobs.run?_current hlane hjob) hstep
  | resumed l lane job hlane hjob =>
    rw [hjobs.resume_eq hlane hjob]
    exact hsame rfl
  | cancelled | chosen | unchosen | submitted | refused | counted | projected | lane =>
    exact hsame rfl

/-- What is done with a ticket stays all that is done with it. -/
theorem Done.step (h : Tickets p) (hjobs : Jobs p)
    (hhosts : ∀ host, askSystem.Reachable (p.hosts host)) (hmove : ProcessMove p p') {host : Nat}
    {run : AskRun} (hdone : Done (p.session host) run) : Done (p'.session host) run := by
  obtain ⟨htickets, htraces⟩ := h.traces hjobs hhosts hmove host
  refine ⟨?_, Nat.lt_of_lt_of_le hdone.old htickets⟩
  rcases htraces run.ticket.ticket with hsame | ⟨a, run', event, rest, -, hticket, hheld⟩
  · rw [hsame]
    exact hdone.trace
  · -- the ticket has nothing left to do
    have htrace := hheld.trace
    rw [hticket, hdone.trace] at htrace
    exact (AskRun.trace_maximal htrace).elim

end Step

/-! ## Resumed tasks

A job number is used up by one resume.
-/

/-- The number of the job that an activity is about to hand over, or waits for. -/
def TaskPc.number? : TaskPc → Option Nat
  | .submitting _ number _ | .suspended _ number => some number
  | _ => none

def ProcessEvent.resumes (number : Nat) : ProcessEvent → Bool
  | .resumed job _ => job.number == number
  | _ => false

/-- A number that was given out is with one activity or has resumed one, never both. -/
structure Resumes (p : Process) : Prop where
  ledger : Ledger (· < p.lanes.chosen.length) (fun a => (p.tasks a).number?)
    (fun number => p.log.countP (·.resumes number))
  value : ∀ job value, .resumed job value ∈ p.log →
    value = job.run.outcome ∧ Done (p.session job.activity.host) job.run

theorem TaskPc.number?_update (tasks : Activity → TaskPc) (a : Activity) (pc : TaskPc) :
    (fun b => (Function.update tasks a pc b).number?)
      = Function.update (fun b => (tasks b).number?) a pc.number? := by
  funext b
  exact Function.apply_update (fun _ => TaskPc.number?) tasks a pc b

namespace Resumes

variable {p p' : Process} {a : Activity} {pc : TaskPc}

/-- A step that neither gives out a number nor resumes a task. -/
theorem aside (h : Resumes p) (hdone : ∀ host run, Done (p.session host) run →
      Done (p'.session host) run)
    (hchosen : p'.lanes.chosen.length = p.lanes.chosen.length)
    (hnumber : ∀ a, (p'.tasks a).number? = (p.tasks a).number?) (events : List ProcessEvent)
    (hlog : p'.log = p.log ++ events) (hevents : ∀ e ∈ events, ∀ job value, e ≠ .resumed job value) :
    Resumes p' := by
  refine ⟨h.ledger.congr (fun _ => by rw [hchosen]) hnumber fun number => ?_, ?_⟩
  · have hnone : events.countP (·.resumes number) = 0 := by
      apply List.countP_eq_zero.mpr
      intro e he hresumes
      have hne := hevents e he
      cases e with
      | resumed job value => exact hne job value rfl
      | _ => cases hresumes
    rw [hlog, List.countP_append, hnone, Nat.add_zero]
  · intro job value hmem
    rw [hlog] at hmem
    rcases List.mem_append.mp hmem with hold | hnew
    · obtain ⟨hvalue, hdone'⟩ := h.value job value hold
      exact ⟨hvalue, hdone _ _ hdone'⟩
    · exact absurd rfl (hevents _ hnew job value)

/-- A move that keeps a task's job keeps the jobs of all tasks. -/
theorem number?_same {tasks : Activity → TaskPc} (hsame : pc.number? = (tasks a).number?)
    (b : Activity) : (Function.update tasks a pc b).number? = (tasks b).number? := by
  by_cases hba : b = a
  · subst hba
    rw [Function.update_self, hsame]
  · rw [Function.update_of_ne hba]

/-- The section of `enqueue` gives out the next number. -/
theorem choose (h : Resumes p) (hjobs : Jobs p) {run : AskRun} {l : Nat} {lanes : Lanes}
    (hpc : p.tasks a = .choosing run) (hchoose : p.lanes.choose = some (l, lanes)) :
    Resumes ({ p with lanes }.setTask a (.submitting run p.lanes.chosen.length l)) := by
  rw [hjobs.lanes.choose] at hchoose
  obtain ⟨rfl, rfl⟩ := Prod.mk.inj (Option.some.inj hchoose)
  refine ⟨?_, h.value⟩
  simp only [Process.setTask, TaskPc.number?_update, List.length_append, List.length_singleton]
  exact h.ledger.issue (Nat.lt_irrefl _) (by rw [hpc]; rfl) fun k => Nat.lt_succ_iff_lt_or_eq

/-- A job resumes its task, which gives up its number. -/
theorem resume (h : Resumes p) (hjobs : Jobs p) (htickets : Tickets p) {l : Nat} {lane : Lane}
    {job : Job} (hlane : p.lanes.queues[l]? = some lane) (hjob : lane.current = some job)
    (hresting : resting (p.session job.activity.host) job.activity.index) :
    Resumes ((p.setLane l { lane with worker := .ending }).resume job) := by
  have htask := hjobs.live l lane hlane job (Jobs.mem_live_current hjob)
  obtain ⟨rest, hheld⟩ := (htickets.custody job.activity).held (hjobs.run?_current hlane hjob)
  obtain rfl := hheld.resting hresting
  rw [hjobs.resume_eq hlane hjob]
  refine ⟨?_, ?_⟩
  · simp only [Process.logged, Process.setTask, Process.setLane, TaskPc.number?_update]
    refine h.ledger.spend (k := job.number) (by rw [htask]; rfl) fun number => ?_
    rw [List.countP_append, List.countP_singleton]
    simp [ProcessEvent.resumes]
  · intro other value hmem
    simp only [Process.logged, Process.setTask, Process.setLane, List.mem_append,
      List.mem_singleton] at hmem
    rcases hmem with hold | hnew
    · exact h.value other value hold
    · obtain ⟨rfl, rfl⟩ := ProcessEvent.resumed.inj hnew
      exact ⟨rfl, hheld.done⟩

/-- One move of the process: a job resumes its task at most once, and with its own outcome. -/
theorem step (h : Resumes p) (hjobs : Jobs p) (htickets : Tickets p)
    (hhosts : ∀ host, askSystem.Reachable (p.hosts host)) (hmove : ProcessMove p p') :
    Resumes p' := by
  have hdone : ∀ host run, Done (p.session host) run → Done (p'.session host) run :=
    fun _ _ hdone => hdone.step htickets hjobs hhosts hmove
  have hnone : ∀ {b : Activity}, (p.tasks b).run? = none → (p.tasks b).number? = none := by
    intro b hb
    cases hpc : p.tasks b with
    | idle | beginning => rfl
    | _ =>
      rw [hpc] at hb
      cases hb
  cases hmove with
  | session | laneAwaited | lane =>
    exact h.aside hdone rfl (fun _ => rfl) [] (List.append_nil _).symm (by simp)
  | cancelled => exact h.aside hdone rfl (fun _ => rfl) _ rfl (by simp)
  | entered a mode ask action asks hpc =>
    exact h.aside hdone rfl (number?_same (hnone hpc).symm) [] (List.append_nil _).symm (by simp)
  | failed a mode error action asks hpc =>
    exact h.aside hdone rfl (number?_same (hnone hpc).symm) _ rfl (by simp)
  | begun a mode ask answer call wire ticket asks hpc =>
    exact h.aside hdone rfl (number?_same (hnone hpc).symm) [] (List.append_nil _).symm (by simp)
  | trapped => exact h.aside hdone rfl (fun _ => rfl) [] (List.append_nil _).symm (by simp)
  | released a mode run asks hpc =>
    refine h.aside hdone rfl (number?_same ?_) [] (List.append_nil _).symm (by simp)
    show _ = (p.tasks a).number?
    rw [hpc]
    split <;> rfl
  | awaited a mode run asks hpc =>
    refine h.aside hdone rfl (number?_same ?_) [] (List.append_nil _).symm (by simp)
    show _ = (p.tasks a).number?
    rw [hpc]
    split <;> rfl
  | chosen a run l lanes hpc hchoose => exact h.choose hjobs hpc hchoose
  | unchosen => exact h.aside hdone rfl (fun _ => rfl) [] (List.append_nil _).symm (by simp)
  | submitted a run number l hpc =>
    refine h.aside hdone rfl (number?_same ?_) [] (List.append_nil _).symm (by simp)
    rw [hpc]
    rfl
  | refused a mode run failure hpc =>
    exact h.aside hdone rfl (number?_same (by rw [hpc]; rfl)) _ rfl (by simp)
  | counted a mode run result hpc =>
    exact h.aside hdone rfl (number?_same (by rw [hpc]; rfl)) _ rfl (by simp)
  | projected a mode run result reasonName hpc =>
    exact h.aside hdone rfl (number?_same (by rw [hpc]; rfl)) _ rfl (by simp)
  | resumed l lane job hlane hjob hresting => exact h.resume hjobs htickets hlane hjob hresting

end Resumes

/-- This holds in every reachable process. -/
theorem resumes_of_reachable {p : Process} (hp : processSystem.Reachable p) : Resumes p := by
  refine System.Reachable.invariant ?_ ?_ hp
  · rintro p ⟨-, hp⟩
    rw [hp]
    exact ⟨.empty (fun _ => Nat.not_lt_zero _) (fun _ => rfl) (fun _ => rfl), by simp⟩
  · intro p action p' hp h hstep
    exact h.step (jobs_of_reachable hp) (tickets_of_reachable hp) (host_reachable hp)
      (processStep_move hstep)

/-! ## A run

Two activities of one host ask; the second hands its job over first. The lane of the first answers
its task, and the other lane is in `awaitResult`. -/

def idleProcess : Process where
  hosts _ := ⟨{ session := ⟨{}, [.idle, .idle]⟩ }, [.idle, .idle]⟩

theorem idleProcess_reachable : processSystem.Reachable idleProcess :=
  .init ⟨fun _ => ⟨⟨⟨{}, [.idle, .idle]⟩, ⟨rfl, by simp⟩, rfl⟩, by simp [idleProcess]⟩, rfl⟩

/-- An `askPayloadAsync` up to its lane. -/
def asksAsync (a : Activity) : List ProcessAction :=
  [.task a (.start .async ⟨"a", "t", .empty, 5000, .routerDefault⟩ false),
    .task a (.beginAsk .lock), .task a (.beginAsk (.build ⟨Status.ok, some 64, 9⟩)),
    .task a (.beginAsk (.begin a.index ⟨Status.ok, true⟩
      ⟨5000, true, some fun _ => false, ⟨Status.ok, 1, some 96, 9⟩, ⟨Status.ok, some 80, 2⟩,
        fun _ => 7⟩)),
    .task a (.beginAsk .release), .task a .choose]

def twoAsks : List ProcessAction :=
  asksAsync ⟨0, 0⟩ ++ asksAsync ⟨0, 1⟩ ++ [.task ⟨0, 1⟩ .submit, .task ⟨0, 0⟩ .submit,
    .lane 0 .start, .lane 1 .start] ++ List.replicate 7 (.lane 0 .await) ++
    [.lane 1 .await, .lane 0 .resume, .lane 0 .finish, .task ⟨0, 0⟩ .accept]

/-- Two asks were given to two lanes, and the first was answered and has resumed its task. -/
theorem twoAsks_reaches : ∃ p, processSystem.Reachable p ∧ p.lanes.chosen = [0, 1] ∧
    p.log.countP (·.resumes 0) = 1 ∧ (p.stats 0).matchedResponses = 1 := by
  have hrun : (twoAsks.foldlM processStep idleProcess).map (fun p =>
      (p.lanes.chosen, p.log.countP (·.resumes 0), (p.stats 0).matchedResponses))
      = some ([0, 1], 1, 1) := by decide +kernel
  obtain ⟨p, hp, hfacts⟩ := Option.map_eq_some_iff.mp hrun
  obtain ⟨hchosen, hcount, hstats⟩ : _ ∧ _ ∧ _ := by simpa only [Prod.mk.injEq] using hfacts
  exact ⟨p, idleProcess_reachable.trans (System.Reaches.foldlM (fun _ _ _ h => h) _ hp), hchosen,
    hcount, hstats⟩

/-! ## The lanes -/

/-- A suspended task whose `awaitResult` has begun. -/
def AwaitsAsync (p : Process) (a : Activity) : Prop :=
  ∃ run number, p.tasks a = .suspended run number ∧
    ticketTrace (p.session a.host).shared.log run.ticket.ticket ≠ []

/-- What holds of the lanes of a process. -/
structure ExecutorLaw (p : Process) : Prop where
  alive : p.trapped = false
  next : p.lanes.next < p.lanes.queues.length
  turns : ∀ k < p.lanes.chosen.length, p.lanes.chosen[k]? = some (k % 8)
  balance : ∀ l < 8, ∀ l' < 8, p.lanes.chosen.count l ≤ p.lanes.chosen.count l' + 1
  /-- A lane has finished, runs and still has to run what it was given, in the order it came. -/
  order : ∀ lane ∈ p.lanes.queues, lane.queue.submitted
    = lane.queue.finished ++ lane.queue.running.toList ++ lane.queue.waiting
  /-- A job is given to the lane that was chosen for it, and once. -/
  place : ∀ (l : Nat) (lane : Lane), p.lanes.queues[l]? = some lane →
    (lane.queue.submitted.map (·.number)).Nodup ∧
    ∀ job ∈ lane.queue.submitted, p.lanes.chosen[job.number]? = some l
  /-- Of all hosts, at most eight suspended tasks are in `awaitResult` at once. -/
  waits : ∀ s : Finset Activity, (∀ a ∈ s, AwaitsAsync p a) → s.card ≤ 8

section Laws

variable {p : Process}

/-- The `k`-th job goes to lane `k` modulo eight. -/
theorem getElem?_turns {k n : Nat} (h : k < n) : (Serial.turns 8 n)[k]? = some (k % 8) := by
  simp [Serial.turns, h]

/-- A suspended task whose `awaitResult` has begun is the one that its lane runs. -/
theorem current_of_awaits (hjobs : Jobs p) (htickets : Tickets p) {a : Activity} {run : AskRun}
    {number : Nat} (hpc : p.tasks a = .suspended run number)
    (htrace : ticketTrace (p.session a.host).shared.log run.ticket.ticket ≠ []) :
    ∃ lane, p.lanes.queues[number % 8]? = some lane ∧ lane.current = some ⟨number, a, run⟩ := by
  obtain ⟨lane, hlane, hjob⟩ := hjobs.suspended a run number hpc
  refine ⟨lane, hlane, ?_⟩
  rcases List.mem_append.mp hjob with hcurrent | hwaiting
  · exact Option.mem_toList.mp hcurrent
  · -- nothing is done with the ticket of a job that waits
    have hheld := htickets.waiting _ lane hlane _ hwaiting
    have hnil := List.append_left_eq_self.mp hheld.trace
    exact absurd hnil htrace

/-- **The executor's law.** In every state of every run of any number of activities and hosts, the
lanes were chosen in turn, without a trap; every lane runs what it was given one by one, in the
order it came, and once; and over all hosts at most eight suspended tasks are in `awaitResult`. -/
theorem executor_law (hp : processSystem.Reachable p) : ExecutorLaw p := by
  have hjobs := jobs_of_reachable hp
  have htickets := tickets_of_reachable hp
  have hturns := hjobs.lanes.turns
  have hchosen : ∀ k < p.lanes.chosen.length, p.lanes.chosen[k]? = some (k % 8) := by
    intro k hk
    rw [hturns]
    exact getElem?_turns hk
  refine ⟨hjobs.alive, ?_, hchosen, ?_, ?_, ?_, ?_⟩
  · rw [hjobs.lanes.next, hjobs.lanes.eight]
    exact Nat.mod_lt _ (by decide)
  · intro l hl l' hl'
    rw [hturns]
    exact Serial.count_turns_le hl hl' _
  · intro lane hlane
    obtain ⟨l, hl⟩ := List.mem_iff_getElem?.mp hlane
    exact (hjobs.lanes.lane l lane hl).order
  · intro l lane hlane
    have hvalid := hjobs.lanes.lane l lane hlane
    refine ⟨hvalid.once, fun job hjob => ?_⟩
    obtain ⟨hplace, hlt⟩ := hvalid.place job hjob
    rw [hchosen job.number hlt, hplace]
  · intro s hs
    let lane? : Activity → Nat := fun a => ((p.tasks a).number?.getD 0) % 8
    have hmaps : ∀ a ∈ s, lane? a ∈ Finset.range 8 := fun a _ =>
      Finset.mem_range.mpr (Nat.mod_lt _ (by decide))
    have hinj : Set.InjOn lane? s := by
      intro a ha b hb hsame
      obtain ⟨run, number, hpc, htrace⟩ := hs a ha
      obtain ⟨run', number', hpc', htrace'⟩ := hs b hb
      obtain ⟨lane, hlane, hcurrent⟩ := current_of_awaits hjobs htickets hpc htrace
      obtain ⟨lane', hlane', hcurrent'⟩ := current_of_awaits hjobs htickets hpc' htrace'
      have heq : number % 8 = number' % 8 := by simpa [lane?, hpc, hpc', TaskPc.number?] using hsame
      rw [heq, hlane'] at hlane
      obtain rfl := Option.some.inj hlane
      exact congrArg Job.activity (Option.some.inj (hcurrent.symm.trans hcurrent'))
    calc s.card ≤ (Finset.range 8).card := Finset.card_le_card_of_injOn lane? hmaps hinj
      _ = 8 := Finset.card_range 8

end Laws

/-- The law of the lanes where the first two of them were chosen. -/
theorem executor_law_twoAsks : ∃ p, processSystem.Reachable p ∧ p.lanes.chosen = [0, 1] ∧
    ExecutorLaw p := by
  obtain ⟨p, hp, hchosen, -⟩ := twoAsks_reaches
  exact ⟨p, hp, hchosen, executor_law hp⟩

/-! ## The suspended tasks -/

section Suspended

variable {p : Process}

/-- What holds of the tasks that `askPayloadAsync` suspends. -/
structure SuspendedLaw (p : Process) : Prop where
  /-- A suspended task has one live job in the lanes, and a live job its suspended task. -/
  job : ∀ a run number, p.tasks a = .suspended run number →
    ∃ (l : Nat) (lane : Lane), p.lanes.queues[l]? = some lane ∧ ⟨number, a, run⟩ ∈ lane.live ∧
      ∀ (l' : Nat) (lane' : Lane), p.lanes.queues[l']? = some lane' → ∀ other ∈ lane'.live,
        other.activity = a → l' = l ∧ other = ⟨number, a, run⟩
  task : ∀ (l : Nat) (lane : Lane), p.lanes.queues[l]? = some lane → ∀ job ∈ lane.live,
    p.tasks job.activity = .suspended job.run job.number
  /-- A job that chose a lane is still with its activity, or it has resumed it once. -/
  once : ∀ number < p.lanes.chosen.length,
    ((∃! a, (p.tasks a).number? = some number) ∧ p.log.countP (·.resumes number) = 0) ∨
    ((∀ a, (p.tasks a).number? ≠ some number) ∧ p.log.countP (·.resumes number) = 1)
  /-- It resumes the task with the outcome of its `awaitResult`, whose ticket is given back. -/
  value : ∀ job value, .resumed job value ∈ p.log →
    value = job.run.call.outcome job.run.ticket.messageID ∧
    .ticket job.run.ticket.ticket .destroy ∈ (p.session job.activity.host).shared.log ∧
    .ticket job.run.ticket.ticket .endBorrow ∈ (p.session job.activity.host).shared.log
  /-- Of each host, at most 64 asks have a ticket that is not given back, queued or not. -/
  admitted : ∀ (host : Nat) (s : Finset Nat), (∀ i ∈ s, ∃ run, (p.tasks ⟨host, i⟩).run? = some run ∧
    .ticket run.ticket.ticket .endBorrow ∉ (p.session host).shared.log) → s.card ≤ 64

/-- An activity whose ticket is not given back is a borrower of the session. -/
theorem asking_of_run? (htickets : Tickets p) {host i : Nat} {run : AskRun}
    (hrun : (p.tasks ⟨host, i⟩).run? = some run)
    (hborrow : .ticket run.ticket.ticket .endBorrow ∉ (p.session host).shared.log) :
    ∃ pc, (p.session host).threads[i]? = some pc ∧ pc.isAsking := by
  obtain ⟨rest, hheld⟩ := (htickets.custody ⟨host, i⟩).held hrun
  cases rest with
  | nil => exact absurd hheld.done.returned.2 hborrow
  | cons event rest => exact ⟨_, hheld.slot, rfl⟩

/-- **Suspended tasks are resumed once.** In every state of every run a task that `askPayloadAsync`
has suspended has exactly one job, which is in one lane; a job resumes its task exactly once, with
the outcome of its `awaitResult`, after the ticket is destroyed and its borrow returned; and no host
has more than 64 asks with a ticket, queued ones included. -/
theorem suspended_law (hp : processSystem.Reachable p) : SuspendedLaw p := by
  have hjobs := jobs_of_reachable hp
  have htickets := tickets_of_reachable hp
  have hresumes := resumes_of_reachable hp
  refine ⟨?_, hjobs.live, ?_, ?_, ?_⟩
  · intro a run number hpc
    obtain ⟨lane, hlane, hjob⟩ := hjobs.suspended a run number hpc
    refine ⟨_, lane, hlane, hjob, fun l' lane' hlane' other hother hsame => ?_⟩
    have htask := hjobs.live l' lane' hlane' other hother
    rw [hsame, hpc] at htask
    obtain ⟨-, hnumber⟩ := TaskPc.suspended.inj htask
    exact hjobs.lanes.job_unique hlane' hlane
      ((hjobs.lanes.lane _ lane' hlane').submitted_of_live hother)
      ((hjobs.lanes.lane _ lane hlane).submitted_of_live hjob) hnumber.symm
  · exact fun number hlt => hresumes.ledger.one hlt
  · intro job value hmem
    obtain ⟨rfl, hdone⟩ := hresumes.value job value hmem
    exact ⟨(runAwait_first _ _).1, hdone.returned⟩
  · intro host s hs
    have hborrows := (atRest_reachable (session_reachable (host_reachable hp host))).inv.borrows
    have hcard : s.card ≤ (p.session host).threads.countP CallerPc.isAsking := by
      apply card_le_countP
      intro i hi
      obtain ⟨run, hrun, hborrow⟩ := hs i hi
      exact asking_of_run? htickets hrun hborrow
    have hactive := hborrows.active
    have hbound := hborrows.bound
    change _ = (((p.session host).threads.countP CallerPc.isAsking : Nat) : Int) at hactive
    omega

end Suspended

/-- The law of the tasks where the first of two was resumed. -/
theorem suspended_law_twoAsks : ∃ p, processSystem.Reachable p ∧
    p.log.countP (·.resumes 0) = 1 ∧ SuspendedLaw p := by
  obtain ⟨p, hp, -, hcount, -⟩ := twoAsks_reaches
  exact ⟨p, hp, hcount, suspended_law hp⟩

end CoAkka.Ask
