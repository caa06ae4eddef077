import CoAkkaRuntime.Ask.ExecutorLaw

/-!
# Ask — what the asks return

Every ticket that `beginAsk` issues is with one activity until its ask returns, and every ask
returns once, with what its entry point makes of the outcome of `awaitResult`. Each result that Core
delivered is counted once, before the ask returns it, and the two counters of a host are the numbers
of those events.

* `Answers` — the invariant: for each activity and ticket, how often it was issued, is held, was
  counted and was returned, and the counters of each host as numbers of events.
* `Answers.step` — every move of the process keeps it. Nearly all moves touch one activity, and the
  lemmas before it say which of the four numbers change with it.
* `answers_law` — the law over every run, any number of hosts and activities and any answers of
  Core.

The counters are 64 bits wide and are added to with `&+=`, so they are compared modulo 2^64.
-/

namespace CoAkka.Ask

open Host Session Transition

/-! ## Tickets, results and events

Who holds a ticket, which result an activity has but has not returned, and which events of the log
count or return something are read off positions and events.
-/

/-- The entry point and the ticket of an activity. -/
def TaskPc.ask? : TaskPc → Option (AskMode × AskRun)
  | .idle | .beginning .. => none
  | .returning mode run | .awaiting mode run | .accepting mode run | .projecting mode run _ =>
    some (mode, run)
  | .choosing run | .submitting run _ _ | .suspended run _ => some (.async, run)

/-- The result that `accept` has counted. -/
def TaskPc.result? : TaskPc → Option NativeAskResult
  | .projecting _ _ result => some result
  | _ => none

/-- The host and the ticket of an activity. -/
def TaskPc.holds? (host : Nat) (pc : TaskPc) : Option (Nat × Nat) :=
  pc.run?.map fun run => (host, run.ticket.ticket)

/-- The same, up to the section of `accept`. -/
def TaskPc.unsettled? (host : Nat) (pc : TaskPc) : Option (Nat × Nat) :=
  if pc.result?.isSome then none else pc.holds? host

def ProcessEvent.returns (k : Nat × Nat) : ProcessEvent → Bool
  | .returned a _ run _ _ => (a.host, run.ticket.ticket) == k
  | _ => false

def ProcessEvent.counts (k : Nat × Nat) : ProcessEvent → Bool
  | .counted host ticket _ => (host, ticket) == k
  | _ => false

def ProcessEvent.countsKind (host : Nat) (kind : UInt32) : ProcessEvent → Bool
  | .counted host' _ kind' => host' == host && kind' == kind
  | _ => false

/-- Core's result is counted, or the ask returns without one. -/
def ProcessEvent.settles (k : Nat × Nat) : ProcessEvent → Bool
  | .counted host ticket _ => (host, ticket) == k
  | .returned a _ run _ _ => (a.host, run.ticket.ticket) == k && !run.outcome.isOk
  | _ => false

/-- The `awaitResult` that the entry point calls. -/
structure AskRun.Of (mode : AskMode) (run : AskRun) : Prop where
  payloadOnly : run.call.payloadOnly = mode.payloadOnly
  cancellation : run.call.cancellation.isSome ↔ mode = .async

/-- The counters of a host after the events of `log`. -/
def countersOf (log : List ProcessEvent) (host : Nat) : MatchedStats where
  matchedResponses := .ofNat (log.countP (·.countsKind host clientResultResponse))
  matchedDeadletters := .ofNat (log.countP (·.countsKind host clientResultDeadletter))

def issued (p : Process) (k : Nat × Nat) : Prop := k.2 < (p.session k.1).shared.tickets

structure Answers (p : Process) : Prop where
  returns : Ledger (issued p) (fun a => (p.tasks a).holds? a.host)
    (fun k => p.log.countP (·.returns k))
  settles : Ledger (issued p) (fun a => (p.tasks a).unsettled? a.host)
    (fun k => p.log.countP (·.settles k))
  mode : ∀ a mode run, (p.tasks a).ask? = some (mode, run) → run.Of mode
  counted : ∀ a run result, (p.tasks a).run? = some run → (p.tasks a).result? = some result →
    .counted a.host run.ticket.ticket result.kind ∈ p.log
  answer : ∀ a mode run reasonName outcome, .returned a mode run reasonName outcome ∈ p.log →
    run.Of mode ∧ outcome = mode.reply reasonName run.outcome ∧ Done (p.session a.host) run ∧
    ∀ result, run.outcome = .ok result → .counted a.host run.ticket.ticket result.kind ∈ p.log
  stats : ∀ host, p.stats host = countersOf p.log host

/-! ## Moves

Four kinds of moves matter: an ask gets its ticket (`begun`), its result is counted (`count`), it
returns (`returned`), and everything else (`aside`).
-/

theorem TaskPc.run?_eq (pc : TaskPc) : pc.run? = pc.ask?.map Prod.snd := by
  cases pc <;> rfl

/-- A task that has no ticket has no ask under way and no result to return. -/
theorem TaskPc.ask?_of_run?_none {pc : TaskPc} (h : pc.run? = none) :
    pc.ask? = none ∧ pc.result? = none := by
  cases pc <;> first | exact ⟨rfl, rfl⟩ | cases h

section Moves

variable {p p' : Process} {a : Activity} {asks : Pool AskState AskPc}

/-- The `begin` that a mode asks for returns a ticket that is used in that mode. -/
theorem fits_of {mode : AskMode} {ask : AskArguments} {caller : Nat} {answer : BeginAnswer}
    {call : AskCall} {ticket : AskTicket} (h : fits mode ask (.begin caller answer call)) :
    AskRun.Of mode ⟨ticket, call⟩ := by
  obtain ⟨hrest, hcancellation⟩ := Bool.and_eq_true_iff.mp h
  obtain ⟨-, hpayload⟩ := Bool.and_eq_true_iff.mp hrest
  refine ⟨beq_iff_eq.mp hpayload, ?_⟩
  have hiff := beq_iff_eq.mp hcancellation
  show call.cancellation.isSome = true ↔ _
  rw [hiff]
  exact beq_iff_eq

/-- A step of `beginAsk` that returns no ticket issues none. -/
theorem quiet_tickets {action : AskAction} (howns : owns a.index action)
    (hstep : p.beginStep a action = some asks)
    (hslot : ∀ wire ticket, asks.threads[a.index]? ≠ some (.releasing wire (.ok ticket)))
    (host : Nat) :
    ((p.setHost a.host asks).session host).shared.tickets = (p.session host).shared.tickets := by
  rw [session_setHost]
  split_ifs with hhost
  · subst hhost
    cases beginStep_move howns hstep with
    | quiet _ hkeeps => exact hkeeps.tickets
    | begun _ _ _ _ hticket => exact absurd hticket (hslot _ _)
  · rfl

/-- Awaiting takes no ticket. -/
theorem await_tickets (hstep : p.awaitStep a = some asks) (host : Nat) :
    ((p.setHost a.host asks).session host).shared.tickets = (p.session host).shared.tickets := by
  rw [session_setHost]
  split_ifs with hhost
  · subst hhost
    obtain ⟨_, _, _, _, _, htickets, _⟩ := awaitStep_move hstep
    exact htickets
  · rfl

end Moves

namespace Answers

variable {p p' : Process} {a : Activity} {pc : TaskPc} {asks : Pool AskState AskPc}

/-- A function of each task's place follows an update of one task. -/
theorem apply_update {β : Type*} (f : Activity → TaskPc → β) (tasks : Activity → TaskPc)
    (a : Activity) (pc : TaskPc) :
    (fun b => f b (Function.update tasks a pc b))
      = Function.update (fun b => f b (tasks b)) a (f a pc) := by
  funext b
  exact Function.apply_update f tasks a pc b

/-- A step that neither issues a ticket, counts a result nor returns. -/
theorem aside (h : Answers p) (hdone : ∀ host run, Done (p.session host) run →
      Done (p'.session host) run)
    (htickets : ∀ host, (p'.session host).shared.tickets = (p.session host).shared.tickets)
    (hstats : p'.stats = p.stats)
    (htasks : ∀ a, (p'.tasks a).ask? = (p.tasks a).ask? ∧
      (p'.tasks a).result? = (p.tasks a).result?)
    (events : List ProcessEvent) (hlog : p'.log = p.log ++ events)
    (hevents : ∀ e ∈ events, (∀ host ticket kind, e ≠ .counted host ticket kind) ∧
      ∀ a mode run reasonName outcome, e ≠ .returned a mode run reasonName outcome) :
    Answers p' := by
  -- no new event is a return or a count, so all the numbers stay
  have hcount : ∀ q : ProcessEvent → Bool, (∀ e ∈ events, q e = false) →
      p'.log.countP q = p.log.countP q := by
    intro q hq
    have hnone : events.countP q = 0 :=
      List.countP_eq_zero.mpr fun e he => by rw [hq e he]; exact Bool.false_ne_true
    rw [hlog, List.countP_append, hnone, Nat.add_zero]
  have hquiet : ∀ e ∈ events, (∀ k, e.returns k = false) ∧ (∀ k, e.settles k = false) ∧
      ∀ host kind, e.countsKind host kind = false := by
    intro e he
    obtain ⟨hcounted, hreturned⟩ := hevents e he
    cases e with
    | counted host ticket kind => exact absurd rfl (hcounted host ticket kind)
    | returned a mode run reasonName outcome => exact absurd rfl (hreturned a mode run reasonName outcome)
    | resumed | failed => exact ⟨fun _ => rfl, fun _ => rfl, fun _ _ => rfl⟩
  have hrun : ∀ a, (p'.tasks a).run? = (p.tasks a).run? := by
    intro a
    rw [TaskPc.run?_eq, TaskPc.run?_eq, (htasks a).1]
  have hissued : ∀ k, issued p' k ↔ issued p k := by
    intro k
    unfold issued
    rw [htickets]
  have hold : ∀ e, e ∈ p.log → e ∈ p'.log := by
    intro e he
    rw [hlog]
    exact List.mem_append_left _ he
  refine ⟨?_, ?_, ?_, ?_, ?_, ?_⟩
  · refine h.returns.congr hissued (fun a => ?_) fun k => hcount _ fun e he => (hquiet e he).1 k
    unfold TaskPc.holds?
    rw [hrun]
  · refine h.settles.congr hissued (fun a => ?_) fun k => hcount _ fun e he => (hquiet e he).2.1 k
    unfold TaskPc.unsettled? TaskPc.holds?
    rw [hrun, (htasks a).2]
  · intro a mode run hask
    rw [(htasks a).1] at hask
    exact h.mode a mode run hask
  · intro a run result hrun' hresult
    rw [hrun] at hrun'
    rw [(htasks a).2] at hresult
    exact hold _ (h.counted a run result hrun' hresult)
  · intro a mode run reasonName outcome hmem
    rw [hlog] at hmem
    rcases List.mem_append.mp hmem with hbefore | hnew
    · obtain ⟨hmode, houtcome, hdone', hcounted⟩ := h.answer a mode run reasonName outcome hbefore
      exact ⟨hmode, houtcome, hdone _ _ hdone', fun result hok => hold _ (hcounted result hok)⟩
    · exact absurd rfl ((hevents _ hnew).2 a mode run reasonName outcome)
  · intro host
    rw [hstats, h.stats host]
    unfold countersOf
    rw [hcount _ fun e he => (hquiet e he).2.2 host _, hcount _ fun e he => (hquiet e he).2.2 host _]

/-- `begin` issues the next ticket to the activity. -/
theorem begun (h : Answers p) (hdone : ∀ host run, Done (p.session host) run →
      Done ((p.setHost a.host asks).session host) run) {mode : AskMode} {ask : AskArguments}
    {answer : BeginAnswer} {call : AskCall} {wire : Option Address} {ticket : AskTicket}
    (hpc : (p.tasks a).run? = none) (hfits : fits mode ask (.begin a.index answer call))
    (hstep : p.beginStep a (.begin a.index answer call) = some asks)
    (hslot : asks.threads[a.index]? = some (.releasing wire (.ok ticket))) :
    Answers ((p.setHost a.host asks).setTask a (.returning mode ⟨ticket, call⟩)) := by
  obtain ⟨id, rfl, -, -, htickets, -⟩ := beginStep_begun hstep hslot
  have hnone := TaskPc.ask?_of_run?_none hpc
  have hnew : ¬ issued p (a.host, (p.session a.host).shared.tickets) := Nat.lt_irrefl _
  -- exactly one ticket more is issued, which is with this activity
  have hissued : ∀ k, issued ((p.setHost a.host asks).setTask a
      (.returning mode ⟨⟨(p.session a.host).shared.tickets, id⟩, call⟩)) k ↔
      issued p k ∨ k = (a.host, (p.session a.host).shared.tickets) := by
    rintro ⟨host, ticket⟩
    show ticket < ((p.setHost a.host asks).session host).shared.tickets ↔ _
    rw [session_setHost, Prod.mk.injEq]
    split_ifs with hhost
    · subst hhost
      rw [htickets]
      simp only [issued, true_and]
      exact Nat.lt_succ_iff_lt_or_eq
    · simp [issued, hhost]
  refine ⟨?_, ?_, ?_, ?_, ?_, h.stats⟩
  · simp only [Process.setTask, apply_update fun b => TaskPc.holds? b.host]
    exact h.returns.issue hnew (by simp [TaskPc.holds?, hpc]) hissued
  · simp only [Process.setTask, apply_update fun b => TaskPc.unsettled? b.host]
    exact h.settles.issue hnew (by simp [TaskPc.unsettled?, TaskPc.holds?, hpc]) hissued
  · intro b mode' run' hask
    by_cases hba : b = a
    · subst hba
      simp only [Process.setTask, Function.update_self] at hask
      cases hask
      exact fits_of hfits
    · simp only [Process.setTask, Function.update_of_ne hba] at hask
      exact h.mode b mode' run' hask
  · intro b run result hrun hresult
    by_cases hba : b = a
    · subst hba
      simp only [Process.setTask, Function.update_self] at hresult
      cases hresult
    · simp only [Process.setTask, Function.update_of_ne hba] at hrun hresult
      exact h.counted b run result hrun hresult
  · intro b mode' run' reasonName outcome hmem
    obtain ⟨hmode, houtcome, hdone', hcounted⟩ := h.answer b mode' run' reasonName outcome hmem
    exact ⟨hmode, houtcome, hdone _ _ hdone', hcounted⟩

/-- The section of `accept` counts the result. -/
theorem count (h : Answers p) {mode : AskMode} {run : AskRun} {result : NativeAskResult}
    (hpc : p.tasks a = .accepting mode run) : Answers (({ p with
        stats := Function.update p.stats a.host ((p.stats a.host).count result.kind)
      }.setTask a (.projecting mode run result)).logged
      [.counted a.host run.ticket.ticket result.kind]) := by
  have hlog : ∀ q : ProcessEvent → Bool, (p.log ++ [ProcessEvent.counted a.host run.ticket.ticket
      result.kind]).countP q = p.log.countP q +
        if q (.counted a.host run.ticket.ticket result.kind) then 1 else 0 := by
    intro q
    rw [List.countP_append, List.countP_singleton]
  refine ⟨?_, ?_, ?_, ?_, ?_, ?_⟩
  · -- the activity keeps the ticket until it returns
    refine h.returns.congr (fun _ => Iff.rfl) (fun b => ?_) fun k => hlog _
    by_cases hba : b = a
    · subst hba
      simp only [Process.logged, Process.setTask, Function.update_self, hpc]
      rfl
    · simp only [Process.logged, Process.setTask, Function.update_of_ne hba]
  · simp only [Process.logged, Process.setTask, apply_update fun b => TaskPc.unsettled? b.host]
    refine h.settles.spend (k := (a.host, run.ticket.ticket)) (by rw [hpc]; rfl) fun k => ?_
    rw [hlog]
    simp [ProcessEvent.settles]
  · intro b mode' run' hask
    by_cases hba : b = a
    · subst hba
      simp only [Process.logged, Process.setTask, Function.update_self] at hask
      exact h.mode b mode' run' (by rw [hpc]; exact hask)
    · simp only [Process.logged, Process.setTask, Function.update_of_ne hba] at hask
      exact h.mode b mode' run' hask
  · intro b run' result' hrun hresult
    by_cases hba : b = a
    · subst hba
      simp only [Process.logged, Process.setTask, Function.update_self] at hrun hresult
      cases hrun
      cases hresult
      exact List.mem_append_right _ (List.mem_singleton_self _)
    · simp only [Process.logged, Process.setTask, Function.update_of_ne hba] at hrun hresult
      exact List.mem_append_left _ (h.counted b run' result' hrun hresult)
  · intro b mode' run' reasonName outcome hmem
    rcases List.mem_append.mp hmem with hold | hnew
    · obtain ⟨hmode, houtcome', hdone, hcounted⟩ := h.answer b mode' run' reasonName outcome hold
      exact ⟨hmode, houtcome', hdone, fun result' hok =>
        List.mem_append_left _ (hcounted result' hok)⟩
    · cases List.mem_singleton.mp hnew
  · intro host
    simp only [Process.logged, Process.setTask, countersOf, hlog]
    -- one counter of this host goes up by one, modulo 2^64, with the event
    by_cases hhost : host = a.host
    · subst hhost
      rw [Function.update_self, h.stats]
      simp only [MatchedStats.count, countersOf, ProcessEvent.countsKind, beq_self_eq_true,
        Bool.true_and, beq_iff_eq]
      congr 1 <;> split_ifs <;> simp
    · rw [Function.update_of_ne hhost, h.stats]
      simp [countersOf, ProcessEvent.countsKind, Ne.symm hhost]

/-- The ask of an activity returns, with what its entry point makes of the outcome. -/
theorem returned (h : Answers p) {mode : AskMode} {run : AskRun}
    {reasonName : UInt32 → Option String} {outcome : Except AskFault AskReply}
    (hask : (p.tasks a).ask? = some (mode, run)) (hheld : Held (p.session a.host) a.index run [])
    (houtcome : outcome = mode.reply reasonName run.outcome)
    (hresult : (p.tasks a).result?.isSome = run.outcome.isOk)
    (hok : ∀ result, run.outcome = .ok result → (p.tasks a).result? = some result) :
    Answers ((p.setTask a .idle).logged [.returned a mode run reasonName outcome]) := by
  have hrun : (p.tasks a).run? = some run := by
    rw [TaskPc.run?_eq, hask]
    rfl
  have hlog : ∀ q : ProcessEvent → Bool, (p.log ++ [ProcessEvent.returned a mode run reasonName
      outcome]).countP q = p.log.countP q +
        if q (.returned a mode run reasonName outcome) then 1 else 0 := by
    intro q
    rw [List.countP_append, List.countP_singleton]
  refine ⟨?_, ?_, ?_, ?_, ?_, ?_⟩
  · simp only [Process.logged, Process.setTask, apply_update fun b => TaskPc.holds? b.host]
    refine h.returns.spend (k := (a.host, run.ticket.ticket)) ?_ fun k => ?_
    · simp [TaskPc.holds?, hrun]
    · rw [hlog]
      simp [ProcessEvent.returns]
  · simp only [Process.logged, Process.setTask, apply_update fun b => TaskPc.unsettled? b.host]
    cases hisOk : run.outcome.isOk with
    | false =>
      refine h.settles.spend (k := (a.host, run.ticket.ticket)) ?_ fun k => ?_
      · simp [TaskPc.unsettled?, TaskPc.holds?, hrun, hresult, hisOk]
      · rw [hlog]
        simp [ProcessEvent.settles, hisOk]
    | true =>
      -- the result was counted before
      refine h.settles.congr (fun _ => Iff.rfl) (fun b => ?_) fun k => ?_
      · by_cases hba : b = a
        · subst hba
          rw [Function.update_self]
          simp [TaskPc.unsettled?, TaskPc.holds?, hresult, hisOk, TaskPc.run?]
        · rw [Function.update_of_ne hba]
      · rw [hlog]
        simp [ProcessEvent.settles, hisOk]
  · intro b mode' run' hask'
    by_cases hba : b = a
    · subst hba
      simp only [Process.logged, Process.setTask, Function.update_self] at hask'
      cases hask'
    · simp only [Process.logged, Process.setTask, Function.update_of_ne hba] at hask'
      exact h.mode b mode' run' hask'
  · intro b run' result hrun' hresult'
    by_cases hba : b = a
    · subst hba
      simp only [Process.logged, Process.setTask, Function.update_self] at hrun'
      cases hrun'
    · simp only [Process.logged, Process.setTask, Function.update_of_ne hba] at hrun' hresult'
      exact List.mem_append_left _ (h.counted b run' result hrun' hresult')
  · intro b mode' run' reasonName' outcome' hmem
    rcases List.mem_append.mp hmem with hold | hnew
    · obtain ⟨hmode, houtcome', hdone, hcounted⟩ :=
        h.answer b mode' run' reasonName' outcome' hold
      exact ⟨hmode, houtcome', hdone, fun result hok' =>
        List.mem_append_left _ (hcounted result hok')⟩
    · cases List.mem_singleton.mp hnew
      exact ⟨h.mode a mode run hask, houtcome, hheld.done, fun result hresult' =>
        List.mem_append_left _ (h.counted a run result hrun (hok result hresult'))⟩
  · intro host
    simp only [Process.logged, Process.setTask, countersOf, hlog]
    rw [h.stats]
    simp [countersOf, ProcessEvent.countsKind]

/-- A move within one ask changes neither what is asked nor what was answered. -/
theorem tasks_same {tasks : Activity → TaskPc} (hask : pc.ask? = (tasks a).ask?)
    (hresult : pc.result? = (tasks a).result?) (b : Activity) :
    (Function.update tasks a pc b).ask? = (tasks b).ask? ∧
      (Function.update tasks a pc b).result? = (tasks b).result? := by
  by_cases hba : b = a
  · subst hba
    rw [Function.update_self]
    exact ⟨hask, hresult⟩
  · rw [Function.update_of_ne hba]
    exact ⟨rfl, rfl⟩

/-- One move of the process keeps the ledger of answers. -/
theorem step (h : Answers p) (hjobs : Jobs p) (htickets : Tickets p)
    (hhosts : ∀ host, askSystem.Reachable (p.hosts host)) (hmove : ProcessMove p p') :
    Answers p' := by
  have hdone : ∀ host run, Done (p.session host) run → Done (p'.session host) run :=
    fun _ _ hdone => hdone.step htickets hjobs hhosts hmove
  cases hmove with
  | session k action asks hallows hstep =>
    -- a step of a session that belongs to no activity issues and ends nothing
    refine h.aside hdone (fun host => ?_) rfl (fun _ => ⟨rfl, rfl⟩) [] (List.append_nil _).symm
      (by simp)
    rw [session_setHost]
    split_ifs with hhost
    · subst hhost
      exact (unrelated_keeps hstep (Tickets.allows_unrelated hallows)).1.tickets
    · rfl
  | cancelled => exact h.aside hdone (fun _ => rfl) rfl (fun _ => ⟨rfl, rfl⟩) _ rfl (by simp)
  | entered a mode ask action asks hpc howns hstep hslot =>
    have hnone := TaskPc.ask?_of_run?_none hpc
    exact h.aside hdone (quiet_tickets howns hstep hslot) rfl
      (tasks_same hnone.1.symm hnone.2.symm) [] (List.append_nil _).symm (by simp)
  | failed a mode error action asks hpc howns hstep hslot =>
    have hnone := TaskPc.ask?_of_run?_none hpc
    refine h.aside hdone (quiet_tickets howns hstep fun wire ticket hticket => ?_) rfl
      (tasks_same hnone.1.symm hnone.2.symm) _ rfl (by simp)
    cases hslot.symm.trans hticket
  | begun a mode ask answer call wire ticket asks hpc hfits hstep hslot =>
    exact h.begun hdone hpc hfits hstep hslot
  | trapped a action asks hstep hslot =>
    -- the counter refuses to wrap, so nobody traps
    have halive := (identified_of_reachable (.step (hhosts a.host) hstep)).alive
    exact absurd (List.mem_of_getElem? hslot) halive
  | released a mode run asks hpc hstep =>
    have howns : owns a.index .release := rfl
    refine h.aside hdone (quiet_tickets howns hstep (release_slot hstep)) rfl (tasks_same ?_ ?_) []
      (List.append_nil _).symm (by simp)
    · show _ = (p.tasks a).ask?
      rw [hpc]
      split_ifs with hmode
      · rw [hmode]
        rfl
      · rfl
    · show _ = (p.tasks a).result?
      rw [hpc]
      split <;> rfl
  | awaited a mode run asks hpc hstep =>
    refine h.aside hdone (await_tickets hstep) rfl (tasks_same ?_ ?_) [] (List.append_nil _).symm
      (by simp)
    · show _ = (p.tasks a).ask?
      rw [hpc]
      split <;> rfl
    · show _ = (p.tasks a).result?
      rw [hpc]
      split <;> rfl
  | chosen a run l lanes hpc hchoose =>
    exact h.aside hdone (fun _ => rfl) rfl (tasks_same (by rw [hpc]; rfl) (by rw [hpc]; rfl)) []
      (List.append_nil _).symm (by simp)
  | unchosen | lane =>
    exact h.aside hdone (fun _ => rfl) rfl (fun _ => ⟨rfl, rfl⟩) [] (List.append_nil _).symm (by simp)
  | submitted a run number l hpc =>
    exact h.aside hdone (fun _ => rfl) rfl (tasks_same (by rw [hpc]; rfl) (by rw [hpc]; rfl)) []
      (List.append_nil _).symm (by simp)
  | refused a mode run failure hpc houtcome =>
    -- `awaitResult` threw: the ask returns that, and there is nothing to count
    have hheld := htickets.custody a
    rw [hpc] at hheld
    refine h.returned (by rw [hpc]; rfl) hheld (by rw [houtcome]; rfl) ?_ fun result hok => ?_
    · rw [hpc, houtcome]
      rfl
    · rw [houtcome] at hok
      cases hok
  | counted a mode run result hpc houtcome => exact h.count hpc
  | projected a mode run result reasonName hpc =>
    have hcustody := htickets.custody a
    rw [hpc] at hcustody
    obtain ⟨hheld, houtcome⟩ := hcustody
    refine h.returned (by rw [hpc]; rfl) hheld (by rw [houtcome]) ?_ fun result' hok => ?_
    · rw [hpc, houtcome]
      rfl
    · rw [houtcome] at hok
      cases hok
      rw [hpc]
      rfl
  | laneAwaited l lane job asks hlane hjob hstep =>
    exact h.aside hdone (await_tickets hstep) rfl (fun _ => ⟨rfl, rfl⟩) [] (List.append_nil _).symm
      (by simp)
  | resumed l lane job hlane hjob hresting =>
    -- the job and its suspended task have the same ticket and the same outcome
    have htask := hjobs.live l lane hlane job (Jobs.mem_live_current hjob)
    rw [hjobs.resume_eq hlane hjob] at hdone ⊢
    refine h.aside hdone (fun _ => rfl) rfl (tasks_same ?_ ?_) _ rfl (by simp)
    · show _ = (p.tasks job.activity).ask?
      rw [htask]
      rfl
    · show _ = (p.tasks job.activity).result?
      rw [htask]
      rfl

end Answers

/-- The ledger holds in every reachable process. -/
theorem answers_of_reachable {p : Process} (hp : processSystem.Reachable p) : Answers p := by
  refine System.Reachable.invariant ?_ ?_ hp
  · rintro p ⟨hhosts, hp⟩
    have hfresh : ∀ k, ¬ issued p k := by
      intro k hk
      obtain ⟨⟨session, hsession, hshared⟩, -⟩ := hhosts k.1
      unfold issued Process.session at hk
      rw [hshared] at hk
      rw [hsession.1] at hk
      exact absurd hk (Nat.not_lt_zero _)
    rw [hp]
    exact ⟨.empty hfresh (fun _ => rfl) (fun _ => rfl), .empty hfresh (fun _ => rfl) (fun _ => rfl),
      by simp [TaskPc.ask?], by simp [TaskPc.run?], by simp, fun _ => rfl⟩
  · intro p action p' hp h hstep
    exact h.step (jobs_of_reachable hp) (tickets_of_reachable hp) (host_reachable hp)
      (processStep_move hstep)

/-! ## The law -/

/-- What holds of the asks of a process. -/
structure AnswersLaw (p : Process) : Prop where
  /-- A ticket is with one activity until its ask returns, and it returns once. -/
  once : ∀ host ticket, ticket < (p.session host).shared.tickets →
    ((∃! a, (p.tasks a).holds? a.host = some (host, ticket)) ∧
      p.log.countP (·.returns (host, ticket)) = 0) ∨
    ((∀ a, (p.tasks a).holds? a.host ≠ some (host, ticket)) ∧
      p.log.countP (·.returns (host, ticket)) = 1)
  /-- An ask returns what its entry point makes of its own `awaitResult`, which is over. -/
  answer : ∀ a mode run reasonName outcome, .returned a mode run reasonName outcome ∈ p.log →
    outcome = mode.reply reasonName (run.call.outcome run.ticket.messageID) ∧
    run.call.payloadOnly = mode.payloadOnly ∧ (run.call.cancellation.isSome ↔ mode = .async) ∧
    .ticket run.ticket.ticket .destroy ∈ (p.session a.host).shared.log ∧
    .ticket run.ticket.ticket .endBorrow ∈ (p.session a.host).shared.log
  faultless : ∀ a mode run reasonName fault, .returned a mode run reasonName (.error fault) ∈ p.log →
    ∃ failure, fault = .failure failure
  /-- A result that Core delivered is counted once, under its kind. -/
  counted : ∀ a mode run reasonName outcome result, .returned a mode run reasonName outcome ∈ p.log →
    run.call.outcome run.ticket.messageID = .ok result →
    .counted a.host run.ticket.ticket result.kind ∈ p.log ∧
      p.log.countP (·.counts (a.host, run.ticket.ticket)) = 1
  /-- Where it delivered none, nothing is counted. -/
  uncounted : ∀ a mode run reasonName outcome failure,
    .returned a mode run reasonName outcome ∈ p.log →
    run.call.outcome run.ticket.messageID = .error failure →
    p.log.countP (·.counts (a.host, run.ticket.ticket)) = 0
  responses : ∀ host, (p.stats host).matchedResponses.toNat
    = p.log.countP (·.countsKind host clientResultResponse) % 2 ^ 64
  deadletters : ∀ host, (p.stats host).matchedDeadletters.toNat
    = p.log.countP (·.countsKind host clientResultDeadletter) % 2 ^ 64

section Law

variable {p : Process}

/-- An event that is counted for a host settles an ask of it. -/
theorem settles_of_counts {k : Nat × Nat} {e : ProcessEvent} (h : e.counts k) : e.settles k := by
  cases e with
  | counted => exact h
  | _ => cases h

/-- An event that settles a ticket is the only one. -/
theorem countP_counts_of_settles {log : List ProcessEvent} {k : Nat × Nat} {e : ProcessEvent}
    (honce : log.countP (·.settles k) ≤ 1) (he : e ∈ log) (hsettles : e.settles k) :
    log.countP (·.counts k) = if e.counts k then 1 else 0 := by
  obtain ⟨before, after, rfl⟩ := List.append_of_mem he
  have hmono : ∀ l : List ProcessEvent, l.countP (·.counts k) ≤ l.countP (·.settles k) :=
    fun l => List.countP_mono_left fun e _ h => settles_of_counts h
  have hbefore := hmono before
  have hafter := hmono after
  rw [List.countP_append, List.countP_cons, if_pos hsettles] at honce
  rw [List.countP_append, List.countP_cons]
  omega

/-- **Every ask returns once.** In every state of every run of any number of hosts and activities a
ticket that `beginAsk` issued is with one activity, or its ask has returned, once: with what its
entry point makes of the outcome of its own `awaitResult`, whose ticket is destroyed and whose
borrow is returned, and never with a trap. A result that Core delivered is counted once before, one
that it did not is never counted, and the two counters of a host are the numbers of the counted
results modulo `2 ^ 64`. -/
theorem answers_law (hp : processSystem.Reachable p) : AnswersLaw p := by
  have h := answers_of_reachable hp
  have houtcome : ∀ run : AskRun, run.outcome = run.call.outcome run.ticket.messageID :=
    fun run => (runAwait_first _ _).1
  refine ⟨fun host ticket hlt => h.returns.one hlt, ?_, ?_, ?_, ?_, ?_, ?_⟩
  · intro a mode run reasonName outcome hmem
    obtain ⟨hmode, hreply, hdone, -⟩ := h.answer a mode run reasonName outcome hmem
    rw [houtcome] at hreply
    exact ⟨hreply, hmode.payloadOnly, hmode.cancellation, hdone.returned⟩
  · intro a mode run reasonName fault hmem
    obtain ⟨-, hreply, -⟩ := h.answer a mode run reasonName _ hmem
    exact reply_error hreply.symm
  · intro a mode run reasonName outcome result hmem hok
    obtain ⟨-, -, -, hcounted⟩ := h.answer a mode run reasonName outcome hmem
    have hevent := hcounted result ((houtcome run).trans hok)
    have hcounts : (ProcessEvent.counted a.host run.ticket.ticket result.kind).counts
        (a.host, run.ticket.ticket) := beq_self_eq_true _
    refine ⟨hevent, ?_⟩
    rw [countP_counts_of_settles (h.settles.once _) hevent (settles_of_counts hcounts), if_pos hcounts]
  · intro a mode run reasonName outcome failure hmem herror
    have hsettles : (ProcessEvent.returned a mode run reasonName outcome).settles
        (a.host, run.ticket.ticket) := by
      simp [ProcessEvent.settles, houtcome, herror, Except.isOk, Except.toBool]
    rw [countP_counts_of_settles (h.settles.once _) hmem hsettles]
    rfl
  · intro host
    rw [h.stats host]
    exact UInt64.toNat_ofNat'
  · intro host
    rw [h.stats host]
    exact UInt64.toNat_ofNat'

end Law

/-- The first of two asks returns its answer. -/
def answeredAsk : List ProcessAction := twoAsks ++ [.task ⟨0, 0⟩ (.project fun _ => none)]

/-- Two asks of one host, the first of which has returned its response. -/
theorem answers_law_twoAsks : ∃ p, processSystem.Reachable p ∧
    p.log.countP (·.returns (0, 0)) = 1 ∧ (p.stats 0).matchedResponses = 1 ∧ AnswersLaw p := by
  have hrun : (answeredAsk.foldlM processStep idleProcess).map (fun p =>
      (p.log.countP (·.returns (0, 0)), (p.stats 0).matchedResponses)) = some (1, 1) := by
    decide +kernel
  obtain ⟨p, hp, hfacts⟩ := Option.map_eq_some_iff.mp hrun
  obtain ⟨hreturns, hstats⟩ := Prod.mk.inj hfacts
  have hreach : processSystem.Reachable p :=
    idleProcess_reachable.trans (System.Reaches.foldlM (fun _ _ _ h => h) _ hp)
  exact ⟨p, hreach, hreturns, hstats, answers_law hreach⟩

end CoAkka.Ask
