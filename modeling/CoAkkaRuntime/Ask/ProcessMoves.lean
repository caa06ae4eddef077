import CoAkkaRuntime.Ask.Process

/-!
# Ask — what a step of a process can do

`ProcessMove` lists what a step does, with the guards that it passed; every invariant of a process
is a case analysis on it. The hosts of a process run as they do alone, and the lanes keep what holds
of them alone.

* `processStep_move` — the inversion of the step function, cited by `JobCustody`, `TicketCustody`,
  `Answers` and `ExecutorLaw`, none of which unfolds it.
* `host_reachable`, `session_reachable` — seen from one host, a run of the process is a run of
  `beginAsk` over its session. What holds of those alone is used here as it is.
-/

namespace CoAkka.Ask

open Host Session Transition

/-! ## The moves -/

/-- What a step does. -/
inductive ProcessMove (p : Process) : Process → Prop where
  | session (host : Nat) (action : SessionAction) (asks : Pool AskState AskPc)
      (hallows : p.allows host action)
      (hstep : hostAskStep (p.hosts host) (.session action) = some asks) :
      ProcessMove p (p.setHost host asks)
  | cancelled (a : Activity) (mode : AskMode) (hpc : p.tasks a = .idle) :
      ProcessMove p (p.logged [.failed a mode (.failure .cancellation)])
  /-- In `beginAsk`, which goes on without a ticket. -/
  | entered (a : Activity) (mode : AskMode) (ask : AskArguments) (action : AskAction)
      (asks : Pool AskState AskPc) (hpc : (p.tasks a).run? = none) (howns : owns a.index action)
      (hstep : p.beginStep a action = some asks)
      (hslot : ∀ wire ticket, asks.threads[a.index]? ≠ some (.releasing wire (.ok ticket))) :
      ProcessMove p ((p.setHost a.host asks).setTask a (.beginning mode ask))
  | failed (a : Activity) (mode : AskMode) (error : RuntimeError) (action : AskAction)
      (asks : Pool AskState AskPc) (hpc : (p.tasks a).run? = none) (howns : owns a.index action)
      (hstep : p.beginStep a action = some asks) (hslot : asks.threads[a.index]? = some .idle) :
      ProcessMove p (((p.setHost a.host asks).setTask a .idle).logged
        [.failed a mode (.runtime error)])
  | begun (a : Activity) (mode : AskMode) (ask : AskArguments) (answer : BeginAnswer)
      (call : AskCall) (wire : Option Address) (ticket : AskTicket) (asks : Pool AskState AskPc)
      (hpc : (p.tasks a).run? = none) (hfits : fits mode ask (.begin a.index answer call))
      (hstep : p.beginStep a (.begin a.index answer call) = some asks)
      (hslot : asks.threads[a.index]? = some (.releasing wire (.ok ticket))) :
      ProcessMove p ((p.setHost a.host asks).setTask a (.returning mode ⟨ticket, call⟩))
  | trapped (a : Activity) (action : AskAction) (asks : Pool AskState AskPc)
      (hstep : p.beginStep a action = some asks) (hslot : asks.threads[a.index]? = some .trapped) :
      ProcessMove p { p.setHost a.host asks with trapped := true }
  | released (a : Activity) (mode : AskMode) (run : AskRun) (asks : Pool AskState AskPc)
      (hpc : p.tasks a = .returning mode run) (hstep : p.beginStep a .release = some asks) :
      ProcessMove p ((p.setHost a.host asks).setTask a
        (if mode = .async then .choosing run else .awaiting mode run))
  | awaited (a : Activity) (mode : AskMode) (run : AskRun) (asks : Pool AskState AskPc)
      (hpc : p.tasks a = .awaiting mode run) (hstep : p.awaitStep a = some asks) :
      ProcessMove p ((p.setHost a.host asks).setTask a
        (if resting asks.shared.session a.index then .accepting mode run else .awaiting mode run))
  | chosen (a : Activity) (run : AskRun) (lane : Nat) (lanes : Lanes)
      (hpc : p.tasks a = .choosing run) (hchoose : p.lanes.choose = some (lane, lanes)) :
      ProcessMove p ({ p with lanes }.setTask a (.submitting run p.lanes.chosen.length lane))
  | unchosen (hchoose : p.lanes.choose = none) : ProcessMove p { p with trapped := true }
  | submitted (a : Activity) (run : AskRun) (number lane : Nat)
      (hpc : p.tasks a = .submitting run number lane) :
      ProcessMove p ({ p with lanes := p.lanes.async lane ⟨number, a, run⟩ }.setTask a
        (.suspended run number))
  | refused (a : Activity) (mode : AskMode) (run : AskRun) (failure : AskFailure)
      (hpc : p.tasks a = .accepting mode run) (houtcome : run.outcome = .error failure) :
      ProcessMove p ((p.setTask a .idle).logged
        [.returned a mode run (fun _ => none) (.error (.failure failure))])
  | counted (a : Activity) (mode : AskMode) (run : AskRun) (result : NativeAskResult)
      (hpc : p.tasks a = .accepting mode run) (houtcome : run.outcome = .ok result) :
      ProcessMove p (({ p with
          stats := Function.update p.stats a.host ((p.stats a.host).count result.kind)
        }.setTask a (.projecting mode run result)).logged
        [.counted a.host run.ticket.ticket result.kind])
  | projected (a : Activity) (mode : AskMode) (run : AskRun) (result : NativeAskResult)
      (reasonName : UInt32 → Option String) (hpc : p.tasks a = .projecting mode run result) :
      ProcessMove p ((p.setTask a .idle).logged
        [.returned a mode run reasonName (mode.reply reasonName (.ok result))])
  /-- A lane begins with a job, or is done with one. -/
  | lane (l : Nat) (lane lane' : Lane) (hlane : p.lanes.queues[l]? = some lane)
      (hmove : lane.start = some lane' ∨ lane.finish = some lane') :
      ProcessMove p (p.setLane l lane')
  | laneAwaited (l : Nat) (lane : Lane) (job : Job) (asks : Pool AskState AskPc)
      (hlane : p.lanes.queues[l]? = some lane) (hjob : lane.current = some job)
      (hstep : p.awaitStep job.activity = some asks) :
      ProcessMove p (p.setHost job.activity.host asks)
  | resumed (l : Nat) (lane : Lane) (job : Job) (hlane : p.lanes.queues[l]? = some lane)
      (hjob : lane.current = some job)
      (hresting : resting (p.session job.activity.host) job.activity.index) :
      ProcessMove p ((p.setLane l { lane with worker := .ending }).resume job)

section Moves

variable {p p' : Process} {a : Activity}

/-- What follows the end of a `beginAsk` is one of the moves of its task. -/
theorem afterBegin_move {mode : AskMode} {ask : AskArguments} {action : AskAction}
    {asks : Pool AskState AskPc} (hpc : (p.tasks a).run? = none)
    (howns : owns a.index action) (hfits : fits mode ask action)
    (hstep : p.beginStep a action = some asks)
    (h : p.afterBegin a mode ask action asks = some p') : ProcessMove p p' := by
  unfold Process.afterBegin at h
  split at h
  · cases h
  · next hslot =>
    split at h
    · obtain rfl := Option.some.inj h
      exact .failed a mode _ action asks hpc howns hstep hslot
    · cases h
  · next wire ticket hslot =>
    obtain ⟨call, hcall, rfl⟩ := Option.map_eq_some_iff.mp h
    cases action with
    | begin caller answer call' =>
      obtain rfl := Option.some.inj hcall
      obtain rfl : caller = a.index := beq_iff_eq.mp howns
      exact .begun a mode ask answer call' wire ticket asks hpc hfits hstep hslot
    | _ => cases hcall
  · next hslot =>
    obtain rfl := Option.some.inj h
    exact .trapped a action asks hstep hslot
  · next hother _ hslot =>
    obtain rfl := Option.some.inj h
    refine .entered a mode ask action asks hpc howns hstep fun wire ticket hticket => ?_
    exact hother wire ticket (Option.some.inj (hslot.symm.trans hticket))

/-- Every step of a task is a move. -/
theorem taskStep_move {action : TaskAction} (h : taskStep p a action = some p') :
    ProcessMove p p' := by
  unfold taskStep at h
  split at h
  case h_1 mode ask cancelled hpc =>
    split_ifs at h
    · obtain rfl := Option.some.inj h
      exact .cancelled a mode hpc
    · obtain ⟨asks, hstep, hafter⟩ := Option.bind_eq_some_iff.mp h
      exact afterBegin_move (by rw [hpc]; rfl) rfl rfl hstep hafter
  -- `beginAsk` goes on; where it ends, the ask fails or has its ticket
  case h_2 mode ask action hpc =>
    split_ifs at h with hguard
    obtain ⟨asks, hstep, hafter⟩ := Option.bind_eq_some_iff.mp h
    obtain ⟨howns, hfits⟩ := Bool.and_eq_true_iff.mp hguard
    exact afterBegin_move (by rw [hpc]; rfl) howns hfits hstep hafter
  case h_3 mode run hpc =>
    obtain ⟨asks, hstep, rfl⟩ := Option.map_eq_some_iff.mp h
    exact .released a mode run asks hpc hstep
  case h_4 mode run hpc =>
    obtain ⟨asks, hstep, rfl⟩ := Option.map_eq_some_iff.mp h
    exact .awaited a mode run asks hpc hstep
  case h_5 run hpc =>
    split at h
    · next lane lanes hchoose =>
      obtain rfl := Option.some.inj h
      exact .chosen a run lane lanes hpc hchoose
    · next hchoose =>
      obtain rfl := Option.some.inj h
      exact .unchosen hchoose
  case h_6 run number lane hpc =>
    obtain rfl := Option.some.inj h
    exact .submitted a run number lane hpc
  -- `accept` looks at the outcome of `awaitResult`: a failure is not counted
  case h_7 mode run hpc =>
    split at h
    · next failure houtcome =>
      obtain rfl := Option.some.inj h
      exact .refused a mode run failure hpc houtcome
    · next result houtcome =>
      obtain rfl := Option.some.inj h
      exact .counted a mode run result hpc houtcome
  case h_8 mode run result reasonName hpc =>
    obtain rfl := Option.some.inj h
    exact .projected a mode run result reasonName hpc
  case h_9 => cases h

/-- Every step of a lane is a move. -/
theorem laneStep_move {l : Nat} {action : LaneAction} (h : laneStep p l action = some p') :
    ProcessMove p p' := by
  unfold laneStep at h
  split at h
  · cases h
  · next lane hlane =>
    cases action with
    | start =>
      obtain ⟨lane', hstart, rfl⟩ := Option.map_eq_some_iff.mp h
      exact .lane l lane lane' hlane (.inl hstart)
    | await =>
      obtain ⟨job, hjob, hawait⟩ := Option.bind_eq_some_iff.mp h
      obtain ⟨asks, hstep, rfl⟩ := Option.map_eq_some_iff.mp hawait
      exact .laneAwaited l lane job asks hlane hjob hstep
    | resume =>
      obtain ⟨job, hjob, hresume⟩ := Option.bind_eq_some_iff.mp h
      split_ifs at hresume with hresting
      obtain rfl := Option.some.inj hresume
      exact .resumed l lane job hlane hjob hresting
    | finish =>
      obtain ⟨lane', hfinish, rfl⟩ := Option.map_eq_some_iff.mp h
      exact .lane l lane lane' hlane (.inr hfinish)

/-- **Every step of a process is one of the moves.** This is the inversion that the invariants rest
on. -/
theorem processStep_move {action : ProcessAction} (h : processStep p action = some p') :
    ProcessMove p p' := by
  unfold processStep at h
  split_ifs at h
  cases action with
  | session host action =>
    dsimp only at h
    split_ifs at h with hallows
    obtain ⟨asks, hstep, rfl⟩ := Option.map_eq_some_iff.mp h
    exact .session host action asks hallows hstep
  | task a action => exact taskStep_move h
  | lane l action => exact laneStep_move h

end Moves

/-! ## The hosts

A step of the process is, for each host, a step of its asks or none.
-/

/-- A step of a caller changes the session only by a `begin`. -/
theorem askStep_session {s s' : AskState} {pc pc' : AskPc} {action : AskAction}
    (h : askStep s pc action = some (s', pc')) : s'.session = s.session ∨
      ∃ caller answer id call, s.session.advance (fun s pc =>
        callerStep s pc (.begin answer id call)) caller = some s'.session := by
  unfold askStep at h
  split at h
  case h_1 ask =>
    split at h <;> cases h <;> exact .inl rfl
  case h_2 ask =>
    left
    -- the section under `clientLock` does not touch the session
    have hsame : (identify ask.source s).2.session = s.session := by
      unfold identify
      split
      · split <;> rfl
      · rfl
    split at h <;> next hidentify =>
      rw [hidentify] at hsame
      cases h
      exact hsame
  case h_3 ask id answer =>
    dsimp only at h
    split at h <;> cases h <;> exact .inl rfl
  case h_4 id wire caller answer call =>
    obtain ⟨session, hsession, heq⟩ := Option.map_eq_some_iff.mp h
    cases heq
    exact .inr ⟨caller, answer, id, call, hsession⟩
  case h_5 wire outcome =>
    cases h
    exact .inl rfl
  case h_6 => cases h

/-- The session of a host runs as it does alone. -/
theorem session_reachable {q : Pool AskState AskPc} (hq : askSystem.Reachable q) :
    sessionSystem.Reachable q.shared.session := by
  induction hq with
  | init h =>
    obtain ⟨⟨session, hsession, hshared⟩, -⟩ := h
    rw [hshared]
    exact .init hsession
  | @step q q' action _ hstep ih =>
    cases action with
    | session action =>
      obtain ⟨session, hsession, rfl⟩ := Option.map_eq_some_iff.mp hstep
      exact .step ih hsession
    | caller i action =>
      obtain ⟨pc, s', pc', hpc, hnext, rfl⟩ := caller_moves hstep
      rcases askStep_session hnext with hsame | ⟨caller, answer, id, call, hsession⟩
      · show sessionSystem.Reachable s'.session
        rw [hsame]
        exact ih
      · exact .step (a := .caller caller (.begin answer id call)) ih hsession

section Hosts

variable {p p' : Process}

/-- A step changes a host as a step of that host does. -/
theorem ProcessMove.host_step (h : ProcessMove p p') (host : Nat) :
    p'.hosts host = p.hosts host ∨ ∃ action, hostAskStep (p.hosts host) action
      = some (p'.hosts host) := by
  have hset : ∀ {k : Nat} {asks : Pool AskState AskPc} {action : HostAskAction},
      hostAskStep (p.hosts k) action = some asks →
      Function.update p.hosts k asks host = p.hosts host ∨
        ∃ action, hostAskStep (p.hosts host) action
          = some (Function.update p.hosts k asks host) := by
    intro k asks action hstep
    by_cases hk : host = k
    · subst hk
      rw [Function.update_self]
      exact .inr ⟨action, hstep⟩
    · exact .inl (Function.update_of_ne hk _ _)
  cases h with
  | session k action asks _ hstep => exact hset hstep
  | entered a mode ask action asks _ _ hstep _ => exact hset hstep
  | failed a mode error action asks _ _ hstep _ => exact hset hstep
  | begun a mode ask answer call wire ticket asks _ _ hstep _ => exact hset hstep
  | trapped a action asks hstep _ => exact hset hstep
  | released a mode run asks _ hstep => exact hset hstep
  | awaited a mode run asks _ hstep => exact hset hstep
  | laneAwaited l lane job asks _ _ hstep => exact hset hstep
  | resumed l lane job =>
    left
    unfold Process.resume
    split
    · split <;> rfl
    · rfl
  | cancelled | chosen | unchosen | submitted | refused | counted | projected | lane => exact .inl rfl

/-- Every host of a process runs as it does alone. -/
theorem host_reachable (hp : processSystem.Reachable p) (host : Nat) :
    askSystem.Reachable (p.hosts host) := by
  induction hp with
  | init h => exact .init (h.1 host)
  | step _ hstep ih =>
    rcases (processStep_move hstep).host_step host with hsame | ⟨action, hmoved⟩
    · rw [hsame]
      exact ih
    · exact .step ih hmoved

end Hosts

end CoAkka.Ask
