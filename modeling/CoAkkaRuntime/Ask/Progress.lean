import CoAkkaRuntime.Ask.ExecutorLaw
import CoAkkaRuntime.Transition.Measure
import Mathlib.Algebra.BigOperators.Group.Finset.Basic

/-!
# Ask — the lanes come to an end

The work of a lane is what its workers still have to do: of every job that waits the whole
`awaitResult`, of the job that runs the rest of it. A step of a lane does one piece of its own work
and leaves the work of the other lanes alone, and a lane that has work has a step. So however the
lanes take turns they never get stuck, and they resume every suspended task.

* `remaining` — how many native calls an `awaitResult` still makes.
* `laneStep_work` — a step of a lane takes exactly one from the work of all lanes.
* `laneStep_enabled` — where there is work, the lane that has it has a step.
* `executor_drains` — both as one statement about runs, from any reachable state, with what becomes
  of the suspended tasks at the end and that the other activities stay where they were.

Nothing is assumed of the answers of Core except that it answers.
-/

namespace CoAkka.Ask

open Host Session Transition

/-! ## Work -/

/-- What is left of the `awaitResult` at a place of a session. -/
def remaining (session : Pool SessionState CallerPc) (index : Nat) : Nat :=
  match session.threads[index]? with
  | some (.asking _ rest) => rest.length
  | _ => 0

/-- The steps of a lane: one for each start, for each event of an `awaitResult`, for each `resume`
and for each end of a job. -/
def Lane.work (p : Process) (lane : Lane) : Nat :=
  (lane.queue.waiting.map fun job => job.run.trace.length + 3).sum +
    match lane.worker with
    | .resting => 0
    | .awaiting =>
      match lane.queue.running with
      | some job => remaining (p.session job.activity.host) job.activity.index + 2
      | none => 0
    | .ending => 1

def laneWork (p : Process) (l : Nat) : Nat :=
  match p.lanes.queues[l]? with
  | some lane => lane.work p
  | none => 0

def work (p : Process) : Nat := ∑ l ∈ Finset.range 8, laneWork p l

/-- The runs in which only the lanes take steps. -/
def laneSystem : System Process (Nat × LaneAction) where
  init p := processSystem.Reachable p
  step p a p' := processStep p (.lane a.1 a.2) = some p'

/-- What a held ticket has left is what its rest says. -/
theorem Held.remaining {session : Pool SessionState CallerPc} {index : Nat} {run : AskRun}
    {rest : List TicketEvent} (h : Held session index run rest) :
    remaining session index = rest.length := by
  unfold Ask.remaining
  rw [h.slot]
  cases rest <;> rfl

section Steps

variable {p p' : Process} {l : Nat} {lane lane' : Lane} {job : Job}

/-- The work of a lane is that of the lane at its place. -/
theorem laneWork_eq (hlane : p.lanes.queues[l]? = some lane) : laneWork p l = lane.work p := by
  unfold laneWork
  rw [hlane]

/-- While a job is running, its own rest counts instead of its whole trace. -/
theorem Lane.work_current (hcurrent : lane.current = some job) : lane.work p =
    (lane.queue.waiting.map fun job => job.run.trace.length + 3).sum +
      (remaining (p.session job.activity.host) job.activity.index + 2) := by
  obtain ⟨hworker, hrunning⟩ := Lane.Valid.current_running hcurrent
  unfold Lane.work
  rw [hworker, hrunning]

/-- The work of a lane depends on the place of its current job only. -/
theorem Lane.work_congr (hsame : ∀ job, lane.current = some job →
    remaining (p'.session job.activity.host) job.activity.index
      = remaining (p.session job.activity.host) job.activity.index) :
    lane.work p' = lane.work p := by
  cases hcurrent : lane.current with
  | none =>
    unfold Lane.work
    unfold Lane.current at hcurrent
    cases hworker : lane.worker with
    | awaiting =>
      rw [hworker] at hcurrent
      have hrunning : lane.queue.running = none := hcurrent
      rw [hrunning]
    | resting | ending => rfl
  | some job => rw [Lane.work_current hcurrent, Lane.work_current hcurrent, hsame job hcurrent]

/-- Replacing one lane leaves the others. -/
theorem getElem?_setLane (k : Nat) (hlane : p.lanes.queues[l]? = some lane) :
    (p.setLane l lane').lanes.queues[k]? = if l = k then some lane' else p.lanes.queues[k]? := by
  have hl := (List.getElem?_eq_some_iff.mp hlane).1
  show (p.lanes.queues.set l lane')[k]? = _
  rw [List.getElem?_set]
  split_ifs <;> rfl

/-- A step of one lane. -/
theorem work_of_lane (hl : l < 8) (hother : ∀ k, k ≠ l → laneWork p' k = laneWork p k)
    (hown : laneWork p' l + 1 = laneWork p l) : work p' + 1 = work p := by
  have hmem : l ∈ Finset.range 8 := Finset.mem_range.mpr hl
  have hrest : ∑ k ∈ (Finset.range 8).erase l, laneWork p' k
      = ∑ k ∈ (Finset.range 8).erase l, laneWork p k :=
    Finset.sum_congr rfl fun k hk => hother k (Finset.ne_of_mem_erase hk)
  unfold work
  rw [← Finset.add_sum_erase _ _ hmem, ← Finset.add_sum_erase _ (laneWork p) hmem, hrest]
  omega

/-- What a lane that changes alone has to show. -/
theorem work_setLane (hl : l < 8) (hlane : p.lanes.queues[l]? = some lane)
    (hqueues : p'.lanes.queues = (p.setLane l lane').lanes.queues)
    (hsessions : ∀ host, p'.session host = p.session host)
    (hown : lane'.work p + 1 = lane.work p) : work p' + 1 = work p := by
  have hsame : ∀ lane₁ : Lane, lane₁.work p' = lane₁.work p := fun lane₁ =>
    Lane.work_congr fun job _ => by rw [hsessions]
  apply work_of_lane hl
  · intro k hk
    unfold laneWork
    rw [hqueues, getElem?_setLane k hlane, if_neg (Ne.symm hk)]
    cases p.lanes.queues[k]? with
    | none => rfl
    | some lane₁ => exact hsame lane₁
  · rw [laneWork_eq hlane, ← hown]
    unfold laneWork
    rw [hqueues, getElem?_setLane l hlane, if_pos rfl]
    exact congrArg (· + 1) (hsame lane')

/-- There are eight lanes. -/
theorem lt_eight (hjobs : Jobs p) (hlane : p.lanes.queues[l]? = some lane) : l < 8 := by
  rw [← hjobs.lanes.eight]
  exact (List.getElem?_eq_some_iff.mp hlane).1

/-- A job begins with all of its `awaitResult` before it. -/
theorem work_start (hjobs : Jobs p) (htickets : Tickets p)
    (hlane : p.lanes.queues[l]? = some lane) (hstart : lane.start = some lane') :
    work (p.setLane l lane') + 1 = work p := by
  obtain ⟨job, rest, hworker, hrunning, hwaiting, rfl⟩ := Lane.Valid.start_eq_some hstart
  have hheld := htickets.waiting l lane hlane job (by rw [hwaiting]; exact List.mem_cons_self)
  refine work_setLane (lt_eight hjobs hlane) hlane rfl (fun _ => rfl) ?_
  have hbefore : lane.work p
      = (job.run.trace.length + 3) + (rest.map fun job => job.run.trace.length + 3).sum := by
    unfold Lane.work
    rw [hwaiting, hworker, List.map_cons, List.sum_cons, Nat.add_zero]
  rw [hbefore, Lane.work_current rfl, hheld.remaining]
  show (rest.map fun job => job.run.trace.length + 3).sum + (job.run.trace.length + 2) + 1 = _
  omega

/-- A lane that is done with a job has one piece of work less. -/
theorem work_finish (hjobs : Jobs p) (hlane : p.lanes.queues[l]? = some lane)
    (hfinish : lane.finish = some lane') : work (p.setLane l lane') + 1 = work p := by
  obtain ⟨job, hworker, hrunning, rfl⟩ := Lane.Valid.finish_eq_some hfinish
  refine work_setLane (lt_eight hjobs hlane) hlane rfl (fun _ => rfl) ?_
  unfold Lane.work
  rw [hworker]
  rfl

/-- The task is resumed when nothing is left of the `awaitResult`. -/
theorem work_resume (hjobs : Jobs p) (hlane : p.lanes.queues[l]? = some lane)
    (hjob : lane.current = some job)
    (hresting : resting (p.session job.activity.host) job.activity.index) :
    work ((p.setLane l { lane with worker := .ending }).resume job) + 1 = work p := by
  have hzero : remaining (p.session job.activity.host) job.activity.index = 0 := by
    unfold resting at hresting
    unfold remaining
    split at hresting
    · next hslot => rw [hslot]
    · cases hresting
  rw [hjobs.resume_eq hlane hjob]
  refine work_setLane (lt_eight hjobs hlane) hlane rfl (fun _ => rfl) ?_
  rw [Lane.work_current hjob, hzero]
  rfl

/-- One native call of an `awaitResult`; the jobs that the other lanes run are of other tasks. -/
theorem work_await (hjobs : Jobs p) (htickets : Tickets p)
    (hlane : p.lanes.queues[l]? = some lane) (hjob : lane.current = some job)
    {asks : Pool AskState AskPc} (hstep : p.awaitStep job.activity = some asks) :
    work (p.setHost job.activity.host asks) + 1 = work p := by
  have htask := hjobs.live l lane hlane job (Jobs.mem_live_current hjob)
  obtain ⟨hothers, event, rest, hbefore, hafter⟩ :=
    htickets.await_effect (hjobs.run?_current hlane hjob) hstep
  apply work_of_lane (lt_eight hjobs hlane)
  · intro k hk
    have hqueues : (p.setHost job.activity.host asks).lanes.queues = p.lanes.queues := rfl
    unfold laneWork
    rw [hqueues]
    cases hlane₁ : p.lanes.queues[k]? with
    | none => rfl
    | some lane₁ =>
      refine Lane.work_congr fun other hother => ?_
      have htask' := hjobs.live k lane₁ hlane₁ other (Jobs.mem_live_current hother)
      have hne : other.activity ≠ job.activity := by
        intro heq
        rw [heq, htask] at htask'
        obtain ⟨-, hnumber⟩ := TaskPc.suspended.inj htask'
        exact hk (hjobs.lanes.job_unique hlane₁ hlane
          ((hjobs.lanes.lane k lane₁ hlane₁).submitted_of_live (Jobs.mem_live_current hother))
          ((hjobs.lanes.lane l lane hlane).submitted_of_live (Jobs.mem_live_current hjob))
          hnumber.symm).1
      unfold remaining
      rw [(hothers other.activity other.run hne (by rw [htask']; rfl)).slot]
  · have hkept : laneWork (p.setHost job.activity.host asks) l
        = lane.work (p.setHost job.activity.host asks) := laneWork_eq hlane
    rw [hkept, laneWork_eq hlane, Lane.work_current hjob, Lane.work_current hjob, session_setHost,
      if_pos rfl, hafter.remaining, hbefore.remaining, List.length_cons]
    omega

/-- A place with something left to do can do it. -/
theorem awaitStep_enabled {a : Activity} {run : AskRun} {event : TicketEvent}
    {rest : List TicketEvent} (hheld : Held (p.session a.host) a.index run (event :: rest)) :
    ∃ asks, p.awaitStep a = some asks := by
  have hnext : ∃ r, callerStep (p.session a.host).shared
      (.asking run.ticket.ticket (event :: rest)) .ask = some r := by
    cases event <;> exact ⟨_, rfl⟩
  obtain ⟨⟨s', pc'⟩, hnext⟩ := hnext
  have hstep : sessionStep (p.session a.host) (.caller a.index .ask)
      = some ⟨s', (p.session a.host).threads.set a.index pc'⟩ := by
    show (p.session a.host).advance (fun s pc => callerStep s pc .ask) a.index = _
    exact Pool.advance_of_next hheld.slot hnext
  refine ⟨_, Option.map_eq_some_iff.mpr ⟨_, hstep, rfl⟩⟩

/-- A lane that has work has a step. -/
theorem laneStep_enabled (hjobs : Jobs p) (htickets : Tickets p)
    (hlane : p.lanes.queues[l]? = some lane) (hwork : lane.work p ≠ 0) :
    ∃ action p', laneStep p l action = some p' := by
  have hvalid := hjobs.lanes.lane l lane hlane
  -- a worker at rest starts a job, one that has ended gives it back, one in between goes on
  cases hworker : lane.worker with
  | resting =>
    have hrunning := hvalid.worker.mp hworker
    cases hwaiting : lane.queue.waiting with
    | nil =>
      unfold Lane.work at hwork
      rw [hwaiting, hworker] at hwork
      exact absurd rfl hwork
    | cons job rest =>
      obtain ⟨lane', hstart⟩ : ∃ lane', lane.start = some lane' := by
        unfold Lane.start
        rw [hworker, Serial.Queue.start_of_waiting hrunning hwaiting]
        exact ⟨_, rfl⟩
      refine ⟨.start, p.setLane l lane', ?_⟩
      unfold laneStep
      rw [hlane]
      exact congrArg (Option.map (p.setLane l)) hstart
  | ending =>
    have hne : lane.queue.running ≠ none := fun hnone => by
      rw [hvalid.worker.mpr hnone] at hworker
      cases hworker
    obtain ⟨job, hrunning⟩ := Option.ne_none_iff_exists'.mp hne
    obtain ⟨lane', hfinish⟩ : ∃ lane', lane.finish = some lane' := by
      unfold Lane.finish
      rw [hworker, Serial.Queue.finish_of_running hrunning]
      exact ⟨_, rfl⟩
    refine ⟨.finish, p.setLane l lane', ?_⟩
    unfold laneStep
    rw [hlane]
    exact congrArg (Option.map (p.setLane l)) hfinish
  | awaiting =>
    have hne : lane.queue.running ≠ none := fun hnone => by
      rw [hvalid.worker.mpr hnone] at hworker
      cases hworker
    obtain ⟨job, hrunning⟩ := Option.ne_none_iff_exists'.mp hne
    have hcurrent : lane.current = some job := by
      unfold Lane.current
      rw [hworker, hrunning]
    have htask := hjobs.live l lane hlane job (Jobs.mem_live_current hcurrent)
    obtain ⟨rest, hheld⟩ :=
      (htickets.custody job.activity).held (hjobs.run?_current hlane hcurrent)
    cases rest with
    | nil =>
      -- `awaitResult` is over, so the closure resumes its task
      have hresting : resting (p.session job.activity.host) job.activity.index := by
        unfold resting
        rw [hheld.slot]
        rfl
      refine ⟨.resume, (p.setLane l { lane with worker := .ending }).resume job, ?_⟩
      unfold laneStep
      rw [hlane]
      show lane.current.bind _ = _
      rw [hcurrent]
      exact if_pos hresting
    | cons event rest =>
      obtain ⟨asks, hasks⟩ := awaitStep_enabled hheld
      refine ⟨.await, p.setHost job.activity.host asks, ?_⟩
      unfold laneStep
      rw [hlane]
      show lane.current.bind _ = _
      rw [hcurrent]
      exact Option.map_eq_some_iff.mpr ⟨asks, hasks, rfl⟩

/-- **Every step of a lane does exactly one piece of work.** -/
theorem laneStep_work {action : LaneAction} (hjobs : Jobs p) (htickets : Tickets p)
    (h : laneStep p l action = some p') : work p' + 1 = work p := by
  unfold laneStep at h
  split at h
  · cases h
  · next lane hlane =>
    cases action with
    | start =>
      obtain ⟨lane', hstart, rfl⟩ := Option.map_eq_some_iff.mp h
      exact work_start hjobs htickets hlane hstart
    | await =>
      obtain ⟨job, hjob, hawait⟩ := Option.bind_eq_some_iff.mp h
      obtain ⟨asks, hstep, rfl⟩ := Option.map_eq_some_iff.mp hawait
      exact work_await hjobs htickets hlane hjob hstep
    | resume =>
      obtain ⟨job, hjob, hresume⟩ := Option.bind_eq_some_iff.mp h
      split_ifs at hresume with hresting
      obtain rfl := Option.some.inj hresume
      exact work_resume hjobs hlane hjob hresting
    | finish =>
      obtain ⟨lane', hfinish, rfl⟩ := Option.map_eq_some_iff.mp h
      exact work_finish hjobs hlane hfinish

/-- In a process that has not trapped, the lanes step by themselves. -/
theorem processStep_lane {action : LaneAction} (halive : p.trapped = false) :
    processStep p (.lane l action) = laneStep p l action := by
  unfold processStep
  rw [if_neg (by rw [halive]; decide)]

/-- The lanes alone do their work, one step after the other. -/
theorem lanes_measured : laneSystem.Measured processSystem.Reachable work := by
  refine ⟨fun p action p' hp hstep => .step hp hstep, ?_, ?_⟩
  · intro p action p' hp hstep
    have hlane : laneStep p action.1 action.2 = some p' := by
      rw [← processStep_lane (jobs_of_reachable hp).alive]
      exact hstep
    exact laneStep_work (jobs_of_reachable hp) (tickets_of_reachable hp) hlane
  · intro p hp hwork
    have hjobs := jobs_of_reachable hp
    obtain ⟨l, hl, hne⟩ : ∃ l ∈ Finset.range 8, laneWork p l ≠ 0 := by
      by_contra hnone
      simp only [not_exists, not_and, not_not] at hnone
      exact hwork (Finset.sum_eq_zero hnone)
    unfold laneWork at hne
    split at hne
    · next lane hlane =>
      obtain ⟨action, p', hstep⟩ := laneStep_enabled hjobs (tickets_of_reachable hp) hlane hne
      exact ⟨(l, action), p', (processStep_lane hjobs.alive).trans hstep⟩
    · exact absurd rfl hne

/-! ## The tasks

A lane moves no activity except the one that it resumes.
-/

/-- The lanes leave a task where it is, or resume it. -/
theorem laneStep_tasks {action : LaneAction} (hjobs : Jobs p)
    (h : laneStep p l action = some p') (a : Activity) : p'.tasks a = p.tasks a ∨
      ∃ run number, p.tasks a = .suspended run number ∧ p'.tasks a = .accepting .async run := by
  unfold laneStep at h
  split at h
  · cases h
  · next lane hlane =>
    cases action with
    | start | finish =>
      obtain ⟨lane', -, rfl⟩ := Option.map_eq_some_iff.mp h
      exact .inl rfl
    | await =>
      obtain ⟨job, -, hawait⟩ := Option.bind_eq_some_iff.mp h
      obtain ⟨asks, -, rfl⟩ := Option.map_eq_some_iff.mp hawait
      exact .inl rfl
    | resume =>
      obtain ⟨job, hjob, hresume⟩ := Option.bind_eq_some_iff.mp h
      split_ifs at hresume
      obtain rfl := Option.some.inj hresume
      rw [hjobs.resume_eq hlane hjob]
      show Function.update p.tasks job.activity _ a = _ ∨ _
      by_cases ha : a = job.activity
      · subst ha
        have htask := hjobs.live l lane hlane job (Jobs.mem_live_current hjob)
        exact .inr ⟨job.run, job.number, htask, Function.update_self _ _ _⟩
      · exact .inl (Function.update_of_ne ha _ _)

/-- A run of the lanes alone moves a task only by resuming it. -/
theorem runs_tasks (hp : processSystem.Reachable p) {n : Nat} (hrun : laneSystem.Runs p n p')
    (a : Activity) : p'.tasks a = p.tasks a ∨
      ∃ run number, p.tasks a = .suspended run number ∧ p'.tasks a = .accepting .async run := by
  induction hrun with
  | refl => exact .inl rfl
  | @step p₁ p₂ n action hrun hstep ih =>
    have hjobs := jobs_of_reachable (lanes_measured.runs hp hrun).1
    have hlane : laneStep p₁ action.1 action.2 = some p₂ := by
      rw [← processStep_lane hjobs.alive]
      exact hstep
    rcases laneStep_tasks hjobs hlane a with hsame | ⟨run, number, hbefore, hafter⟩
    · rw [hsame]
      exact ih
    · -- the task was suspended from the start
      rcases ih with hkept | ⟨run', number', -, haccepting⟩
      · exact .inr ⟨run, number, hkept ▸ hbefore, hafter⟩
      · rw [haccepting] at hbefore
        cases hbefore

/-- Nothing runs in the lanes, and nothing waits. -/
def Drained (p : Process) : Prop :=
  ∀ lane ∈ p.lanes.queues, lane.worker = .resting ∧ lane.queue.running = none ∧
    lane.queue.waiting = []

/-- Without work the lanes are empty and no task is suspended. -/
theorem drained_of_work (hjobs : Jobs p) (hwork : work p = 0) : Drained p := by
  intro lane hmem
  obtain ⟨l, hlane⟩ := List.mem_iff_getElem?.mp hmem
  have hvalid := hjobs.lanes.lane l lane hlane
  have hzero : lane.work p = 0 := by
    rw [← laneWork_eq hlane]
    exact Finset.sum_eq_zero_iff.mp hwork l (Finset.mem_range.mpr (lt_eight hjobs hlane))
  have hwaiting : lane.queue.waiting = [] := by
    unfold Lane.work at hzero
    cases hqueue : lane.queue.waiting with
    | nil => rfl
    | cons job rest =>
      rw [hqueue, List.map_cons, List.sum_cons] at hzero
      omega
  -- a worker that is not at rest has at least its own end before it
  have hresting : lane.worker = .resting := by
    cases hworker : lane.worker with
    | resting => rfl
    | ending =>
      unfold Lane.work at hzero
      rw [hworker] at hzero
      exact absurd hzero (Nat.succ_ne_zero _)
    | awaiting =>
      have hne : lane.queue.running ≠ none := fun hnone => by
        rw [hvalid.worker.mpr hnone] at hworker
        cases hworker
      obtain ⟨job, hrunning⟩ := Option.ne_none_iff_exists'.mp hne
      unfold Lane.work at hzero
      rw [hworker, hrunning] at hzero
      exact absurd hzero (Nat.succ_ne_zero _)
  exact ⟨hresting, hvalid.worker.mp hresting, hwaiting⟩

/-- **The lanes drain.** From every reachable state the lanes alone can take exactly `work p` steps,
in whatever order they take turns: they never take more, they are never stuck before, and then they
are empty and have resumed every suspended task, and no other task has moved. -/
theorem executor_drains (hp : processSystem.Reachable p) :
    (∀ n p', laneSystem.Runs p n p' → n ≤ work p ∧
      (n < work p → ∃ action p'', laneSystem.step p' action p'') ∧
      (n = work p → Drained p' ∧ ∀ a,
        (∀ run number, p.tasks a = .suspended run number → p'.tasks a = .accepting .async run) ∧
        ((∀ run number, p.tasks a ≠ .suspended run number) → p'.tasks a = p.tasks a))) ∧
    ∃ p', laneSystem.Runs p (work p) p' := by
  refine ⟨fun n p' hrun => ?_, ?_⟩
  · obtain ⟨hp', hcount⟩ := lanes_measured.runs hp hrun
    have hjobs := jobs_of_reachable hp'
    refine ⟨by omega, fun hlt => lanes_measured.enabled p' hp' (by omega), fun heq => ?_⟩
    have hdrained := drained_of_work hjobs (by omega)
    refine ⟨hdrained, fun a => ?_⟩
    -- a suspended task has a live job, and there is none left
    have hnone : ∀ run number, p'.tasks a ≠ .suspended run number := by
      intro run number hpc
      obtain ⟨lane, hlane, hjob⟩ := hjobs.suspended a run number hpc
      obtain ⟨hworker, -, hwaiting⟩ := hdrained lane (List.mem_of_getElem? hlane)
      unfold Lane.live Lane.current at hjob
      rw [hworker, hwaiting] at hjob
      cases hjob
    rcases runs_tasks hp hrun a with hsame | ⟨run, number, hbefore, hafter⟩
    · exact ⟨fun run number hpc => absurd (hsame ▸ hpc) (hnone run number), fun _ => hsame⟩
    · refine ⟨fun run' number' hpc => ?_, fun hall => absurd hbefore (hall run number)⟩
      rw [hbefore] at hpc
      obtain ⟨rfl, -⟩ := TaskPc.suspended.inj hpc
      exact hafter
  · obtain ⟨p', hrun, -⟩ := lanes_measured.exists_run hp
    exact ⟨p', hrun⟩

end Steps

/-- One of two asks is answered, and the lanes have the rest of the other. -/
theorem executor_drains_twoAsks : ∃ p p', processSystem.Reachable p ∧
    laneSystem.Runs p (work p) p' ∧ Drained p' := by
  obtain ⟨p, hp, -⟩ := twoAsks_reaches
  obtain ⟨hruns, p', hrun⟩ := executor_drains hp
  exact ⟨p, p', hp, hrun, ((hruns _ p' hrun).2.2 rfl).1⟩

end CoAkka.Ask
