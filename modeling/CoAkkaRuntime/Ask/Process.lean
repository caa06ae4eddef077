import CoAkkaRuntime.Ask.RuntimeAskExecutor
import CoAkkaRuntime.Host.AskIdentity
import CoAkkaRuntime.Session.TicketOwners
import Mathlib.Logic.Function.Basic

/-!
# Ask — the asks of a process

`ask`, `askPayload`, `askText` and `askPayloadAsync` of `RuntimeHostClient.swift`, called by any
number of activities of any number of hosts, over the lanes that all of them share. Every section
under a lock is one atomic step, and so is every native call. The hosts are those of `beginAsk`: an
activity is a caller of `beginAsk` and of the session under the same index, and the sessions go on
with their own steps in between. An `awaitResult` is run by its activity, or by the lane that its
closure was handed to.

* `Process` — the hosts with their sessions, the activities, the eight lanes, the log.
* `taskStep`, `laneStep` — a step of an activity and a step of the worker of a lane.
* `processSystem` — the runs: any step that has a result, in any order.

A closure that a lane runs reaches the host and the position of its activity, not copies of them, so
a step of a lane is a step of that host as well.
-/

namespace CoAkka.Ask

open Host Session Transition

/-! ## Positions and events -/

/-- Where an activity is in an entry point. -/
inductive TaskPc where
  | idle
  /-- In `beginAsk`, without a ticket. -/
  | beginning (mode : AskMode) (ask : AskArguments)
  /-- In the `defer` of `beginAsk`, with a ticket. -/
  | returning (mode : AskMode) (run : AskRun)
  | awaiting (mode : AskMode) (run : AskRun)
  /-- In the body of the continuation: before the section of `enqueue`, and after it. -/
  | choosing (run : AskRun)
  | submitting (run : AskRun) (number lane : Nat)
  | suspended (run : AskRun) (number : Nat)
  /-- With the outcome of `awaitResult`: before the section of `accept`, and after it. -/
  | accepting (mode : AskMode) (run : AskRun)
  | projecting (mode : AskMode) (run : AskRun) (result : NativeAskResult)

/-- The ticket that an activity has, and its `awaitResult`. -/
def TaskPc.run? : TaskPc → Option AskRun
  | .idle | .beginning .. => none
  | .returning _ run | .awaiting _ run | .choosing run | .submitting run _ _
  | .suspended run _ | .accepting _ run | .projecting _ run _ => some run

/-- The resumed continuations, the sections of `accept`, and how the asks end, in order. -/
inductive ProcessEvent where
  | resumed (job : Job) (value : Except AskFailure NativeAskResult)
  | counted (host ticket : Nat) (kind : UInt32)
  /-- An ask that got no ticket. -/
  | failed (activity : Activity) (mode : AskMode) (fault : AskFault)
  | returned (activity : Activity) (mode : AskMode) (run : AskRun)
      (reasonName : UInt32 → Option String) (outcome : Except AskFault AskReply)

/-! ## The process -/

/-- The lanes, the hosts with their counters, and the positions of their activities. -/
structure Process where
  lanes : Lanes := {}
  hosts : Nat → Pool AskState AskPc
  stats : Nat → MatchedStats := fun _ => {}
  tasks : Activity → TaskPc := fun _ => .idle
  trapped : Bool := false
  log : List ProcessEvent := []

namespace Process

def logged (p : Process) (events : List ProcessEvent) : Process :=
  { p with log := p.log ++ events }

def setHost (p : Process) (host : Nat) (asks : Pool AskState AskPc) : Process :=
  { p with hosts := Function.update p.hosts host asks }

def setTask (p : Process) (activity : Activity) (pc : TaskPc) : Process :=
  { p with tasks := Function.update p.tasks activity pc }

def setLane (p : Process) (l : Nat) (lane : Lane) : Process :=
  { p with lanes := { p.lanes with queues := p.lanes.queues.set l lane } }

def session (p : Process) (host : Nat) : Pool SessionState CallerPc := (p.hosts host).shared.session

/-- A step of the activity's `beginAsk`. -/
def beginStep (p : Process) (activity : Activity) (action : AskAction) :
    Option (Pool AskState AskPc) :=
  hostAskStep (p.hosts activity.host) (.caller activity.index action)

/-- A step of the `awaitResult` with the activity's ticket. -/
def awaitStep (p : Process) (activity : Activity) : Option (Pool AskState AskPc) :=
  hostAskStep (p.hosts activity.host) (.session (.caller activity.index .ask))

end Process

/-- At rest in the session: outside of its methods, and without a ticket. -/
def resting (session : Pool SessionState CallerPc) (index : Nat) : Bool :=
  match session.threads[index]? with
  | some .idle => true
  | _ => false

/-! ## The entry points -/

inductive TaskAction where
  /-- An entry point is called; whether its task is cancelled matters to `askPayloadAsync`. -/
  | start (mode : AskMode) (ask : AskArguments) (cancelled : Bool)
  | beginAsk (action : AskAction)
  | await
  | choose
  | submit
  | accept
  | project (reasonName : UInt32 → Option String)

/-- The `awaitResult` that a `begin` prepares. -/
def askCall? : AskAction → Option AskCall
  | .begin _ _ call => some call
  | _ => none

/-- An activity begins with its own place in the session. -/
def owns (index : Nat) : AskAction → Bool
  | .begin caller _ _ => caller == index
  | _ => true

/-- A `begin` as the entry point makes it: with what it passes on to `awaitResult`. -/
def fits (mode : AskMode) (ask : AskArguments) : AskAction → Bool
  | .begin _ _ call => call.timeoutMs == ask.timeoutMs && call.payloadOnly == mode.payloadOnly &&
      call.cancellation.isSome == (mode == .async)
  | _ => true

/-- After a step of `beginAsk` that leaves the host as `asks`. -/
def Process.afterBegin (p : Process) (a : Activity) (mode : AskMode) (ask : AskArguments)
    (action : AskAction) (asks : Pool AskState AskPc) : Option Process :=
  match asks.threads[a.index]? with
  | none => none
  | some .idle =>
    match asks.shared.log.getLast? with
    | some (.returned (.error error)) =>
      some (((p.setHost a.host asks).setTask a .idle).logged [.failed a mode (.runtime error)])
    | _ => none
  | some (.releasing _ (.ok ticket)) =>
    (askCall? action).map fun call =>
      (p.setHost a.host asks).setTask a (.returning mode ⟨ticket, call⟩)
  | some .trapped => some { p.setHost a.host asks with trapped := true }
  | some _ => some ((p.setHost a.host asks).setTask a (.beginning mode ask))

/-- The step `action` of an activity, when it is enabled. -/
def taskStep (p : Process) (a : Activity) (action : TaskAction) : Option Process :=
  match p.tasks a, action with
  | .idle, .start mode ask cancelled =>
    if resting (p.session a.host) a.index then
      -- `try Task.checkCancellation()`
      if cancelled && mode == .async then
        some (p.logged [.failed a mode (.failure .cancellation)])
      else (p.beginStep a (.ask ask)).bind (p.afterBegin a mode ask (.ask ask))
    else none
  | .beginning mode ask, .beginAsk action =>
    if owns a.index action && fits mode ask action then
      (p.beginStep a action).bind (p.afterBegin a mode ask action)
    else none
  | .returning mode run, .beginAsk .release =>
    (p.beginStep a .release).map fun asks =>
      (p.setHost a.host asks).setTask a
        (if mode = .async then .choosing run else .awaiting mode run)
  | .awaiting mode run, .await =>
    (p.awaitStep a).map fun asks =>
      (p.setHost a.host asks).setTask a
        (if resting asks.shared.session a.index then .accepting mode run else .awaiting mode run)
  | .choosing run, .choose =>
    match p.lanes.choose with
    | some (lane, lanes) =>
      some ({ p with lanes }.setTask a (.submitting run p.lanes.chosen.length lane))
    | none => some { p with trapped := true }
  | .submitting run number lane, .submit =>
    some ({ p with lanes := p.lanes.async lane ⟨number, a, run⟩ }.setTask a
      (.suspended run number))
  | .accepting mode run, .accept =>
    match run.outcome with
    | .error failure =>
      some ((p.setTask a .idle).logged
        [.returned a mode run (fun _ => none) (.error (.failure failure))])
    | .ok result =>
      let stats := Function.update p.stats a.host ((p.stats a.host).count result.kind)
      some (({ p with stats }.setTask a (.projecting mode run result)).logged
        [.counted a.host run.ticket.ticket result.kind])
  | .projecting mode run result, .project reasonName =>
    some ((p.setTask a .idle).logged
      [.returned a mode run reasonName (mode.reply reasonName (.ok result))])
  | _, _ => none

/-! ## The lanes

The worker of a lane takes a job, runs its `awaitResult` call by call, resumes the task, and is
free for the next.
-/

inductive LaneAction where
  | start
  | await
  | resume
  | finish
  deriving DecidableEq, Repr

/-- `continuation.resume`, which traps where the task is not suspended with this job. -/
def Process.resume (p : Process) (job : Job) : Process :=
  match p.tasks job.activity with
  | .suspended _ number =>
    if number = job.number then
      (p.setTask job.activity (.accepting .async job.run)).logged [.resumed job job.run.outcome]
    else { p with trapped := true }
  | _ => { p with trapped := true }

/-- The step `action` of the worker of the lane `l`, when it is enabled. -/
def laneStep (p : Process) (l : Nat) (action : LaneAction) : Option Process :=
  match p.lanes.queues[l]? with
  | none => none
  | some lane =>
    match action with
    | .start => lane.start.map (p.setLane l)
    | .await => lane.current.bind fun job =>
        (p.awaitStep job.activity).map (p.setHost job.activity.host)
    | .resume => lane.current.bind fun job =>
        if resting (p.session job.activity.host) job.activity.index then
          some ((p.setLane l { lane with worker := .ending }).resume job)
        else none
    | .finish => lane.finish.map (p.setLane l)

/-! ## The runs -/

inductive ProcessAction where
  | session (host : Nat) (action : SessionAction)
  | task (activity : Activity) (action : TaskAction)
  | lane (lane : Nat) (action : LaneAction)

/-- What the sessions do besides the asks; an activity in an entry point does nothing else. -/
def Process.allows (p : Process) (host : Nat) : SessionAction → Bool
  | .runner _ => true
  | .caller i action => action.unrelated && (p.tasks ⟨host, i⟩ matches .idle)

def processStep (p : Process) (action : ProcessAction) : Option Process :=
  if p.trapped then none
  else
    match action with
    | .session host action =>
      if p.allows host action then
        (hostAskStep (p.hosts host) (.session action)).map (p.setHost host)
      else none
    | .task a action => taskStep p a action
    | .lane l action => laneStep p l action

/-- Hosts that have just been made, and nobody asking. -/
def processSystem : System Process ProcessAction where
  init p := (∀ host, askSystem.init (p.hosts host)) ∧ p = { hosts := p.hosts }
  step p a p' := processStep p a = some p'

end CoAkka.Ask
