import CoAkkaRuntime.Ask.Accept
import CoAkkaRuntime.Host.BeginAsk
import CoAkkaRuntime.Serial.Queue

/-!
# Ask — `RuntimeAskExecutor`

The eight serial lanes of `RuntimeAskExecutor.swift`, shared by every host of the process. `enqueue`
is two steps: it chooses a lane under `lock`, and hands the work to that lane after the unlock, so
two callers may reach a lane in another order than they took the lock. Every work item is the
closure of one `askPayloadAsync`.

* `Lanes.choose`, `Lanes.async` — the two halves of `enqueue`.
* `Lane.Valid`, `Lanes.Valid` — what holds of a lane and of the eight: a worker that runs has a job,
  the jobs of a lane are in the order of their submission, no job is in two lanes.
* `job_unique` — a job is live in one lane and at one place in it.

The queue of a lane is the serial queue of `Serial.Queue`, whose rules carry the proofs.
-/

namespace CoAkka.Ask

open Host Session

/-! ## Jobs and lanes -/

/-- One sequential activity of a process: a caller of one of its hosts. -/
structure Activity where
  host : Nat
  index : Nat
  deriving DecidableEq, Repr

/-- A ticket that `beginAsk` returned, and the `awaitResult` that uses it. -/
structure AskRun where
  ticket : AskTicket
  call : AskCall

namespace AskRun

/-- What `awaitResult` does with the ticket. -/
def trace (run : AskRun) : List TicketEvent :=
  (runAwait run.ticket.messageID false run.call).2.trace

def outcome (run : AskRun) : Except AskFailure NativeAskResult :=
  (runAwait run.ticket.messageID false run.call).1

end AskRun

/-- The closure that `askPayloadAsync` enqueues. Its number says when it chose its lane. -/
structure Job where
  number : Nat
  activity : Activity
  run : AskRun

/-- Where the worker of a lane is: without work, in `awaitResult`, or after the `resume`. -/
inductive WorkerPc where
  | resting
  | awaiting
  | ending
  deriving DecidableEq, Repr

structure Lane where
  queue : Serial.Queue Job := {}
  worker : WorkerPc := .resting

/-- `Lanes`, with the lanes that were chosen, in the order of the lock. -/
structure Lanes where
  queues : List Lane := List.replicate 8 {}
  next : Nat := 0
  chosen : List Nat := []

/-! ## `enqueue` -/

/-- The section under `lock`. The subscript traps where `next` is out of range. -/
def Lanes.choose (lanes : Lanes) : Option (Nat × Lanes) :=
  if lanes.next < lanes.queues.length then
    some (lanes.next, { lanes with
      next := (lanes.next + 1) % lanes.queues.length
      chosen := lanes.chosen ++ [lanes.next] })
  else none

/-- `queue.async(execute: work)`. -/
def Lanes.async (lanes : Lanes) (lane : Nat) (job : Job) : Lanes :=
  { lanes with queues := lanes.queues.modify lane fun l => { l with queue := l.queue.submit job } }

/-! ## The worker of a lane -/

/-- The closure of the first job that waits begins. -/
def Lane.start (lane : Lane) : Option Lane :=
  match lane.worker with
  | .resting => lane.queue.start.map fun queue => ⟨queue, .awaiting⟩
  | _ => none

/-- The closure of a job that has resumed its task is over. -/
def Lane.finish (lane : Lane) : Option Lane :=
  match lane.worker with
  | .ending => lane.queue.finish.map fun queue => ⟨queue, .resting⟩
  | _ => none

/-- The job whose `awaitResult` the worker runs. -/
def Lane.current (lane : Lane) : Option Job :=
  match lane.worker with
  | .awaiting => lane.queue.running
  | _ => none

/-- The jobs that have not resumed their task. -/
def Lane.live (lane : Lane) : List Job := lane.current.toList ++ lane.queue.waiting

/-! ## What holds of the lanes

The invariant of one lane is kept by its three operations; that of the eight is the same for each
of them, and that the lanes were chosen in turn.
-/

/-- What holds of the lane `l`, where `chosen` jobs have chosen a lane. -/
structure Lane.Valid (l chosen : Nat) (lane : Lane) : Prop where
  order : lane.queue.InOrder
  worker : lane.worker = .resting ↔ lane.queue.running = none
  place : ∀ job ∈ lane.queue.submitted, job.number % 8 = l ∧ job.number < chosen
  once : (lane.queue.submitted.map (·.number)).Nodup

structure Lanes.Valid (lanes : Lanes) : Prop where
  eight : lanes.queues.length = 8
  next : lanes.next = lanes.chosen.length % 8
  turns : lanes.chosen = Serial.turns 8 lanes.chosen.length
  lane : ∀ (l : Nat) (lane : Lane), lanes.queues[l]? = some lane →
    lane.Valid l lanes.chosen.length

namespace Lane.Valid

variable {l chosen : Nat} {lane lane' : Lane} {job : Job}

/-- Later choices do not disturb a lane. -/
theorem mono (h : lane.Valid l chosen) {chosen' : Nat} (hle : chosen ≤ chosen') :
    lane.Valid l chosen' :=
  ⟨h.order, h.worker, fun job hjob => ⟨(h.place job hjob).1, by have := (h.place job hjob).2; omega⟩,
    h.once⟩

/-- A lane that awaits is running the job that it is at. -/
theorem current_running (hcurrent : lane.current = some job) :
    lane.worker = .awaiting ∧ lane.queue.running = some job := by
  unfold Lane.current at hcurrent
  split at hcurrent
  · next hworker => exact ⟨hworker, hcurrent⟩
  · cases hcurrent

/-- What waits or runs was submitted. -/
theorem submitted_of_live (h : lane.Valid l chosen) (hjob : job ∈ lane.live) :
    job ∈ lane.queue.submitted := by
  rw [h.order]
  rcases List.mem_append.mp hjob with hcurrent | hwaiting
  · have hrunning := (current_running (Option.mem_toList.mp hcurrent)).2
    rw [hrunning]
    simp
  · exact List.mem_append_right _ hwaiting

/-- The job that runs does not wait too. -/
theorem current_notMem_waiting (h : lane.Valid l chosen) (hcurrent : lane.current = some job) :
    ∀ other ∈ lane.queue.waiting, other.number ≠ job.number := by
  obtain ⟨-, hrunning⟩ := current_running hcurrent
  intro other hother heq
  have hnodup := h.once
  rw [h.order, hrunning, List.append_assoc, List.map_append] at hnodup
  have htail := (List.nodup_append.mp hnodup).2.1
  rw [Option.toList_some, List.singleton_append, List.map_cons, List.nodup_cons] at htail
  exact htail.1 (by rw [← heq]; exact List.mem_map_of_mem hother)

/-- A job with a new number that belongs to the lane may be submitted to it. -/
theorem submit (h : lane.Valid l chosen) (hplace : job.number % 8 = l ∧ job.number < chosen)
    (hnew : ∀ other ∈ lane.queue.submitted, other.number ≠ job.number) :
    Lane.Valid l chosen { lane with queue := lane.queue.submit job } := by
  refine ⟨h.order.submit job, h.worker, ?_, ?_⟩
  · intro other hother
    rcases List.mem_append.mp hother with hold | hlast
    · exact h.place other hold
    · rw [List.mem_singleton.mp hlast]
      exact hplace
  · show ((lane.queue.submitted ++ [job]).map (·.number)).Nodup
    rw [List.map_append, List.map_singleton, List.nodup_append]
    refine ⟨h.once, List.nodup_singleton _, ?_⟩
    intro number hnumber last hlast
    obtain ⟨other, hother, rfl⟩ := List.mem_map.mp hnumber
    rw [List.mem_singleton.mp hlast]
    exact hnew other hother

/-- A lane begins with the job that waits longest. -/
theorem start_eq_some (hstart : lane.start = some lane') :
    ∃ job rest, lane.worker = .resting ∧ lane.queue.running = none ∧
      lane.queue.waiting = job :: rest ∧
      lane' = ⟨{ lane.queue with running := some job, waiting := rest }, .awaiting⟩ := by
  unfold Lane.start at hstart
  split at hstart
  · next hworker =>
    obtain ⟨queue, hqueue, rfl⟩ := Option.map_eq_some_iff.mp hstart
    obtain ⟨job, rest, hrunning, hwaiting, rfl⟩ := Serial.Queue.start_eq_some hqueue
    exact ⟨job, rest, hworker, hrunning, hwaiting, rfl⟩
  · cases hstart

/-- A lane is done with the job that it ran. -/
theorem finish_eq_some (hfinish : lane.finish = some lane') :
    ∃ job, lane.worker = .ending ∧ lane.queue.running = some job ∧
      lane' = ⟨{ lane.queue with running := none, finished := lane.queue.finished ++ [job] },
        .resting⟩ := by
  unfold Lane.finish at hfinish
  split at hfinish
  · next hworker =>
    obtain ⟨queue, hqueue, rfl⟩ := Option.map_eq_some_iff.mp hfinish
    obtain ⟨job, hrunning, rfl⟩ := Serial.Queue.finish_eq_some hqueue
    exact ⟨job, hworker, hrunning, rfl⟩
  · cases hfinish

/-- Beginning with a job leaves the live jobs what they are. -/
theorem start (h : lane.Valid l chosen) (hstart : lane.start = some lane') :
    lane'.Valid l chosen ∧ lane'.live = lane.live ∧
      lane'.queue.submitted = lane.queue.submitted := by
  obtain ⟨job, rest, hworker, hrunning, hwaiting, rfl⟩ := start_eq_some hstart
  have horder := h.order.start (Serial.Queue.start_of_waiting hrunning hwaiting)
  refine ⟨⟨horder, by simp, h.place, h.once⟩, ?_, rfl⟩
  simp [Lane.live, Lane.current, hworker, hwaiting]

/-- A lane whose job has resumed its task may end it. -/
theorem resume (h : lane.Valid l chosen) (hcurrent : lane.current = some job) :
    Lane.Valid l chosen { lane with worker := .ending } := by
  obtain ⟨-, hrunning⟩ := current_running hcurrent
  exact ⟨h.order, by simp [hrunning], h.place, h.once⟩

/-- So does being done with one, which was not live any more. -/
theorem finish (h : lane.Valid l chosen) (hfinish : lane.finish = some lane') :
    lane'.Valid l chosen ∧ lane'.live = lane.live ∧
      lane'.queue.submitted = lane.queue.submitted := by
  obtain ⟨job, hworker, hrunning, rfl⟩ := finish_eq_some hfinish
  have horder := h.order.finish (Serial.Queue.finish_of_running hrunning)
  refine ⟨⟨horder, by simp, h.place, h.once⟩, ?_, rfl⟩
  simp [Lane.live, Lane.current, hworker]

end Lane.Valid

namespace Lanes.Valid

variable {lanes : Lanes} {l : Nat} {lane : Lane} {job : Job}

/-- Eight empty lanes. -/
theorem init : Lanes.Valid {} := by
  refine ⟨rfl, rfl, rfl, ?_⟩
  intro l lane hlane
  obtain rfl := List.eq_of_mem_replicate (List.mem_of_getElem? hlane)
  exact ⟨Serial.Queue.inOrder_empty, by simp, by simp, List.nodup_nil⟩

/-- `queues[next]` is in range, whatever was chosen before. -/
theorem choose (h : lanes.Valid) : lanes.choose = some (lanes.chosen.length % 8, { lanes with
    next := (lanes.chosen.length + 1) % 8
    chosen := lanes.chosen ++ [lanes.chosen.length % 8] }) := by
  have hlt : lanes.chosen.length % 8 < 8 := Nat.mod_lt _ (by decide)
  unfold Lanes.choose
  rw [h.next, h.eight, if_pos hlt, Nat.mod_add_mod]

/-- A choice takes the next lane in turn. -/
theorem chosen (h : lanes.Valid) : Lanes.Valid { lanes with
    next := (lanes.chosen.length + 1) % 8
    chosen := lanes.chosen ++ [lanes.chosen.length % 8] } := by
  refine ⟨h.eight, by simp, ?_, ?_⟩
  · show lanes.chosen ++ [_] = Serial.turns 8 (lanes.chosen ++ [_]).length
    rw [List.length_append, List.length_singleton, Serial.turns_succ, ← h.turns]
  · intro l lane hlane
    exact (h.lane l lane hlane).mono (by simp)

/-- One lane may be replaced by a valid one. -/
theorem set (h : lanes.Valid) {lane' : Lane} (hvalid : lane'.Valid l lanes.chosen.length) :
    Lanes.Valid { lanes with queues := lanes.queues.set l lane' } := by
  refine ⟨by simpa using h.eight, h.next, h.turns, ?_⟩
  intro k other hother
  rw [List.getElem?_set] at hother
  split at hother
  · next heq =>
    split at hother
    · obtain rfl := Option.some.inj hother
      rwa [← heq]
    · cases hother
  · exact h.lane k other hother

/-- A job that is given to a lane is the last one waiting there. -/
theorem async_eq_set (hlane : lanes.queues[l]? = some lane) : lanes.async l job =
    { lanes with queues := lanes.queues.set l { lane with queue := lane.queue.submit job } } := by
  obtain ⟨hl, rfl⟩ := List.getElem?_eq_some_iff.mp hlane
  unfold Lanes.async
  rw [List.modify_eq_set_getElem? ]
  simp [hl]

/-- A number is given to one job. -/
theorem job_unique (h : lanes.Valid) {l' : Nat} {lane' : Lane} {job' : Job}
    (hlane : lanes.queues[l]? = some lane) (hlane' : lanes.queues[l']? = some lane')
    (hjob : job ∈ lane.queue.submitted) (hjob' : job' ∈ lane'.queue.submitted)
    (hnumber : job.number = job'.number) : l = l' ∧ job = job' := by
  have hplace := (h.lane l lane hlane).place job hjob
  have hplace' := (h.lane l' lane' hlane').place job' hjob'
  obtain rfl : l = l' := by rw [← hplace.1, ← hplace'.1, hnumber]
  obtain rfl : lane = lane' := Option.some.inj (hlane.symm.trans hlane')
  exact ⟨rfl, List.inj_on_of_nodup_map (h.lane l lane hlane).once hjob hjob' hnumber⟩

end Lanes.Valid

end CoAkka.Ask
