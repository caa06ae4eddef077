import CoAkkaRuntime.Ask.ProcessMoves

/-!
# Ask — who has a job

A suspended task has one job, which is live in the lane that its number says; a live job has one
suspended task; and a number that was given out is with an activity on its way to the lane, with a
live job, or used up. So a job that resumes its task finds it suspended, and no process traps.

* `Jobs` — the invariant, over the positions of the activities and the eight lanes.
* `Jobs.move` — an activity that moves where no job is concerned keeps it. `choose`, `submit`,
  `resume` are the three places where one is: the choice of a lane, the handing over, the end of the
  closure.
* `jobs_of_reachable` — so it holds in every state of every process.

A number is chosen under the lock and handed over after it, and in between it belongs to the
activity (`TaskPc.aside`). That is why the invariant speaks of three places and not of two.
-/

namespace CoAkka.Ask

open Host Session Transition

/-- Neither on the way to a lane nor waiting for one. -/
def TaskPc.aside : TaskPc → Bool
  | .submitting .. | .suspended .. => false
  | _ => true

/-- The jobs of a process and their tasks. -/
structure Jobs (p : Process) : Prop where
  lanes : p.lanes.Valid
  submitting : ∀ a run number l, p.tasks a = .submitting run number l →
    l = number % 8 ∧ number < p.lanes.chosen.length ∧
    ∀ (k : Nat) (lane : Lane), p.lanes.queues[k]? = some lane →
      ∀ job ∈ lane.queue.submitted, job.number ≠ number
  apart : ∀ a a' run run' number l l', p.tasks a = .submitting run number l →
    p.tasks a' = .submitting run' number l' → a = a'
  suspended : ∀ a run number, p.tasks a = .suspended run number →
    ∃ lane, p.lanes.queues[number % 8]? = some lane ∧ ⟨number, a, run⟩ ∈ lane.live
  live : ∀ (l : Nat) (lane : Lane), p.lanes.queues[l]? = some lane → ∀ job ∈ lane.live,
    p.tasks job.activity = .suspended job.run job.number
  alive : p.trapped = false

namespace Jobs

variable {p p' : Process} {a : Activity} {l : Nat} {lane lane' : Lane} {job : Job}

/-- A move of an activity that has nothing to do with the lanes. -/
theorem move (h : Jobs p) (hlanes : p'.lanes = p.lanes) {pc : TaskPc}
    (htasks : p'.tasks = Function.update p.tasks a pc) (hold : (p.tasks a).aside)
    (hnew : pc.aside) (halive : p'.trapped = false) : Jobs p' := by
  have hother : ∀ {b : Activity} {pc' : TaskPc}, pc'.aside = false → p'.tasks b = pc' →
      p.tasks b = pc' := by
    intro b pc' haside hb
    rw [htasks] at hb
    by_cases hab : b = a
    · subst hab
      rw [Function.update_self] at hb
      rw [hb, haside] at hnew
      cases hnew
    · rwa [Function.update_of_ne hab] at hb
  have hkept : ∀ {b : Activity} {pc' : TaskPc}, pc'.aside = false → p.tasks b = pc' →
      p'.tasks b = pc' := by
    intro b pc' haside hb
    have hab : b ≠ a := by
      rintro rfl
      rw [hb, haside] at hold
      cases hold
    rw [htasks, Function.update_of_ne hab]
    exact hb
  refine ⟨hlanes ▸ h.lanes, ?_, ?_, ?_, ?_, halive⟩
  · intro b run number l hb
    rw [hlanes]
    exact h.submitting b run number l (hother rfl hb)
  · intro b b' run run' number l l' hb hb'
    exact h.apart b b' run run' number l l' (hother rfl hb) (hother rfl hb')
  · intro b run number hb
    rw [hlanes]
    exact h.suspended b run number (hother rfl hb)
  · intro l lane hlane job hjob
    rw [hlanes] at hlane
    exact hkept rfl (h.live l lane hlane job hjob)

/-- Nothing that concerns the jobs. -/
theorem same (h : Jobs p) (hlanes : p'.lanes = p.lanes) (htasks : p'.tasks = p.tasks)
    (halive : p'.trapped = false) : Jobs p' := by
  refine ⟨hlanes ▸ h.lanes, ?_, ?_, ?_, ?_, halive⟩
  · rw [hlanes, htasks]
    exact h.submitting
  · rw [htasks]
    exact h.apart
  · rw [hlanes, htasks]
    exact h.suspended
  · rw [hlanes, htasks]
    exact h.live

/-- The section of `enqueue` gives the next number. -/
theorem choose (h : Jobs p) {run : AskRun} {lanes : Lanes} (hpc : p.tasks a = .choosing run)
    (hchoose : p.lanes.choose = some (l, lanes)) :
    Jobs ({ p with lanes }.setTask a (.submitting run p.lanes.chosen.length l)) := by
  rw [h.lanes.choose] at hchoose
  obtain ⟨rfl, rfl⟩ := Prod.mk.inj (Option.some.inj hchoose)
  -- the number is the count of the chosen ones, so no job has it
  have hfresh : ∀ (k : Nat) (lane : Lane), p.lanes.queues[k]? = some lane →
      ∀ job ∈ lane.queue.submitted, job.number < p.lanes.chosen.length := fun k lane hlane job hjob =>
    ((h.lanes.lane k lane hlane).place job hjob).2
  refine ⟨h.lanes.chosen, ?_, ?_, ?_, ?_, h.alive⟩
  · intro b run' number l hb
    simp only [Process.setTask, List.length_append, List.length_singleton] at hb ⊢
    by_cases hab : b = a
    · subst hab
      rw [Function.update_self] at hb
      obtain ⟨-, rfl, rfl⟩ := TaskPc.submitting.inj hb
      refine ⟨rfl, Nat.lt_succ_self _, fun k lane hlane job hjob => ?_⟩
      exact Nat.ne_of_lt (hfresh k lane hlane job hjob)
    · rw [Function.update_of_ne hab] at hb
      obtain ⟨hplace, hlt, hnew⟩ := h.submitting b run' number l hb
      exact ⟨hplace, Nat.lt_succ_of_lt hlt, hnew⟩
  · intro b b' run₁ run₂ number l l' hb hb'
    simp only [Process.setTask] at hb hb'
    by_cases hab : b = a
    · by_cases hab' : b' = a
      · rw [hab, hab']
      · -- the other activity has an older number
        subst hab
        rw [Function.update_self] at hb
        rw [Function.update_of_ne hab'] at hb'
        obtain ⟨-, rfl, -⟩ := TaskPc.submitting.inj hb
        exact absurd (h.submitting b' _ _ _ hb').2.1 (Nat.lt_irrefl _)
    · by_cases hab' : b' = a
      · subst hab'
        rw [Function.update_self] at hb'
        rw [Function.update_of_ne hab] at hb
        obtain ⟨-, rfl, -⟩ := TaskPc.submitting.inj hb'
        exact absurd (h.submitting b _ _ _ hb).2.1 (Nat.lt_irrefl _)
      · rw [Function.update_of_ne hab] at hb
        rw [Function.update_of_ne hab'] at hb'
        exact h.apart b b' run₁ run₂ number l l' hb hb'
  · intro b run' number hb
    simp only [Process.setTask] at hb ⊢
    by_cases hab : b = a
    · subst hab
      rw [Function.update_self] at hb
      cases hb
    · rw [Function.update_of_ne hab] at hb
      exact h.suspended b run' number hb
  · intro k lane hlane job hjob
    have htask := h.live k lane hlane job hjob
    -- an activity that is choosing has no live job
    have hab : job.activity ≠ a := by
      rintro rfl
      rw [hpc] at htask
      cases htask
    simp only [Process.setTask, Function.update_of_ne hab]
    exact htask

/-- The lane that was chosen gets the job of the task, which is suspended from then on. -/
theorem submit (h : Jobs p) {run : AskRun} {number : Nat}
    (hpc : p.tasks a = .submitting run number l) :
    Jobs ({ p with lanes := p.lanes.async l ⟨number, a, run⟩ }.setTask a
      (.suspended run number)) := by
  obtain ⟨rfl, hlt, hnew⟩ := h.submitting a run number l hpc
  have hl : number % 8 < p.lanes.queues.length := by
    rw [h.lanes.eight]
    exact Nat.mod_lt _ (by decide)
  let lane := p.lanes.queues[number % 8]
  have hlane : p.lanes.queues[number % 8]? = some lane := List.getElem?_eq_getElem hl
  let lane' : Lane := { lane with queue := lane.queue.submit ⟨number, a, run⟩ }
  have hvalid : lane'.Valid (number % 8) p.lanes.chosen.length :=
    (h.lanes.lane _ lane hlane).submit ⟨rfl, hlt⟩ (hnew _ lane hlane)
  -- the lane has the jobs of before and the new one
  have hlive : ∀ job, job ∈ lane'.live ↔ job ∈ lane.live ∨ job = ⟨number, a, run⟩ := by
    intro job
    show job ∈ lane.current.toList ++ (lane.queue.waiting ++ [⟨number, a, run⟩]) ↔ _
    rw [← List.append_assoc, List.mem_append, List.mem_singleton]
    rfl
  rw [Lanes.Valid.async_eq_set hlane]
  have hother : ∀ {b : Activity} {pc : TaskPc}, b ≠ a →
      Function.update p.tasks a (.suspended run number) b = pc → p.tasks b = pc := by
    intro b pc hab hb
    rwa [Function.update_of_ne hab] at hb
  refine ⟨h.lanes.set hvalid, ?_, ?_, ?_, ?_, h.alive⟩
  · -- numbers still on their way are not those of live jobs
    intro b run' other k hb
    simp only [Process.setTask] at hb ⊢
    have hab : b ≠ a := by
      rintro rfl
      rw [Function.update_self] at hb
      cases hb
    obtain ⟨hplace, hlt', hnew'⟩ := h.submitting b run' other k (hother hab hb)
    refine ⟨hplace, hlt', fun k' lane₁ hlane₁ job hjob => ?_⟩
    rw [List.getElem?_set] at hlane₁
    split_ifs at hlane₁ with heq
    · obtain rfl := Option.some.inj hlane₁
      rcases List.mem_append.mp hjob with hold | hlast
      · exact hnew' _ lane hlane job hold
      · -- two activities do not carry one number
        rw [List.mem_singleton.mp hlast]
        rintro rfl
        exact hab (h.apart b a run' run _ _ _ (hother hab hb) hpc)
    · exact hnew' k' lane₁ hlane₁ job hjob
  · -- nor those of each other
    intro b b' run₁ run₂ other k k' hb hb'
    simp only [Process.setTask] at hb hb'
    have hab : b ≠ a := by
      rintro rfl
      rw [Function.update_self] at hb
      cases hb
    have hab' : b' ≠ a := by
      rintro rfl
      rw [Function.update_self] at hb'
      cases hb'
    exact h.apart b b' run₁ run₂ other k k' (hother hab hb) (hother hab' hb')
  · -- a suspended task has its job in its lane, the new one included
    intro b run' other hb
    simp only [Process.setTask] at hb ⊢
    have hset : ∀ k, (p.lanes.queues.set (number % 8) lane')[k]?
        = if number % 8 = k then some lane' else p.lanes.queues[k]? := by
      intro k
      rw [List.getElem?_set]
      split_ifs <;> rfl
    by_cases hab : b = a
    · subst hab
      rw [Function.update_self] at hb
      obtain ⟨rfl, rfl⟩ := TaskPc.suspended.inj hb
      exact ⟨lane', by rw [hset, if_pos rfl], (hlive _).mpr (.inr rfl)⟩
    · obtain ⟨lane₁, hlane₁, hjob⟩ := h.suspended b run' other (hother hab hb)
      by_cases heq : number % 8 = other % 8
      · rw [← heq, hlane] at hlane₁
        obtain rfl := Option.some.inj hlane₁
        exact ⟨lane', by rw [hset, if_pos heq], (hlive _).mpr (.inl hjob)⟩
      · exact ⟨lane₁, by rw [hset, if_neg heq, hlane₁], hjob⟩
  · -- and every live job its task
    intro k lane₁ hlane₁ job hjob
    simp only [Process.setTask] at hlane₁ ⊢
    have hold : ∀ {k : Nat} {lane₁ : Lane}, p.lanes.queues[k]? = some lane₁ → job ∈ lane₁.live →
        Function.update p.tasks a (.suspended run number) job.activity
          = .suspended job.run job.number := by
      intro k lane₁ hlane₁ hjob
      have htask := h.live k lane₁ hlane₁ job hjob
      have hab : job.activity ≠ a := by
        rintro rfl
        rw [hpc] at htask
        cases htask
      rwa [Function.update_of_ne hab]
    rw [List.getElem?_set] at hlane₁
    split_ifs at hlane₁
    · obtain rfl := Option.some.inj hlane₁
      rcases (hlive job).mp hjob with hbefore | rfl
      · exact hold hlane hbefore
      · exact Function.update_self _ _ _
    · exact hold hlane₁ hjob

/-- A lane that begins or ends a job keeps what is live in it. -/
theorem setLane (h : Jobs p) (hlane : p.lanes.queues[l]? = some lane)
    (hvalid : lane'.Valid l p.lanes.chosen.length) (hlive : lane'.live = lane.live)
    (hsubmitted : lane'.queue.submitted = lane.queue.submitted) : Jobs (p.setLane l lane') := by
  have hl := (List.getElem?_eq_some_iff.mp hlane).1
  have hset : ∀ {k : Nat} {lane₁ : Lane}, (p.lanes.queues.set l lane')[k]? = some lane₁ →
      ∃ lane₀, p.lanes.queues[k]? = some lane₀ ∧ lane₁.live = lane₀.live ∧
        lane₁.queue.submitted = lane₀.queue.submitted := by
    intro k lane₁ hlane₁
    rw [List.getElem?_set] at hlane₁
    split_ifs at hlane₁ with heq
    · obtain rfl := Option.some.inj hlane₁
      exact ⟨lane, by rw [← heq, hlane], hlive, hsubmitted⟩
    · exact ⟨lane₁, hlane₁, rfl, rfl⟩
  refine ⟨h.lanes.set hvalid, ?_, h.apart, ?_, ?_, h.alive⟩
  · intro b run number k hb
    obtain ⟨hplace, hlt, hnew⟩ := h.submitting b run number k hb
    refine ⟨hplace, hlt, fun k' lane₁ hlane₁ job hjob => ?_⟩
    obtain ⟨lane₀, hlane₀, -, hsame⟩ := hset hlane₁
    exact hnew k' lane₀ hlane₀ job (hsame ▸ hjob)
  · intro b run number hb
    obtain ⟨lane₀, hlane₀, hjob⟩ := h.suspended b run number hb
    show ∃ lane₁, (p.lanes.queues.set l lane')[number % 8]? = some lane₁ ∧ _
    rw [List.getElem?_set]
    by_cases heq : l = number % 8
    · rw [← heq, hlane] at hlane₀
      obtain rfl := Option.some.inj hlane₀
      rw [if_pos heq, if_pos hl]
      exact ⟨lane', rfl, hlive ▸ hjob⟩
    · rw [if_neg heq]
      exact ⟨lane₀, hlane₀, hjob⟩
  · intro k lane₁ hlane₁ job hjob
    obtain ⟨lane₀, hlane₀, hsame, -⟩ := hset hlane₁
    exact h.live k lane₀ hlane₀ job (hsame ▸ hjob)

/-- The job that a lane is at is live. -/
theorem mem_live_current (hjob : lane.current = some job) : job ∈ lane.live := by
  unfold Lane.live
  rw [hjob]
  exact List.mem_append_left _ (List.mem_singleton_self _)

/-- The task of a running job is suspended with that job's ask. -/
theorem run?_current (h : Jobs p) {l : Nat} {lane : Lane} {job : Job}
    (hlane : p.lanes.queues[l]? = some lane) (hjob : lane.current = some job) :
    (p.tasks job.activity).run? = some job.run := by
  rw [h.live l lane hlane job (mem_live_current hjob)]
  rfl

/-- The worker of a lane finds the task of its job suspended. -/
theorem resume_eq (h : Jobs p) (hlane : p.lanes.queues[l]? = some lane)
    (hjob : lane.current = some job) (lane' : Lane) : (p.setLane l lane').resume job
      = (((p.setLane l lane').setTask job.activity (.accepting .async job.run)).logged
          [.resumed job job.run.outcome]) := by
  have htask : (p.setLane l lane').tasks job.activity = .suspended job.run job.number :=
    h.live l lane hlane job (mem_live_current hjob)
  unfold Process.resume
  rw [htask]
  exact if_pos rfl

/-- The job that has resumed its task is no longer live, and every other job is. -/
theorem resume (h : Jobs p) (hlane : p.lanes.queues[l]? = some lane)
    (hjob : lane.current = some job) :
    Jobs ((p.setLane l { lane with worker := .ending }).resume job) := by
  rw [h.resume_eq hlane hjob]
  have hvalid := h.lanes.lane l lane hlane
  have hl := (List.getElem?_eq_some_iff.mp hlane).1
  let lane' : Lane := { lane with worker := .ending }
  have hlive : lane.live = job :: lane'.live := by
    simp [Lane.live, lane', Lane.current, (Lane.Valid.current_running hjob).1,
      (Lane.Valid.current_running hjob).2]
  -- no job that is still live is of this task
  have hgone : ∀ {k : Nat} {lane₁ : Lane}, (p.lanes.queues.set l lane')[k]? = some lane₁ →
      ∀ other ∈ lane₁.live, p.tasks other.activity = .suspended other.run other.number ∧
        other.activity ≠ job.activity := by
    intro k lane₁ hlane₁ other hother
    have hbefore : ∃ lane₀, p.lanes.queues[k]? = some lane₀ ∧ other ∈ lane₀.live ∧
        (k = l → other ∈ lane.queue.waiting) := by
      rw [List.getElem?_set] at hlane₁
      split_ifs at hlane₁ with heq
      · obtain rfl := Option.some.inj hlane₁
        refine ⟨lane, by rw [← heq, hlane], ?_, fun _ => hother⟩
        rw [hlive]
        exact List.mem_cons_of_mem _ hother
      · exact ⟨lane₁, hlane₁, hother, fun hkl => absurd hkl.symm heq⟩
    obtain ⟨lane₀, hlane₀, hmem, hwaiting⟩ := hbefore
    have htask := h.live k lane₀ hlane₀ other hmem
    refine ⟨htask, fun hsame => ?_⟩
    have hown := h.live l lane hlane job (mem_live_current hjob)
    rw [hsame, hown] at htask
    obtain ⟨-, hnumber⟩ := TaskPc.suspended.inj htask
    obtain ⟨rfl, -⟩ := h.lanes.job_unique hlane₀ hlane
      ((h.lanes.lane k lane₀ hlane₀).submitted_of_live hmem)
      (hvalid.submitted_of_live (mem_live_current hjob)) hnumber.symm
    exact hvalid.current_notMem_waiting hjob other (hwaiting rfl) hnumber.symm
  have hother : ∀ {b : Activity} {pc : TaskPc}, pc.aside = false →
      Function.update p.tasks job.activity (.accepting .async job.run) b = pc →
      b ≠ job.activity ∧ p.tasks b = pc := by
    intro b pc haside hb
    by_cases hab : b = job.activity
    · rw [hab, Function.update_self] at hb
      rw [← hb] at haside
      cases haside
    · exact ⟨hab, by rwa [Function.update_of_ne hab] at hb⟩
  refine ⟨h.lanes.set (hvalid.resume hjob), ?_, ?_, ?_, ?_, h.alive⟩
  · intro b run number k hb
    obtain ⟨hplace, hlt, hnew⟩ := h.submitting b run number k (hother rfl hb).2
    refine ⟨hplace, hlt, fun k' lane₁ hlane₁ other hother₁ => ?_⟩
    simp only [Process.logged, Process.setTask, Process.setLane] at hlane₁
    rw [List.getElem?_set] at hlane₁
    split_ifs at hlane₁ with heq
    · obtain rfl := Option.some.inj hlane₁
      exact hnew l lane hlane other hother₁
    · exact hnew k' lane₁ hlane₁ other hother₁
  · intro b b' run run' number k k' hb hb'
    exact h.apart b b' run run' number k k' (hother rfl hb).2 (hother rfl hb').2
  · intro b run number hb
    obtain ⟨hab, hb⟩ := hother rfl hb
    obtain ⟨lane₀, hlane₀, hmem⟩ := h.suspended b run number hb
    show ∃ lane₁, (p.lanes.queues.set l lane')[number % 8]? = some lane₁ ∧ _
    rw [List.getElem?_set]
    by_cases heq : l = number % 8
    · rw [← heq, hlane] at hlane₀
      obtain rfl := Option.some.inj hlane₀
      rw [if_pos heq, if_pos hl]
      rw [hlive] at hmem
      rcases List.mem_cons.mp hmem with hsame | hstays
      · exact absurd (congrArg Job.activity hsame) hab
      · exact ⟨lane', rfl, hstays⟩
    · rw [if_neg heq]
      exact ⟨lane₀, hlane₀, hmem⟩
  · intro k lane₁ hlane₁ other hmem
    obtain ⟨htask, hab⟩ := hgone hlane₁ other hmem
    show Function.update p.tasks job.activity _ other.activity = _
    rwa [Function.update_of_ne hab]

/-- A task without a ticket is at no place where a lane could work for it. -/
theorem aside_of_run?_none {pc : TaskPc} (h : pc.run? = none) : pc.aside := by
  cases pc <;> first | rfl | cases h

/-- **A step keeps the jobs with their tasks.** -/
theorem step (h : Jobs p) (hhosts : ∀ host, askSystem.Reachable (p.hosts host))
    (hmove : ProcessMove p p') : Jobs p' := by
  cases hmove with
  | session => exact h.same rfl rfl h.alive
  | cancelled => exact h.same rfl rfl h.alive
  | entered a mode ask action asks hpc =>
    exact h.move rfl rfl (aside_of_run?_none hpc) rfl h.alive
  | failed a mode error action asks hpc =>
    exact h.move rfl rfl (aside_of_run?_none hpc) rfl h.alive
  | begun a mode ask answer call wire ticket asks hpc =>
    exact h.move rfl rfl (aside_of_run?_none hpc) rfl h.alive
  | trapped a action asks hstep hslot =>
    -- the section under `clientLock` does not trap
    have halive := (identified_of_reachable (.step (hhosts a.host) hstep)).alive
    exact absurd (List.mem_of_getElem? hslot) halive
  | released a mode run asks hpc =>
    exact h.move rfl rfl (by rw [hpc]; rfl) (by split <;> rfl) h.alive
  | awaited a mode run asks hpc =>
    exact h.move rfl rfl (by rw [hpc]; rfl) (by split <;> rfl) h.alive
  | chosen a run l lanes hpc hchoose => exact h.choose hpc hchoose
  | unchosen hchoose =>
    rw [h.lanes.choose] at hchoose
    cases hchoose
  | submitted a run number l hpc => exact h.submit hpc
  | refused a mode run failure hpc =>
    exact h.move rfl rfl (by rw [hpc]; rfl) rfl h.alive
  | counted a mode run result hpc =>
    exact h.move rfl rfl (by rw [hpc]; rfl) rfl h.alive
  | projected a mode run result reasonName hpc =>
    exact h.move rfl rfl (by rw [hpc]; rfl) rfl h.alive
  | lane l lane lane' hlane hmove =>
    have hvalid := h.lanes.lane l lane hlane
    rcases hmove with hstart | hfinish
    · obtain ⟨hkept, hlive, hsubmitted⟩ := hvalid.start hstart
      exact h.setLane hlane hkept hlive hsubmitted
    · obtain ⟨hkept, hlive, hsubmitted⟩ := hvalid.finish hfinish
      exact h.setLane hlane hkept hlive hsubmitted
  | laneAwaited => exact h.same rfl rfl h.alive
  | resumed l lane job hlane hjob => exact h.resume hlane hjob

end Jobs

/-- Jobs and tasks belong together in every reachable process. -/
theorem jobs_of_reachable {p : Process} (hp : processSystem.Reachable p) : Jobs p := by
  refine System.Reachable.invariant ?_ ?_ hp
  · rintro p ⟨-, hp⟩
    rw [hp]
    refine ⟨Lanes.Valid.init, ?_, ?_, ?_, ?_, rfl⟩
    · intro a run number l ha
      cases ha
    · intro a a' run run' number l l' ha
      cases ha
    · intro a run number ha
      cases ha
    · intro l lane hlane job hjob
      obtain rfl := List.eq_of_mem_replicate (List.mem_of_getElem? hlane)
      cases hjob
  · intro p action p' hp h hstep
    exact h.step (host_reachable hp) (processStep_move hstep)

end CoAkka.Ask
