import CoAkkaRuntime.Session.SessionInvariant

/-!
# Session — the native lifecycle of a session

Every step of the runner, of a caller and of a borrower keeps the invariant of `SessionInvariant`,
so it holds in every run of any number of callers, and the protocol of the native calls with it.

* `AtRest` — the invariant between two sections: `SessionInv` and `Unstranded`.
* `AtRest.runnerStep` — the runner, one case for each of its positions.
* `AtRest.withOpen`, `AtRest.requestRetirement`, `AtRest.endBorrow`, `AtRest.closeLocked` — a lemma
  per section of a caller; `AtRest.callerStep` puts them together.
* `atRest_reachable` — every state of every run.

The borrowers are counted by the session and owned by the callers, so that each lemma about a caller
has to say what becomes of its place in the pool.
-/

namespace CoAkka.Session

open Transition

/-! ## The borrowers

A borrower has a script of the calls that it still makes for its ticket, the last of which is the
end of its borrow.
-/

section Borrowers

variable {asks : Int} {tickets i : Nat} {threads : List CallerPc} {log : List SessionEvent}
  {pc pc' : CallerPc}

/-- Callers that do not borrow move freely. -/
theorem Borrows.move (h : Borrows asks tickets threads log) (hpc : threads[i]? = some pc)
    (hold : pc.isAsking = false) (hnew : pc'.isAsking = false) :
    Borrows asks tickets (threads.set i pc') log := by
  have hcount := countP_set hpc pc' CallerPc.isAsking
  rw [hold, hnew] at hcount
  refine ⟨?_, h.bound, h.fresh, ?_, ?_⟩
  · have hactive := h.active
    simp only [Bool.false_eq_true, if_false] at hcount
    omega
  · intro ticket hbegun
    rcases h.destroyed ticket hbegun with hdone | ⟨rest, hmem, hdestroy⟩
    · exact .inl hdone
    · rcases mem_set_of_mem hpc pc' hmem with hmoved | hstays
      · rw [← hmoved] at hold
        cases hold
      · exact .inr ⟨rest, hstays, hdestroy⟩
  · intro ticket rest hmem
    rcases List.mem_or_eq_of_mem_set hmem with hstays | hmoved
    · exact h.asking ticket rest hstays
    · rw [← hmoved] at hnew
      cases hnew

/-- `begin` makes a borrower, with all of its `awaitResult` before it. -/
theorem Borrows.begun (h : Borrows asks tickets threads log) (hpc : threads[i]? = some .idle)
    (hlt : asks < 64) (status : Int32) {rest body : List TicketEvent}
    (hrest : rest = body ++ [.endBorrow]) (hbody : .endBorrow ∉ body) (hdestroy : .destroy ∈ rest) :
    Borrows (asks + 1) (tickets + 1) (threads.set i (.asking tickets rest))
      (log ++ [.begin status (some tickets)]) := by
  have hcount := countP_set hpc (.asking tickets rest) CallerPc.isAsking
  have hactive := h.active
  -- the new ticket is the next number, so it is none of those before
  have hbegun : ∀ ticket, Begun (log ++ [.begin status (some tickets)]) ticket →
      Begun log ticket ∨ ticket = tickets := by
    intro ticket ⟨status', hmem⟩
    rcases List.mem_append.mp hmem with hold | hnew
    · exact .inl ⟨status', hold⟩
    · have hsame := SessionEvent.begin.inj (List.mem_singleton.mp hnew)
      exact .inr (Option.some.inj hsame.2)
  refine ⟨?_, by omega, ?_, ?_, ?_⟩
  · simp only [CallerPc.isAsking, Bool.false_eq_true, if_false, if_true] at hcount
    omega
  · intro ticket hmem
    rcases hbegun ticket hmem with hold | rfl
    · have := h.fresh ticket hold
      omega
    · omega
  · intro ticket hmem
    rcases hbegun ticket hmem with hold | rfl
    · -- who was going to destroy an older ticket still is
      rcases h.destroyed ticket hold with hdone | ⟨script, hscript, hin⟩
      · exact .inl (List.mem_append_left _ hdone)
      · rcases mem_set_of_mem hpc (.asking tickets rest) hscript with hmoved | hstays
        · cases hmoved
        · exact .inr ⟨script, hstays, hin⟩
    · obtain ⟨hi, -⟩ := List.getElem?_eq_some_iff.mp hpc
      exact .inr ⟨rest, List.mem_set hi _, hdestroy⟩
  · intro ticket script hmem
    rcases List.mem_or_eq_of_mem_set hmem with hstays | hnew
    · obtain ⟨⟨status', hold⟩, hends⟩ := h.asking ticket script hstays
      exact ⟨⟨status', List.mem_append_left _ hold⟩, hends⟩
    · obtain ⟨rfl, rfl⟩ := CallerPc.asking.inj hnew
      exact ⟨⟨status, by simp⟩, body, hrest, hbody⟩

/-- What a borrower has before it ends with the end of its borrow, and only there. -/
theorem Borrows.rest_cases (h : Borrows asks tickets threads log) {ticket : Nat}
    {event : TicketEvent} {rest : List TicketEvent}
    (hpc : threads[i]? = some (.asking ticket (event :: rest))) :
    Begun log ticket ∧ ((event = .endBorrow ∧ rest = []) ∨ (event ≠ .endBorrow ∧
      CallerPc.awaiting ticket rest = .asking ticket rest ∧
      ∃ body, rest = body ++ [.endBorrow] ∧ .endBorrow ∉ body)) := by
  obtain ⟨hbegun, body, hends, hbody⟩ := h.asking ticket _ (List.mem_of_getElem? hpc)
  refine ⟨hbegun, ?_⟩
  -- the end of the borrow comes now, or there is something before it
  cases body with
  | nil =>
    obtain ⟨rfl, rfl⟩ := List.cons.inj hends
    exact .inl ⟨rfl, rfl⟩
  | cons first body =>
    obtain ⟨rfl, rfl⟩ := List.cons.inj hends
    have hne : event ≠ .endBorrow := fun heq => hbody (by rw [heq]; exact List.mem_cons_self)
    have hrest : .endBorrow ∉ body := fun hmem => hbody (List.mem_cons_of_mem _ hmem)
    refine .inr ⟨hne, ?_, body, rfl, hrest⟩
    cases body <;> rfl

/-- A borrower goes on with its `awaitResult`. -/
theorem Borrows.used (h : Borrows asks tickets threads log) {ticket : Nat} {event : TicketEvent}
    {rest : List TicketEvent} (hpc : threads[i]? = some (.asking ticket (event :: rest)))
    (hne : event ≠ .endBorrow) :
    Borrows asks tickets (threads.set i (.awaiting ticket rest)) (log ++ [.ticket ticket event]) := by
  obtain ⟨hbegun, hcases⟩ := h.rest_cases hpc
  obtain ⟨-, hawaiting, hends⟩ := hcases.resolve_left fun hlast => hne hlast.1
  rw [hawaiting]
  have hquiet : ∀ e ∈ [SessionEvent.ticket ticket event], e.begins = false := by
    simp [SessionEvent.begins]
  have hcount := countP_set hpc (.asking ticket rest) CallerPc.isAsking
  have hactive := h.active
  refine ⟨?_, h.bound, fun other hmem => h.fresh other ((begun_append hquiet).mp hmem), ?_, ?_⟩
  · simp only [CallerPc.isAsking, if_true] at hcount
    omega
  · intro other hmem
    rcases h.destroyed other ((begun_append hquiet).mp hmem) with hdone | ⟨script, hscript, hin⟩
    · exact .inl (List.mem_append_left _ hdone)
    · rcases mem_set_of_mem hpc (.asking ticket rest) hscript with hmoved | hstays
      · -- the moving borrower destroys the ticket now or later
        obtain ⟨rfl, rfl⟩ := CallerPc.asking.inj hmoved
        rcases List.mem_cons.mp hin with hnow | hlater
        · exact .inl (by rw [← hnow]; simp)
        · obtain ⟨hi, -⟩ := List.getElem?_eq_some_iff.mp hpc
          exact .inr ⟨rest, List.mem_set hi _, hlater⟩
      · exact .inr ⟨script, hstays, hin⟩
  · intro other script hmem
    rcases List.mem_or_eq_of_mem_set hmem with hstays | hnew
    · obtain ⟨hold, hscript⟩ := h.asking other script hstays
      exact ⟨(begun_append hquiet).mpr hold, hscript⟩
    · obtain ⟨rfl, rfl⟩ := CallerPc.asking.inj hnew
      exact ⟨(begun_append hquiet).mpr hbegun, hends⟩

/-- The end of a borrow is the last thing a borrower does. -/
theorem Borrows.ended (h : Borrows asks tickets threads log) {ticket : Nat}
    {rest : List TicketEvent} (hpc : threads[i]? = some (.asking ticket (.endBorrow :: rest))) :
    Borrows (asks - 1) tickets (threads.set i (.awaiting ticket rest))
      (log ++ [.ticket ticket .endBorrow]) := by
  obtain ⟨-, hcases⟩ := h.rest_cases hpc
  obtain ⟨-, rfl⟩ := hcases.resolve_right fun hmore => hmore.1 rfl
  have hquiet : ∀ e ∈ [SessionEvent.ticket ticket .endBorrow], e.begins = false := by
    simp [SessionEvent.begins]
  have hcount := countP_set hpc .idle CallerPc.isAsking
  have hactive := h.active
  have hbound := h.bound
  show Borrows _ _ (threads.set i .idle) _
  refine ⟨?_, by omega, fun other hmem => h.fresh other ((begun_append hquiet).mp hmem), ?_, ?_⟩
  · simp only [CallerPc.isAsking, if_true, Bool.false_eq_true, if_false] at hcount
    omega
  · intro other hmem
    rcases h.destroyed other ((begun_append hquiet).mp hmem) with hdone | ⟨script, hscript, hin⟩
    · exact .inl (List.mem_append_left _ hdone)
    · rcases mem_set_of_mem hpc .idle hscript with hmoved | hstays
      · -- there is no destroy at the end of a borrow, so it has happened
        obtain ⟨-, rfl⟩ := CallerPc.asking.inj hmoved
        exact absurd hin (by decide)
      · exact .inr ⟨script, hstays, hin⟩
  · intro other script hmem
    rcases List.mem_or_eq_of_mem_set hmem with hstays | hnew
    · obtain ⟨hold, hscript⟩ := h.asking other script hstays
      exact ⟨(begun_append hquiet).mpr hold, hscript⟩
    · cases hnew

end Borrowers

/-! ## The runner -/

section Runner

variable {s s' : SessionState} {threads : List CallerPc}

/-- What holds between the sections: the invariant, and that neither a stop nor a retirement is
due. -/
structure AtRest (s : SessionState) (threads : List CallerPc) : Prop where
  inv : SessionInv s threads
  attempted : Attempted s.toSessionFlags
  unstranded : Unstranded s.toSessionFlags

/-- Before the reader's destroy the runner has retired nothing. -/
theorem RunnerPc.retired_of_not_pastReader {pc : RunnerPc} (h : pc.pastReader = false) :
    pc.retired = false := by
  cases pc <;> first | rfl | cases h

/-- A call on the reader neither retires the session nor begins a ticket. -/
theorem SessionEvent.of_isReader {e : SessionEvent} (h : e.isReader = true) :
    e.isRetiring = false ∧ e.begins = false := by
  cases e <;> first | exact ⟨rfl, rfl⟩ | cases h

/-- A read does not end the reader. -/
theorem afterRead_pastReader (status : Int32) (frame : Bool) :
    (afterRead status frame).pastReader = false := by
  unfold afterRead
  split_ifs <;> rfl

/-- The runner holds a frame behind a read exactly where Core gave it one. -/
theorem afterRead_holdsFrame (status : Int32) (frame : Bool) :
    (afterRead status frame).holdsFrame = frame := by
  unfold afterRead
  split_ifs with _ _ _ hframe
  · rfl
  · rfl
  · exact hframe.symm
  · exact (Bool.eq_false_iff.mpr hframe).symm
  · rfl

/-- The reader is not destroyed before the runner has left its loop. -/
theorem SessionInv.readerDestroy_notMem (h : SessionInv s threads)
    (hold : s.runner.pastReader = false) : .readerDestroy ∉ s.log := by
  have hdestroyed := h.reader.destroyed
  rw [hold] at hdestroyed
  exact List.count_eq_zero.mp hdestroyed

/-- The runner at work on its reader, before the reader's destroy. -/
theorem AtRest.reads (h : AtRest s threads) (hold : s.runner.pastReader = false)
    {pc : RunnerPc} (hnew : pc.pastReader = false) (failure : Option RuntimeError)
    {log : List SessionEvent} (events : List SessionEvent) (hlog : log = s.log ++ events)
    (hevents : ∀ e ∈ events, e.isReader = true ∧ e ≠ .readerDestroy)
    (hframes : events.countP SessionEvent.delivers + s.runner.holdsFrame.toNat
      = events.count .frameRelease + pc.holdsFrame.toNat) :
    AtRest { s with runner := pc, readFailure := failure, log } threads := by
  subst hlog
  have hnot := h.inv.readerDestroy_notMem hold
  have hdestroy : .readerDestroy ∉ events := fun hmem => (hevents _ hmem).2 rfl
  refine ⟨⟨h.inv.flags, ?_, h.inv.retirementDone, ⟨?_, ?_⟩, ?_, ?_, ?_⟩, h.attempted,
    h.unstranded⟩
  · show s.readerRetired = pc.retired
    rw [h.inv.retired, RunnerPc.retired_of_not_pastReader hold,
      RunnerPc.retired_of_not_pastReader hnew]
  · show (s.log ++ events).count _ = pc.pastReader.toNat
    rw [count_append_of_notMem hdestroy, h.inv.reader.destroyed, hold, hnew]
  · have := h.inv.reader.frames
    show (s.log ++ events).countP _ = (s.log ++ events).count _ + pc.holdsFrame.toNat
    rw [List.countP_append, List.count_append]
    omega
  · exact h.inv.stops.append fun e he => (SessionEvent.of_isReader (hevents e he).1).1
  · exact h.inv.borrows.append fun e he => (SessionEvent.of_isReader (hevents e he).1).2
  · -- the reader's calls need the reader, which is destroyed behind them
    apply h.inv.log.append_of_forall
    intro before e hbefore he
    have hfirst : .readerDestroy ∉ s.log ++ before := by
      intro hmem
      rcases List.mem_append.mp hmem with hin | hin
      · exact hnot hin
      · exact hdestroy (hbefore hin)
    obtain ⟨hreader, hne⟩ := hevents e he
    cases e <;> first | exact hfirst | exact absurd rfl hne | cases hreader

/-- The reader goes when no frame is held and no stop has been attempted. -/
theorem AtRest.destroysReader (h : AtRest s threads) (hpc : s.runner = .leaving) :
    AtRest ({ s with runner := .retiring }.logged [.readerDestroy]) threads := by
  have hnot := h.inv.readerDestroy_notMem (by rw [hpc]; rfl)
  have hretired : s.readerRetired = false := by rw [h.inv.retired, hpc]; rfl
  have hframes := h.inv.reader.frames
  rw [hpc] at hframes
  refine ⟨⟨h.inv.flags, hretired, h.inv.retirementDone, ⟨?_, ?_⟩, ?_, ?_, ?_⟩, h.attempted,
    h.unstranded⟩
  · show (s.log ++ [SessionEvent.readerDestroy]).count _ = 1
    rw [List.count_append, List.count_eq_zero.mpr hnot]
    decide
  · show (s.log ++ [SessionEvent.readerDestroy]).countP SessionEvent.delivers
      = (s.log ++ [SessionEvent.readerDestroy]).count _ + 0
    rw [List.countP_append, count_append_of_notMem (by decide), hframes]
    rfl
  · exact h.inv.stops.append (by simp [SessionEvent.isRetiring])
  · exact h.inv.borrows.append (by simp [SessionEvent.begins])
  · exact h.inv.log.concat ⟨hnot, h.inv.unstopped hretired, hframes⟩

/-- The section of the runner's `defer`. -/
theorem AtRest.retires (h : AtRest s threads) (hpc : s.runner = .retiring) (status : Int32) :
    AtRest (retireLocked (stopLocked status
      { s with readerRetired := true, closing := true, runner := .departing })) threads := by
  have hretired : s.readerRetired = false := by rw [h.inv.retired, hpc]; rfl
  have hreader := h.inv.reader
  rw [hpc] at hreader
  have hsealed : SessionInv { s with readerRetired := true, closing := true, runner := .departing }
      threads :=
    ⟨⟨fun _ => rfl, fun hstopped => ⟨rfl, (h.inv.flags.stopped hstopped).2⟩, fun _ => rfl,
      h.inv.flags.nonzero, h.inv.flags.owner, h.inv.flags.runtime⟩, rfl, h.inv.retirementDone,
      ⟨hreader.destroyed, hreader.frames⟩,
      ⟨h.inv.stops.last, h.inv.stops.once, h.inv.stops.retirement⟩, h.inv.borrows, h.inv.log⟩
  obtain ⟨hstopped, hattempted⟩ := hsealed.stopLocked status
  obtain ⟨hdone, hunstranded⟩ := hstopped.retireLocked
  exact ⟨hdone, hattempted.retireLocked, hunstranded⟩

/-- **A step of the runner keeps what holds between the sections.** -/
theorem AtRest.runnerStep {action : RunnerAction} (h : AtRest s threads)
    (hstep : runnerStep s action = some s') : AtRest s' threads := by
  unfold Session.runnerStep at hstep
  split at hstep
  case h_1 hpc =>
    -- `while !isClosing`
    cases hstep
    apply h.reads (by rw [hpc]; rfl) _ s.readFailure [] (List.append_nil _).symm (by simp)
    · rw [hpc]
      split <;> rfl
    · split <;> rfl
  case h_2 status frame hpc =>
    cases hstep
    exact h.reads (by rw [hpc]; rfl) rfl s.readFailure [.read status frame] rfl
      (by simp [SessionEvent.isReader]) (by rw [hpc]; cases frame <;> rfl)
  case h_3 status frame hpc =>
    cases hstep
    apply h.reads (by rw [hpc]; rfl) (afterRead_pastReader status frame) s.readFailure []
      (List.append_nil _).symm (by simp)
    rw [afterRead_holdsFrame, hpc]
    rfl
  case h_4 readable hpc =>
    cases hstep
    apply h.reads (by rw [hpc]; rfl) _ s.readFailure [.frameData] rfl
      (by simp [SessionEvent.isReader])
    · rw [hpc]
      cases readable <;> rfl
    · cases readable <;> rfl
  case h_5 size hpc =>
    cases hstep
    apply h.reads (by rw [hpc]; rfl) _ s.readFailure [.frameSize] rfl
      (by simp [SessionEvent.isReader])
    · rw [hpc]
      unfold afterSize
      split <;> rfl
    · unfold afterSize
      split <;> rfl
  case h_6 hpc =>
    cases hstep
    exact h.reads (by rw [hpc]; rfl) rfl s.readFailure [.dispatch] rfl
      (by simp [SessionEvent.isReader]) (by rw [hpc]; rfl)
  case h_7 failure frame hpc =>
    cases hstep
    exact h.reads (by rw [hpc]; rfl) rfl (some failure) [] (List.append_nil _).symm (by simp)
      (by rw [hpc]; rfl)
  case h_8 frame again hpc =>
    -- the frame of the iteration is released, if there is one
    cases hstep
    apply h.reads (by rw [hpc]; rfl) _ s.readFailure (if frame then [.frameRelease] else []) rfl
    · cases frame <;> simp [SessionEvent.isReader]
    · rw [hpc]
      cases frame <;> cases again <;> rfl
    · cases again <;> rfl
  case h_9 hpc =>
    cases hstep
    exact h.destroysReader hpc
  case h_10 status hpc =>
    cases hstep
    exact h.retires hpc status
  case h_11 hpc =>
    cases hstep
    have hretired := h.inv.retired
    have hreader := h.inv.reader
    rw [hpc] at hretired hreader
    exact ⟨⟨h.inv.flags, hretired, h.inv.retirementDone, ⟨hreader.destroyed, hreader.frames⟩,
      h.inv.stops, h.inv.borrows, h.inv.log⟩, h.attempted, h.unstranded⟩
  case h_12 => cases hstep

end Runner

/-! ## The callers

One lemma for each section that a caller can run.
-/

section Callers

variable {s s' : SessionState} {threads : List CallerPc} {i : Nat} {pc pc' : CallerPc}

theorem requireOpenLocked_ok (h : requireOpenLocked s = .ok ()) : s.closing = false := by
  unfold requireOpenLocked at h
  split at h
  · next hopen =>
    simp only [Bool.and_eq_true, Bool.not_eq_true'] at hopen
    exact hopen.1
  · cases h

/-- A caller that does not borrow moves after its section. -/
theorem AtRest.move (h : AtRest s threads) (hpc : threads[i]? = some pc)
    (hold : pc.isAsking = false) (hnew : pc'.isAsking = false) :
    AtRest s (threads.set i pc') :=
  ⟨⟨h.inv.flags, h.inv.retired, h.inv.retirementDone, h.inv.reader, h.inv.stops,
    h.inv.borrows.move hpc hold hnew, h.inv.log⟩, h.attempted, h.unstranded⟩

/-- Events that belong to no owner. -/
theorem AtRest.logged (h : AtRest s threads) (events : List SessionEvent)
    (hevents : ∀ e ∈ events, e.isReader = false ∧ e.isRetiring = false ∧ e.begins = false)
    (hlog : Justified Protocol (s.log ++ events)) : AtRest (s.logged events) threads :=
  ⟨⟨h.inv.flags, h.inv.retired, h.inv.retirementDone,
    h.inv.reader.append fun e he => (hevents e he).1,
    h.inv.stops.append fun e he => (hevents e he).2.1,
    h.inv.borrows.append fun e he => (hevents e he).2.2, hlog⟩, h.attempted, h.unstranded⟩

/-- The calls of a `withOpen` come before any destruction, so they leave the session at rest. -/
theorem AtRest.withOpen (h : AtRest s threads)
    (operation : List RuntimeCall × Except RuntimeError Unit) :
    AtRest (withOpen operation s).2 threads := by
  unfold Session.withOpen
  cases hopen : requireOpenLocked s with
  | error => exact h
  | ok =>
    have hunstopped := h.inv.unstopped (h.inv.flags.not_retired (requireOpenLocked_ok hopen))
    have hcalls : ∀ e ∈ operation.1.map SessionEvent.runtimeCall, ∃ call, e = .runtimeCall call := by
      intro e he
      obtain ⟨call, -, rfl⟩ := List.mem_map.mp he
      exact ⟨call, rfl⟩
    apply h.logged
    · intro e he
      obtain ⟨call, rfl⟩ := hcalls e he
      exact ⟨rfl, rfl, rfl⟩
    · apply h.inv.log.append_of_forall
      intro before e hbefore he
      obtain ⟨call, rfl⟩ := hcalls e he
      intro status hmem
      rcases List.mem_append.mp hmem with hin | hin
      · exact hunstopped status hin
      · obtain ⟨call, hcall⟩ := hcalls _ (hbefore hin)
        cases hcall

/-- What `begin` does. -/
inductive Begins (answer : BeginAnswer) (s : SessionState) :
    Except RuntimeError Nat × SessionState → Prop where
  | refused (error : RuntimeError) : Begins answer s (.error error, s)
  | failed (hopen : s.closing = false) (error : RuntimeError) :
      Begins answer s (.error error, s.logged [.begin answer.status none])
  | begun (hopen : s.closing = false) (hlt : s.activeAsks < 64) :
      Begins answer s (.ok s.tickets, { s with
        activeAsks := s.activeAsks + 1
        tickets := s.tickets + 1 }.logged [.begin answer.status (some s.tickets)])

/-- What a `begin` does, by Core's answer. -/
theorem begin_begins (answer : BeginAnswer) (s : SessionState) :
    Begins answer s (begin answer s) := by
  unfold begin
  cases hopen : requireOpenLocked s with
  | error error => exact .refused error
  | ok =>
    have hclosing := requireOpenLocked_ok hopen
    show Begins answer s (if s.activeAsks < 64 then _ else _)
    split
    · next hlt =>
      cases throwIfNativeError answer.status "begin ask" with
      | error error => exact .failed hclosing error
      | ok =>
        show Begins answer s (if answer.ticket then _ else _)
        split
        · exact .begun hclosing hlt
        · exact .failed hclosing _
    · exact .refused _

/-- A `begin` that fails takes no borrow. -/
theorem AtRest.failedBegin (h : AtRest s threads) (hopen : s.closing = false) (status : Int32) :
    AtRest (s.logged [.begin status none]) threads := by
  apply h.logged
  · simp [SessionEvent.isReader, SessionEvent.isRetiring, SessionEvent.begins]
  · exact h.inv.log.concat (h.inv.unstopped (h.inv.flags.not_retired hopen))

/-- Asking for the retirement closes the session, and nothing else. -/
theorem AtRest.requestRetirement (h : AtRest s threads) : AtRest (requestRetirement s) threads :=
  ⟨⟨⟨fun _ => rfl, h.inv.flags.stopped, h.inv.flags.failure, h.inv.flags.nonzero,
    h.inv.flags.owner, h.inv.flags.runtime⟩, h.inv.retired, h.inv.retirementDone, h.inv.reader,
    ⟨h.inv.stops.last, h.inv.stops.once, h.inv.stops.retirement⟩, h.inv.borrows, h.inv.log⟩,
    h.attempted, h.unstranded⟩

/-- The locked section of `close` stops and retires in the order of the protocol. -/
theorem AtRest.stopAndRetire (h : AtRest s threads) (status : Int32) :
    AtRest (stopAndRetire status s) threads := by
  unfold Session.stopAndRetire
  split
  · exact h
  · obtain ⟨hstopped, hattempted⟩ := h.inv.stopLocked status
    obtain ⟨hdone, hunstranded⟩ := hstopped.retireLocked
    exact ⟨hdone, hattempted.retireLocked, hunstranded⟩

/-- `begin` makes a borrower. -/
theorem AtRest.begun (h : AtRest s threads) (hpc : threads[i]? = some .idle)
    (hopen : s.closing = false) (hlt : s.activeAsks < 64) (status : Int32) {trace : List TicketEvent}
    (htrace : TicketProtocol trace) :
    AtRest ({ s with activeAsks := s.activeAsks + 1, tickets := s.tickets + 1 }.logged
      [.begin status (some s.tickets)]) (threads.set i (.awaiting s.tickets trace)) := by
  obtain ⟨body, hends, -, hbody, -⟩ := htrace.ends
  have hscript : trace = (body ++ [.destroy]) ++ [.endBorrow] := by
    rw [hends, List.append_assoc]
    rfl
  have hawaiting : CallerPc.awaiting s.tickets trace = .asking s.tickets trace := by
    rw [hends]
    cases body <;> rfl
  have hretired := h.inv.flags.not_retired hopen
  have hnew : ¬ Begun s.log s.tickets := fun hbegun =>
    absurd (h.inv.borrows.fresh s.tickets hbegun) (Nat.lt_irrefl _)
  -- an open session is not stopped, so there is nothing to retire
  have hstopped := (h.inv.flags.not_stopped hretired).1
  have hruntime := h.inv.flags.runtime_of_not_stopped hstopped
  have hstops : Stops s.toSessionFlags (s.log ++ [.begin status (some s.tickets)]) :=
    h.inv.stops.append (by simp [SessionEvent.isRetiring])
  rw [hawaiting]
  refine ⟨⟨⟨h.inv.flags.closing, h.inv.flags.stopped, h.inv.flags.failure, h.inv.flags.nonzero,
    h.inv.flags.owner, ?_⟩, h.inv.retired, h.inv.retirementDone,
    h.inv.reader.append (by simp [SessionEvent.isReader]),
    ⟨hstops.last, hstops.once, hstops.retirement⟩, ?_,
    h.inv.log.concat ⟨h.inv.unstopped hretired, hnew⟩⟩, h.attempted, ?_⟩
  · intro hgone
    rw [show s.runtime = false from hgone] at hruntime
    cases hruntime
  · exact h.inv.borrows.begun hpc hlt status hscript (by simp [hbody]) (by simp [hends])
  · intro hstop
    rw [show s.stopped = true from hstop] at hstopped
    cases hstopped

/-- Nothing is retired while a ticket is borrowed. -/
theorem AtRest.ticket_rule (h : AtRest s threads) {ticket : Nat} {rest : List TicketEvent}
    (hpc : threads[i]? = some (.asking ticket rest)) (event : TicketEvent) :
    Protocol s.log (.ticket ticket event) ∧ s.runtime = true := by
  have hasking := countP_pos_of_getElem? (q := CallerPc.isAsking) hpc rfl
  have hactive := h.inv.borrows.active
  have hruntime := h.inv.flags.runtime_of_asks (show s.activeAsks ≠ 0 by omega)
  have hclient := h.inv.stops.retirement .askClientDestroy (by decide)
  rw [hruntime] at hclient
  exact ⟨⟨List.count_eq_zero.mp hclient,
    (h.inv.borrows.asking ticket rest (List.mem_of_getElem? hpc)).1⟩, hruntime⟩

/-- A borrower's step on its ticket, up to the end of its borrow. -/
theorem AtRest.used (h : AtRest s threads) {ticket : Nat} {event : TicketEvent}
    {rest : List TicketEvent} (hpc : threads[i]? = some (.asking ticket (event :: rest)))
    (hne : event ≠ .endBorrow) :
    AtRest (s.logged [.ticket ticket event]) (threads.set i (.awaiting ticket rest)) :=
  ⟨⟨h.inv.flags, h.inv.retired, h.inv.retirementDone,
    h.inv.reader.append (by simp [SessionEvent.isReader]),
    h.inv.stops.append (by simp [SessionEvent.isRetiring]), h.inv.borrows.used hpc hne,
    h.inv.log.concat (h.ticket_rule hpc event).1⟩, h.attempted, h.unstranded⟩

/-- The end of a borrow, which retires the session if it is the last one of a stopped session. -/
theorem AtRest.endBorrow (h : AtRest s threads) {ticket : Nat} {rest : List TicketEvent}
    (hpc : threads[i]? = some (.asking ticket (.endBorrow :: rest))) :
    AtRest (endBorrow ticket s) (threads.set i (.awaiting ticket rest)) := by
  obtain ⟨hrule, hruntime⟩ := h.ticket_rule hpc .endBorrow
  have hstops : Stops s.toSessionFlags (s.log ++ [.ticket ticket .endBorrow]) :=
    h.inv.stops.append (by simp [SessionEvent.isRetiring])
  have hended : SessionInv ({ s with activeAsks := s.activeAsks - 1 }.logged
      [.ticket ticket .endBorrow]) (threads.set i (.awaiting ticket rest)) := by
    refine ⟨⟨h.inv.flags.closing, h.inv.flags.stopped, h.inv.flags.failure, h.inv.flags.nonzero,
      h.inv.flags.owner, ?_⟩, h.inv.retired, h.inv.retirementDone,
      h.inv.reader.append (by simp [SessionEvent.isReader]),
      ⟨hstops.last, hstops.once, hstops.retirement⟩, h.inv.borrows.ended hpc,
      h.inv.log.concat hrule⟩
    intro hgone
    rw [show s.runtime = false from hgone] at hruntime
    cases hruntime
  obtain ⟨hdone, hunstranded⟩ := hended.retireLocked
  have hattempted : Attempted ({ s with activeAsks := s.activeAsks - 1 }.logged
      [.ticket ticket .endBorrow]).toSessionFlags := h.attempted
  exact ⟨hdone, hattempted.retireLocked, hunstranded⟩

/-- The lock of `close` is none of the protocol's business. -/
theorem AtRest.closeLocked (h : AtRest s threads) (closeLock : Bool) :
    AtRest { s with closeLock } threads :=
  ⟨⟨h.inv.flags, h.inv.retired, h.inv.retirementDone, h.inv.reader, h.inv.stops, h.inv.borrows,
    h.inv.log⟩, h.attempted, h.unstranded⟩

/-- The outcome of a `close`. -/
theorem AtRest.closed (h : AtRest s threads) (failure : Option RuntimeError) :
    AtRest (s.logged [.closed failure]) threads :=
  h.logged _ (by simp [SessionEvent.isReader, SessionEvent.isRetiring, SessionEvent.begins])
    (h.inv.log.concat trivial)

/-- **A step of a caller keeps what holds between the sections.** -/
theorem AtRest.callerStep {action : CallerAction} (h : AtRest s threads)
    (hpc : threads[i]? = some pc) (hstep : callerStep s pc action = some (s', pc')) :
    AtRest s' (threads.set i pc') := by
  unfold Session.callerStep at hstep
  split at hstep
  case h_1 operation =>
    cases hstep
    exact (h.withOpen operation).move hpc rfl rfl
  case h_2 answer messageID call =>
    have htrace := (runAwait_first messageID call).2.2.protocol
    have hbegins := begin_begins answer s
    generalize begin answer s = result at hstep hbegins
    cases hbegins with
    | refused error =>
      cases hstep
      exact h.move hpc rfl rfl
    | failed hopen error =>
      cases hstep
      exact (h.failedBegin hopen answer.status).move hpc rfl rfl
    | begun hopen hlt =>
      cases hstep
      exact h.begun hpc hopen hlt answer.status htrace
  case h_3 ticket rest =>
    cases hstep
    exact h.endBorrow hpc
  case h_4 ticket event rest hne =>
    cases hstep
    exact h.used hpc hne
  case h_5 =>
    cases hstep
    exact h.requestRetirement.move hpc rfl rfl
  case h_6 onQueue =>
    -- `close` takes `closeLock`, or is refused
    split at hstep
    · cases hstep
      exact (h.closed _).move hpc rfl rfl
    · split at hstep
      · cases hstep
        exact (h.closed _).move hpc rfl rfl
      · cases hstep
        exact (h.closeLocked true).move hpc rfl rfl
  case h_7 =>
    cases hstep
    exact h.requestRetirement.move hpc rfl rfl
  case h_8 joined =>
    have hmoves : s' = s ∧ pc'.isAsking = false := by
      split_ifs at hstep <;> cases hstep <;> exact ⟨rfl, rfl⟩
    rw [hmoves.1]
    exact h.move hpc rfl hmoves.2
  case h_9 status =>
    have hmoves : s' = Session.stopAndRetire status s ∧ pc'.isAsking = false := by
      dsimp only at hstep
      split at hstep <;> cases hstep <;> exact ⟨rfl, rfl⟩
    rw [hmoves.1]
    exact (h.stopAndRetire status).move hpc rfl hmoves.2
  case h_10 joined =>
    have hmoves : s' = s ∧ pc'.isAsking = false := by
      split_ifs at hstep <;> cases hstep <;> exact ⟨rfl, rfl⟩
    rw [hmoves.1]
    exact h.move hpc rfl hmoves.2
  case h_11 failure =>
    cases hstep
    exact ((h.closeLocked false).closed failure).move hpc rfl rfl
  case h_12 => cases hstep

end Callers

/-! ## The runs -/

section Runs

variable {p p' : Pool SessionState CallerPc}

theorem atRest_init (h : sessionSystem.init p) : AtRest p.shared p.threads := by
  obtain ⟨hshared, hidle⟩ := h
  have hasking : p.threads.countP CallerPc.isAsking = 0 := by
    apply List.countP_eq_zero.mpr
    intro pc hpc
    rw [hidle pc hpc]
    decide
  have hnone : ∀ ticket rest, .asking ticket rest ∉ p.threads := by
    intro ticket rest hmem
    cases hidle _ hmem
  rw [hshared]
  refine ⟨⟨?_, rfl, rfl, ⟨rfl, rfl⟩, ⟨rfl, ?_, ?_⟩, ⟨?_, ?_, ?_, ?_, ?_⟩, .nil⟩, ?_, ?_⟩
  · constructor <;> simp
  · simp
  · decide
  · rw [hasking]
    rfl
  · show (0 : Int) ≤ 64
    decide
  · rintro ticket ⟨status, hmem⟩
    cases hmem
  · rintro ticket ⟨status, hmem⟩
    cases hmem
  · intro ticket rest hmem
    exact absurd hmem (hnone ticket rest)
  · simp [Attempted]
  · simp [Unstranded]

/-- **A step keeps what holds between the sections.** -/
theorem atRest_step {a : SessionAction} (h : AtRest p.shared p.threads)
    (hstep : sessionSystem.step p a p') : AtRest p'.shared p'.threads := by
  cases a with
  | runner action =>
    obtain ⟨s', hrunner, rfl⟩ := Option.map_eq_some_iff.mp hstep
    exact h.runnerStep hrunner
  | caller i action =>
    have hadvance : p.advance (fun s pc => callerStep s pc action) i = some p' := hstep
    obtain ⟨pc, s', pc', hpc, hcaller, rfl⟩ := Pool.advance_eq_some hadvance
    exact h.callerStep hpc hcaller

/-- **Between two sections every reachable session is at rest.** -/
theorem atRest_reachable (hp : sessionSystem.Reachable p) : AtRest p.shared p.threads :=
  System.Reachable.invariant (I := fun p => AtRest p.shared p.threads)
    (fun _ h => atRest_init h) (fun _ _ _ _ hrest hstep => atRest_step hrest hstep) hp

end Runs

end CoAkka.Session
