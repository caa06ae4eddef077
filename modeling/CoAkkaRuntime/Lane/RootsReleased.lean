import CoAkkaRuntime.Lane.CallbackRoots

/-!
# Lane — callback roots are released outside

No statement of a mutation is the end of a root, so a root can only end where an operation lets go
of its list and its holder: out of the condition and out of the borrow. What application code then
does on the same thread starts from there, and finds neither the condition nor a borrow of its own.

* `ProceedRun` — what one step of an activation can do, with the guard it passed.
* `ActivationInv`, `RootsInv` — the invariant, for one activation and for all stacks together.
* `RootsInv.call`, `RootsInv.proceed` — an operation that application code calls on top of the
  others, and one step of the activation on top; both by `RootsInv.replace`.
* `RootsInv.outside` — a root that is no longer held was let go outside the condition.
* `roots_released_outside` — that on every path, for any number of threads.

`Stream.RootsKept` says that the statements of a mutation keep every root; this module is about the
operations around them.
-/

namespace CoAkka.Lane

open CoAkka.Stream Throwing Steps Transition

variable {K I Root : Type} {ident : K → I} [DecidableEq I]

/-! ## The bodies -/

/-- The body of an operation drops no root: what it takes out of the table goes into its locals. -/
theorem body_keeps (operation : Operation K Root) {f : MutationFrame ident Root}
    (hlocals : f.locals = []) :
    Along KeepsRoots (fun _ f' => f'.locals = []) operation.body f := by
  cases operation with
  | admission key root name answers =>
    refine along_ofExcept_bind (fun _ _ => hlocals) fun _ _ => ?_
    refine along_bind ((admitSteps_keeps key root _ _ _ hlocals).mono (fun _ _ h => h) ?_)
    rintro (error | status) f hlocals
    · exact hlocals
    · exact along_ofExcept hlocals
  | control key forget status =>
    refine along_ofExcept_bind (fun _ _ => hlocals) fun _ _ => ?_
    split
    · exact (retireSteps_keeps key hlocals).mono (fun _ _ h => h) fun _ _ h => h.2
    · exact along_pure hlocals
  | borrow => exact along_pure hlocals
  | close => exact detachSteps_keeps hlocals

/-! ## The steps of an operation -/

/-- The operation holds the condition. -/
def Activation.isLocked (act : Activation ident Root) : Bool :=
  match act.position with
  | .locked _ _ => true
  | _ => false

/-- What an operation does next. -/
inductive ProceedRun (i : Nat) (s : CallbackLane ident Root) (act : Activation ident Root) :
    CallbackLane ident Root × Option (Activation ident Root) → Prop where
  /-- From one place without the condition to another. -/
  | moves (s' : CallbackLane ident Root) (position : Position ident Root)
      (hfree : act.isLocked = false) (hfree' : { act with position }.isLocked = false)
      (howners : s'.owners = s.owners) (hkeys : s'.retiredKeys = s.retiredKeys)
      (hcondition : s'.condition = s.condition)
      (hcalls : s'.activeCalls + (if act.counted then 1 else 0)
        = s.activeCalls + (if { act with position }.counted then 1 else 0)) :
      ProceedRun i s act (s', some { act with position })
  | locks (borrowed : Bool) (hfree : act.isLocked = false) (hcondition : s.condition = none)
      (hcounted : act.counted = borrowed) :
      ProceedRun i s act ({ s with condition := some i },
        some { act with position := .locked borrowed act.operation.body })
  | runs (borrowed : Bool) (statement : MutationFrame ident Root → MutationFrame ident Root)
      (rest : MutationFrame ident Root → Steps RuntimeError (MutationFrame ident Root) Unit)
      (hposition : act.position = .locked borrowed (.next statement rest)) :
      ProceedRun i s act (s.put (statement (act.frame s)),
        some (act.after (statement (act.frame s)) (.locked borrowed (rest (statement (act.frame s))))))
  | unlocks (borrowed lane : Bool) (outcome : Except RuntimeError Unit) (position : Position ident Root)
      (hposition : act.position = .locked borrowed (.ret outcome))
      (hfree : { act with position }.isLocked = false)
      (hcounted : { act with position }.counted = borrowed) :
      ProceedRun i s act ({ s with condition := none, lane }, some { act with position })
  | releases (act' : Option (Activation ident Root)) (hleaving : act.position = .leaving)
      (hleaving' : ∀ a ∈ act', a.position = .leaving ∧ a.locals = act.locals) :
      ProceedRun i s act (s, act')

/-- How an activation goes on, by its position. -/
theorem proceedRun_of_proceed {i : Nat} {s : CallbackLane ident Root} {act : Activation ident Root}
    {out : CallbackLane ident Root × Option (Activation ident Root)}
    (h : act.proceed i s = some out) : ProceedRun i s act out := by
  obtain ⟨operation, position, holder, retired, locals, calls⟩ := act
  cases position with
  | entering =>
    simp only [Activation.proceed] at h
    split at h
    · cases h
    · split at h
      · split at h
        · cases h
          -- `close` of a lane that is closed already
          exact .moves s .leaving rfl rfl rfl rfl rfl rfl
        · split at h
          · cases h
            -- `close` while another one is on its way
            exact .moves s .waiting rfl rfl rfl rfl rfl rfl
          · cases h
            exact .moves _ .stopping rfl rfl rfl rfl rfl rfl
      · split at h
        · cases h
          exact .moves s .leaving rfl rfl rfl rfl rfl rfl
        · cases h
          -- `withLane` counts its borrow before it leaves the condition
          exact .moves _ .borrowing rfl rfl rfl rfl rfl (Int.add_zero _)
  | borrowing =>
    simp only [Activation.proceed] at h
    split at h
    · cases h
      exact .moves s .unlocked rfl rfl rfl rfl rfl rfl
    · split at h
      · cases h
      · next hcondition =>
        cases h
        exact .locks true rfl (by simpa using hcondition) rfl
  | locked borrowed rest =>
    cases rest with
    | next statement rest =>
      cases h
      exact .runs borrowed statement rest rfl
    | ret outcome =>
      cases borrowed with
      | true =>
        cases h
        exact .unlocks true s.lane outcome .unlocked rfl rfl rfl
      | false =>
        cases h
        exact .unlocks false false outcome .leaving rfl rfl rfl
  | unlocked =>
    simp only [Activation.proceed] at h
    split at h
    · cases h
    · cases h
      exact .moves _ .leaving rfl rfl rfl rfl rfl (by show s.activeCalls - 1 + 1 = _ + 0; omega)
  | leaving =>
    have hleaving : ∀ {holder : Option Root} {retired : List Nat} {act' : Option (Activation ident Root)},
        act' = some ⟨operation, .leaving, holder, retired, locals, calls⟩ ∨ act' = none →
        ∀ a ∈ act', a.position = .leaving ∧ a.locals = locals := by
      rintro holder retired act' (rfl | rfl) a ha
      · cases ha
        exact ⟨rfl, rfl⟩
      · cases ha
    simp only [Activation.proceed] at h
    split at h
    all_goals
      cases h
    · exact .releases _ rfl (hleaving (.inl rfl))
    · exact .releases _ rfl (hleaving (.inl rfl))
    · exact .releases none rfl (@hleaving none [] none (.inr rfl))
  | stopping =>
    cases h
    exact .moves s .draining rfl rfl rfl rfl rfl rfl
  | draining =>
    simp only [Activation.proceed] at h
    split at h
    · cases h
    · next hready =>
      -- woken with the condition, once nobody is inside
      obtain ⟨hcondition, -⟩ : s.condition = none ∧ s.activeCalls = 0 := by simpa using hready
      cases h
      exact .locks false rfl hcondition rfl
  | waiting =>
    simp only [Activation.proceed] at h
    split at h
    · cases h
    · cases h
      exact .moves s .leaving rfl rfl rfl rfl rfl rfl

/-! ## The invariant -/

/-- The operation on top of a thread's stack is counted. -/
def borrows (stack : List (Activation ident Root)) : Bool := stack.head?.any Activation.counted

def holds (stack : List (Activation ident Root)) : Bool := stack.head?.any Activation.isLocked

/-- What holds of one operation and the lane. -/
structure ActivationInv (s : CallbackLane ident Root) (act : Activation ident Root) : Prop where
  /-- What is left of a body drops no root. -/
  body : ∀ borrowed rest, act.position = .locked borrowed rest →
    Along KeepsRoots (fun _ f => f.locals = []) rest (act.frame s)
  locals : act.isLocked = false → act.locals = []

abbrev LanePool {K I : Type} (ident : K → I) (Root : Type) :=
  Pool (CallbackLane ident Root) (List (Activation ident Root))

structure RootsInv (p : LanePool ident Root) : Prop where
  /-- The operations below the top of a stack are letting go of what they refer to. -/
  below : ∀ stack ∈ p.threads, ∀ act ∈ stack.tail, act.position = .leaving ∧ act.locals = []
  condition : ∀ (i : Nat) stack, p.threads[i]? = some stack →
    (p.shared.condition = some i ↔ holds stack = true)
  top : ∀ stack ∈ p.threads, ∀ act ∈ stack.head?, ActivationInv p.shared act
  counted : p.shared.activeCalls = (p.threads.countP borrows : Nat)

omit [DecidableEq I] in
/-- An activation that holds neither the lock nor locals satisfies the invariant anywhere. -/
theorem ActivationInv.free {s : CallbackLane ident Root} {act : Activation ident Root}
    (hfree : act.isLocked = false) (hlocals : act.locals = []) : ActivationInv s act := by
  refine ⟨fun borrowed rest hposition => ?_, fun _ => hlocals⟩
  rw [Activation.isLocked, hposition] at hfree
  cases hfree

omit [DecidableEq I] in
/-- What other operations leave of an operation's invariant. -/
theorem ActivationInv.frame {s s' : CallbackLane ident Root} {act : Activation ident Root}
    (h : ActivationInv s act) (howners : s'.owners = s.owners)
    (hkeys : s'.retiredKeys = s.retiredKeys) : ActivationInv s' act := by
  refine ⟨fun borrowed rest hposition => ?_, h.locals⟩
  have hbody := h.body borrowed rest hposition
  rwa [Activation.frame, ← howners, ← hkeys] at hbody

omit [DecidableEq I] in
/-- An operation that is letting go is outside. -/
theorem Activation.free_of_leaving {act : Activation ident Root} (h : act.position = .leaving) :
    act.isLocked = false ∧ act.counted = false := by
  rw [Activation.isLocked, Activation.counted, h]
  exact ⟨rfl, rfl⟩

omit [DecidableEq I] in
/-- An activation that is leaving holds neither the lock nor a borrow. -/
theorem idle_of_leaving {stack : List (Activation ident Root)}
    (h : ∀ act ∈ stack, act.position = .leaving) : holds stack = false ∧ borrows stack = false := by
  cases stack with
  | nil => exact ⟨rfl, rfl⟩
  | cons act below => exact Activation.free_of_leaving (h act List.mem_cons_self)

omit [DecidableEq I] in
/-- A thread that runs application code is letting go of what its operations refer to. -/
theorem RootsInv.leaving_of_runsApplication {p : LanePool ident Root} (h : RootsInv p)
    {stack : List (Activation ident Root)} (hstack : stack ∈ p.threads)
    (happlication : runsApplication stack = true) :
    ∀ act ∈ stack, act.position = .leaving ∧ act.locals = [] := by
  cases stack with
  | nil => exact fun act hact => absurd hact List.not_mem_nil
  | cons act below =>
    have hleaving : act.position = .leaving := by
      obtain ⟨operation, position, holder, retired, locals, calls⟩ := act
      cases position with
      | leaving => rfl
      | _ => cases happlication
    intro a ha
    rcases List.mem_cons.mp ha with rfl | hbelow
    · exact ⟨hleaving, (h.top _ hstack a rfl).locals (Activation.free_of_leaving hleaving).1⟩
    · exact h.below _ hstack a hbelow

theorem rootsInv_init {p : LanePool ident Root} (h : (callbackRoots ident Root).init p) :
    RootsInv p := by
  obtain ⟨⟨capacity, owners, -, hshared⟩, hthreads⟩ := h
  have hempty : p.threads.countP borrows = 0 := by
    refine List.countP_eq_zero.mpr fun stack hstack => ?_
    rw [hthreads stack hstack]
    exact Bool.false_ne_true
  refine ⟨fun stack hstack act hact => ?_, fun i stack hstack => ?_, fun stack hstack act hact => ?_, ?_⟩
  · rw [hthreads stack hstack] at hact
    cases hact
  · rw [hthreads stack (List.mem_of_getElem? hstack), hshared]
    exact ⟨fun h => (by cases h), fun h => (by cases h)⟩
  · rw [hthreads stack hstack] at hact
    cases hact
  · rw [hshared, hempty]
    rfl

/-- A thread's step: an operation is called, or the one on top goes on. -/
theorem step_cases {p p' : LanePool ident Root} {i : Nat} {action : ThreadAction K Root}
    (hstep : (callbackRoots ident Root).step p (i, action) p') :
    ∃ stack, p.threads[i]? = some stack ∧
      ((∃ operation : Operation K Root, runsApplication stack = true ∧
          p' = ⟨p.shared, p.threads.set i (Operation.start operation :: stack)⟩) ∨
        ∃ act below out, stack = act :: below ∧ ProceedRun i p.shared act out ∧
          p' = ⟨out.1, p.threads.set i (out.2.toList ++ below)⟩) := by
  obtain ⟨stack, s, stack', hstack, hnext, rfl⟩ := Pool.advance_eq_some hstep
  refine ⟨stack, hstack, ?_⟩
  cases action with
  | call operation =>
    left
    simp only [threadStep] at hnext
    split at hnext
    · next happlication =>
      cases hnext
      exact ⟨operation, happlication, rfl⟩
    · cases hnext
  | proceed =>
    right
    cases stack with
    | nil => cases hnext
    | cons act below =>
      obtain ⟨out, hout, heq⟩ := Option.map_eq_some_iff.mp hnext
      cases heq
      exact ⟨act, below, out, rfl, proceedRun_of_proceed hout, rfl⟩

/-- The condition between a thread's step and the next. -/
def PassesCondition (i : Nat) (condition condition' : Option Nat) (held held' : Bool) : Prop :=
  (condition' = condition ∧ held' = held) ∨
    (condition = none ∧ condition' = some i ∧ held' = true) ∨
    (condition = some i ∧ condition' = none ∧ held' = false)

omit [DecidableEq I] in
/-- A step of thread `i` keeps the invariant if its own part of it is kept. -/
theorem RootsInv.replace {p : LanePool ident Root} (h : RootsInv p) {i : Nat}
    {stack stack' : List (Activation ident Root)} (hstack : p.threads[i]? = some stack)
    {s' : CallbackLane ident Root}
    (hbelow : ∀ act ∈ stack'.tail, act.position = .leaving ∧ act.locals = [])
    (hcondition : PassesCondition i p.shared.condition s'.condition (holds stack) (holds stack'))
    (htop : ∀ act ∈ stack'.head?, ActivationInv s' act)
    (howners : (s'.owners = p.shared.owners ∧ s'.retiredKeys = p.shared.retiredKeys) ∨
      p.shared.condition = some i)
    (hcounted : s'.activeCalls + (if borrows stack then 1 else 0)
      = p.shared.activeCalls + (if borrows stack' then 1 else 0)) :
    RootsInv ⟨s', p.threads.set i stack'⟩ := by
  refine ⟨fun other hother => ?_, fun j other hother => ?_, fun other hother act hact => ?_, ?_⟩
  · rcases List.mem_or_eq_of_mem_set hother with hold | rfl
    · exact h.below other hold
    · exact hbelow
  · by_cases hij : i = j
    · subst hij
      have hself := h.condition i stack hstack
      rw [getElem?_set_moved hstack] at hother
      obtain rfl := Option.some.inj hother
      rcases hcondition with ⟨hsame, hheld⟩ | ⟨-, hnow, hheld⟩ | ⟨-, hnow, hheld⟩
      · rw [hsame, hheld]
        exact hself
      · rw [hnow, hheld]
        exact ⟨fun _ => rfl, fun _ => rfl⟩
      · rw [hnow, hheld]
        exact ⟨fun h => (by cases h), fun h => (by cases h)⟩
    · have hrest := h.condition j other (by rwa [List.getElem?_set_ne hij] at hother)
      rw [← hrest]
      -- whoever else holds the condition goes on holding it
      rcases hcondition with ⟨hsame, -⟩ | ⟨hbefore, hnow, -⟩ | ⟨hbefore, hnow, -⟩
      · rw [hsame]
      · rw [hbefore, hnow]
        exact ⟨fun h => absurd (Option.some.inj h) hij, fun h => (by cases h)⟩
      · rw [hbefore, hnow]
        exact ⟨fun h => (by cases h), fun h => absurd (Option.some.inj h) hij⟩
  · obtain ⟨j, hj⟩ := List.mem_iff_getElem?.mp hother
    have hj : (p.threads.set i stack')[j]? = some other := hj
    by_cases hij : i = j
    · subst hij
      rw [getElem?_set_moved hstack] at hj
      exact htop act (Option.some.inj hj ▸ hact)
    · rw [List.getElem?_set_ne hij] at hj
      have hinv := h.top other (List.mem_of_getElem? hj) act hact
      rcases howners with ⟨howners, hkeys⟩ | hheld
      · exact hinv.frame howners hkeys
      · -- thread `i` holds the condition, so this one does not
        have hfree : act.isLocked = false := by
          by_contra hlocked
          have hholds : holds other = true := by
            rw [holds, Option.mem_def.mp hact]
            simpa using hlocked
          have hother := (h.condition j other hj).mpr hholds
          rw [hheld] at hother
          exact hij (Option.some.inj hother)
        exact .free hfree (hinv.locals hfree)
  · have hmoved := countP_set hstack stack' borrows
    have hactive := h.counted
    -- the counter moves with the thread's own borrow
    have hmoved : ((p.threads.set i stack').countP borrows : Int) + (if borrows stack then 1 else 0)
        = (p.threads.countP borrows : Int) + (if borrows stack' then 1 else 0) := by
      generalize borrows stack = held, borrows stack' = held' at hmoved
      cases held <;> cases held' <;>
        simp only [Bool.false_eq_true, if_true, if_false] at hmoved ⊢ <;> omega
    show s'.activeCalls = ((p.threads.set i stack').countP borrows : Nat)
    omega

omit [DecidableEq I] in
/-- The application may call an operation wherever it runs, which is also within a drop. -/
theorem RootsInv.call {p : LanePool ident Root} (h : RootsInv p) {i : Nat}
    {stack : List (Activation ident Root)} (hstack : p.threads[i]? = some stack)
    (happlication : runsApplication stack = true) (operation : Operation K Root) :
    RootsInv ⟨p.shared, p.threads.set i (Operation.start operation :: stack)⟩ := by
  have hleaving := h.leaving_of_runsApplication (List.mem_of_getElem? hstack) happlication
  obtain ⟨hholds, hborrows⟩ := idle_of_leaving fun act hact => (hleaving act hact).1
  refine h.replace hstack hleaving (.inl ⟨rfl, hholds.symm⟩) ?_ (.inl ⟨rfl, rfl⟩) ?_
  · rintro act hact
    cases hact
    exact .free rfl rfl
  · rw [hborrows]
    rfl

/-- **One step of an activation keeps the invariant.** A drop happens behind the unlock, never under
it. -/
theorem RootsInv.proceed {p : LanePool ident Root} (h : RootsInv p) {i : Nat}
    {act : Activation ident Root} {below : List (Activation ident Root)}
    {out : CallbackLane ident Root × Option (Activation ident Root)}
    (hstack : p.threads[i]? = some (act :: below)) (hrun : ProceedRun i p.shared act out) :
    RootsInv ⟨out.1, p.threads.set i (out.2.toList ++ below)⟩ := by
  have hmem := List.mem_of_getElem? hstack
  have hbelow : ∀ a ∈ below, a.position = .leaving ∧ a.locals = [] := h.below _ hmem
  have htop := h.top _ hmem act rfl
  have hheld : act.isLocked = true → p.shared.condition = some i :=
    fun hlocked => (h.condition i _ hstack).mpr hlocked
  cases hrun with
  | moves s' position hfree hfree' howners hkeys hcondition hcalls =>
    refine h.replace hstack hbelow (.inl ⟨hcondition, hfree'.trans hfree.symm⟩) ?_
      (.inl ⟨howners, hkeys⟩) hcalls
    rintro a ha
    cases ha
    exact .free hfree' (htop.locals hfree)
  -- the body starts with nothing in its local variables
  | locks borrowed hfree hcondition hcounted =>
    refine h.replace hstack hbelow (.inr (.inl ⟨hcondition, rfl, rfl⟩)) ?_ (.inl ⟨rfl, rfl⟩) ?_
    · rintro a ha
      cases ha
      refine ⟨fun _ _ hposition => ?_, fun hlocked => by cases hlocked⟩
      cases hposition
      exact body_keeps act.operation (htop.locals hfree)
    · show _ + (if act.counted then 1 else 0) = _ + (if borrowed then 1 else 0)
      rw [hcounted]
  | runs borrowed statement rest hposition =>
    have hlocked : act.isLocked = true := by rw [Activation.isLocked, hposition]
    have hcounted : act.counted = borrowed := by rw [Activation.counted, hposition]
    refine h.replace hstack hbelow (.inl ⟨rfl, hlocked.symm⟩) ?_ (.inr (hheld hlocked)) ?_
    · rintro a ha
      cases ha
      refine ⟨fun _ _ hposition' => ?_, fun hlocked => by cases hlocked⟩
      cases hposition'
      exact (htop.body borrowed _ hposition).2
    · show _ + (if act.counted then 1 else 0) = _ + (if borrowed then 1 else 0)
      rw [hcounted]
      rfl
  -- the body has ended, so it holds no entry any more
  | unlocks borrowed lane outcome position hposition hfree hcounted =>
    have hlocked : act.isLocked = true := by rw [Activation.isLocked, hposition]
    have hcounted' : act.counted = borrowed := by rw [Activation.counted, hposition]
    refine h.replace hstack hbelow (.inr (.inr ⟨hheld hlocked, rfl, hfree⟩)) ?_ (.inl ⟨rfl, rfl⟩) ?_
    · rintro a ha
      cases ha
      exact .free hfree (htop.body borrowed _ hposition)
    · have hsame : act.counted = { act with position }.counted := hcounted'.trans hcounted.symm
      show _ + (if act.counted then 1 else 0) = _
      rw [hsame]
      rfl
  | releases act' hleaving hleaving' =>
    obtain ⟨hfree, huncounted⟩ := Activation.free_of_leaving hleaving
    have hleft : ∀ a ∈ act'.toList ++ below, a.position = .leaving ∧ a.locals = [] := by
      intro a ha
      rcases List.mem_append.mp ha with hnow | hin
      · obtain ⟨hposition, hsame⟩ := hleaving' a (Option.mem_toList.mp hnow)
        exact ⟨hposition, hsame.trans (htop.locals hfree)⟩
      · exact hbelow a hin
    obtain ⟨hholds, hborrows⟩ := idle_of_leaving fun a ha => (hleft a ha).1
    refine h.replace hstack (fun a ha => hleft a (List.mem_of_mem_tail ha))
      (.inl ⟨rfl, hholds.trans hfree.symm⟩) ?_ (.inl ⟨rfl, rfl⟩) ?_
    · intro a ha
      obtain ⟨hposition, hnone⟩ := hleft a (List.mem_of_mem_head? ha)
      exact .free (Activation.free_of_leaving hposition).1 hnone
    · show _ + (if act.counted then 1 else 0) = _
      rw [huncounted, hborrows]

/-- So does one step of any thread. -/
theorem rootsInv_step {p p' : LanePool ident Root} (h : RootsInv p) {i : Nat}
    {action : ThreadAction K Root} (hstep : (callbackRoots ident Root).step p (i, action) p') :
    RootsInv p' := by
  obtain ⟨stack, hstack, ⟨operation, happlication, rfl⟩ | ⟨act, below, out, rfl, hrun, rfl⟩⟩ :=
    step_cases hstep
  · exact h.call hstack happlication operation
  · exact h.proceed hstack hrun

/-- And every run. -/
theorem rootsInv_reachable {p : LanePool ident Root}
    (hp : (callbackRoots ident Root).Reachable p) : RootsInv p :=
  hp.invariant (fun _ => rootsInv_init) fun _ _ _ _ h hstep => rootsInv_step h hstep

/-! ## Roots

A root is held by an entry that something refers to, or by an operation that was called with it.
-/

/-- The entries the table, a list of retired objects or a local variable refers to. -/
def Refers (p : LanePool ident Root) (id : Nat) : Prop :=
  id ∈ p.shared.owners.entries.values ∨
    ∃ stack ∈ p.threads, ∃ act ∈ stack, id ∈ act.retired ∨ id ∈ act.locals

/-- The connector has a reference to the root: in a living entry or in a caller's holder. -/
def RootHeld (p : LanePool ident Root) (root : Root) : Prop :=
  (∃ id, Closure (Refers p) p.shared.owners.previous? id ∧ p.shared.owners.root? id = some root) ∨
    ∃ stack ∈ p.threads, ∃ act ∈ stack, act.holder = some root

/-- Thread `i` does not hold the condition, and none of its operations is counted. -/
def Outside (p : LanePool ident Root) (i : Nat) : Prop :=
  p.shared.condition ≠ some i ∧
    ∀ stack, p.threads[i]? = some stack → ∀ act ∈ stack, act.counted = false

section Kept

variable {p : LanePool ident Root} {i : Nat} {s' : CallbackLane ident Root}

omit [DecidableEq I] in
/-- A step that takes no reference away. -/
theorem rootHeld_of_refers {stack stack' : List (Activation ident Root)}
    (hstack : p.threads[i]? = some stack) (howners : s'.owners = p.shared.owners)
    (hrefers : ∀ act ∈ stack, ∃ act' ∈ stack', act'.retired = act.retired ∧
      act'.locals = act.locals ∧ act'.holder = act.holder) {root : Root} (h : RootHeld p root) :
    RootHeld ⟨s', p.threads.set i stack'⟩ root := by
  have hmem : stack' ∈ p.threads.set i stack' :=
    List.mem_of_getElem? (getElem?_set_moved hstack _)
  -- every reference of before is there after the step
  have hkept : ∀ other ∈ p.threads, ∀ act ∈ other, ∃ other' ∈ p.threads.set i stack',
      ∃ act' ∈ other', act'.retired = act.retired ∧ act'.locals = act.locals ∧
        act'.holder = act.holder := by
    intro other hother act hact
    rcases mem_set_of_mem hstack stack' hother with rfl | hrest
    · exact ⟨stack', hmem, hrefers act hact⟩
    · exact ⟨other, hrest, act, hact, rfl, rfl, rfl⟩
  -- by an entry that is alive, or as the holder of an operation
  rcases h with ⟨id, halive, hroot⟩ | ⟨other, hother, act, hact, hholder⟩
  · refine .inl ⟨id, halive.mono (fun id hid => .base ?_) (fun _ _ hnext => .inl ?_), ?_⟩
    · rcases hid with htable | ⟨other, hother, act, hact, hin⟩
      · exact .inl (by rwa [howners])
      · obtain ⟨other', hother', act', hact', hretired, hlocals, -⟩ := hkept other hother act hact
        exact .inr ⟨other', hother', act', hact', by rwa [hretired, hlocals]⟩
    · show s'.owners.previous? _ = _
      rwa [howners]
    · show s'.owners.root? id = some root
      rwa [howners]
  · obtain ⟨other', hother', act', hact', -, -, hsame⟩ := hkept other hother act hact
    exact .inr ⟨other', hother', act', hact', hsame.trans hholder⟩

omit [DecidableEq I] in
/-- A statement of a mutation takes the last reference of no root away. -/
theorem rootHeld_of_keeps {act : Activation ident Root} {below : List (Activation ident Root)}
    {f : MutationFrame ident Root} (hstack : p.threads[i]? = some (act :: below))
    (hkeeps : KeepsRoots (act.frame p.shared) f) (position : Position ident Root) {root : Root}
    (h : RootHeld p root) :
    RootHeld ⟨p.shared.put f, p.threads.set i (act.after f position :: below)⟩ root := by
  have hmem : act.after f position :: below ∈ p.threads.set i (act.after f position :: below) :=
    List.mem_of_getElem? (getElem?_set_moved hstack _)
  generalize hp' : (⟨p.shared.put f, p.threads.set i (act.after f position :: below)⟩ :
    LanePool ident Root) = p'
  have hthreads : p'.threads = p.threads.set i (act.after f position :: below) := by rw [← hp']
  have howners : p'.shared.owners = f.owners := by rw [← hp']; rfl
  rw [← hthreads] at hmem
  -- what the frame refers to is referred to
  have hframe : ∀ id, f.Refers id → Refers p' id := by
    rintro id (htable | hretired | hlocals)
    · exact .inl (by rwa [howners])
    · exact .inr ⟨_, hmem, _, List.mem_cons_self, .inl hretired⟩
    · exact .inr ⟨_, hmem, _, List.mem_cons_self, .inr hlocals⟩
  have halive : ∀ id, f.Alive id → Closure (Refers p') p'.shared.owners.previous? id := by
    intro id hid
    rw [howners]
    exact Closure.mono (fun id hid => .base (hframe id hid)) (fun _ _ hnext => .inl hnext) hid
  have hothers : ∀ other ∈ p.threads, ∀ a ∈ other, a = act ∨ ∃ other' ∈ p'.threads, a ∈ other' := by
    intro other hother a ha
    rcases mem_set_of_mem hstack (act.after f position :: below) hother with rfl | hrest
    · rcases List.mem_cons.mp ha with rfl | hin
      · exact .inl rfl
      · exact .inr ⟨_, hmem, List.mem_cons_of_mem _ hin⟩
    · exact .inr ⟨other, by rwa [hthreads], ha⟩
  rcases h with ⟨id, hreached, hroot⟩ | ⟨other, hother, a, ha, hholder⟩
  · refine .inl ⟨id, hreached.mono ?_ ?_, ?_⟩
    · rintro id (htable | ⟨other, hother, a, ha, hin⟩)
      · exact halive id (hkeeps.refers id (.inl htable))
      · rcases hothers other hother a ha with rfl | ⟨other', hother', ha'⟩
        · exact halive id (hkeeps.refers id (.inr hin))
        · exact .base (.inr ⟨other', hother', a, ha', hin⟩)
    · intro id id' hnext
      rcases hkeeps.previous id id' hnext with hsame | hmoved
      · exact .inl (by rwa [howners])
      · exact .inr (halive id' hmoved)
    · rw [howners]
      exact hkeeps.root id root hroot
  · rcases hothers other hother a ha with rfl | ⟨other', hother', ha'⟩
    · exact .inr ⟨_, hmem, _, List.mem_cons_self, hholder⟩
    · exact .inr ⟨other', hother', a, ha', hholder⟩

end Kept

omit [DecidableEq I] in
/-- An operation outside leaves its thread outside. -/
theorem RootsInv.outside {p : LanePool ident Root} (h : RootsInv p) {i : Nat}
    {act : Activation ident Root} {below : List (Activation ident Root)}
    (hstack : p.threads[i]? = some (act :: below)) (hfree : act.isLocked = false)
    (hcounted : act.counted = false) : Outside p i := by
  constructor
  · intro hheld
    have hlocked : act.isLocked = true := (h.condition i _ hstack).mp hheld
    rw [hfree] at hlocked
    cases hlocked
  · intro stack hstack' a ha
    obtain rfl := Option.some.inj (hstack.symm.trans hstack')
    rcases List.mem_cons.mp ha with rfl | hin
    · exact hcounted
    · exact (Activation.free_of_leaving (h.below _ (List.mem_of_getElem? hstack) a hin).1).2

/-- **Drops.** The step that takes the last reference to a root away is one outside. -/
theorem outside_of_dropped {p p' : LanePool ident Root} (h : RootsInv p) {i : Nat}
    {action : ThreadAction K Root} (hstep : (callbackRoots ident Root).step p (i, action) p')
    {root : Root} (hheld : RootHeld p root) (hdropped : ¬ RootHeld p' root) :
    Outside p i ∧ Outside p' i := by
  obtain ⟨stack, hstack, ⟨operation, -, rfl⟩ | ⟨act, below, out, rfl, hrun, rfl⟩⟩ := step_cases hstep
  · refine absurd (rootHeld_of_refers hstack rfl (fun a ha => ?_) hheld) hdropped
    exact ⟨a, List.mem_cons_of_mem _ ha, rfl, rfl, rfl⟩
  have hmoved : ∀ {s' : CallbackLane ident Root} {position : Position ident Root},
      s'.owners = p.shared.owners →
      RootHeld ⟨s', p.threads.set i ({ act with position } :: below)⟩ root := by
    intro s' position howners
    refine rootHeld_of_refers hstack howners (fun a ha => ?_) hheld
    rcases List.mem_cons.mp ha with rfl | hin
    · exact ⟨_, List.mem_cons_self, rfl, rfl, rfl⟩
    · exact ⟨a, List.mem_cons_of_mem _ hin, rfl, rfl, rfl⟩
  have hinv' := rootsInv_step h hstep
  cases hrun with
  | moves s' position _ _ howners => exact absurd (hmoved howners) hdropped
  | locks => exact absurd (hmoved rfl) hdropped
  | unlocks => exact absurd (hmoved rfl) hdropped
  | runs borrowed statement rest hposition =>
    -- under the condition nothing is let go of
    have hbody := (h.top _ (List.mem_of_getElem? hstack) act rfl).body borrowed _ hposition
    exact absurd (rootHeld_of_keeps hstack hbody.1 _ hheld) hdropped
  | releases act' hleaving hleaving' =>
    obtain ⟨hfree, huncounted⟩ := Activation.free_of_leaving hleaving
    have houtside := h.outside hstack hfree huncounted
    refine ⟨houtside, houtside.1, fun stack hstack' a ha => ?_⟩
    have hset : (p.threads.set i (act'.toList ++ below))[i]? = some stack := hstack'
    rw [getElem?_set_moved hstack] at hset
    obtain rfl := Option.some.inj hset
    rcases List.mem_append.mp ha with hnow | hin
    · exact (Activation.free_of_leaving (hleaving' a (Option.mem_toList.mp hnow)).1).2
    · exact (Activation.free_of_leaving (h.below _ (List.mem_of_getElem? hstack) a hin).1).2

/-- **Application callback roots are released only outside the lane's lock and borrow.** In every
run of any number of threads, whatever application code does in between, on every path of every
operation: a step that takes the last reference to a root away is taken by a thread that neither
holds the condition nor is counted in `activeCalls`, and leaves it so. Hence an operation that has
to wait, called from a `deinit` or not, waits neither for a condition its own thread holds nor, in
`close`, for a borrow of its own thread. -/
theorem roots_released_outside {p : LanePool ident Root}
    (hp : (callbackRoots ident Root).Reachable p) :
    (∀ i action p' root, (callbackRoots ident Root).step p (i, action) p' → RootHeld p root →
      ¬ RootHeld p' root → Outside p i ∧ Outside p' i) ∧
    (∀ i act below, p.threads[i]? = some (act :: below) → act.proceed i p.shared = none →
      p.shared.condition ≠ some i ∧
        (act.position = .draining ∨ act.position = .waiting → Outside p i)) ∧
    p.shared.activeCalls = (p.threads.countP borrows : Nat) := by
  have h := rootsInv_reachable hp
  refine ⟨fun i action p' root hstep => outside_of_dropped h hstep, ?_, h.counted⟩
  intro i act below hstack hblocked
  constructor
  · -- an operation that has the condition always has a step
    intro hheld
    have hlocked : act.isLocked = true := (h.condition i _ hstack).mp hheld
    obtain ⟨operation, position, holder, retired, locals, calls⟩ := act
    cases position with
    | locked borrowed rest =>
      cases rest with
      | next => cases hblocked
      | ret => cases borrowed <;> cases hblocked
    | _ => cases hlocked
  · rintro (hposition | hposition)
    all_goals
      refine h.outside hstack ?_ ?_
      · rw [Activation.isLocked, hposition]
      · rw [Activation.counted, hposition]

/-- A refused admission, whose holder was the only reference to its root. -/
theorem roots_released_outside_refused :
    ∃ p p' : LanePool (id : Nat → Nat) Nat, (callbackRoots id Nat).step p (0, .proceed) p' ∧
      RootHeld p 7 ∧ ¬ RootHeld p' 7 ∧ Outside p 0 ∧ Outside p' 0 := by
  let refusal : AdmissionAnswers Nat := ⟨.error .closed, .ok 0, fun _ => 0, fun _ => 0⟩
  let start : LanePool (id : Nat → Nat) Nat := ⟨{ owners := ⟨2, .empty, []⟩ }, [[]]⟩
  have hstart : (callbackRoots id Nat).Reachable start := .init ⟨⟨1, _, rfl, rfl⟩, by simp [start]⟩
  obtain ⟨p, hrun, p', hdrop, hheld, hdropped⟩ : ∃ p,
      [(0, ThreadAction.call (.admission 3 7 "stream_lane_subscribe" refusal)), (0, .proceed),
        (0, .proceed), (0, .proceed), (0, .proceed)].foldlM
          (fun p a => p.advance (fun s stack => threadStep a.1 s stack a.2) a.1) start = some p ∧
      ∃ p', (callbackRoots id Nat).step p (0, .proceed) p' ∧ RootHeld p 7 ∧ ¬ RootHeld p' 7 := by
    refine ⟨_, rfl, _, rfl, .inr ⟨_, .head _, _, .head _, rfl⟩, ?_⟩
    rintro (⟨id, -, hroot⟩ | ⟨stack, hstack, act, hact, hholder⟩)
    · cases hroot
    · obtain rfl := List.mem_singleton.mp hstack
      obtain rfl := List.mem_singleton.mp hact
      cases hholder
  have hp : (callbackRoots id Nat).Reachable p :=
    hstart.trans (System.Reaches.foldlM (fun _ _ _ h => h) _ hrun)
  exact ⟨p, p', hdrop, hheld, hdropped,
    (roots_released_outside hp).1 0 .proceed p' 7 hdrop hheld hdropped⟩

end CoAkka.Lane
