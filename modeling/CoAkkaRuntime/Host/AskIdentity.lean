import CoAkkaRuntime.Host.BeginAsk
import CoAkkaRuntime.Text.Numbered

/-!
# Host — the message identities of asks are distinct

An identity is built from a source that the caller chooses and from a number that the counter gives
once. The text of an identity determines its number, so two asks share no identity, whatever their
sources are. The invariant counts where an identity can be: with the caller that is about to build
its request, or with Core.

* `messageID_inj` — the text of an identity determines its number. The separator is no digit, so
  this holds whatever the source is, with separators of its own or not.
* `AskMove`, `askStep_move` — what a step of a caller can do to the counter and to the identities.
* `Identified` — the invariant: the numbers in the log are those up to the counter, each given once,
  and no identity is in two places.
* `ask_identities` — over every interleaving of any number of callers, with a counter that refuses
  to wrap.
-/

namespace CoAkka.Host

open Codec Session Transition Transport

/-! ## The text of an identity -/

section Text

variable {source source' : String} {n n' : UInt64}

/-- A message id is its source, a fixed middle and a number. -/
theorem toList_messageID (source : String) (n : UInt64) :
    (messageID source n).toList
      = (source.toList ++ "-swift".toList) ++ '-' :: Nat.toDigits 10 n.toNat := by
  have hnumber : (toString n).toList = Nat.toDigits 10 n.toNat := Nat.toList_repr
  have hmarker : "-swift-".toList = "-swift".toList ++ ['-'] := by decide
  show (source ++ "-swift-" ++ toString n).toList = _
  rw [String.toList_append, String.toList_append, hnumber, hmarker]
  simp only [List.append_assoc, List.cons_append, List.nil_append]

/-- Whatever stands before it, the number is what follows the last `-`. -/
theorem messageID_inj (h : messageID source n = messageID source' n') : n = n' := by
  have hlist := congrArg String.toList h
  rw [toList_messageID, toList_messageID] at hlist
  exact UInt64.toNat_inj.mp (Text.numbered_inj (by decide) hlist).2

/-- It has no zero byte where its source has none. -/
theorem zero_notMem_messageID (h : 0 ∉ source.toByteArray.data.toList) (n : UInt64) :
    0 ∉ (messageID source n).toByteArray.data.toList := by
  apply Text.zero_notMem_toByteArray
  have hsource := Text.nul_notMem_toList h
  have hdigits : '\x00' ∉ Nat.toDigits 10 n.toNat := Text.notMem_toDigits (by decide) _
  have hmarker : '\x00' ∉ "-swift".toList := by decide
  have hsep : '\x00' ≠ '-' := by decide
  rw [toList_messageID]
  simp only [List.mem_append, List.mem_cons, not_or]
  exact ⟨⟨hsource, hmarker⟩, hsep, hdigits⟩

/-- C reads different identities where the numbers differ. -/
theorem cString_messageID_inj (h : 0 ∉ source.toByteArray.data.toList)
    (h' : 0 ∉ source'.toByteArray.data.toList)
    (heq : cString (messageID source n) = cString (messageID source' n')) : n = n' :=
  messageID_inj (cString_inj (zero_notMem_messageID h n) (zero_notMem_messageID h' n') heq)

end Text

/-! ## Numbers and identities of a log

The numbers that were given, and the identities that Core was handed, are projections of the log.
-/

def AskEvent.number? : AskEvent → Option UInt64
  | .identified number => some number
  | _ => none

def AskEvent.identity? : AskEvent → Option CString
  | .buildRawRequest spec => some spec.messageID
  | _ => none

/-- The numbers that the counter gave, in the order of the lock. -/
def numbers (log : List AskEvent) : List UInt64 := log.filterMap (·.number?)

/-- The identities handed to Core. -/
def handed (log : List AskEvent) : List CString := log.filterMap (·.identity?)

theorem numbers_append (log events : List AskEvent) :
    numbers (log ++ events) = numbers log ++ numbers events := List.filterMap_append

theorem handed_append (log events : List AskEvent) :
    handed (log ++ events) = handed log ++ handed events := List.filterMap_append

/-- The identity that a caller is about to hand over. -/
def AskPc.pending : AskPc → Option CString
  | .building _ id => some (cString id)
  | _ => none

/-- Where a caller neither waits for the lock nor has an identity to hand over. -/
def AskPc.quiet : AskPc → Bool
  | .idle | .beginning .. | .releasing .. => true
  | _ => false

/-- An event that neither gives a number nor hands over an identity. -/
def AskEvent.silent : AskEvent → Bool
  | .bytesRelease _ | .returned _ => true
  | _ => false

/-- Events that neither draw a number nor hand out an id leave the numbers. -/
theorem numbers_silent {events : List AskEvent} (h : ∀ e ∈ events, e.silent) :
    numbers events = [] := by
  apply List.filterMap_eq_nil_iff.mpr
  intro e he
  have hsilent := h e he
  cases e <;> first | rfl | cases hsilent

/-- And the ids that were handed out. -/
theorem handed_silent {events : List AskEvent} (h : ∀ e ∈ events, e.silent) :
    handed events = [] := by
  apply List.filterMap_eq_nil_iff.mpr
  intro e he
  have hsilent := h e he
  cases e <;> first | rfl | cases hsilent

/-! ## What a step does -/

/-- What a step of a caller does to the counter and to the log. -/
inductive AskMove (s s' : AskState) : AskPc → AskPc → Prop where
  | entered (ask : AskArguments) (hvalid : ask.validate = .ok ()) (hnext : s'.nextID = s.nextID)
      (hlog : s'.log = s.log) : AskMove s s' .idle (.locking ask)
  | identified (ask : AskArguments) (hlt : s.nextID.toNat < 2 ^ 64 - 1)
      (hnext : s'.nextID.toNat = s.nextID.toNat + 1)
      (hlog : s'.log = s.log ++ [.identified s'.nextID]) :
      AskMove s s' (.locking ask) (.building ask (messageID ask.source s'.nextID))
  | exhausted (ask : AskArguments) (hmax : s.nextID.toNat = 2 ^ 64 - 1)
      (hnext : s'.nextID = s.nextID)
      (hlog : s'.log = s.log ++
        [.returned (.error (.resourceLimit "message identity space exhausted"))]) :
      AskMove s s' (.locking ask) .idle
  | handed (ask : AskArguments) (id : String) {pc' : AskPc} (hquiet : pc'.quiet)
      (hnext : s'.nextID = s.nextID)
      (hlog : s'.log = s.log ++ [.buildRawRequest (ask.spec id)]) :
      AskMove s s' (.building ask id) pc'
  | other {pc pc' : AskPc} (events : List AskEvent) (hpc : pc.quiet) (hquiet : pc'.quiet)
      (hnext : s'.nextID = s.nextID) (hsilent : ∀ e ∈ events, e.silent)
      (hlog : s'.log = s.log ++ events) : AskMove s s' pc pc'

/-- The section under `clientLock`: the addition does not overflow behind its guard. -/
theorem identify_eq (source : String) (s : AskState) :
    identify source s = if s.nextID.toNat < 2 ^ 64 - 1 then
      (.ok (messageID source (s.nextID + 1)),
        { s with nextID := s.nextID + 1 }.logged [.identified (s.nextID + 1)])
    else (.error (.thrown (.resourceLimit "message identity space exhausted")), s) := by
  have hguard : s.nextID < UInt64.ofNat (2 ^ 64 - 1) ↔ s.nextID.toNat < 2 ^ 64 - 1 :=
    UInt64.lt_iff_toNat_lt
  unfold identify
  by_cases hlt : s.nextID.toNat < 2 ^ 64 - 1
  · have hadd : checkedAdd s.nextID 1 = .ok (s.nextID + 1) := by
      have hone : (1 : UInt64).toNat = 1 := rfl
      unfold checkedAdd
      rw [if_pos (by omega)]
    rw [if_pos hlt, if_pos (hguard.mpr hlt), hadd]
  · rw [if_neg hlt, if_neg (mt hguard.mp hlt)]

/-- The counter does not wrap below its maximum. -/
theorem toNat_succ {n : UInt64} (h : n.toNat < 2 ^ 64 - 1) : (n + 1).toNat = n.toNat + 1 := by
  rw [UInt64.toNat_add]
  show (n.toNat + 1) % 2 ^ 64 = _
  omega

/-- Every step of an ask is one of the moves. -/
theorem askStep_move {s s' : AskState} {pc pc' : AskPc} {action : AskAction}
    (h : askStep s pc action = some (s', pc')) : AskMove s s' pc pc' := by
  cases pc with
  | idle =>
    cases action with
    | ask ask =>
      simp only [askStep] at h
      split at h
      · obtain ⟨rfl, rfl⟩ := Prod.mk.inj (Option.some.inj h)
        exact .other _ rfl rfl rfl (by simp [AskEvent.silent]) rfl
      · next hvalid =>
        obtain ⟨rfl, rfl⟩ := Prod.mk.inj (Option.some.inj h)
        exact .entered ask hvalid rfl rfl
    | _ => cases h
  | locking ask =>
    cases action with
    | lock =>
      simp only [askStep, identify_eq] at h
      -- the checked addition: a number, or the refusal with the counter at its maximum
      by_cases hlt : s.nextID.toNat < 2 ^ 64 - 1
      · rw [if_pos hlt] at h
        obtain ⟨rfl, rfl⟩ := Prod.mk.inj (Option.some.inj h)
        exact .identified ask hlt (toNat_succ hlt) rfl
      · rw [if_neg hlt] at h
        obtain ⟨rfl, rfl⟩ := Prod.mk.inj (Option.some.inj h)
        have hmax : s.nextID.toNat = 2 ^ 64 - 1 := by
          have := s.nextID.toNat_lt
          omega
        exact .exhausted ask hmax rfl rfl
    | _ => cases h
  | building ask id =>
    cases action with
    | build answer =>
      simp only [askStep] at h
      split at h
      all_goals
        obtain ⟨rfl, rfl⟩ := Prod.mk.inj (Option.some.inj h)
        exact .handed ask id rfl rfl rfl
    | _ => cases h
  | beginning id wire =>
    cases action with
    | begin caller answer call =>
      obtain ⟨session, -, heq⟩ := Option.map_eq_some_iff.mp h
      obtain ⟨rfl, rfl⟩ := Prod.mk.inj heq
      exact .other [] rfl rfl rfl (by simp) (List.append_nil _).symm
    | _ => cases h
  | releasing wire outcome =>
    cases action with
    | release =>
      obtain ⟨rfl, rfl⟩ := Prod.mk.inj (Option.some.inj h)
      exact .other _ rfl rfl rfl (by simp [AskEvent.silent]) rfl
    | _ => cases h
  | trapped => cases action <;> cases h

/-! ## The invariant

An identity is in one place: with the caller that builds its request, or with Core.
-/

/-- `id` is the identity of `ask`, under a number that the counter gave. -/
def Given (log : List AskEvent) (ask : AskArguments) (id : String) : Prop :=
  0 ∉ ask.source.toByteArray.data.toList ∧ ∃ n ∈ numbers log, id = messageID ask.source n

/-- An id that was given stays given. -/
theorem Given.append {log : List AskEvent} {ask : AskArguments} {id : String}
    (h : Given log ask id) (events : List AskEvent) : Given (log ++ events) ask id := by
  obtain ⟨hsource, n, hn, hid⟩ := h
  refine ⟨hsource, n, ?_, hid⟩
  rw [numbers_append]
  exact List.mem_append_left _ hn

/-- The places where `c` is: callers about to build its request, and Core. -/
def places (p : Pool AskState AskPc) (c : CString) : Nat :=
  p.threads.countP (·.pending = some c) + (handed p.shared.log).count c

structure Identified (p : Pool AskState AskPc) : Prop where
  /-- The counter gave every number up to its value once, in order. -/
  counted : (numbers p.shared.log).map UInt64.toNat = List.range' 1 p.shared.nextID.toNat
  valid : ∀ ask, .locking ask ∈ p.threads → 0 ∉ ask.source.toByteArray.data.toList
  pending : ∀ ask id, .building ask id ∈ p.threads → Given p.shared.log ask id
  built : ∀ spec, .buildRawRequest spec ∈ p.shared.log →
    ∃ ask id, spec = ask.spec id ∧ Given p.shared.log ask id
  once : ∀ c, places p c ≤ 1
  alive : .trapped ∉ p.threads

/-- A validated source has no zero byte. -/
theorem zero_notMem_source {ask : AskArguments} (h : ask.validate = .ok ()) :
    0 ∉ ask.source.toByteArray.data.toList := by
  unfold AskArguments.validate at h
  cases hsource : validateCString ask.source "source" with
  | error error =>
    rw [hsource] at h
    cases h
  | ok => exact (validateCString_eq_ok_iff.mp hsource).1

/-- Only an ask that is building its request has an id pending. -/
theorem mem_building_of_pending {pc : AskPc} {c : CString} (h : pc.pending = some c) :
    ∃ ask id, pc = .building ask id ∧ cString id = c := by
  cases pc with
  | building ask id => exact ⟨ask, id, rfl, Option.some.inj h⟩
  | _ => cases h

/-- An id that was handed out is that of a request that was built. -/
theorem mem_handed {log : List AskEvent} {c : CString} (h : c ∈ handed log) :
    ∃ spec, .buildRawRequest spec ∈ log ∧ spec.messageID = c := by
  obtain ⟨e, he, hidentity⟩ := List.mem_filterMap.mp h
  cases e with
  | buildRawRequest spec => exact ⟨spec, he, Option.some.inj hidentity⟩
  | _ => cases hidentity

namespace Identified

variable {p : Pool AskState AskPc} {i : Nat} {s' : AskState} {pc pc' : AskPc}

/-- No number was drawn that the counter has not reached. -/
theorem number_le (h : Identified p) {n : UInt64} (hn : n ∈ numbers p.shared.log) :
    n.toNat ≤ p.shared.nextID.toNat := by
  have hmem := List.mem_map_of_mem (f := UInt64.toNat) hn
  rw [h.counted, List.mem_range'_1] at hmem
  omega

/-- An identity with a number that the counter has not given is nowhere. -/
theorem places_eq_zero (h : Identified p) {source : String} (n : UInt64)
    (hsource : 0 ∉ source.toByteArray.data.toList) (hn : p.shared.nextID.toNat < n.toNat) :
    places p (cString (messageID source n)) = 0 := by
  have hnew : ∀ ask id, Given p.shared.log ask id → cString id ≠ cString (messageID source n) := by
    rintro ask _ ⟨hask, m, hm, rfl⟩ heq
    have hle := h.number_le hm
    rw [cString_messageID_inj hask hsource heq] at hle
    omega
  have hthreads : p.threads.countP (·.pending = some (cString (messageID source n))) = 0 := by
    apply List.countP_eq_zero.mpr
    intro pc hpc hpending
    obtain ⟨ask, id, rfl, hid⟩ := mem_building_of_pending (of_decide_eq_true hpending)
    exact hnew ask id (h.pending ask id hpc) hid
  have hcore : (handed p.shared.log).count (cString (messageID source n)) = 0 := by
    apply List.count_eq_zero.mpr
    intro hmem
    obtain ⟨spec, hspec, hid⟩ := mem_handed hmem
    obtain ⟨ask, id, rfl, hgiven⟩ := h.built spec hspec
    exact hnew ask id hgiven hid
  unfold places
  omega

/-- What a step has to show: of the counter, of the caller's new position, and of the events. -/
theorem of_set (h : Identified p) {events : List AskEvent}
    (hlog : s'.log = p.shared.log ++ events)
    (hcounted : (numbers s'.log).map UInt64.toNat = List.range' 1 s'.nextID.toNat)
    (hvalid : ∀ ask, pc' = .locking ask → 0 ∉ ask.source.toByteArray.data.toList)
    (hpending : ∀ ask id, pc' = .building ask id → Given s'.log ask id)
    (hbuilt : ∀ spec, .buildRawRequest spec ∈ events → ∃ ask id, spec = ask.spec id ∧
      Given p.shared.log ask id)
    (honce : ∀ c, places ⟨s', p.threads.set i pc'⟩ c ≤ 1) (halive : pc' ≠ .trapped) :
    Identified ⟨s', p.threads.set i pc'⟩ where
  counted := hcounted
  valid ask hmem := by
    rcases List.mem_or_eq_of_mem_set hmem with hold | hnew
    · exact h.valid ask hold
    · exact hvalid ask hnew.symm
  pending ask id hmem := by
    rcases List.mem_or_eq_of_mem_set hmem with hold | hnew
    · rw [hlog]
      exact (h.pending ask id hold).append events
    · exact hpending ask id hnew.symm
  built spec hmem := by
    simp only [hlog, List.mem_append] at hmem ⊢
    obtain ⟨ask, id, hspec, hgiven⟩ := hmem.elim (h.built spec) (hbuilt spec)
    exact ⟨ask, id, hspec, hgiven.append events⟩
  once := honce
  alive hmem := by
    rcases List.mem_or_eq_of_mem_set hmem with hold | hnew
    · exact h.alive hold
    · exact halive hnew.symm

/-- How one move changes the places of an id: in the hand of an ask, and handed out. -/
theorem places_set (hpc : p.threads[i]? = some pc) (s' : AskState) (pc' : AskPc) (c : CString) :
    places ⟨s', p.threads.set i pc'⟩ c + (if pc.pending = some c then 1 else 0)
        + (handed p.shared.log).count c
      = places p c + (if pc'.pending = some c then 1 else 0) + (handed s'.log).count c := by
  have hthreads := countP_set hpc pc' (fun pc => pc.pending = some c)
  simp only [decide_eq_true_eq] at hthreads
  simp only [places]
  omega

theorem pending_of_quiet {pc : AskPc} (h : pc.quiet) : pc.pending = none := by
  cases pc <;> first | rfl | cases h

/-- A step that neither gives a number nor moves an identity. -/
theorem quiet_move (h : Identified p) (hpc : p.threads[i]? = some pc) (hold : pc.pending = none)
    (hnew : pc'.pending = none) (events : List AskEvent) (hsilent : ∀ e ∈ events, e.silent)
    (hlog : s'.log = p.shared.log ++ events) (hnext : s'.nextID = p.shared.nextID)
    (hvalid : ∀ ask, pc' = .locking ask → 0 ∉ ask.source.toByteArray.data.toList)
    (halive : pc' ≠ .trapped) : Identified ⟨s', p.threads.set i pc'⟩ := by
  refine h.of_set hlog ?_ hvalid ?_ ?_ ?_ halive
  · rw [hlog, numbers_append, numbers_silent hsilent, List.append_nil, hnext]
    exact h.counted
  · rintro ask id rfl
    cases hnew
  · intro spec hspec
    have := hsilent _ hspec
    cases this
  · intro c
    have hplaces := places_set hpc s' pc' c
    rw [hlog, handed_append, handed_silent hsilent, List.append_nil, hold, hnew] at hplaces
    have := h.once c
    omega

/-- The section under `clientLock` gives a number to a caller. -/
theorem identified_move (h : Identified p) {ask : AskArguments}
    (hpc : p.threads[i]? = some (.locking ask))
    (hnext : s'.nextID.toNat = p.shared.nextID.toNat + 1)
    (hlog : s'.log = p.shared.log ++ [.identified s'.nextID]) :
    Identified ⟨s', p.threads.set i (.building ask (messageID ask.source s'.nextID))⟩ := by
  have hsource := h.valid ask (List.mem_of_getElem? hpc)
  -- the number that is given is the next one
  have hnumbers : numbers s'.log = numbers p.shared.log ++ [s'.nextID] := by
    rw [hlog, numbers_append]
    rfl
  refine h.of_set hlog ?_ (by simp) ?_ (by simp) ?_ (by simp)
  · rw [hnumbers, List.map_append, h.counted, hnext, List.range'_concat]
    simp [hnext, Nat.add_comm]
  · rintro _ _ ⟨⟩
    exact ⟨hsource, s'.nextID, by simp [hnumbers], rfl⟩
  · intro c
    have hplaces := places_set hpc s' (.building ask (messageID ask.source s'.nextID)) c
    have hhanded : handed s'.log = handed p.shared.log := by
      rw [hlog, handed_append]
      exact List.append_nil _
    rw [hhanded] at hplaces
    by_cases hc : cString (messageID ask.source s'.nextID) = c
    · -- the new identity was nowhere
      have hzero := h.places_eq_zero s'.nextID hsource (by omega)
      rw [hc] at hzero
      simp only [AskPc.pending, hc] at hplaces
      simp at hplaces
      omega
    · have := h.once c
      simp only [AskPc.pending, Option.some.injEq, hc, if_false] at hplaces
      simp at hplaces
      omega

/-- The build hands a caller's identity to Core. -/
theorem handed_move (h : Identified p) {ask : AskArguments} {id : String}
    (hpc : p.threads[i]? = some (.building ask id)) (hquiet : pc'.quiet)
    (hnext : s'.nextID = p.shared.nextID)
    (hlog : s'.log = p.shared.log ++ [.buildRawRequest (ask.spec id)]) :
    Identified ⟨s', p.threads.set i pc'⟩ := by
  have hgiven := h.pending ask id (List.mem_of_getElem? hpc)
  refine h.of_set hlog ?_ ?_ ?_ ?_ ?_ ?_
  · rw [hlog, numbers_append, hnext]
    exact (congrArg _ (List.append_nil _)).trans h.counted
  · rintro ask rfl
    cases hquiet
  · rintro ask id rfl
    cases hquiet
  · intro spec hspec
    rw [List.mem_singleton] at hspec
    obtain rfl := AskEvent.buildRawRequest.inj hspec
    exact ⟨ask, id, rfl, hgiven⟩
  · intro c
    -- the identity leaves the caller for Core
    have hplaces := places_set hpc s' pc' c
    have hhanded : handed s'.log = handed p.shared.log ++ [cString id] := by
      rw [hlog, handed_append]
      rfl
    rw [hhanded, List.count_append, List.count_singleton, pending_of_quiet hquiet] at hplaces
    have := h.once c
    simp only [AskPc.pending, Option.some.injEq, beq_iff_eq] at hplaces
    simp at hplaces
    omega
  · rintro rfl
    cases hquiet

/-- **One move keeps the ids apart.** A new id has a new number, and a number has one place. -/
theorem move (h : Identified p) (hpc : p.threads[i]? = some pc)
    (hmove : AskMove p.shared s' pc pc') : Identified ⟨s', p.threads.set i pc'⟩ := by
  cases hmove with
  | entered ask hvalid hnext hlog =>
    refine h.quiet_move hpc rfl rfl [] (by simp) (by simpa using hlog) hnext ?_ (by simp)
    rintro _ ⟨⟩
    exact zero_notMem_source hvalid
  | exhausted ask hmax hnext hlog =>
    exact h.quiet_move hpc rfl rfl _ (by simp [AskEvent.silent]) hlog hnext (by simp) (by simp)
  | other events hquiet hquiet' hnext hsilent hlog =>
    refine h.quiet_move hpc (pending_of_quiet hquiet) (pending_of_quiet hquiet') events hsilent hlog
      hnext ?_ ?_
    · rintro ask rfl
      cases hquiet'
    · rintro rfl
      cases hquiet'
  | identified ask hlt hnext hlog => exact h.identified_move hpc hnext hlog
  | handed ask id hquiet hnext hlog => exact h.handed_move hpc hquiet hnext hlog

end Identified

/-- A step of a caller moves its thread alone. -/
theorem caller_moves {p p' : Pool AskState AskPc} {i : Nat} {action : AskAction}
    (h : hostAskStep p (.caller i action) = some p') :
    ∃ pc s' pc', p.threads[i]? = some pc ∧ askStep p.shared pc action = some (s', pc') ∧
      p' = ⟨s', p.threads.set i pc'⟩ := by
  unfold hostAskStep at h
  exact Pool.advance_eq_some h

/-- A move of a thread is a step of its caller. -/
theorem caller_step {p : Pool AskState AskPc} {i : Nat} {action : AskAction} {s' : AskState}
    {pc pc' : AskPc} (hpc : p.threads[i]? = some pc)
    (hnext : askStep p.shared pc action = some (s', pc')) :
    hostAskStep p (.caller i action) = some ⟨s', p.threads.set i pc'⟩ := by
  unfold hostAskStep
  exact Pool.advance_of_next hpc hnext

theorem identified_init {p : Pool AskState AskPc} (h : askSystem.init p) : Identified p := by
  obtain ⟨shared, threads⟩ := p
  obtain ⟨⟨session, -, rfl⟩, hidle⟩ := h
  refine ⟨rfl, ?_, ?_, ?_, ?_, ?_⟩
  · intro ask hmem
    cases hidle _ hmem
  · intro ask id hmem
    cases hidle _ hmem
  · intro spec hmem
    cases hmem
  · intro c
    have hnone : threads.countP (·.pending = some c) = 0 := by
      apply List.countP_eq_zero.mpr
      intro pc hpc
      rw [hidle pc hpc]
      simp [AskPc.pending]
    simp only [places]
    rw [hnone]
    exact Nat.zero_le 1
  · intro hmem
    cases hidle _ hmem

/-- The ids are apart in every reachable state. -/
theorem identified_of_reachable {p : Pool AskState AskPc} (hp : askSystem.Reachable p) :
    Identified p := by
  refine System.Reachable.invariant (I := Identified) (fun _ => identified_init) ?_ hp
  intro p a p' _ h hstep
  cases a with
  | caller i action =>
    obtain ⟨pc, s', pc', hpc, hnext, rfl⟩ := caller_moves hstep
    exact h.move hpc (askStep_move hnext)
  | session action =>
    -- the session does not touch the counter, the callers of `beginAsk` or their log
    obtain ⟨session, -, rfl⟩ := Option.map_eq_some_iff.mp hstep
    exact ⟨h.counted, h.valid, h.pending, h.built, h.once, h.alive⟩

/-! ## The identities of a host -/

/-- What the section under `clientLock` does for a caller that waits for it. -/
structure Locks (p : Pool AskState AskPc) (i : Nat) (ask : AskArguments)
    (p' : Pool AskState AskPc) : Prop where
  /-- The counter grows by one, without a wrap, and the caller goes on with its identity. -/
  counts : p.shared.nextID.toNat < 2 ^ 64 - 1 →
    p'.shared.nextID.toNat = p.shared.nextID.toNat + 1 ∧
    p'.shared.log = p.shared.log ++ [.identified p'.shared.nextID] ∧
    p'.threads = p.threads.set i (.building ask (messageID ask.source p'.shared.nextID))
  /-- At the last value the ask is refused, and the counter stays. -/
  refuses : p.shared.nextID.toNat = 2 ^ 64 - 1 →
    p'.shared.nextID = p.shared.nextID ∧
    p'.shared.log = p.shared.log ++
      [.returned (.error (.resourceLimit "message identity space exhausted"))] ∧
    p'.threads = p.threads.set i .idle

/-- The message identities in a state of a host. -/
structure AskIdentities (p : Pool AskState AskPc) : Prop where
  /-- No two requests handed to Core have the same identity. -/
  distinct : (handed p.shared.log).Nodup
  /-- An identity reaches Core as the text of the source and of a number that the counter gave. -/
  text : ∀ spec, .buildRawRequest spec ∈ p.shared.log → ∃ source n,
    spec.source.bytes = source.toByteArray.data.toList ∧
    spec.messageID.bytes = (messageID source n).toByteArray.data.toList ∧
    .identified n ∈ p.shared.log
  increasing : (numbers p.shared.log).Pairwise (· < ·)
  lock : ∀ i ask, p.threads[i]? = some (.locking ask) →
    ∃ p', hostAskStep p (.caller i .lock) = some p' ∧ Locks p i ask p'
  /-- Only the section under the lock moves the counter. -/
  others : ∀ a p', hostAskStep p a = some p' → p'.shared.nextID ≠ p.shared.nextID →
    ∃ i ask, a = .caller i .lock ∧ p.threads[i]? = some (.locking ask)
  alive : .trapped ∉ p.threads

/-- An ask that waits for its number can draw one. -/
theorem lock_enabled {p : Pool AskState AskPc} {i : Nat} {ask : AskArguments}
    (hpc : p.threads[i]? = some (.locking ask)) :
    ∃ p', hostAskStep p (.caller i .lock) = some p' ∧ Locks p i ask p' := by
  by_cases hlt : p.shared.nextID.toNat < 2 ^ 64 - 1
  · have hnext : askStep p.shared (.locking ask) .lock
        = some ({ p.shared with nextID := p.shared.nextID + 1 }.logged
            [.identified (p.shared.nextID + 1)],
          .building ask (messageID ask.source (p.shared.nextID + 1))) := by
      simp only [askStep, identify_eq, if_pos hlt]
    refine ⟨_, caller_step hpc hnext, fun _ => ⟨toNat_succ hlt, rfl, rfl⟩, ?_⟩
    intro hmax
    omega
  · have hnext : askStep p.shared (.locking ask) .lock
        = some (p.shared.logged
            [.returned (.error (.resourceLimit "message identity space exhausted"))], .idle) := by
      simp only [askStep, identify_eq, if_neg hlt]
    exact ⟨_, caller_step hpc hnext, fun hlt' => absurd hlt' hlt, fun _ => ⟨rfl, rfl, rfl⟩⟩

/-- **Identities never repeat.** In every state of every run the identities handed to Core, each the
text of a source and of a number, are distinct; the numbers grow in the order of the lock; and at the
last number an ask is refused, without a trap or a wrap. -/
theorem ask_identities {p : Pool AskState AskPc} (hp : askSystem.Reachable p) :
    AskIdentities p := by
  have h := identified_of_reachable hp
  constructor
  · apply List.nodup_iff_count_le_one.mpr
    intro c
    have := h.once c
    unfold places at this
    omega
  · intro spec hspec
    obtain ⟨ask, id, rfl, hsource, n, hn, rfl⟩ := h.built spec hspec
    obtain ⟨e, he, hnumber⟩ := List.mem_filterMap.mp hn
    refine ⟨ask.source, n, bytes_cString hsource, bytes_cString (zero_notMem_messageID hsource n),
      ?_⟩
    cases e with
    | identified m =>
      obtain rfl := Option.some.inj hnumber
      exact he
    | _ => cases hnumber
  · -- the numbers of the log are 1, 2, … up to the counter
    have hlt : ((numbers p.shared.log).map UInt64.toNat).Pairwise (· < ·) := by
      rw [h.counted]
      exact List.pairwise_lt_range'
    exact (List.pairwise_map.mp hlt).imp UInt64.lt_iff_toNat_lt.mpr
  · exact fun i ask hpc => lock_enabled hpc
  · -- only the section under the lock moves the counter
    intro a p' hstep hmoved
    cases a with
    | session action =>
      obtain ⟨session, -, rfl⟩ := Option.map_eq_some_iff.mp hstep
      exact absurd rfl hmoved
    | caller i action =>
      obtain ⟨pc, s', pc', hpc, hnext, rfl⟩ := caller_moves hstep
      cases askStep_move hnext with
      | identified ask _ _ _ =>
        cases action with
        | lock => exact ⟨i, ask, rfl, hpc⟩
        | _ => cases hnext
      | entered _ _ hsame _ => exact absurd hsame hmoved
      | exhausted _ _ hsame _ => exact absurd hsame hmoved
      | handed _ _ _ hsame _ => exact absurd hsame hmoved
      | other _ _ _ hsame _ _ => exact absurd hsame hmoved
  · exact h.alive

/-- Two asks: the text of the one source is the beginning of the identities of the other. -/
theorem ask_identities_colliding :
    ∃ p, askSystem.Reachable p ∧ AskIdentities p ∧ handed p.shared.log =
      [cString "a-swift-1-swift-2", cString "a-swift-1"] := by
  let start : Pool AskState AskPc := ⟨{ session := ⟨{}, []⟩ }, [.idle, .idle]⟩
  have hstart : askSystem.Reachable start :=
    .init ⟨⟨⟨{}, []⟩, ⟨rfl, by simp⟩, rfl⟩, by simp [start]⟩
  let first : AskArguments := ⟨"a", "t", .empty, 5000, .routerDefault⟩
  let second : AskArguments := ⟨"a-swift-1", "t", .empty, 5000, .requireLocal⟩
  have hlog : ([HostAskAction.caller 0 (.ask first), .caller 1 (.ask second), .caller 0 .lock,
      .caller 1 .lock, .caller 1 (.build ⟨Status.invalidArg, none, 0⟩), .caller 1 .release,
      .caller 0 (.build ⟨Status.ok, some 64, 9⟩)].foldlM hostAskStep start).map
        (fun p => handed p.shared.log)
      = some [cString "a-swift-1-swift-2", cString "a-swift-1"] := by decide +kernel
  obtain ⟨p, hrun, hhanded⟩ := Option.map_eq_some_iff.mp hlog
  have hp : askSystem.Reachable p :=
    hstart.trans (System.Reaches.foldlM (fun _ _ _ h => h) _ hrun)
  exact ⟨p, hp, ask_identities hp, hhanded⟩

end CoAkka.Host
