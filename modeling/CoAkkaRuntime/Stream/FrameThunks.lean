import CoAkkaRuntime.Models

/-!
# Stream — the callbacks of a session

The two C functions that Core calls for a session (`StreamLane.swift`). `streamSourceThunk` lets the
closure of a publisher fill Core's storage and reports the frame; `streamConsumerThunk` shows the
closure of a subscriber one frame. A closure is a function over a state of its own; a pointer that
may be null is an `Option`.

* `streamSourceThunk` — the closure's `Data` copied into Core's buffer, within its bounds.
* `streamConsumerThunk` — the bytes that Core delivers, as the closure gets them.
* `streamSourceThunk_answer` — the status that each answer of the closure becomes.
-/

namespace CoAkka.Stream

/-! ## Frames -/

/-- `coakka_v2_stream_frame_t`, less its `struct_size`. -/
structure StreamFrame where
  sequence : UInt64
  capturedMonoNs : UInt64
  droppedBefore : UInt64
  flags : UInt32
  size : Int
  deriving DecidableEq, Repr

inductive StreamSourceResult where
  | frame (size : Int) (capturedMonoNs droppedBefore : UInt64) (flags : UInt32)
  | wouldBlock
  | «end»
  deriving DecidableEq, Repr

inductive StreamConsumerDecision where
  | «continue»
  | stop
  deriving DecidableEq, Repr

structure StreamFrameMetadata where
  sequence : UInt64
  capturedMonoNs : UInt64
  droppedBefore : UInt64
  flags : UInt32
  deriving DecidableEq, Repr

/-- A source with its captured state. It may write the buffer, but not change its length. -/
structure StreamSource (σ : Type) where
  callback : σ → List UInt8 → StreamSourceResult × List UInt8 × σ
  length_eq : ∀ s buffer, (callback s buffer).2.1.length = buffer.length

abbrev StreamConsumer (τ : Type) :=
  τ → List UInt8 → StreamFrameMetadata → StreamConsumerDecision × τ

/-! ## `streamSourceThunk`

The thunk checks its pointers and the size that the closure claims, and writes the frame only
where both are right.
-/

/-- What a call of the thunk works on: the state of the closure, and Core's storage. -/
structure SourceCall (σ : Type) where
  state : σ
  destination : Option (List UInt8)
  out : Option StreamFrame

section Source

variable {σ : Type}

def streamSourceThunk (context : Option (StreamSource σ)) (capacity : Int) (call : SourceCall σ) :
    Int32 × SourceCall σ :=
  match context, call.destination, call.out with
  | some holder, some destination, some out =>
    if 0 < capacity then
      let (result, written, state) := holder.callback call.state (destination.take capacity.toNat)
      -- the closure sees no more of the storage than its capacity
      let call := { call with
        state, destination := some (written ++ destination.drop capacity.toNat) }
      match result with
      | .wouldBlock => (Status.wouldBlock, call)
      | .end => (Status.closed, call)
      | .frame size captured dropped flags =>
        if 0 < size ∧ size ≤ capacity then
          (Status.ok, { call with
            out := some { out with
              capturedMonoNs := captured, droppedBefore := dropped, flags, size } })
        else (Status.invalidArg, call)
    else (Status.invalidArg, call)
  | _, _, _ => (Status.invalidArg, call)

/-- The frame that Core finds behind a call that succeeded. -/
def SourceCall.frame (call : SourceCall σ) : Option (List UInt8 × StreamFrame) := do
  let destination ← call.destination
  let out ← call.out
  return (destination.take out.size.toNat, out)

end Source

/-! ## `streamConsumerThunk` -/

section Consumer

variable {τ : Type}

def streamConsumerThunk (context : Option (StreamConsumer τ)) (data : Option (List UInt8))
    (frame : Option StreamFrame) (state : τ) : Int32 × τ :=
  match context, data, frame with
  | some holder, some data, some frame =>
    if 0 < frame.size then
      let metadata : StreamFrameMetadata :=
        ⟨frame.sequence, frame.capturedMonoNs, frame.droppedBefore, frame.flags⟩
      let (decision, state) := holder state (data.take frame.size.toNat) metadata
      (if decision = .continue then Status.ok else Status.closed, state)
    else (Status.invalidArg, state)
  | _, _, _ => (Status.invalidArg, state)

end Consumer

/-! ## What a call may do -/

/-- A frame as a source means it: its bytes, and what it says about them. -/
structure StreamItem where
  data : List UInt8
  capturedMonoNs : UInt64
  droppedBefore : UInt64
  flags : UInt32
  deriving DecidableEq, Repr

/-- The item under the number that Core gives it. -/
def StreamItem.frame (item : StreamItem) (sequence : UInt64) : StreamFrame :=
  ⟨sequence, item.capturedMonoNs, item.droppedBefore, item.flags, item.data.length⟩

def StreamItem.metadata (item : StreamItem) (sequence : UInt64) : StreamFrameMetadata :=
  ⟨sequence, item.capturedMonoNs, item.droppedBefore, item.flags⟩

section Outcomes

variable {σ τ : Type}

/-- What the closure hands over in a buffer, if the size it reports is one of the buffer's. -/
def StreamSource.item (source : StreamSource σ) (s : σ) (buffer : List UInt8) : Option StreamItem :=
  match source.callback s buffer with
  | (.frame size captured dropped flags, written, _) =>
    if 0 < size ∧ size ≤ buffer.length then
      some ⟨written.take size.toNat, captured, dropped, flags⟩
    else none
  | _ => none

/-- The state of the closure behind a call. -/
def StreamSource.next (source : StreamSource σ) (s : σ) (buffer : List UInt8) : σ :=
  (source.callback s buffer).2.2

/-- An item is not empty, and fits the buffer. -/
theorem StreamSource.length_item {source : StreamSource σ} {s : σ} {buffer : List UInt8}
    {item : StreamItem} (h : source.item s buffer = some item) :
    0 < item.data.length ∧ item.data.length ≤ buffer.length := by
  have hlength := source.length_eq s buffer
  unfold StreamSource.item at h
  split at h
  · next size captured dropped flags written state hcall =>
    rw [hcall] at hlength
    rw [Option.ite_none_right_eq_some, Option.some.injEq] at h
    obtain ⟨⟨hpos, hle⟩, rfl⟩ := h
    rw [List.length_take]
    simp only at hlength
    omega
  · simp at h

/-- What a result says to Core about storage of that capacity. -/
def StreamSourceResult.status (capacity : Nat) : StreamSourceResult → Int32
  | .frame size _ _ _ => if 0 < size ∧ size ≤ capacity then Status.ok else Status.invalidArg
  | .wouldBlock => Status.wouldBlock
  | .end => Status.closed

/-- The status of a call: the closure is not asked where there is no storage. -/
def StreamSource.status (source : StreamSource σ) (s : σ) (storage : List UInt8) : Int32 :=
  if storage = [] then Status.invalidArg else (source.callback s storage).1.status storage.length

def StreamSource.after (source : StreamSource σ) (s : σ) (storage : List UInt8) : σ :=
  if storage = [] then s else source.next s storage

/-- No item fits into no storage. -/
theorem StreamSource.item_nil (source : StreamSource σ) (s : σ) : source.item s [] = none := by
  rw [Option.eq_none_iff_forall_not_mem]
  intro item hitem
  have hlength := StreamSource.length_item hitem
  simp only [List.length_nil] at hlength
  omega

/-- What a call leaves, in terms of the closure alone. -/
structure SourceAnswer (source : StreamSource σ) (s : σ) (storage : List UInt8) (out : StreamFrame)
    (answer : Int32 × SourceCall σ) : Prop where
  status : answer.1 = source.status s storage
  state : answer.2.state = source.after s storage
  /-- A frame is found exactly where the closure handed over an item. -/
  frame : (if answer.1 = Status.ok then answer.2.frame else none)
    = (source.item s storage).map fun item => (item.data, item.frame out.sequence)
  /-- Core's metadata is touched on success only. -/
  out : answer.1 ≠ Status.ok → answer.2.out = some out

/-- **One call of the source.** -/
theorem streamSourceThunk_answer (source : StreamSource σ) (s : σ) (storage : List UInt8)
    (out : StreamFrame) : SourceAnswer source s storage out
      (streamSourceThunk (some source) storage.length ⟨s, some storage, some out⟩) := by
  have hblock : Status.wouldBlock ≠ Status.ok := by decide
  have hclosed : Status.closed ≠ Status.ok := by decide
  have hinvalid : Status.invalidArg ≠ Status.ok := by decide
  by_cases hne : storage = []
  · -- no storage: refused without asking the closure
    subst hne
    refine ⟨rfl, rfl, ?_, fun _ => rfl⟩
    rw [source.item_nil]
    exact if_neg hinvalid
  have hlength := source.length_eq s storage
  rcases hcall : source.callback s storage with ⟨result, written, state⟩
  rw [hcall] at hlength
  have hstatus : source.status s storage = result.status storage.length := by
    rw [StreamSource.status, if_neg hne, hcall]
  have hafter : state = source.after s storage := by
    rw [StreamSource.after, if_neg hne, StreamSource.next, hcall]
  cases result with
  | wouldBlock =>
    have hthunk : streamSourceThunk (some source) storage.length ⟨s, some storage, some out⟩
        = (Status.wouldBlock, ⟨state, some written, some out⟩) := by
      simp [streamSourceThunk, hne, hcall]
    have hitem : source.item s storage = none := by rw [StreamSource.item, hcall]
    rw [hthunk]
    refine ⟨hstatus.symm, hafter, ?_, fun _ => rfl⟩
    rw [hitem]
    exact if_neg hblock
  | «end» =>
    have hthunk : streamSourceThunk (some source) storage.length ⟨s, some storage, some out⟩
        = (Status.closed, ⟨state, some written, some out⟩) := by
      simp [streamSourceThunk, hne, hcall]
    have hitem : source.item s storage = none := by rw [StreamSource.item, hcall]
    rw [hthunk]
    refine ⟨hstatus.symm, hafter, ?_, fun _ => rfl⟩
    rw [hitem]
    exact if_neg hclosed
  | frame size captured dropped flags =>
    -- a size that the storage does not have is refused, though the closure has run
    by_cases hsize : 0 < size ∧ size ≤ (storage.length : Int)
    · have hthunk : streamSourceThunk (some source) storage.length ⟨s, some storage, some out⟩
          = (Status.ok, ⟨state, some written, some ⟨out.sequence, captured, dropped, flags, size⟩⟩) := by
        simp [streamSourceThunk, hne, hcall, hsize]
      have hitem : source.item s storage = some ⟨written.take size.toNat, captured, dropped, flags⟩ := by
        simp only [StreamSource.item, hcall, if_pos hsize]
      have htake : ((written.take size.toNat).length : Int) = size := by
        rw [List.length_take]
        simp only at hlength
        omega
      rw [hthunk]
      refine ⟨hstatus.trans (if_pos hsize) |>.symm, hafter, ?_, fun h => absurd rfl h⟩
      rw [hitem]
      simp only [if_pos, SourceCall.frame, StreamItem.frame, htake, Option.map_some]
      rfl
    · have hthunk : streamSourceThunk (some source) storage.length ⟨s, some storage, some out⟩
          = (Status.invalidArg, ⟨state, some written, some out⟩) := by
        simp [streamSourceThunk, hne, hcall, hsize]
      have hitem : source.item s storage = none := by
        simp only [StreamSource.item, hcall, if_neg hsize]
      rw [hthunk]
      refine ⟨hstatus.trans (if_neg hsize) |>.symm, hafter, ?_, fun _ => rfl⟩
      rw [hitem]
      exact if_neg hinvalid

/-- What a decision says to Core. -/
def StreamConsumerDecision.status : StreamConsumerDecision → Int32
  | .continue => Status.ok
  | .stop => Status.closed

/-- **One call of the consumer.** An item of a source is shown to it as it is. -/
theorem streamConsumerThunk_frame (consumer : StreamConsumer τ) {item : StreamItem}
    (hitem : 0 < item.data.length) (sequence : UInt64) (t : τ) :
    streamConsumerThunk (some consumer) (some item.data) (some (item.frame sequence)) t
      = ((consumer t item.data (item.metadata sequence)).1.status,
          (consumer t item.data (item.metadata sequence)).2) := by
  have hsize : 0 < (item.frame sequence).size := Int.natCast_pos.mpr hitem
  simp only [streamConsumerThunk, if_pos hsize]
  have htake : item.data.take (item.frame sequence).size.toNat = item.data := List.take_length
  rw [htake]
  show ((if (consumer t item.data (item.metadata sequence)).1 = .continue then Status.ok
    else Status.closed), _) = _
  cases (consumer t item.data (item.metadata sequence)).1 with
  | «continue» => rfl
  | stop => rfl

end Outcomes

end CoAkka.Stream
