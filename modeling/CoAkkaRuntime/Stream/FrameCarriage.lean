import CoAkkaRuntime.Stream.FrameThunks
import Mathlib.Data.List.Infix

/-!
# Stream — frames from one closure to the other

Core calls the source of a publisher and the consumer of a subscriber, and carries the frames between
them. How it does this is no part of the connector: it offers storage of its own choice as often as it
likes, and it may end a session at any time. What the connector adds are the two thunks. This module
follows a frame through both of them:

* **the source's side** — the answers of `streamSourceThunk` to any sequence of offers are those of the
  closure alone (`sourceCalls_spec`), and the frames that Core finds behind the successful ones are
  the closure's items, whole and in order;
* **the carriage** — a hypothesis on what Core calls the consumer with, from `stream_lane.h`: frames
  are ordered, the lane assigns their sequence, and the consumer receives every field;
* **the consumer's side** — over carried frames `streamConsumerThunk` shows the closure each item under
  its number, and answers what the closure decides (`consumerCalls_frames`).

`frames_arrive` puts the three together: the consumer runs as if it were handed the source's items
directly. `stream_round_trip` instantiates it with a payload that is read at one end and appended at
the other.
-/

namespace CoAkka.Stream

/-! ## Calls -/

/-- What Core offers a source: storage, and a record for the metadata that it has initialised. -/
structure SourceOffer where
  storage : List UInt8
  out : StreamFrame

section Calls

variable {σ τ : Type}

/-- The answers to a sequence of offers, each with what the call leaves. -/
def sourceCalls (source : StreamSource σ) : σ → List SourceOffer → List (Int32 × SourceCall σ)
  | _, [] => []
  | s, offer :: offers =>
    let answer := streamSourceThunk (some source) offer.storage.length
      ⟨s, some offer.storage, some offer.out⟩
    answer :: sourceCalls source answer.2.state offers

/-- The frames that Core finds behind the calls that succeeded. -/
def found (answers : List (Int32 × SourceCall σ)) : List (List UInt8 × StreamFrame) :=
  answers.filterMap fun answer => if answer.1 = Status.ok then answer.2.frame else none

/-- The answers to a sequence of frames, and the state that they leave the closure in. -/
def consumerCalls (consumer : StreamConsumer τ) :
    τ → List (List UInt8 × StreamFrame) → List Int32 × τ
  | t, [] => ([], t)
  | t, (data, frame) :: frames =>
    let answer := streamConsumerThunk (some consumer) (some data) (some frame) t
    let rest := consumerCalls consumer answer.2 frames
    (answer.1 :: rest.1, rest.2)

end Calls

/-! ## Closures alone

What the two closures do when there is nothing between them: the statuses and the items of a source
over offered storage, and the decisions of a consumer over numbered items. -/

/-- A frame as a consumer is shown it: its number, and the item. -/
abbrev Shown := UInt64 × StreamItem

section Closures

variable {σ τ : Type}

def StreamSource.statuses (source : StreamSource σ) : σ → List SourceOffer → List Int32
  | _, [] => []
  | s, offer :: offers =>
    source.status s offer.storage :: source.statuses (source.after s offer.storage) offers

/-- What the source hands over. -/
def StreamSource.supplied (source : StreamSource σ) : σ → List SourceOffer → List StreamItem
  | _, [] => []
  | s, offer :: offers =>
    (source.item s offer.storage).toList ++ source.supplied (source.after s offer.storage) offers

def StreamConsumer.run (consumer : StreamConsumer τ) :
    τ → List Shown → List StreamConsumerDecision × τ
  | t, [] => ([], t)
  | t, (sequence, item) :: rest =>
    let answer := consumer t item.data (item.metadata sequence)
    let tail := StreamConsumer.run consumer answer.2 rest
    (answer.1 :: tail.1, tail.2)

/-- The first items, as many as `count`, each under the number of its place. -/
def firstItems (number : Nat → UInt64) (count : Nat) (items : List StreamItem) : List Shown :=
  (items.take count).mapIdx fun i item => (number i, item)

/-- An item is not empty, and has the room that it was offered. -/
theorem supplied_bounds (source : StreamSource σ) (s : σ) (offers : List SourceOffer) :
    ∀ item ∈ source.supplied s offers, 0 < item.data.length ∧
      ∃ offer ∈ offers, item.data.length ≤ offer.storage.length := by
  induction offers generalizing s with
  | nil => exact fun item hitem => absurd hitem List.not_mem_nil
  | cons offer offers ih =>
    intro item hitem
    rcases List.mem_append.mp hitem with hfirst | hrest
    · have hbounds := StreamSource.length_item (Option.mem_toList.mp hfirst)
      exact ⟨hbounds.1, offer, List.mem_cons_self, hbounds.2⟩
    · obtain ⟨hpos, offer', hoffer, hle⟩ := ih _ item hrest
      exact ⟨hpos, offer', List.mem_cons_of_mem _ hoffer, hle⟩

end Closures

/-! ## The source's side -/

section Source

variable {σ : Type}

/-- A frame without its number, which the source does not set. -/
def unnumbered (frame : List UInt8 × StreamFrame) : List UInt8 × StreamFrame :=
  (frame.1, { frame.2 with sequence := 0 })

/-- **The calls of a source are the source's own.** Whatever it is offered, Core is answered what the
closure says, and finds the closure's items. -/
theorem sourceCalls_spec (source : StreamSource σ) (s : σ) (offers : List SourceOffer) :
    (sourceCalls source s offers).map Prod.fst = source.statuses s offers ∧
    (found (sourceCalls source s offers)).map unnumbered
      = (source.supplied s offers).map fun item => (item.data, item.frame 0) := by
  induction offers generalizing s with
  | nil => exact ⟨rfl, rfl⟩
  | cons offer offers ih =>
    have hanswer := streamSourceThunk_answer source s offer.storage offer.out
    unfold sourceCalls StreamSource.statuses StreamSource.supplied
    generalize streamSourceThunk (some source) offer.storage.length
      ⟨s, some offer.storage, some offer.out⟩ = answer at hanswer
    obtain ⟨hstatuses, hfound⟩ := ih (source.after s offer.storage)
    dsimp only
    rw [hanswer.state]
    refine ⟨by rw [List.map_cons, hanswer.status, hstatuses], ?_⟩
    unfold found at hfound ⊢
    rw [List.filterMap_cons, hanswer.frame]
    cases source.item s offer.storage with
    | none => exact hfound
    | some item =>
      simp only [Option.map_some, List.map_cons, Option.toList_some, List.singleton_append, hfound]
      rfl

/-- Core finds as many frames as the source hands over. -/
theorem length_found (source : StreamSource σ) (s : σ) (offers : List SourceOffer) :
    (found (sourceCalls source s offers)).length = (source.supplied s offers).length := by
  have hlength := congrArg List.length (sourceCalls_spec source s offers).2
  rwa [List.length_map, List.length_map] at hlength

end Source

/-! ## The carriage -/

/-- The lane gives a frame its number, whatever the source left there. -/
def numbered (sequence : UInt64) (frame : List UInt8 × StreamFrame) : List UInt8 × StreamFrame :=
  (frame.1, { frame.2 with sequence })

/-- What is relied on of Core: the frames that it calls a consumer with are the first of those it found
with the source, in order, with every field as found but for the number, which it assigns. How many
there are, and when the session ends, is left open. -/
structure Carriage (number : Nat → UInt64) (found carried : List (List UInt8 × StreamFrame)) :
    Prop where
  ordered : carried = (found.take carried.length).mapIdx fun i frame => numbered (number i) frame

/-- No more is carried than was found. -/
theorem Carriage.length_le {number : Nat → UInt64} {found carried : List (List UInt8 × StreamFrame)}
    (h : Carriage number found carried) : carried.length ≤ found.length := by
  have hlength := congrArg List.length h.ordered
  rw [List.length_mapIdx, List.length_take] at hlength
  omega

/-- Over the frames of a source, what is carried are its items under their numbers. -/
theorem Carriage.items {σ : Type} {source : StreamSource σ} {s : σ} {offers : List SourceOffer}
    {number : Nat → UInt64} {carried : List (List UInt8 × StreamFrame)}
    (h : Carriage number (found (sourceCalls source s offers)) carried) :
    carried = (firstItems number carried.length (source.supplied s offers)).map
      fun shown => (shown.2.data, shown.2.frame shown.1) := by
  have hfound := congrArg (List.take carried.length) (sourceCalls_spec source s offers).2
  rw [← List.map_take, ← List.map_take] at hfound
  -- Core overwrites the sequence number, so what the source left there does not matter
  have hstripped : ∀ frames : List (List UInt8 × StreamFrame),
      (frames.mapIdx fun i frame => numbered (number i) frame)
        = (frames.map unnumbered).mapIdx fun i frame => numbered (number i) frame := by
    intro frames
    simp [List.mapIdx_eq_iff, numbered, unnumbered, Function.comp_def]
  have hitems : ∀ items : List StreamItem,
      ((items.map fun item => (item.data, item.frame 0)).mapIdx fun i frame =>
          numbered (number i) frame)
        = (items.mapIdx fun i item => (number i, item)).map
          fun shown => (shown.2.data, shown.2.frame shown.1) := by
    intro items
    simp [List.mapIdx_eq_iff, numbered, StreamItem.frame, Function.comp_def]
  calc carried
      = ((found (sourceCalls source s offers)).take carried.length).mapIdx
          fun i frame => numbered (number i) frame := h.ordered
    _ = (((source.supplied s offers).take carried.length).map
          fun item => (item.data, item.frame 0)).mapIdx
            fun i frame => numbered (number i) frame := by rw [hstripped, hfound]
    _ = (firstItems number carried.length (source.supplied s offers)).map
          fun shown => (shown.2.data, shown.2.frame shown.1) := hitems _

/-! ## The consumer's side -/

section Consumer

variable {τ : Type}

/-- **The calls of a consumer are the consumer's own**, over items that are not empty. -/
theorem consumerCalls_frames (consumer : StreamConsumer τ) (t : τ) {shown : List Shown}
    (hshown : ∀ p ∈ shown, 0 < p.2.data.length) :
    consumerCalls consumer t (shown.map fun p => (p.2.data, p.2.frame p.1))
      = ((StreamConsumer.run consumer t shown).1.map StreamConsumerDecision.status,
          (StreamConsumer.run consumer t shown).2) := by
  induction shown generalizing t with
  | nil => rfl
  | cons p rest ih =>
    obtain ⟨sequence, item⟩ := p
    obtain ⟨hitem, hrest⟩ := List.forall_mem_cons.mp hshown
    have hcall := streamConsumerThunk_frame consumer hitem sequence t
    simp only [List.map_cons, consumerCalls, StreamConsumer.run, hcall, ih _ hrest]

end Consumer

/-- **Frames arrive.** Whatever the two closures do and whatever Core offers the source: Core is
answered what the source says, each item that it finds is not empty and has the room it was offered,
and the consumer decides and ends as if it had been handed the first items of the source, as many as
were carried, with their bytes and metadata and the number of their place. -/
theorem frames_arrive {σ τ : Type} (source : StreamSource σ) (consumer : StreamConsumer τ)
    (number : Nat → UInt64) (s : σ) (t : τ) (offers : List SourceOffer)
    {carried : List (List UInt8 × StreamFrame)}
    (h : Carriage number (found (sourceCalls source s offers)) carried) :
    (sourceCalls source s offers).map Prod.fst = source.statuses s offers ∧
    (∀ item ∈ source.supplied s offers, 0 < item.data.length ∧
      ∃ offer ∈ offers, item.data.length ≤ offer.storage.length) ∧
    carried.length ≤ (source.supplied s offers).length ∧
    consumerCalls consumer t carried
      = ((StreamConsumer.run consumer t (firstItems number carried.length
            (source.supplied s offers))).1.map StreamConsumerDecision.status,
          (StreamConsumer.run consumer t (firstItems number carried.length
            (source.supplied s offers))).2) := by
  have hbounds := supplied_bounds source s offers
  refine ⟨(sourceCalls_spec source s offers).1, hbounds, ?_, ?_⟩
  · rw [← length_found]
    exact h.length_le
  · have hitems := h.items
    generalize carried.length = count at hitems
    subst hitems
    refine consumerCalls_frames consumer t fun p hp => ?_
    obtain ⟨i, hi, rfl⟩ := List.mem_mapIdx.mp hp
    exact (hbounds _ (List.mem_of_mem_take (List.getElem_mem hi))).1

/-- A source of two frames and a call without a frame between them, of which Core carried one. -/
theorem frames_arrive_first :
    consumerCalls (fun shown data metadata => (.stop, shown ++ [(metadata.sequence, data)])) []
        [([7], ⟨1, 30, 0, 0, 1⟩)]
      = ([Status.closed], [(1, [7])]) :=
  (frames_arrive
    ⟨fun step buffer => (if step = 1 then .wouldBlock else .frame 1 30 0 0, buffer, step + 1),
      fun _ _ => rfl⟩
    (fun shown data metadata => (.stop, shown ++ [(metadata.sequence, data)]))
    (fun i => i.toUInt64 + 1) 0 [] [⟨[7, 0], ⟨0, 0, 0, 0, 0⟩⟩, ⟨[8], ⟨0, 0, 0, 0, 0⟩⟩,
      ⟨[9], ⟨0, 0, 0, 0, 0⟩⟩] ⟨rfl⟩).2.2.2

/-! ## Bytes in, bytes out

A source that reads a payload into whatever storage it is offered, and a consumer that appends. -/

/-- A byte buffer that a source reads from and a consumer appends to. -/
structure LockedStreamBytes where
  storage : List UInt8 := []
  offset : Nat := 0

def LockedStreamBytes.fill : StreamSource LockedStreamBytes where
  callback bytes destination :=
    if bytes.offset = bytes.storage.length then (.end, destination, bytes)
    else
      let count := min destination.length (bytes.storage.length - bytes.offset)
      (.frame count 0 0 0, (bytes.storage.drop bytes.offset).take count ++ destination.drop count,
        { bytes with offset := bytes.offset + count })
  length_eq bytes destination := by
    split
    · rfl
    · simp only [List.length_append, List.length_take, List.length_drop]
      omega

def LockedStreamBytes.append : StreamConsumer LockedStreamBytes :=
  fun bytes frame _ => (.continue, { bytes with storage := bytes.storage ++ frame })

section Fill

variable {bytes : LockedStreamBytes} {buffer : List UInt8}

/-- What a call of `fill` does in storage that is there. -/
inductive Filled (bytes : LockedStreamBytes) (buffer : List UInt8) : Prop where
  /-- The payload is used up. -/
  | ended (hend : bytes.offset = bytes.storage.length)
      (hstatus : LockedStreamBytes.fill.status bytes buffer = Status.closed)
      (hitem : LockedStreamBytes.fill.item bytes buffer = none)
      (hafter : LockedStreamBytes.fill.after bytes buffer = bytes)
  /-- The next bytes of the payload are handed over, and it moves past them. -/
  | part (count : Nat) (item : StreamItem) (hpos : 0 < count)
      (hcount : bytes.offset + count ≤ bytes.storage.length)
      (hstatus : LockedStreamBytes.fill.status bytes buffer = Status.ok)
      (hitem : LockedStreamBytes.fill.item bytes buffer = some item)
      (hdata : item.data = (bytes.storage.drop bytes.offset).take count)
      (hafter : LockedStreamBytes.fill.after bytes buffer
        = { bytes with offset := bytes.offset + count })

/-- A call of `fill` ends, or hands over at least one byte. -/
theorem filled (hoffset : bytes.offset ≤ bytes.storage.length) (hbuffer : buffer ≠ []) :
    Filled bytes buffer := by
  by_cases hend : bytes.offset = bytes.storage.length
  · refine .ended hend ?_ ?_ ?_
    · simp [StreamSource.status, LockedStreamBytes.fill, hbuffer, hend, StreamSourceResult.status]
    · simp [StreamSource.item, LockedStreamBytes.fill, hend]
    · simp [StreamSource.after, StreamSource.next, LockedStreamBytes.fill, hbuffer, hend]
  · -- as much as fits, or the rest
    have hlength : 0 < buffer.length := List.length_pos_iff.mpr hbuffer
    have hcount : 0 < min buffer.length (bytes.storage.length - bytes.offset) := by omega
    have hsize : (0 : Int) < (min buffer.length (bytes.storage.length - bytes.offset) : Nat) ∧
        ((min buffer.length (bytes.storage.length - bytes.offset) : Nat) : Int)
          ≤ buffer.length := by omega
    refine .part (min buffer.length (bytes.storage.length - bytes.offset))
      ⟨(bytes.storage.drop bytes.offset).take
        (min buffer.length (bytes.storage.length - bytes.offset)), 0, 0, 0⟩ hcount (by omega)
      ?_ ?_ rfl ?_
    · simp only [StreamSource.status, if_neg hbuffer, LockedStreamBytes.fill, if_neg hend,
        StreamSourceResult.status, if_pos hsize]
    · simp only [StreamSource.item, LockedStreamBytes.fill, if_neg hend, if_pos hsize,
        Int.toNat_natCast]
      congr 2
      refine List.take_left' ?_
      rw [List.length_take, List.length_drop]
      omega
    · simp only [StreamSource.after, if_neg hbuffer, StreamSource.next, LockedStreamBytes.fill,
        if_neg hend]

/-- What `fill` hands over is what comes next in the payload, and all of it where it has ended. -/
theorem supplied_fill (offers : List SourceOffer) (hoffset : bytes.offset ≤ bytes.storage.length) :
    (LockedStreamBytes.fill.supplied bytes offers).flatMap StreamItem.data
        <+: bytes.storage.drop bytes.offset ∧
      (Status.closed ∈ LockedStreamBytes.fill.statuses bytes offers →
        (LockedStreamBytes.fill.supplied bytes offers).flatMap StreamItem.data
          = bytes.storage.drop bytes.offset) := by
  induction offers generalizing bytes with
  | nil => exact ⟨List.nil_prefix, fun h => absurd h List.not_mem_nil⟩
  | cons offer offers ih =>
    unfold StreamSource.supplied StreamSource.statuses
    by_cases hstorage : offer.storage = []
    · -- without storage the closure is not asked
      have hitem : LockedStreamBytes.fill.item bytes offer.storage = none := by
        rw [hstorage, StreamSource.item_nil]
      have hafter : LockedStreamBytes.fill.after bytes offer.storage = bytes := if_pos hstorage
      have hstatus : LockedStreamBytes.fill.status bytes offer.storage = Status.invalidArg :=
        if_pos hstorage
      rw [hitem, hafter, hstatus, Option.toList_none, List.nil_append]
      obtain ⟨hpart, hwhole⟩ := ih hoffset
      refine ⟨hpart, fun hclosed => hwhole ?_⟩
      exact (List.mem_cons.mp hclosed).resolve_left (by decide)
    cases filled hoffset hstorage with
    | ended hend hstatus hitem hafter =>
      obtain ⟨hpart, -⟩ := ih hoffset
      rw [hitem, hafter, Option.toList_none, List.nil_append]
      refine ⟨hpart, fun _ => ?_⟩
      rw [hend, List.drop_length] at hpart ⊢
      exact List.prefix_nil.mp hpart
    | part count item hpos hcount hstatus hitem hdata hafter =>
      rw [hitem, hafter, hstatus, Option.toList_some, List.singleton_append, List.flatMap_cons, hdata]
      have hmoved : (⟨bytes.storage, bytes.offset + count⟩ : LockedStreamBytes).offset
          ≤ bytes.storage.length := hcount
      obtain ⟨hpart, hwhole⟩ := ih hmoved
      have hsplit : (bytes.storage.drop bytes.offset).take count
          ++ bytes.storage.drop (bytes.offset + count) = bytes.storage.drop bytes.offset := by
        rw [← List.drop_drop]
        exact List.take_append_drop count _
      refine ⟨?_, fun hclosed => ?_⟩
      · -- this part, and what the later offers bring
        have hboth := (List.prefix_append_right_inj
          ((bytes.storage.drop bytes.offset).take count)).mpr hpart
        dsimp only at hboth
        rwa [hsplit] at hboth
      · have hrest := (List.mem_cons.mp hclosed).resolve_left (by decide)
        rw [hwhole hrest]
        exact hsplit

/-- `fill` ends after at most one call for each byte that is left, and one more. -/
theorem fill_ends (offers : List SourceOffer) (hoffset : bytes.offset ≤ bytes.storage.length)
    (hstorage : ∀ offer ∈ offers, offer.storage ≠ [])
    (hmany : bytes.storage.length - bytes.offset < offers.length) :
    Status.closed ∈ LockedStreamBytes.fill.statuses bytes offers := by
  induction offers generalizing bytes with
  | nil => exact absurd hmany (Nat.not_lt_zero _)
  | cons offer offers ih =>
    obtain ⟨hfirst, hrest⟩ := List.forall_mem_cons.mp hstorage
    unfold StreamSource.statuses
    cases filled hoffset hfirst with
    | ended hend hstatus => exact hstatus ▸ List.mem_cons_self
    | part count item hpos hcount hstatus hitem hdata hafter =>
      rw [hafter]
      refine List.mem_cons_of_mem _ (ih hcount hrest ?_)
      rw [List.length_cons] at hmany
      dsimp only
      omega

end Fill

/-- `append` asks for more after every frame, and keeps them one behind the other. -/
theorem run_append (bytes : LockedStreamBytes) (shown : List Shown) :
    (∀ decision ∈ (StreamConsumer.run LockedStreamBytes.append bytes shown).1,
      decision = .continue) ∧
    (StreamConsumer.run LockedStreamBytes.append bytes shown).2.storage
      = bytes.storage ++ shown.flatMap fun p => p.2.data := by
  induction shown generalizing bytes with
  | nil => exact ⟨List.forall_mem_nil _, (List.append_nil _).symm⟩
  | cons p rest ih =>
    obtain ⟨hcontinue, hstorage⟩ := ih { bytes with storage := bytes.storage ++ p.2.data }
    refine ⟨List.forall_mem_cons.mpr ⟨rfl, hcontinue⟩, ?_⟩
    rw [List.flatMap_cons, ← List.append_assoc]
    exact hstorage

theorem flatMap_firstItems (number : Nat → UInt64) (count : Nat) (items : List StreamItem) :
    ((firstItems number count items).flatMap fun p => p.2.data)
      = (items.take count).flatMap StreamItem.data := by
  have hitems : (firstItems number count items).map Prod.snd = items.take count := by
    simp [firstItems, List.ext_getElem?_iff, Function.comp_def]
  rw [← hitems, List.flatMap_map]

/-- **The bytes come through.** With a source that reads a payload and a consumer that appends, in
whatever pieces Core asks for it and whatever it carries, the sink holds an initial part of the
payload, and the consumer never asks Core to end. The source ends once it has been offered storage more
often than the payload has bytes; where it has ended and everything found was carried, the sink holds
the whole payload. -/
theorem stream_round_trip (payload : List UInt8) (offers : List SourceOffer) (number : Nat → UInt64)
    {carried : List (List UInt8 × StreamFrame)}
    (h : Carriage number (found (sourceCalls LockedStreamBytes.fill { storage := payload } offers))
      carried) :
    (consumerCalls LockedStreamBytes.append {} carried).2.storage <+: payload ∧
    (∀ status ∈ (consumerCalls LockedStreamBytes.append {} carried).1, status = Status.ok) ∧
    ((∀ offer ∈ offers, offer.storage ≠ []) → payload.length < offers.length →
      Status.closed
        ∈ (sourceCalls LockedStreamBytes.fill { storage := payload } offers).map Prod.fst) ∧
    (Status.closed
        ∈ (sourceCalls LockedStreamBytes.fill { storage := payload } offers).map Prod.fst →
      carried.length
        = (found (sourceCalls LockedStreamBytes.fill { storage := payload } offers)).length →
      (consumerCalls LockedStreamBytes.append {} carried).2.storage = payload) := by
  let bytes : LockedStreamBytes := { storage := payload }
  have hoffset : bytes.offset ≤ bytes.storage.length := Nat.zero_le _
  obtain ⟨hpart, hwhole⟩ := supplied_fill offers hoffset
  obtain ⟨hstatuses, -, -, hconsumer⟩ :=
    frames_arrive LockedStreamBytes.fill LockedStreamBytes.append number bytes {} offers h
  obtain ⟨hcontinue, hstorage⟩ := run_append {} (firstItems number carried.length
    (LockedStreamBytes.fill.supplied bytes offers))
  rw [flatMap_firstItems, List.nil_append] at hstorage
  rw [hconsumer, hstatuses]
  refine ⟨?_, fun status hstatus => ?_, fun hoffers hmany => ?_, fun hclosed hall => ?_⟩
  · rw [hstorage]
    refine List.IsPrefix.trans ?_ hpart
    exact List.IsPrefix.flatMap (List.take_prefix _ _) StreamItem.data
  · obtain ⟨decision, hdecision, rfl⟩ := List.mem_map.mp hstatus
    rw [hcontinue decision hdecision]
    rfl
  · exact fill_ends offers hoffset hoffers (by simpa [bytes] using hmany)
  · rw [length_found] at hall
    rw [hstorage, hall, List.take_length]
    exact hwhole hclosed

/-- Three bytes in two frames, the second of them not full, and the end. -/
theorem stream_round_trip_three :
    (consumerCalls LockedStreamBytes.append {}
      [([7, 8], ⟨1, 0, 0, 0, 2⟩), ([9], ⟨2, 0, 0, 0, 1⟩)]).2.storage = [7, 8, 9] :=
  (stream_round_trip [7, 8, 9] (List.replicate 3 ⟨[0, 0], ⟨0, 0, 0, 0, 0⟩⟩)
    (fun i => i.toUInt64 + 1) ⟨rfl⟩).2.2.2 (by decide) rfl

end CoAkka.Stream
