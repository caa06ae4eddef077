import CoAkkaRuntime.Grant.StreamCalls
import CoAkkaRuntime.Grant.Travel
import CoAkkaRuntime.Stream.AdmitOutcomes

/-!
# Grant — a stream grant arrives as it was issued

As for files, what Core left in a grant is what Core reads on the other side, if and only if the
arrays that are carried on hold UTF-8. Two things are different. A grant of a stream is decoded
without a check, so that whatever was encoded is admitted. And the two methods at its ends go through
the callback owners, who have a say in whether Core is called:

* the checks of the method itself come first (the lane, the feature, the strings), and where one fails
  the owners see nothing of it;
* the owners refuse exactly as they refuse any admission (`Unresolved`, `Exhausted`), and are then
  what they were;
* otherwise the callback is rooted before the call, and the status of the call settles what stays of
  it, also where the module does not have the symbol.

`Offered` says this of a method's run in one piece, with the owners' part given by `admitRoot`.
-/

namespace CoAkka.Grant

open CoAkka.Stream
open Lane (requireCoreFeature)
open Text Throwing Transport

/-! ## What Core reads -/

def StreamPublish.meant (spec : StreamPublish String) : StreamPublish (List UInt8) :=
  { spec with
    sessionID := textBytes spec.sessionID
    authorizationToken := textBytes spec.authorizationToken }

def StreamSubscribe.meant (spec : StreamSubscribe String) : StreamSubscribe (List UInt8) :=
  { spec with
    sessionID := textBytes spec.sessionID
    authorizationToken := textBytes spec.authorizationToken
    remoteHost := textBytes spec.remoteHost }

section Reads

variable {cs : List Nat} {heap : Heap}

/-- Core reads of the packed record what the specification says. -/
theorem StreamPublish.read_record {spec : StreamPublish String}
    (h : Borrowed [spec.sessionID, spec.authorizationToken] cs heap) :
    (spec.record cs).read heap = some spec.meant := by
  have hid := h.reading 0 _ rfl
  have htoken := h.reading 1 _ rfl
  unfold StreamPublish.read StreamPublish.record StreamPublish.meant
  rw [hid, htoken]
  rfl

theorem StreamSubscribe.read_record {spec : StreamSubscribe String}
    (h : Borrowed [spec.sessionID, spec.authorizationToken, spec.remoteHost] cs heap) :
    (spec.record cs).read heap = some spec.meant := by
  have hid := h.reading 0 _ rfl
  have htoken := h.reading 1 _ rfl
  have hhost := h.reading 2 _ rfl
  unfold StreamSubscribe.read StreamSubscribe.record StreamSubscribe.meant
  rw [hid, htoken, hhost]
  rfl

end Reads

/-! ## One component at a time

A step on one component of the state leaves the other as it is.
-/

section Components

variable {I Root : Type} {ident : StreamCallbackKey String → I} {α Answer : Type}
  {s : StreamMemory ident Root}

theorem exec_inMemory (step : GrantM α) :
    exec (inMemory step) s = ((exec step s.memory).1, { s with memory := (exec step s.memory).2 }) :=
  rfl

theorem exec_inOwners (step : ExceptT RuntimeError (StateM (Mutation ident Root)) α) :
    exec (inOwners step) s
      = ((exec step s.mutation).1, { s with mutation := (exec step s.mutation).2 }) :=
  rfl

variable [DecidableEq I] {key : StreamCallbackKey String} {root : Root}
  {presence presence' : StreamCallbackKey String → Int32} {status : Answer → Int32}
  {call : GrantM Answer}

/-- Owners who refuse do so before the call. -/
theorem exec_admitting_of_refused {error : RuntimeError}
    (hrefused : exec (publish key root presence) s.mutation = (.error error, s.mutation)) :
    exec (admitting key root presence presence' status call) s = (.error error, s) := by
  have hpublish : exec (inOwners (publish key root presence)) s = (.error error, s) := by
    rw [exec_inOwners, hrefused]
  exact exec_bind_error hpublish _

/-- Owners who publish the candidate are left by the call as `admitRoot` leaves them. -/
theorem exec_admitting_of_published {candidate : Candidate (StreamCallbackKey String)}
    {m : Mutation ident Root} {answer : Answer} {memory : LaneMemory}
    (hpublished : exec (publish key root presence) s.mutation = (.ok candidate, m))
    (hcall : exec call s.memory = (.ok answer, memory)) :
    exec (admitting key root presence presence' status call) s = (.ok answer, ⟨memory,
      (exec (admitRoot key root (.ok (status answer)) presence presence') s.mutation).2⟩) := by
  have hpublish : exec (inOwners (publish key root presence)) s
      = (.ok candidate, { s with mutation := m }) := by
    rw [exec_inOwners, hpublished]
  have hcalled : exec (inMemory call) { s with mutation := m } = (.ok answer, ⟨memory, m⟩) := by
    rw [exec_inMemory, hcall]
  unfold admitting
  rw [exec_bind_ok hpublish, exec_bind_ok hcalled, exec_admitRoot, hpublished]
  rfl

end Components

/-! ## A method that offers Core a callback

Five ways to end, in the order in which they are decided: a check, the two refusals of the owners,
a symbol that is not there, and the call.
-/

section Offered

variable {I Root : Type} {ident : StreamCallbackKey String → I} [DecidableEq I]
  {Read Answer α : Type}

/-- The end of a method that makes one call of Core through the callback owners: the call is made,
with `read`, exactly where the checks before it and the owners let it pass and the symbol is there. -/
inductive Offered (admitted : Prop) (symbol : Option (Read → Answer)) (status : Answer → Int32)
    (call : Read → GrantCall) (read : Read) (finish : Answer → Except RuntimeError α)
    (key : StreamCallbackKey String) (root : Root)
    (presence presence' : StreamCallbackKey String → Int32) (s : StreamMemory ident Root) :
    Except RuntimeError α × StreamMemory ident Root → Prop where
  /-- A check of the method fails: the owners are not asked. -/
  | refused (error : RuntimeError) (heap : Heap) (h : ¬ admitted) :
      Offered admitted symbol status call read finish key root presence presence' s
        (.error error, { s with memory := { s.memory with heap } })
  /-- The outcome of an earlier call under the key is open. -/
  | unresolved (message : String) (heap : Heap) (hadmitted : admitted)
      (howners : s.mutation.owners.Unresolved key) :
      Offered admitted symbol status call read finish key root presence presence' s
        (.error (.contractViolation message), { s with memory := { s.memory with heap } })
  /-- There is no room for the callback. -/
  | exhausted (message : String) (heap : Heap) (hadmitted : admitted)
      (howners : s.mutation.owners.Exhausted key presence) :
      Offered admitted symbol status call read finish key root presence presence' s
        (.error (.resourceLimit message), { s with memory := { s.memory with heap } })
  /-- The bridge answers in Core's place, and the owners take this for a refusal. -/
  | missing (error : RuntimeError) (heap : Heap) (hadmitted : admitted)
      (hresolved : ¬ s.mutation.owners.Unresolved key)
      (hroom : ¬ s.mutation.owners.Exhausted key presence) (hsymbol : symbol = none) :
      Offered admitted symbol status call read finish key root presence presence' s
        (.error error, { memory := { s.memory with heap }, mutation :=
          (exec (admitRoot key root (.ok Status.symbol) presence presence') s.mutation).2 })
  | called (f : Read → Answer) (heap : Heap) (hadmitted : admitted)
      (hresolved : ¬ s.mutation.owners.Unresolved key)
      (hroom : ¬ s.mutation.owners.Exhausted key presence) (hsymbol : symbol = some f) :
      Offered admitted symbol status call read finish key root presence presence' s
        (finish (f read), { memory := { heap, calls := s.memory.calls ++ [call read] }, mutation :=
          (exec (admitRoot key root (.ok (status (f read))) presence presence') s.mutation).2 })

variable {admitted : Prop} {symbol : Option (Read → Answer)} {status : Answer → Int32}
  {call : Read → GrantCall} {meant : Read} {finish : Answer → Except RuntimeError α}
  {key : StreamCallbackKey String} {root : Root}
  {presence presence' : StreamCallbackKey String → Int32} {s : StreamMemory ident Root}

theorem Offered.congr {admitted' : Prop} {out : Except RuntimeError α × StreamMemory ident Root}
    (hiff : admitted ↔ admitted')
    (h : Offered admitted symbol status call meant finish key root presence presence' s out) :
    Offered admitted' symbol status call meant finish key root presence presence' s out := by
  rwa [← propext hiff]

/-- The storage of the strings, the admission with the call in it, and what is made of the answer. -/
theorem offered_stored {values : List String} {read : List Nat → Heap → Read} {missing : Answer}
    {f : Answer → StreamM ident Root α}
    (hread : ∀ cs heap, Borrowed values cs heap → read cs heap = meant)
    (hfinish : ∀ answer s, exec (f answer) s = (finish answer, s))
    (hmissing : ∃ error, finish missing = .error error) (hstatus : status missing = Status.symbol)
    (s : StreamMemory ident Root) :
    Offered (∀ value ∈ values, Crosses value) symbol status call meant finish key root presence
      presence' s (exec (inMemory (stored values) >>= fun cs => admitting key root presence presence'
        status (bridged symbol missing (read cs) call) >>= f) s) := by
  by_cases hcross : ∀ value ∈ values, Crosses value
  · obtain ⟨cs, heap, hexec, hborrowed⟩ := exec_stored_ok s.memory hcross
    have hmeant := hread cs heap hborrowed
    let lent : StreamMemory ident Root := ⟨⟨heap, s.memory.calls⟩, s.mutation⟩
    have hstored : exec (inMemory (stored values)) s = (.ok cs, lent) := by
      rw [exec_inMemory, hexec]
    rw [exec_bind_ok hstored]
    -- the strings are in memory; now the owners have their say
    have hpublished := published_of_exec s.mutation key root presence
    generalize hout : exec (publish key root presence) s.mutation = out at hpublished
    cases hpublished with
    | unresolved message howners =>
      rw [exec_bind_error (exec_admitting_of_refused (s := lent) hout)]
      exact .unresolved message heap hcross howners
    | exhausted message howners =>
      rw [exec_bind_error (exec_admitting_of_refused (s := lent) hout)]
      exact .exhausted message heap hcross howners
    | published hresolved hroom =>
      cases symbol with
      | none =>
        obtain ⟨error, herror⟩ := hmissing
        -- no symbol: the callback is admitted, and the status that is made up settles it
        have hcall : exec (bridged none missing (read cs) call) lent.memory
            = (.ok missing, lent.memory) := rfl
        rw [exec_bind_ok (exec_admitting_of_published (s := lent) hout hcall), hfinish, herror, hstatus]
        exact .missing error heap hcross hresolved hroom rfl
      | some g =>
        have hcall : exec (bridged (some g) missing (read cs) call) lent.memory
            = (.ok (g meant), { heap, calls := s.memory.calls ++ [call meant] }) := by
          rw [← hmeant]
          rfl
        rw [exec_bind_ok (exec_admitting_of_published (s := lent) hout hcall), hfinish]
        exact .called g heap hcross hresolved hroom rfl
  · have hsome := hcross
    push Not at hsome
    obtain ⟨error, hexec⟩ := exec_stored_error s.memory hsome
    have hstored : exec (inMemory (stored values)) s = (.error error, s) := by
      rw [exec_inMemory, hexec]
    rw [exec_bind_error hstored]
    exact .refused error s.memory.heap hcross

/-- A check before the rest of the method. -/
theorem Offered.check {guard : Except RuntimeError Unit} {body : StreamM ident Root α}
    (h : Offered admitted symbol status call meant finish key root presence presence' s
      (exec body s)) :
    Offered (guard = .ok () ∧ admitted) symbol status call meant finish key root presence presence' s
      (exec (ofExcept guard >>= fun _ => body) s) := by
  cases guard with
  | error error =>
    rw [exec_bind_error (exec_ofExcept _ _)]
    exact .refused error s.memory.heap fun h => by cases h.1
  | ok =>
    rw [exec_bind_ok (exec_ofExcept _ _)]
    exact h.congr ⟨fun h => ⟨rfl, h⟩, And.right⟩

/-- The lane's check comes first of all. -/
theorem Offered.withCallbackMutation {isOpen : Bool} {body : StreamM ident Root α}
    (h : Offered admitted symbol status call meant finish key root presence presence' s
      (exec body s)) :
    Offered (isOpen = true ∧ admitted) symbol status call meant finish key root presence presence' s
      (exec (withCallbackMutation isOpen body) s) := by
  cases isOpen with
  | false => exact .refused .closed s.memory.heap fun h => by cases h.1
  | true => exact h.congr ⟨fun h => ⟨rfl, h⟩, And.right⟩

end Offered

/-! ## The methods -/

section Methods

variable {I Root : Type} {ident : StreamCallbackKey String → I} [DecidableEq I] (core : GrantCore)
  (isOpen : Bool) (broken : List UInt8 → Nat) (root : Root)
  (presence presence' : StreamCallbackKey String → Int32) (s : StreamMemory ident Root)

/-- What `preparePublishGrant` asks for before Core is called. -/
structure StreamPublish.Admitted (spec : StreamPublish String) : Prop where
  isOpen : isOpen = true
  feature : requireCoreFeature core.ownerGrantsAvailable "query Core lane-owner grants" = .ok ()
  strings : ∀ value ∈ [spec.sessionID, spec.authorizationToken], Crosses value

def publishGranted (answer : Int32 × StreamPublishGrantRecord) :
    Except RuntimeError StreamPublishGrant :=
  (throwIfNativeError answer.1 "stream_lane_prepare_publish_grant").map fun _ => answer.2.grant broken

/-- **Preparing a publisher offers Core its specification.** -/
theorem preparePublishGrant_offered (spec : StreamPublish String) :
    Offered (spec.Admitted core isOpen) core.preparePublishGrant Prod.fst .preparePublishGrant
      (some spec.meant) (publishGranted broken) ⟨spec.sessionID, .publish⟩ root presence presence' s
      (exec (preparePublishGrant core isOpen root presence presence' broken spec) s) := by
  unfold preparePublishGrant
  refine (Offered.withCallbackMutation (Offered.check (offered_stored
    (fun cs heap h => StreamPublish.read_record h) ?_ ?_ ?_ s))).congr ?_
  · rintro ⟨status, grant⟩ s
    unfold publishGranted
    dsimp only
    cases throwIfNativeError status "stream_lane_prepare_publish_grant" <;> rfl
  · exact ⟨_, rfl⟩
  · rfl
  · exact ⟨fun ⟨h1, h2, h3⟩ => ⟨h1, h2, h3⟩, fun ⟨h1, h2, h3⟩ => ⟨h1, h2, h3⟩⟩

/-- **So does subscribing.** -/
theorem subscribe_offered (spec : StreamSubscribe String) :
    Offered (isOpen = true ∧
        ∀ value ∈ [spec.sessionID, spec.authorizationToken, spec.remoteHost], Crosses value)
      core.subscribe id .subscribe (some spec.meant)
      (fun status => throwIfNativeError status "stream_lane_subscribe") ⟨spec.sessionID, .subscribe⟩
      root presence presence' s (exec (subscribe core isOpen root presence presence' spec) s) := by
  unfold subscribe
  refine Offered.withCallbackMutation (offered_stored
    (fun cs heap h => StreamSubscribe.read_record h) ?_ ?_ ?_ s)
  · exact fun status s => exec_ofExcept s _
  · exact ⟨_, rfl⟩
  · rfl

end Methods

/-! ## The way of a grant -/

/-- Core reads of a subscription what it left in the grant. -/
structure StreamPublishGrantRecord.Arrives (record : StreamPublishGrantRecord)
    (sent : StreamSubscribe (List UInt8)) : Prop where
  sessionID : sent.sessionID = record.sessionID.text
  authorizationToken : sent.authorizationToken = record.authorizationToken.text
  remoteHost : sent.remoteHost = record.owner.advertisedHost.text
  remotePort : sent.remotePort = record.owner.port
  formatID : sent.formatID = record.formatID
  maxFrameBytes : sent.maxFrameBytes = record.maxFrameBytes

structure StreamPublishGrantRecord.Utf8 (record : StreamPublishGrantRecord) : Prop where
  sessionID : record.sessionID.Utf8
  authorizationToken : record.authorizationToken.Utf8
  advertisedHost : record.owner.advertisedHost.Utf8

section StreamArrival

variable (broken : List UInt8 → Nat)

/-- The texts are what may be lost between the two sides; the numbers are not. -/
theorem StreamPublishGrantRecord.arrives_iff (record : StreamPublishGrantRecord)
    (initialWindowBytes timeoutMs : UInt32) :
    record.Arrives ((record.grant broken).subscribeSpec initialWindowBytes timeoutMs).meant
      ↔ record.Utf8 := by
  have hid := record.sessionID.string_exact_iff broken
  have htoken := record.authorizationToken.string_exact_iff broken
  have hhost := record.owner.advertisedHost.string_exact_iff broken
  constructor
  · rintro ⟨h1, h2, h3, -, -, -⟩
    exact ⟨hid.mp h1, htoken.mp h2, hhost.mp h3⟩
  · rintro ⟨h1, h2, h3⟩
    exact ⟨hid.mpr h1, htoken.mpr h2, hhost.mpr h3, rfl, rfl, rfl⟩

/-- **A stream grant arrives as it was issued.** `preparePublishGrant` calls Core once, with exactly
the texts and numbers of its specification, where its checks and the callback owners let it pass, and
not at all otherwise; decoding admits whatever was encoded. Wherever the grant that Core's record
became is presented, no check but that of the lane can turn it away: it reaches the owners, and unless
these refuse it Core is called once, and reads the record's session, token, endpoint, format and
frame bound, if and only if the three texts among them are UTF-8. The owners are left as an admission
that got Core's status leaves them. -/
theorem stream_grant_arrives {I Root : Type} {ident : StreamCallbackKey String → I} [DecidableEq I] :
    (∀ (core : GrantCore) (isOpen : Bool) (spec : StreamPublish String) (root : Root)
      (presence presence' : StreamCallbackKey String → Int32) (s : StreamMemory ident Root),
      Offered (spec.Admitted core isOpen) core.preparePublishGrant Prod.fst .preparePublishGrant
        (some spec.meant) (publishGranted broken) ⟨spec.sessionID, .publish⟩ root presence presence' s
        (exec (preparePublishGrant core isOpen root presence presence' broken spec) s)) ∧
    (∀ (E : Type) (grant : StreamPublishGrant),
      StreamPublishGrant.decode (grant.encode : StreamPublishGrant.Container E) = .ok grant) ∧
    ∀ (record : StreamPublishGrantRecord) (core : GrantCore) (isOpen : Bool)
      (initialWindowBytes timeoutMs : UInt32) (root : Root)
      (presence presence' : StreamCallbackKey String → Int32) (s : StreamMemory ident Root),
      ∃ sent : StreamSubscribe (List UInt8), (record.Arrives sent ↔ record.Utf8) ∧
        sent.initialWindowBytes = initialWindowBytes ∧ sent.timeoutMs = timeoutMs ∧
        Offered (isOpen = true) core.subscribe id .subscribe (some sent)
          (fun status => throwIfNativeError status "stream_lane_subscribe")
          ⟨record.sessionID.string broken, .subscribe⟩ root presence presence' s
          (exec (subscribe core isOpen root presence presence'
            ((record.grant broken).subscribeSpec initialWindowBytes timeoutMs)) s) := by
  refine ⟨fun core isOpen spec root presence presence' s =>
    preparePublishGrant_offered core isOpen broken root presence presence' s spec,
    fun E grant => rfl, ?_⟩
  intro record core isOpen initialWindowBytes timeoutMs root presence presence' s
  -- what was read from a fixed array has no NUL and is short enough, so it crosses
  have hid := record.sessionID.string_crosses broken (by decide)
  have htoken := record.authorizationToken.string_crosses broken (by decide)
  have hhost := record.owner.advertisedHost.string_crosses broken (by decide)
  refine ⟨_, record.arrives_iff broken initialWindowBytes timeoutMs, rfl, rfl, ?_⟩
  refine (subscribe_offered core isOpen root presence presence' s _).congr
    ⟨And.left, fun h => ⟨h, ?_⟩⟩
  simp only [List.forall_mem_cons, List.not_mem_nil, false_imp_iff, implies_true, and_true]
  exact ⟨hid, htoken, hhost⟩

end StreamArrival

end CoAkka.Grant
