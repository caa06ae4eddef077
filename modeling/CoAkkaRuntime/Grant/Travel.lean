import CoAkkaRuntime.Grant.Calls

/-!
# Grant — a grant arrives as it was issued

What Core left in a grant is what Core reads on the other side, if and only if the arrays that are
carried on hold UTF-8: an ill-formed text is repaired on the way out of its array, and is another
text from then on. Nothing else is lost, and a grant that Core issued is never refused on the way.

* `Presented` — a method that has one call of Core in it: refused before it with nothing changed, or
  called once with the record that its specification says.
* `presented_stored`, `Presented.check`, `Presented.withLane` — the rules by which the three methods
  are brought into that form, one for each kind of statement in them.
* `FileReceiveGrantRecord.arrives_iff` — what arrives is what was issued exactly for UTF-8.
* `file_grant_arrives` — the way of a grant from end to end.
-/

namespace CoAkka.Grant

open Lane (requireCoreFeature)
open Text Throwing Transport

/-! ## Arrays

A fixed array holds a text up to its first zero byte, and its bytes need not be UTF-8.
-/

/-- Reading an array through its address gives its bytes. -/
theorem window_toList {n : Nat} (value : CharArray n) :
    window (fun address => value.toList.getD address 0) 0 n = value.toList := by
  have hwindow : ∀ (bytes : List UInt8) (start : Nat) (memory : Nat → UInt8),
      (∀ i < bytes.length, memory (start + i) = bytes.getD i 0) →
      window memory start bytes.length = bytes := by
    intro bytes
    induction bytes with
    | nil => exact fun _ _ _ => rfl
    | cons b bytes ih =>
      intro start memory h
      have hfirst := h 0 (Nat.zero_lt_succ _)
      rw [Nat.add_zero] at hfirst
      rw [List.length_cons, window, hfirst, ih (start + 1) memory]
      · rfl
      · intro i hi
        rw [Nat.add_assoc, Nat.add_comm 1 i]
        exact h (i + 1) (Nat.succ_lt_succ hi)
  have hlength : value.toList.length = n := by simp
  have hwhole := hwindow value.toList 0 (fun address => value.toList.getD address 0)
    fun i _ => by rw [Nat.zero_add]
  rwa [hlength] at hwhole

namespace CharArray

variable {n : Nat} (value : CharArray n) (broken : List UInt8 → Nat)

/-- A text that comes out of an array is what stands before its zero, repaired. -/
theorem string_eq : value.string broken = String.ofList (repair broken value.text) := by
  unfold string
  rw [fixedString_text, window_toList]
  rfl

/-- The array holds UTF-8. -/
def Utf8 : Prop := (ByteArray.mk value.text.toArray).IsValidUTF8

/-- **It is that text, byte for byte, exactly where it was UTF-8.** -/
theorem string_exact_iff :
    (value.string broken).toByteArray.data.toList = value.text ↔ value.Utf8 := by
  rw [string_eq]
  exact repair_exact_iff broken value.text

/-- A text has at most four bytes for each character. -/
theorem utf8ByteSize_le (s : String) : s.utf8ByteSize ≤ 4 * s.toList.length := by
  have hsize : s.utf8ByteSize = s.toByteArray.data.toList.length := by
    rw [Array.length_toList]
    rfl
  rw [hsize, toByteArray_data_toList]
  induction s.toList with
  | nil => exact Nat.le_refl 0
  | cons c l ih =>
    have hchar := c.utf8Size_le_four
    rw [List.flatMap_cons, List.length_append, List.length_cons, String.length_utf8EncodeChar]
    omega

/-- What comes out of an array goes back to C. -/
theorem string_crosses (hn : n ≤ 2 ^ 28) : Crosses (value.string broken) := by
  rw [string_eq]
  constructor
  · apply zero_notMem_toByteArray
    rw [String.toList_ofList]
    apply nul_notMem_repair
    intro hmem
    simpa using List.mem_takeWhile_imp hmem
  · have hsize := utf8ByteSize_le (String.ofList (repair broken value.text))
    have hchars := length_repair_le broken value.text
    have htext : value.text.length ≤ n := by
      have hle := (List.takeWhile_prefix (l := value.toList) (· ≠ 0)).length_le
      rwa [Vector.length_toList] at hle
    rw [String.toList_ofList] at hsize
    omega

end CharArray

/-! ## Calls

The strings of a record are stored before the call and read by Core behind it; or one of them
cannot cross, and nothing is called.
-/

def textBytes (s : String) : List UInt8 := s.toByteArray.data.toList

theorem exec_stored_error {values : List String} (memory : LaneMemory)
    (h : ∃ value ∈ values, ¬ Crosses value) :
    ∃ error, exec (stored values) memory = (.error error, memory) := by
  obtain ⟨error, herror⟩ := exec_nativeCStringStorage_error memory.heap h
  refine ⟨error, ?_⟩
  show ((exec (nativeCStringStorage values) memory.heap).1,
    ({ memory with heap := (exec (nativeCStringStorage values) memory.heap).2 } : LaneMemory)) = _
  rw [herror]

/-- The strings that a call borrows, where C can read them. -/
structure Borrowed (values : List String) (cs : List Nat) (heap : Heap) : Prop where
  reading : ∀ (i : Nat) (value : String), values[i]? = some value →
    cReading heap cs[i]! = some (textBytes value)

theorem exec_stored_ok {values : List String} (memory : LaneMemory)
    (h : ∀ value ∈ values, Crosses value) :
    ∃ cs heap, exec (stored values) memory = (.ok cs, { memory with heap }) ∧ Borrowed values cs heap := by
  obtain ⟨cs, heap, hexec⟩ : ∃ cs heap, exec (nativeCStringStorage values) memory.heap = (.ok cs, heap) :=
    ⟨_, _, exec_nativeCStringStorage_ok h⟩
  refine ⟨cs, heap, ?_, ⟨fun i value hvalue => ?_⟩⟩
  · show ((exec (nativeCStringStorage values) memory.heap).1,
      ({ memory with heap := (exec (nativeCStringStorage values) memory.heap).2 } : LaneMemory)) = _
    rw [hexec]
  · obtain ⟨hi, rfl⟩ := List.getElem?_eq_some_iff.mp hvalue
    obtain ⟨pointer, hat, hread⟩ := (storedWhole hexec).reading i hi
    rw [List.getElem!_of_getElem? hat]
    exact hread

/-- The end of a lane's method that makes one call of Core: it is made, with `read`, exactly where
everything before it let it pass and the symbol is there. -/
inductive Presented {Read Answer α : Type} (admitted : Prop) (symbol : Option (Read → Answer))
    (call : Read → GrantCall) (read : Read) (finish : Answer → Except RuntimeError α)
    (memory : LaneMemory) : Except RuntimeError α × LaneMemory → Prop where
  | refused (error : RuntimeError) (heap : Heap) (h : ¬ (admitted ∧ symbol.isSome)) :
      Presented admitted symbol call read finish memory (.error error, { memory with heap })
  | called (f : Read → Answer) (heap : Heap) (hadmitted : admitted) (hsymbol : symbol = some f) :
      Presented admitted symbol call read finish memory
        (finish (f read), { heap, calls := memory.calls ++ [call read] })

section Presented

variable {Read Answer α : Type} {admitted : Prop} {symbol : Option (Read → Answer)}
  {call : Read → GrantCall} {meant : Read} {finish : Answer → Except RuntimeError α}
  {memory : LaneMemory}

theorem Presented.congr {admitted' : Prop} {out : Except RuntimeError α × LaneMemory}
    (hiff : admitted ↔ admitted') (h : Presented admitted symbol call meant finish memory out) :
    Presented admitted' symbol call meant finish memory out := by
  rwa [← propext hiff]

/-- The storage of the strings, the call, and what is made of its answer. -/
theorem presented_stored {values : List String} {read : List Nat → Heap → Read} {missing : Answer}
    {f : Answer → GrantM α} (hread : ∀ cs heap, Borrowed values cs heap → read cs heap = meant)
    (hfinish : ∀ answer memory, exec (f answer) memory = (finish answer, memory))
    (hmissing : ∃ error, finish missing = .error error) (memory : LaneMemory) :
    Presented (∀ value ∈ values, Crosses value) symbol call meant finish memory
      (exec (stored values >>= fun cs => bridged symbol missing (read cs) call >>= f) memory) := by
  by_cases hcross : ∀ value ∈ values, Crosses value
  · obtain ⟨cs, heap, hstored, hborrowed⟩ := exec_stored_ok memory hcross
    have hmeant := hread cs heap hborrowed
    rw [exec_bind_ok hstored]
    cases symbol with
    | none =>
      -- no symbol: the bridge answers without a call
      obtain ⟨error, herror⟩ := hmissing
      show Presented _ _ _ _ _ _ (exec (f missing) { memory with heap })
      rw [hfinish, herror]
      exact .refused error heap fun h => by cases h.2
    | some g =>
      show Presented _ _ _ _ _ _ (exec (f (g (read cs heap)))
        { heap, calls := memory.calls ++ [call (read cs heap)] })
      rw [hmeant, hfinish]
      exact .called g heap hcross rfl
  · have hsome := hcross
    push Not at hsome
    obtain ⟨error, herror⟩ := exec_stored_error memory hsome
    rw [exec_bind_error herror]
    exact .refused error memory.heap fun h => hcross h.1

/-- A check before the rest of the method. -/
theorem Presented.check {guard : Except RuntimeError Unit} {body : GrantM α}
    (h : Presented admitted symbol call meant finish memory (exec body memory)) :
    Presented (guard = .ok () ∧ admitted) symbol call meant finish memory
      (exec (ofExcept guard >>= fun _ => body) memory) := by
  cases guard with
  | error error =>
    rw [exec_bind_error (exec_ofExcept _ _)]
    exact .refused error memory.heap fun h => by cases h.1.1
  | ok =>
    rw [exec_bind_ok (exec_ofExcept _ _)]
    exact h.congr ⟨fun h => ⟨rfl, h⟩, And.right⟩

/-- The lane's check comes before what is done with it. -/
theorem Presented.withLane {isOpen : Bool} {body : GrantM α}
    (h : Presented admitted symbol call meant finish memory (exec body memory)) :
    Presented (isOpen = true ∧ admitted) symbol call meant finish memory
      (exec (withLane isOpen body) memory) := by
  cases isOpen with
  | false => exact .refused .closed memory.heap fun h => by cases h.1.1
  | true => exact h.congr ⟨fun h => ⟨rfl, h⟩, And.right⟩

end Presented

/-! ## What Core reads -/

/-- What a specification says to Core. -/
def FileReceive.meant (spec : FileReceiveSpec) : Option FileReceiveRead :=
  (digest? spec.expectedSHA256.bytes).map fun expectedSHA256 =>
    { transferID := textBytes spec.transferID
      authorizationToken := textBytes spec.authorizationToken
      destinationPath := textBytes spec.destinationPath
      expectedSize := spec.expectedSize
      expectedSHA256 }

def FileSend.meant (spec : FileSendSpec) : Option FileSendRead :=
  (digest? spec.expectedSHA256.bytes).map fun expectedSHA256 =>
    { transferID := textBytes spec.transferID
      authorizationToken := textBytes spec.authorizationToken
      remoteHost := textBytes spec.remoteHost
      remotePort := spec.remotePort
      sourcePath := textBytes spec.sourcePath
      expectedSize := spec.expectedSize
      expectedSHA256
      timeoutMs := spec.timeoutMs }

section Reads

variable {cs : List Nat} {heap : Heap}

/-- Core reads of the packed record what the specification says. -/
theorem FileReceive.read_record {spec : FileReceiveSpec}
    (h : Borrowed [spec.transferID, spec.authorizationToken, spec.destinationPath] cs heap) :
    (spec.record cs).read heap = spec.meant := by
  have hid := h.reading 0 _ rfl
  have htoken := h.reading 1 _ rfl
  have hpath := h.reading 2 _ rfl
  unfold FileReceive.read FileReceive.record FileReceive.meant
  rw [hid, htoken, hpath]
  cases digest? spec.expectedSHA256.bytes <;> rfl

theorem FileSend.read_record {spec : FileSendSpec}
    (h : Borrowed [spec.transferID, spec.authorizationToken, spec.remoteHost, spec.sourcePath] cs heap) :
    (spec.record cs).read heap = spec.meant := by
  have hid := h.reading 0 _ rfl
  have htoken := h.reading 1 _ rfl
  have hhost := h.reading 2 _ rfl
  have hpath := h.reading 3 _ rfl
  unfold FileSend.read FileSend.record FileSend.meant
  rw [hid, htoken, hhost, hpath]
  cases digest? spec.expectedSHA256.bytes <;> rfl

end Reads

/-! ## The methods -/

section Methods

variable (core : GrantCore) (isOpen : Bool) (broken : List UInt8 → Nat) (memory : LaneMemory)

/-- The guard asks for 32 bytes and nothing else. -/
theorem requireDigest_eq_ok_iff {sha : Data} : requireDigest sha = .ok () ↔ sha.count = 32 := by
  unfold requireDigest
  split <;> simp_all

/-- What `prepareReceiveGrant` asks for before Core is called. -/
structure FileReceive.Admitted (spec : FileReceiveSpec) : Prop where
  digest : spec.expectedSHA256.count = 32
  isOpen : isOpen = true
  feature : requireCoreFeature core.ownerGrantsAvailable "query Core lane-owner grants" = .ok ()
  strings : ∀ value ∈ [spec.transferID, spec.authorizationToken, spec.destinationPath], Crosses value

/-- The grant that comes of Core's answer. -/
def receiveGranted (answer : Int32 × FileReceiveGrantRecord) : Except RuntimeError FileReceiveGrant :=
  (throwIfNativeError answer.1 "file_lane_prepare_receive_grant").map fun _ => answer.2.grant broken

/-- **Preparing a receiver presents its specification**, with a grant or without. -/
theorem prepareReceiveGrant_presented (spec : FileReceiveSpec) :
    Presented (spec.Admitted core isOpen) core.prepareReceiveGrant .prepareReceiveGrant spec.meant
      (receiveGranted broken) memory (exec (prepareReceiveGrant core isOpen broken spec) memory) := by
  unfold prepareReceiveGrant
  refine (Presented.check (Presented.withLane (Presented.check (presented_stored
    (fun cs heap h => FileReceive.read_record h) ?_ ?_ memory)))).congr ?_
  · rintro ⟨status, grant⟩ memory
    unfold receiveGranted
    dsimp only
    cases throwIfNativeError status "file_lane_prepare_receive_grant" <;> rfl
  · exact ⟨_, rfl⟩
  · rw [requireDigest_eq_ok_iff]
    exact ⟨fun ⟨h1, h2, h3, h4⟩ => ⟨h1, h2, h3, h4⟩, fun ⟨h1, h2, h3, h4⟩ => ⟨h1, h2, h3, h4⟩⟩

theorem prepareReceive_presented (spec : FileReceiveSpec) :
    Presented (spec.expectedSHA256.count = 32 ∧ isOpen = true ∧
        ∀ value ∈ [spec.transferID, spec.authorizationToken, spec.destinationPath], Crosses value)
      core.prepareReceive .prepareReceive spec.meant
      (fun status => throwIfNativeError status "file_lane_prepare_receive") memory
      (exec (prepareReceive core isOpen spec) memory) := by
  unfold prepareReceive
  refine (Presented.check (Presented.withLane (presented_stored
    (fun cs heap h => FileReceive.read_record h) ?_ ?_ memory))).congr ?_
  · exact fun status memory => exec_ofExcept memory _
  · exact ⟨_, rfl⟩
  · rw [requireDigest_eq_ok_iff]

/-- **So does a submission.** -/
theorem submitSend_presented (spec : FileSendSpec) :
    Presented (spec.expectedSHA256.count = 32 ∧ isOpen = true ∧ ∀ value ∈
        [spec.transferID, spec.authorizationToken, spec.remoteHost, spec.sourcePath], Crosses value)
      core.submitSend .submitSend spec.meant
      (fun status => throwIfNativeError status "file_lane_submit_send") memory
      (exec (submitSend core isOpen spec) memory) := by
  unfold submitSend
  refine (Presented.check (Presented.withLane (presented_stored
    (fun cs heap h => FileSend.read_record h) ?_ ?_ memory))).congr ?_
  · exact fun status memory => exec_ofExcept memory _
  · exact ⟨_, rfl⟩
  · rw [requireDigest_eq_ok_iff]

end Methods

/-! ## The way of a grant -/

/-- Core reads of a submission what it left in the grant. -/
structure FileReceiveGrantRecord.Arrives (record : FileReceiveGrantRecord) (sent : FileSendRead) :
    Prop where
  transferID : sent.transferID = record.transferID.text
  authorizationToken : sent.authorizationToken = record.authorizationToken.text
  remoteHost : sent.remoteHost = record.owner.advertisedHost.text
  remotePort : sent.remotePort = record.owner.port
  expectedSize : sent.expectedSize = record.expectedSize
  expectedSHA256 : sent.expectedSHA256 = record.expectedSHA256

/-- The arrays whose text is carried on hold UTF-8. -/
structure FileReceiveGrantRecord.Utf8 (record : FileReceiveGrantRecord) : Prop where
  transferID : record.transferID.Utf8
  authorizationToken : record.authorizationToken.Utf8
  advertisedHost : record.owner.advertisedHost.Utf8

/-- A digest that came out of a record goes back into one. -/
theorem digest?_digestData (digest : Vector UInt8 32) : digest? (digestData digest).bytes = some digest := by
  have hlength : digest.toList.length = 32 := Vector.length_toList
  unfold digest? digestData
  rw [dif_pos (Nat.le_of_eq hlength.symm), Option.some.injEq, ← Vector.toList_inj]
  show ((digest.toList.take 32).toArray).toList = digest.toList
  rw [List.take_of_length_le (Nat.le_of_eq hlength)]

theorem count_digestData (digest : Vector UInt8 32) : (digestData digest).count = 32 :=
  Vector.length_toList

section Arrival

variable (broken : List UInt8 → Nat)

/-- What Core reads when a grant is presented. -/
def FileReceiveGrantRecord.presented (record : FileReceiveGrantRecord) (sourcePath : String)
    (timeoutMs : UInt32) : FileSendRead where
  transferID := textBytes (record.transferID.string broken)
  authorizationToken := textBytes (record.authorizationToken.string broken)
  remoteHost := textBytes (record.owner.advertisedHost.string broken)
  remotePort := record.owner.port
  sourcePath := textBytes sourcePath
  expectedSize := record.expectedSize
  expectedSHA256 := record.expectedSHA256
  timeoutMs := timeoutMs

/-- What the application makes of a grant says to Core what the grant says. -/
theorem meant_sendSpec (record : FileReceiveGrantRecord) (sourcePath : String) (timeoutMs : UInt32) :
    ((record.grant broken).sendSpec sourcePath timeoutMs).meant
      = some (record.presented broken sourcePath timeoutMs) := by
  unfold FileSend.meant
  have hdigest : digest? ((record.grant broken).sendSpec sourcePath timeoutMs).expectedSHA256.bytes
      = some record.expectedSHA256 := digest?_digestData record.expectedSHA256
  rw [hdigest]
  rfl

/-- The texts are what may be lost between the two sides; the rest is not. -/
theorem FileReceiveGrantRecord.arrives_iff (record : FileReceiveGrantRecord) (sourcePath : String)
    (timeoutMs : UInt32) :
    record.Arrives (record.presented broken sourcePath timeoutMs) ↔ record.Utf8 := by
  have hid := record.transferID.string_exact_iff broken
  have htoken := record.authorizationToken.string_exact_iff broken
  have hhost := record.owner.advertisedHost.string_exact_iff broken
  constructor
  · rintro ⟨h1, h2, h3, -, -, -⟩
    exact ⟨hid.mp h1, htoken.mp h2, hhost.mp h3⟩
  · rintro ⟨h1, h2, h3⟩
    exact ⟨hid.mpr h1, htoken.mpr h2, hhost.mpr h3, rfl, rfl, rfl⟩

/-- Of a presented grant only the path can be refused. -/
theorem sendSpec_crosses_iff (record : FileReceiveGrantRecord) (sourcePath : String)
    (timeoutMs : UInt32) :
    (∀ value ∈ [((record.grant broken).sendSpec sourcePath timeoutMs).transferID,
      ((record.grant broken).sendSpec sourcePath timeoutMs).authorizationToken,
      ((record.grant broken).sendSpec sourcePath timeoutMs).remoteHost, sourcePath], Crosses value)
      ↔ Crosses sourcePath := by
  have hid := record.transferID.string_crosses broken (by decide)
  have htoken := record.authorizationToken.string_crosses broken (by decide)
  have hhost := record.owner.advertisedHost.string_crosses broken (by decide)
  simp only [List.forall_mem_cons, List.not_mem_nil, false_imp_iff, implies_true, and_true]
  exact ⟨fun h => h.2.2.2, fun h => ⟨hid, htoken, hhost, h⟩⟩

/-- A grant is decoded as it was encoded, or refused for its digest. -/
theorem FileReceiveGrant.decode_encode {E : Type} (runtime : RuntimeError → E)
    (grant : FileReceiveGrant) : decode runtime grant.encode = if grant.expectedSHA256.count = 32
      then .ok grant
      else .error (runtime (.invalidArgument "expectedSHA256 must contain exactly 32 bytes")) := by
  by_cases hcount : grant.expectedSHA256.count = 32
  · rw [if_pos hcount]
    simp [decode, encode, bind, Except.bind, pure, Except.pure, hcount]
  · rw [if_neg hcount]
    simp [decode, encode, bind, Except.bind, throw, throwThe, MonadExceptOf.throw, hcount]

/-- **A file grant arrives as it was issued.** `prepareReceiveGrant` calls Core once, with exactly the
texts, size and digest of its specification, where its checks let it pass, and not at all otherwise,
and so does `prepareReceive`, which asks for no feature and gets no grant;
the grant that Core's record became survives encoding and decoding, which refuses a grant exactly
when its digest is not 32 bytes; and wherever it is presented to an open lane with a path that C can
take, Core is called once, and reads the record's transfer, token, endpoint, size and digest, if and
only if the three texts among them are UTF-8. -/
theorem file_grant_arrives :
    (∀ (core : GrantCore) (isOpen : Bool) (spec : FileReceiveSpec) (memory : LaneMemory),
      Presented (spec.Admitted core isOpen) core.prepareReceiveGrant .prepareReceiveGrant spec.meant
        (receiveGranted broken) memory (exec (prepareReceiveGrant core isOpen broken spec) memory)) ∧
    (∀ (core : GrantCore) (isOpen : Bool) (spec : FileReceiveSpec) (memory : LaneMemory),
      Presented (spec.expectedSHA256.count = 32 ∧ isOpen = true ∧
          ∀ value ∈ [spec.transferID, spec.authorizationToken, spec.destinationPath], Crosses value)
        core.prepareReceive .prepareReceive spec.meant
        (fun status => throwIfNativeError status "file_lane_prepare_receive") memory
        (exec (prepareReceive core isOpen spec) memory)) ∧
    (∀ (E : Type) (runtime : RuntimeError → E) (grant : FileReceiveGrant),
      FileReceiveGrant.decode runtime grant.encode = .ok grant ↔ grant.expectedSHA256.count = 32) ∧
    ∀ record : FileReceiveGrantRecord,
      (∀ (E : Type) (runtime : RuntimeError → E),
        FileReceiveGrant.decode runtime (record.grant broken).encode = .ok (record.grant broken)) ∧
      ∀ (core : GrantCore) (isOpen : Bool) (sourcePath : String) (timeoutMs : UInt32)
        (memory : LaneMemory),
        ∃ sent : FileSendRead, (record.Arrives sent ↔ record.Utf8) ∧
          sent.sourcePath = textBytes sourcePath ∧ sent.timeoutMs = timeoutMs ∧
          Presented (isOpen = true ∧ Crosses sourcePath) core.submitSend .submitSend (some sent)
            (fun status => throwIfNativeError status "file_lane_submit_send") memory
            (exec (submitSend core isOpen ((record.grant broken).sendSpec sourcePath timeoutMs))
              memory) := by
  refine ⟨fun core isOpen spec memory => prepareReceiveGrant_presented core isOpen broken memory spec,
    fun core isOpen spec memory => prepareReceive_presented core isOpen memory spec,
    ?_, fun record => ⟨?_, ?_⟩⟩
  · intro E runtime grant
    rw [FileReceiveGrant.decode_encode]
    by_cases hcount : grant.expectedSHA256.count = 32 <;> simp [hcount]
  · intro E runtime
    rw [FileReceiveGrant.decode_encode]
    exact if_pos (count_digestData record.expectedSHA256)
  · intro core isOpen sourcePath timeoutMs memory
    -- only the path is new to the other side; the rest of the record was read from arrays
    refine ⟨record.presented broken sourcePath timeoutMs, record.arrives_iff broken sourcePath timeoutMs,
      rfl, rfl, ?_⟩
    rw [← meant_sendSpec]
    refine (submitSend_presented core isOpen memory _).congr ?_
    have hcrosses := sendSpec_crosses_iff broken record sourcePath timeoutMs
    exact ⟨fun h => ⟨h.2.1, hcrosses.mp h.2.2⟩,
      fun h => ⟨count_digestData _, h.1, hcrosses.mpr h.2⟩⟩

end Arrival

end CoAkka.Grant
