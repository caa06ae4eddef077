import CoAkkaRuntime.Host.Startup
import CoAkkaRuntime.Transport.ConnectionOptions
import CoAkkaRuntime.Transport.SecurityOptions

/-!
# Host — what a host sends of its security, its connections and its start

The calls of `RuntimeTransport.swift` and `RuntimeStartup.swift` with the options that reach Core in
them. A security with a NUL in a string is refused before any call; every other one reaches Core as
it was asked for, and what Core answers is returned only where its two statuses agree.

* `applySecurity_lossless` — the options are what the spec says, for every spec and every Core.
* `connection_encoders_agree` — the two places that fill connection options fill them alike, and the
  startup record has a group exactly where the start has a value.

The options themselves and Core's reading of them are in `Transport`; here is that the methods send
these and nothing else.
-/

namespace CoAkka.Host

open Session Throwing Transport

/-! ## Security -/

/-- A security with NUL is refused, whatever the library is. -/
theorem exec_applySecurity_nul (core : StartupCore) (runtime : Address) {spec : TcpSecuritySpec}
    {error : RuntimeError} (h : spec.validate = .error error) (frame : StartFrame) :
    exec (applySecurity core runtime spec) frame = (.error error, frame) := by
  unfold applySecurity
  exact exec_bind_error (by rw [h, exec_ofExcept]) _

theorem exec_requireHandle_some {frame : StartFrame} {handle : Address}
    (h : frame.library = some handle) : exec requireHandle frame = (.ok handle, frame) := by
  unfold requireHandle
  rw [exec_get_bind, h, exec_pure]

theorem exec_requireHandle_none {frame : StartFrame} (h : frame.library = none) :
    exec requireHandle frame = (.error .closed, frame) := by
  unfold requireHandle
  rw [exec_get_bind, h, exec_throw]

/-- Without a library nothing is sent. -/
theorem exec_applySecurity_closed (core : StartupCore) (runtime : Address) {spec : TcpSecuritySpec}
    (h : spec.validate = .ok ()) {frame : StartFrame} (hlibrary : frame.library = none) :
    exec (applySecurity core runtime spec) frame = (.error .closed, frame) := by
  unfold applySecurity
  rw [exec_bind_ok (by rw [h, exec_ofExcept])]
  exact exec_bind_error (exec_requireHandle_none hlibrary) _

/-- With a library the options go to Core, and its answer is compared with them. -/
theorem exec_applySecurity (core : StartupCore) (runtime : Address) {spec : TcpSecuritySpec}
    (h : spec.validate = .ok ()) {frame : StartFrame} {handle : Address}
    (hlibrary : frame.library = some handle) {status : Int32} {native : TcpSecurityApplyRecord}
    (hanswer : core.applyTcpSecurityOptions runtime spec.options = (status, native)) :
    exec (applySecurity core runtime spec) frame
      = (if status = native.applyStatus then .ok (securityResult native)
          else .error (.nativeStatus status
            s!"security apply status mismatch (result {native.applyStatus})"),
        frame.logged [.applySecurity runtime status]) := by
  unfold applySecurity
  rw [exec_bind_ok (by rw [h, exec_ofExcept]), exec_bind_ok (exec_requireHandle_some hlibrary),
    hanswer]
  simp only [StartFrame.note]
  rw [exec_modify_bind]
  split <;> rfl

/-- **Security intent reaches Core.** A spec with NUL is refused before any native call. Any other
spec is sent in options that say what it says, which no other spec is sent in, and Core's answer is
returned only where the status of the call is the one in the answer. -/
theorem applySecurity_lossless (spec : TcpSecuritySpec) :
    (¬ spec.NulFree → ∃ name : String, ∀ core runtime frame,
      exec (applySecurity core runtime spec) frame
        = (.error (.invalidArgument s!"{name} must not contain NUL"), frame)) ∧
    (spec.NulFree → ∃ options : TcpSecurityOptions,
      EncodesSecurity spec options ∧
      (∀ spec' : TcpSecuritySpec, spec'.NulFree → spec'.options = options → spec' = spec) ∧
      ∀ core runtime (frame : StartFrame),
        (frame.library = none →
          exec (applySecurity core runtime spec) frame = (.error .closed, frame)) ∧
        ∀ handle status native, frame.library = some handle →
          core.applyTcpSecurityOptions runtime options = (status, native) →
          exec (applySecurity core runtime spec) frame
            = (if status = native.applyStatus then .ok (securityResult native)
                else .error (.nativeStatus status
                  s!"security apply status mismatch (result {native.applyStatus})"),
              frame.logged [.applySecurity runtime status])) := by
  constructor
  · intro hnul
    obtain ⟨name, hvalidate⟩ := spec.validate_of_not_nulFree hnul
    exact ⟨name, fun core runtime frame => exec_applySecurity_nul core runtime hvalidate frame⟩
  · intro hfree
    have hvalidate := spec.validate_of_nulFree hfree
    refine ⟨spec.options, TcpSecuritySpec.encodes_options hfree, ?_, ?_⟩
    · exact fun spec' hfree' heq => TcpSecuritySpec.options_inj hfree' hfree heq
    · intro core runtime frame
      exact ⟨exec_applySecurity_closed core runtime hvalidate, fun handle status native hlibrary =>
        exec_applySecurity core runtime hvalidate hlibrary⟩

/-! ## Connections and the start -/

/-- What `applyConnection` sends is what the specification encodes to. -/
theorem applyConnection_sent {Handle Runtime : Type}
    (apply : Runtime → TcpConnectionOptions → Int32 × TcpConnectionApplyRecord)
    (library : Option Handle) (runtime : Runtime) (spec : TcpConnectionStrategySpec) :
    (applyConnection apply library runtime spec).1
      = library.map fun _ => appliedConnectionOptions spec := by
  cases library with
  | none => rfl
  | some handle =>
    unfold applyConnection
    simp only
    split <;> rfl

/-- The one call of `createNative`, with the startup options in it. -/
theorem exec_createNative_log (core : StartupCore) (spec : ConnectorStartSpec) {frame : StartFrame}
    {handle : Address} (hlibrary : frame.library = some handle) {status : Int32}
    {runtime : Option Address}
    (hanswer : core.createNative spec.runtimeConfig spec.startupOptions = (status, runtime)) :
    (exec (createNative core spec) frame).2 = frame.logged [.createNative status runtime] := by
  unfold createNative
  rw [exec_bind_ok (exec_requireHandle_some hlibrary), hanswer]
  simp only [StartFrame.note]
  rw [exec_modify_bind, exec_bind, exec_ofExcept]
  cases throwIfNativeError status "create native runtime" with
  | error error => rfl
  | ok => cases runtime <;> rfl

/-- **One encoding of the connection strategy.** What `applyConnection` sends is what a start sends,
and it says what the strategy says. A start sends a group where it has a value, so that starts which
ask for different things send different options. -/
theorem connection_encoders_agree :
    (∀ (spec : TcpConnectionStrategySpec) (library : Option Address) (runtime : Address) apply,
      appliedConnectionOptions spec = connectionOptions (some spec) ∧
      EncodesConnection spec (appliedConnectionOptions spec) ∧
      (applyConnection apply library runtime spec).1
        = library.map fun _ => appliedConnectionOptions spec) ∧
    ∀ spec : ConnectorStartSpec, ∃ options : StartupOptions,
      EncodesStart spec options ∧
      (∀ spec' : ConnectorStartSpec, spec'.startupOptions = options → spec'.intent = spec.intent) ∧
      ∀ (core : StartupCore) (frame : StartFrame) handle status runtime,
        frame.library = some handle →
        core.createNative spec.runtimeConfig options = (status, runtime) →
        (exec (createNative core spec) frame).2 = frame.logged [.createNative status runtime] := by
  constructor
  · intro spec library runtime apply
    have heq := appliedConnectionOptions_eq spec
    refine ⟨heq, ?_, applyConnection_sent apply library runtime spec⟩
    rw [heq]
    exact encodes_connectionOptions spec
  · intro spec
    refine ⟨spec.startupOptions, spec.encodes_startupOptions, ?_, ?_⟩
    · exact fun spec' => ConnectorStartSpec.intent_eq_of_startupOptions
    · intro core frame handle status runtime hlibrary hanswer
      exact exec_createNative_log core spec hlibrary hanswer

end CoAkka.Host
