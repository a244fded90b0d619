import CarrierSdk.FileTransfer.FileTransfer
import CarrierSdk.Library.Machine
import CarrierSdk.Session.Session

/-! The state of a file transfer's connection and its reports to the application, which may
close the transfer inside a report. Assertions are off, as in a release build. -/
namespace CarrierSdk.FileTransfer

/-- struct ElaFileTransfer, as far as its connection goes. The stream is absent where the field
is not positive, and is known by the state that it reported last. The flag closed says that
the application has closed the transfer. -/
structure Connection where
  state : FileTransferConnection
  senderReceiver : Role
  fileid : List Char
  stream : Option StreamState
  error : Bool
  readyToConnect : Bool
  closed : Bool
  deriving DecidableEq

/-- The transfer and the states reported. -/
abbrev Reported := Connection × List FileTransferConnection

/-- What the calls to the session return, and the reports that the application answers by
closing the transfer. -/
structure SessionCalls where
  requested : Bool
  started : Bool
  closesAt : FileTransferConnection → Bool

abbrev Notify := Connection → FileTransferConnection → Reported

def Reported.notify (r : Reported) (notify : Notify) (state : FileTransferConnection) : Reported :=
  let q := notify r.1 state
  (q.1, r.2 ++ q.2)

/-- At least FileTransferConnection_closed. -/
def FileTransferConnection.terminal : FileTransferConnection → Bool
  | .closed | .failed => true
  | .initialized | .connecting | .connected => false

/-- What both sides do with an initialized stream, once the request or the reply is sent. -/
def streamInitialized (notify : Notify) (calls : SessionCalls) (ft : Connection) : Reported :=
  let r := notify ft .connecting
  if r.1.state.terminal || calls.requested then r else Reported.notify r notify .failed

/-- sender_state_changed. Opening the channel of the first file changes no state. -/
def senderStateChanged (notify : Notify) (calls : SessionCalls) (ft : Connection) : StreamState → Reported
  | .initialized => streamInitialized notify calls ft
  | .transportReady => ({ ft with readyToConnect := true }, [])
  | .connected => notify ft .connected
  | .failed => notify ft .failed
  | .closed => notify ft (if ft.error then .failed else .closed)
  | .connecting | .raw | .deactivated => (ft, [])

def receiverStateChanged (notify : Notify) (calls : SessionCalls) (ft : Connection) : StreamState → Reported
  | .initialized => streamInitialized notify calls ft
  | .transportReady => if calls.started then (ft, []) else notify ft .failed
  | .connected => notify ft .connected
  | .failed => notify ft .failed
  | .closed => notify ft .closed
  | .connecting | .raw | .deactivated => (ft, [])

/-- stream_base_on_state_chagned and stream_state_changed. -/
def streamStateChanged (notify : Notify) (calls : SessionCalls) (ft : Connection) (s : StreamState) : Reported :=
  let ft := { ft with stream := ft.stream.map fun _ => s }
  match ft.senderReceiver with
  | .unset => (ft, [])
  | .sender => senderStateChanged notify calls ft s
  | .receiver => receiverStateChanged notify calls ft s

/-- At most ElaStreamState_connected. -/
def streamRuns : StreamState → Bool
  | .raw | .initialized | .transportReady | .connecting | .connected => true
  | .deactivated | .closed | .failed => false

def Connection.running (ft : Connection) : Bool := ft.stream.any streamRuns

/-- notify_state_changed up to what the application does in its callback. -/
def report (ft : Connection) (state : FileTransferConnection) : Reported :=
  if ft.state = state then (ft, []) else ({ ft with state }, [state])

/-- ela_filetransfer_close. A stream that runs reports its closed state while it is removed.
The application closes a transfer only once. -/
def elaFiletransferClose (calls : SessionCalls) (ft : Connection) : Reported :=
  let r := if ft.running then streamStateChanged report calls ft .closed else (ft, [])
  ({ r.1 with stream := none, state := .closed, closed := true }, r.2)

def notifyStateChanged (calls : SessionCalls) : Notify := fun ft state =>
  if ft.state = state then (ft, [])
  else if calls.closesAt state then
    let r := elaFiletransferClose calls { ft with state }
    (r.1, state :: r.2)
  else ({ ft with state }, [state])

/-- remove_stream_secure, which forgets the stream before it is removed. -/
def removeStreamSecure (calls : SessionCalls) (ft : Connection) (error : Bool) : Reported :=
  let ft' := { ft with stream := none, error }
  if ft.running then streamStateChanged (notifyStateChanged calls) calls ft' .closed else (ft', [])

def bundlePrefix : List Char := "filetransfer".toList

/-- The words of the format %*s %45s in a bundle with a blank are those of the first file. -/
def Connection.accepts (ft : Connection) (bundle : List Char) : Bool :=
  !bundle.contains ' ' || match sscanf [.word bundle.length, .word 45] bundle with
    | [.word _, .word fileid] => fileid = ft.fileid
    | _ => false

/-- sessionreq_complete_callback, which waits until the transport is ready or the transfer
has failed. -/
def sessionreqCompleteCallback (calls : SessionCalls) (ft : Connection) (bundle : Option (List Char))
    (status : Int32) : Option Reported :=
  if ft.senderReceiver ≠ .sender then some (ft, [])
  else match bundle with
    | none => some (ft, [])
    | some bundle =>
      if !bundlePrefix.isPrefixOf bundle then some (ft, [])
      else if ft.state = .failed then some (ft, [])
      else if !ft.readyToConnect then none
      else if status ≠ 0 then some (removeStreamSecure calls ft false)
      else if !ft.accepts bundle then some (removeStreamSecure calls ft true)
      else if calls.started then some (ft, [])
      else some (removeStreamSecure calls ft true)

/-- ela_filetransfer_connect, and ela_filetransfer_accept_connect from where it has the
session description of the request. -/
def connectAs (role : Role) (added : Bool) (ft : Connection) : Connection :=
  if ft.state ≠ .initialized then ft
  else { ft with senderReceiver := role, stream := if added then some .raw else none }

inductive ConnectionInput
  | connect (added : Bool)
  | acceptConnect (request added : Bool)
  | streamState (s : StreamState) (calls : SessionCalls)
  | response (bundle : Option (List Char)) (status : Int32) (calls : SessionCalls)
  | close (calls : SessionCalls)

/-- Nothing uses a transfer that has been closed. -/
def connectionStep (ft : Connection) (input : ConnectionInput) : Option Reported :=
  if ft.closed then none else match input with
  | .connect added => some (connectAs .sender added ft, [])
  | .acceptConnect request added => some (if request then connectAs .receiver added ft else ft, [])
  | .streamState s calls => some (streamStateChanged (notifyStateChanged calls) calls ft s)
  | .response bundle status calls => sessionreqCompleteCallback calls ft bundle status
  | .close calls => some (elaFiletransferClose calls ft)

def connectionMachine : Machine Connection ConnectionInput FileTransferConnection := ⟨connectionStep⟩

/-- ela_filetransfer_new. -/
def Connection.new (fileid : List Char) : Connection := ⟨.initialized, .unset, fileid, none, false, false, false⟩

/-- notify_state_changed_cb of EasyFile: whether it releases its object. It refuses the states
that are not between the initialized and the closed one. -/
def easyFileReleases : FileTransferConnection → Bool
  | .initialized | .failed => false
  | .connecting | .connected => false
  | .closed => true

/-- Nothing is reported after a terminal state. -/
def TerminalOnce (os : List FileTransferConnection) : Prop :=
  ∀ before s after, os = before ++ s :: after → s.terminal = true → after = []

structure ReportedOnce (os : List FileTransferConnection) : Prop where
  terminal : TerminalOnce os
  released : os.countP easyFileReleases ≤ 1

/-! The states in which a transfer says nothing more. -/

/-- What an orderly end of the stream is reported as. -/
def Connection.closedAs (ft : Connection) : FileTransferConnection :=
  if ft.senderReceiver = .sender ∧ ft.error then .failed else .closed

/-- In a terminal state: the input is not reported as another state. -/
def staysSilent (ft : Connection) : ConnectionInput → Bool
  | .connect _ | .acceptConnect .. => true
  | .streamState s calls => ft.senderReceiver = .unset || match s with
    | .initialized | .connected => false
    | .transportReady => ft.senderReceiver = .sender || calls.started || ft.state = .failed
    | .failed => ft.state = .failed
    | .closed => ft.state = ft.closedAs
    | .connecting | .raw | .deactivated => true
  | .response bundle status calls =>
    ft.senderReceiver ≠ .sender || ft.state = .failed || !ft.running || status ≠ 0 ||
      bundle.all fun b => !bundlePrefix.isPrefixOf b || (ft.accepts b && calls.started)
  | .close _ => ft.senderReceiver = .unset || !ft.running || ft.state = ft.closedAs

/-- In any other state: when a failed request, reply or start is reported, the application does
not close the transfer with its stream. -/
def endsOnce (ft : Connection) : ConnectionInput → Bool
  | .streamState .initialized calls =>
    ft.senderReceiver = .unset || calls.requested || !calls.closesAt .failed || ft.stream.isNone ||
      (ft.state ≠ .connecting && calls.closesAt .connecting) || ft.closedAs = .failed
  | .streamState .transportReady calls =>
    ft.senderReceiver ≠ .receiver || calls.started || !calls.closesAt .failed || ft.stream.isNone
  | _ => true

def reportsOnce (ft : Connection) (input : ConnectionInput) : Bool :=
  if ft.state.terminal then staysSilent ft input else endsOnce ft input

/-! What one step reports. -/

/-- What closing the transfer reports. -/
def Connection.closeReports (ft : Connection) : List FileTransferConnection :=
  if ft.senderReceiver = .unset ∨ ft.running = false ∨ ft.state = ft.closedAs then [] else [ft.closedAs]

theorem elaFiletransferClose_reports (calls : SessionCalls) (ft : Connection) :
    (elaFiletransferClose calls ft).2 = ft.closeReports := by
  obtain ⟨state, role, fileid, stream, error, ready, closed⟩ := ft
  cases role <;> cases error <;>
    simp [elaFiletransferClose, Connection.closeReports, Connection.closedAs, streamStateChanged,
      senderStateChanged, receiverStateChanged, report] <;> grind

variable {calls : SessionCalls} {ft : Connection} {s : FileTransferConnection}

theorem notifyStateChanged_stays (h : ft.state = s ∨ calls.closesAt s = false) :
    notifyStateChanged calls ft s = ({ ft with state := s }, if ft.state = s then [] else [s]) := by
  unfold notifyStateChanged
  by_cases hsame : ft.state = s
  · cases hsame
    simp
  · simp [hsame, h.resolve_left hsame]

theorem notifyStateChanged_closes (hne : ft.state ≠ s) (h : calls.closesAt s = true) :
    (notifyStateChanged calls ft s).1.state = .closed ∧ (notifyStateChanged calls ft s).1.closed = true ∧
      (notifyStateChanged calls ft s).2 = s :: Connection.closeReports { ft with state := s } := by
  simp [notifyStateChanged, hne, h, elaFiletransferClose_reports]
  simp [elaFiletransferClose]

theorem notifyStateChanged_nil : (notifyStateChanged calls ft s).2 = [] ↔ ft.state = s := by
  by_cases h : ft.state ≠ s ∧ calls.closesAt s = true
  · simp [(notifyStateChanged_closes h.1 h.2).2.2, h.1]
  · rw [notifyStateChanged_stays (by simpa [or_iff_not_imp_left] using h)]
    simp

theorem closeReports_nil : ft.closeReports = [] ↔
    ft.senderReceiver = .unset ∨ ft.running = false ∨ ft.state = ft.closedAs := by
  unfold Connection.closeReports
  split <;> simp_all

theorem streamInitialized_nil (calls : SessionCalls) (ft : Connection) (h : ft.state.terminal = true) :
    (streamInitialized (notifyStateChanged calls) calls ft).2 ≠ [] := by
  have hne : (notifyStateChanged calls ft .connecting).2 ≠ [] := by
    rw [Ne, notifyStateChanged_nil]
    rintro hstate
    rw [hstate] at h
    cases h
  simp only [streamInitialized]
  split
  · exact hne
  · exact fun hnil => hne (List.append_eq_nil_iff.mp hnil).1

theorem streamStateChanged_nil (h : ft.state.terminal = true) (state : StreamState) :
    (streamStateChanged (notifyStateChanged calls) calls ft state).2 = [] ↔
      staysSilent ft (.streamState state calls) = true := by
  obtain ⟨st, role, fileid, stream, error, ready, closed⟩ := ft
  have hinit := streamInitialized_nil calls
    ⟨st, role, fileid, stream.map fun _ => state, error, ready, closed⟩ h
  have hconnected : st ≠ .connected := fun hst => by cases hst; cases h
  cases role <;> cases state <;>
    simp_all [streamStateChanged, senderStateChanged, receiverStateChanged, staysSilent, notifyStateChanged_nil,
      Connection.closedAs]
  -- What is left is the receiver's start.
  split <;> simp_all [notifyStateChanged_nil]

theorem removeStreamSecure_nil (hrole : ft.senderReceiver = .sender) (error : Bool) :
    (removeStreamSecure calls ft error).2 = [] ↔
      ft.running = false ∨ ft.state = if error then .failed else .closed := by
  unfold removeStreamSecure
  cases hrun : ft.running with
  | false => simp
  | true => simp [streamStateChanged, senderStateChanged, hrole, notifyStateChanged_nil]

theorem sessionreqCompleteCallback_nil (h : ft.state.terminal = true) {bundle : Option (List Char)}
    {status : Int32} {r : Reported} (hr : sessionreqCompleteCallback calls ft bundle status = some r) :
    r.2 = [] ↔ staysSilent ft (.response bundle status calls) = true := by
  unfold sessionreqCompleteCallback at hr
  have hclosed : ft.state ≠ .failed → ft.state = .closed := by
    intro hne
    cases hst : ft.state <;> simp_all [FileTransferConnection.terminal]
  split at hr
  · cases hr
    simp_all [staysSilent]
  · cases bundle with
    | none =>
      cases hr
      simp [staysSilent]
    | some bundle =>
      simp only at hr
      split_ifs at hr <;> cases hr <;> simp_all [staysSilent, removeStreamSecure_nil]

theorem connectionStep_nil (h : ft.state.terminal = true) {input : ConnectionInput} {r : Reported}
    (hr : connectionStep ft input = some r) : r.2 = [] ↔ staysSilent ft input = true := by
  unfold connectionStep at hr
  split at hr
  · cases hr
  · cases input with
    | connect added => cases hr; simp [staysSilent]
    | acceptConnect request added => cases hr; simp [staysSilent]
    | streamState state calls => cases hr; exact streamStateChanged_nil h state
    | response bundle status calls => exact sessionreqCompleteCallback_nil h hr
    | close calls =>
      cases hr
      simp [elaFiletransferClose_reports, closeReports_nil, staysSilent, or_assoc]

/-! Lists of reports. -/

theorem terminalOnce_nil : TerminalOnce [] := by
  intro before s after h
  simp at h

theorem terminalOnce_cons {os : List FileTransferConnection} :
    TerminalOnce (s :: os) ↔ (s.terminal = true → os = []) ∧ TerminalOnce os := by
  constructor
  · intro h
    refine ⟨fun hs => h [] s os rfl hs, ?_⟩
    intro before t after hsplit ht
    exact h (s :: before) t after (by rw [hsplit, List.cons_append]) ht
  · rintro ⟨hs, h⟩ before t after hsplit ht
    cases before with
    | nil =>
      obtain ⟨rfl, rfl⟩ := List.cons.inj hsplit
      exact hs ht
    | cons b before =>
      obtain ⟨-, hrest⟩ := List.cons.inj hsplit
      exact h before t after hrest ht

theorem terminalOnce_append {os ps : List FileTransferConnection} :
    TerminalOnce (os ++ ps) ↔
      TerminalOnce os ∧ TerminalOnce ps ∧ (os.any FileTransferConnection.terminal = true → ps = []) := by
  induction os with
  | nil => simp [terminalOnce_nil]
  | cons s os ih =>
    simp only [List.cons_append, terminalOnce_cons, ih, List.append_eq_nil_iff, List.any_cons, Bool.or_eq_true]
    tauto

theorem TerminalOnce.last {os : List FileTransferConnection} (h : TerminalOnce os)
    (hs : s.terminal = false) : os.any FileTransferConnection.terminal = (os.getLastD s).terminal := by
  induction os generalizing s with
  | nil => simp [hs]
  | cons t os ih =>
    obtain ⟨ht, hrest⟩ := terminalOnce_cons.mp h
    rw [List.getLastD_cons]
    cases hterm : t.terminal with
    | true => simp [ht hterm, hterm]
    | false => rw [List.any_cons, hterm, Bool.false_or, ih hrest hterm]

theorem TerminalOnce.reportedOnce {os : List FileTransferConnection} (h : TerminalOnce os) :
    ReportedOnce os := by
  refine ⟨h, ?_⟩
  induction os with
  | nil => simp
  | cons s os ih =>
    obtain ⟨hs, hrest⟩ := terminalOnce_cons.mp h
    cases s with
    | closed => simp [hs rfl, easyFileReleases]
    | _ => simpa [easyFileReleases] using ih hrest

theorem terminalOnce_closeReports : TerminalOnce ft.closeReports := by
  unfold Connection.closeReports
  split
  · exact terminalOnce_nil
  · exact terminalOnce_cons.mpr ⟨fun _ => rfl, terminalOnce_nil⟩

theorem terminalOnce_notifyStateChanged : TerminalOnce (notifyStateChanged calls ft s).2 ↔
    (s.terminal = true → ft.state ≠ s → calls.closesAt s = true →
      Connection.closeReports { ft with state := s } = []) := by
  by_cases h : ft.state ≠ s ∧ calls.closesAt s = true
  · rw [(notifyStateChanged_closes h.1 h.2).2.2, terminalOnce_cons]
    simp [h, terminalOnce_closeReports]
  · rw [notifyStateChanged_stays (by simpa [or_iff_not_imp_left] using h)]
    split <;> simp_all [terminalOnce_cons, terminalOnce_nil]

/-! What one step reports in a state that is not terminal. -/

theorem terminalOnce_streamInitialized (calls : SessionCalls) (ft : Connection) :
    TerminalOnce (streamInitialized (notifyStateChanged calls) calls ft).2 ↔
      calls.requested = true ∨ calls.closesAt .failed = false ∨
        (ft.state ≠ .connecting ∧ calls.closesAt .connecting = true) ∨
        Connection.closeReports { ft with state := .failed } = [] := by
  have hconnecting : TerminalOnce (notifyStateChanged calls ft .connecting).2 :=
    terminalOnce_notifyStateChanged.mpr fun hterm => by cases hterm
  simp only [streamInitialized]
  by_cases hc : ft.state ≠ .connecting ∧ calls.closesAt .connecting = true
  · rw [(notifyStateChanged_closes hc.1 hc.2).1]
    simp [FileTransferConnection.terminal, hconnecting, hc]
  · have hstays := notifyStateChanged_stays
      (show ft.state = .connecting ∨ calls.closesAt .connecting = false by simpa [or_iff_not_imp_left] using hc)
    rw [hstays] at hconnecting ⊢
    cases hreq : calls.requested with
    | true => simpa using hconnecting
    | false =>
      simp only [FileTransferConnection.terminal, Bool.or_false, Bool.false_eq_true, if_false, Reported.notify,
        terminalOnce_append, hconnecting, terminalOnce_notifyStateChanged, true_and, hc, false_or]
      split <;> cases hf : calls.closesAt .failed <;> simp [FileTransferConnection.terminal]

theorem terminalOnce_streamStateChanged (h : ft.state.terminal = false) (state : StreamState) :
    TerminalOnce (streamStateChanged (notifyStateChanged calls) calls ft state).2 ↔
      endsOnce ft (.streamState state calls) = true := by
  obtain ⟨st, role, fileid, stream, error, ready, closed⟩ := ft
  have hinit := terminalOnce_streamInitialized calls
    ⟨st, role, fileid, stream.map fun _ => state, error, ready, closed⟩
  have hfailed : st ≠ .failed := fun hst => by cases hst; cases h
  cases role <;> cases state <;> cases stream <;>
    simp_all [streamStateChanged, senderStateChanged, receiverStateChanged, endsOnce, terminalOnce_nil,
      terminalOnce_notifyStateChanged, closeReports_nil, Connection.closedAs, Connection.running, streamRuns,
      FileTransferConnection.terminal, or_assoc]
  -- What is left is the receiver's start.
  all_goals
    cases calls.started <;> simp_all [terminalOnce_nil, terminalOnce_notifyStateChanged, closeReports_nil,
      Connection.closedAs, Connection.running, streamRuns, FileTransferConnection.terminal]

theorem terminalOnce_removeStreamSecure (error : Bool) :
    TerminalOnce (removeStreamSecure calls ft error).2 := by
  unfold removeStreamSecure
  cases ft.running with
  | false => exact terminalOnce_nil
  | true =>
    obtain ⟨st, role, fileid, stream, _, ready, closed⟩ := ft
    cases role <;>
      simp [streamStateChanged, senderStateChanged, receiverStateChanged, terminalOnce_nil,
        terminalOnce_notifyStateChanged, closeReports_nil, Connection.running]

theorem connectionStep_once (h : ft.state.terminal = false) {input : ConnectionInput} {r : Reported}
    (hr : connectionStep ft input = some r) : TerminalOnce r.2 ↔ endsOnce ft input = true := by
  unfold connectionStep at hr
  split at hr
  · cases hr
  · cases input with
    | connect added => cases hr; simp [endsOnce, terminalOnce_nil]
    | acceptConnect request added => cases hr; simp [endsOnce, terminalOnce_nil]
    | streamState state calls => cases hr; exact terminalOnce_streamStateChanged h state
    | response bundle status calls =>
      simp only [sessionreqCompleteCallback] at hr
      split at hr
      · cases hr; simp [endsOnce, terminalOnce_nil]
      · cases bundle with
        | none => cases hr; simp [endsOnce, terminalOnce_nil]
        | some bundle =>
          simp only at hr
          split_ifs at hr <;> cases hr <;> simp [endsOnce, terminalOnce_nil, terminalOnce_removeStreamSecure]
    | close calls =>
      cases hr
      simp [endsOnce, elaFiletransferClose_reports, terminalOnce_closeReports]

/-! The state of the transfer is the one reported last, unless the application has closed it. -/

def LastReported (ft : Connection) (r : Reported) : Prop :=
  r.1.state = if r.1.closed then .closed else r.2.getLastD ft.state

theorem LastReported.nil (hopen : ft.closed = false) {t : Connection} (hstate : t.state = ft.state)
    (hclosed : t.closed = ft.closed) : LastReported ft (t, []) := by
  simp [LastReported, hstate, hclosed, hopen]

theorem lastReported_notifyStateChanged (hopen : ft.closed = false) (s : FileTransferConnection) :
    LastReported ft (notifyStateChanged calls ft s) := by
  unfold LastReported
  by_cases h : ft.state ≠ s ∧ calls.closesAt s = true
  · obtain ⟨hstate, hclosed, -⟩ := notifyStateChanged_closes h.1 h.2
    rw [hstate, hclosed, if_pos rfl]
  · rw [notifyStateChanged_stays (by simpa [or_iff_not_imp_left] using h)]
    split <;> simp_all

theorem lastReported_streamInitialized (hopen : ft.closed = false) :
    LastReported ft (streamInitialized (notifyStateChanged calls) calls ft) := by
  simp only [streamInitialized]
  split
  · exact lastReported_notifyStateChanged hopen .connecting
  · rename_i hnot
    have hstays : ft.state = .connecting ∨ calls.closesAt .connecting = false := by
      by_contra hcloses
      rw [not_or, Bool.not_eq_false] at hcloses
      rw [(notifyStateChanged_closes hcloses.1 hcloses.2).1] at hnot
      exact hnot rfl
    rw [notifyStateChanged_stays hstays]
    set t : Connection := { ft with state := .connecting }
    have htopen : t.closed = false := hopen
    have hfailed : LastReported t (notifyStateChanged calls t .failed) :=
      lastReported_notifyStateChanged htopen .failed
    rw [LastReported] at hfailed ⊢
    simp only [Reported.notify]
    rw [hfailed]
    congr 1
    split
    · rename_i hsame
      rw [List.nil_append, hsame]
    · rw [List.singleton_append, List.getLastD_cons]

theorem lastReported_streamStateChanged (hopen : ft.closed = false) (state : StreamState) :
    LastReported ft (streamStateChanged (notifyStateChanged calls) calls ft state) := by
  obtain ⟨st, role, fileid, stream, error, ready, closed⟩ := ft
  set t : Connection := ⟨st, role, fileid, stream.map fun _ => state, error, ready, closed⟩
  have hinit : LastReported t (streamInitialized (notifyStateChanged calls) calls t) :=
    lastReported_streamInitialized hopen
  have hnotify : ∀ s, LastReported t (notifyStateChanged calls t s) := lastReported_notifyStateChanged hopen
  cases role <;> cases state <;>
    simp only [streamStateChanged, senderStateChanged, receiverStateChanged] <;>
    first
      | exact LastReported.nil hopen rfl rfl
      | exact hinit
      | exact hnotify _
      | skip
  split
  · exact LastReported.nil hopen rfl rfl
  · exact hnotify _

theorem lastReported_removeStreamSecure (hopen : ft.closed = false) (error : Bool) :
    LastReported ft (removeStreamSecure calls ft error) := by
  unfold removeStreamSecure
  cases ft.running with
  | false => exact LastReported.nil hopen rfl rfl
  | true =>
    set t : Connection := { ft with stream := none, error }
    have htopen : t.closed = false := hopen
    exact lastReported_streamStateChanged htopen .closed

theorem LastReported.connectAs (hopen : ft.closed = false) (role : Role) (added : Bool) :
    LastReported ft (connectAs role added ft, []) := by
  unfold FileTransfer.connectAs
  split <;> exact .nil hopen rfl rfl

theorem lastReported_connectionStep {input : ConnectionInput} {r : Reported}
    (hr : connectionStep ft input = some r) : LastReported ft r := by
  unfold connectionStep at hr
  cases hopen : ft.closed with
  | true => simp [hopen] at hr
  | false =>
    rw [hopen, if_neg Bool.false_ne_true] at hr
    cases input with
    | connect added =>
      cases hr
      exact .connectAs hopen .sender added
    | acceptConnect request added =>
      cases hr
      cases request with
      | false => exact .nil hopen rfl rfl
      | true => exact .connectAs hopen .receiver added
    | streamState state calls =>
      cases hr
      exact lastReported_streamStateChanged hopen state
    | response bundle status calls =>
      simp only [sessionreqCompleteCallback] at hr
      split at hr
      · cases hr
        exact .nil hopen rfl rfl
      · cases bundle with
        | none =>
          cases hr
          exact .nil hopen rfl rfl
        | some bundle =>
          simp only at hr
          split_ifs at hr <;> cases hr <;>
            first
              | exact .nil hopen rfl rfl
              | exact lastReported_removeStreamSecure hopen _
    | close calls =>
      cases hr
      simp [LastReported, elaFiletransferClose]

/-! Runs. -/

theorem run_closed (hclosed : ft.closed = true) {u : Connection} {is : List ConnectionInput}
    {os : List FileTransferConnection} (h : connectionMachine.Run Machine.Free ft is os u) : os = [] := by
  cases h with
  | nil => rfl
  | cons _ hs _ => simp [connectionMachine, connectionStep, hclosed] at hs

theorem run_reportsOnce {u : Connection} {is : List ConnectionInput} {os : List FileTransferConnection}
    (h : connectionMachine.Run Machine.Free ft is os u) :
    connectionMachine.Run (fun ft input => reportsOnce ft input = true) ft is os u ↔
      if ft.state.terminal then os = [] else TerminalOnce os := by
  induction h with
  | nil ft => simp [terminalOnce_nil, Machine.Run.nil]
  | @cons ft t u input is o os hg hs hrest ih =>
    have hlast : t.state = if t.closed then .closed else o.getLastD ft.state := lastReported_connectionStep hs
    rw [Machine.run_cons_iff hs, ih, reportsOnce]
    cases hterm : ft.state.terminal with
    | true =>
      have hnil : o = [] ↔ staysSilent ft input = true := connectionStep_nil hterm hs
      simp only [if_true, ← hnil, List.append_eq_nil_iff]
      refine and_congr_right fun ho => ?_
      have ht : t.state.terminal = true := by
        rw [hlast, ho]
        split
        · rfl
        · exact hterm
      rw [if_pos ht]
    | false =>
      have honce : TerminalOnce o ↔ endsOnce ft input = true := connectionStep_once hterm hs
      simp only [Bool.false_eq_true, if_false, ← honce, terminalOnce_append]
      refine and_congr_right fun ho => ?_
      rw [ho.last hterm]
      cases hclosed : t.closed with
      | true => simp [run_closed hclosed hrest, terminalOnce_nil]
      | false =>
        rw [hlast, hclosed, if_neg Bool.false_ne_true]
        split
        · rename_i hend
          simp only [hend, forall_const]
          exact ⟨fun hnil => ⟨hnil ▸ terminalOnce_nil, hnil⟩, And.right⟩
        · rename_i hend
          simp only [hend, Bool.false_eq_true, false_implies, and_true]

/-- In every run of a new transfer, closed or failed is reported at most once and nothing after
it, and EasyFile releases its object at most once, exactly if each step meets the condition. -/
theorem reported_once_iff {fileid : List Char} {u : Connection} {is : List ConnectionInput}
    {os : List FileTransferConnection}
    (h : connectionMachine.Run Machine.Free (.new fileid) is os u) :
    ReportedOnce os ↔
      connectionMachine.Run (fun ft input => reportsOnce ft input = true) (.new fileid) is os u := by
  rw [run_reportsOnce h]
  exact ⟨ReportedOnce.terminal, TerminalOnce.reportedOnce⟩

/-- Calls that all succeed, and an application that closes nothing in its callback. -/
def SessionCalls.succeed : SessionCalls := ⟨true, true, fun _ => false⟩

/-- A sender that is connected, closed by its stream, and then closed by the application. -/
def closedInOrder : List ConnectionInput :=
  [.connect true, .streamState .initialized .succeed, .streamState .transportReady .succeed,
    .streamState .connected .succeed, .streamState .closed .succeed, .close .succeed]

theorem reported_once_iff_closed : ReportedOnce [.connecting, .connected, .closed] ∧
    ∃ u, connectionMachine.Run Machine.Free (.new []) closedInOrder [.connecting, .connected, .closed] u := by
  obtain ⟨u, os, he, hp⟩ := connectionMachine.exec_any (.new []) closedInOrder
    (fun r => decide (r.2 = [.connecting, .connected, .closed])) (by decide +kernel)
  obtain rfl := of_decide_eq_true hp
  have hrun := Machine.free_run_of_exec he
  have hguarded := Machine.run_of_exec (fun _ _ h => h) he
    (show connectionMachine.guarded reportsOnce (.new []) closedInOrder = true by decide +kernel)
  exact ⟨(reported_once_iff hrun).mpr hguarded, u, hrun⟩

/-- The request of the sender fails; the application closes the transfer, whose stream still runs. -/
theorem reported_twice : ∃ u,
    connectionMachine.Run Machine.Free (.new []) [.connect true,
      .streamState .initialized { SessionCalls.succeed with requested := false }, .close .succeed]
      [.connecting, .failed, .closed] u ∧ ¬ ReportedOnce [.connecting, .failed, .closed] := by
  obtain ⟨u, os, he, hp⟩ := connectionMachine.exec_any (.new []) [.connect true,
      .streamState .initialized { SessionCalls.succeed with requested := false }, .close .succeed]
    (fun r => decide (r.2 = [.connecting, .failed, .closed])) (by decide +kernel)
  obtain rfl := of_decide_eq_true hp
  refine ⟨u, Machine.free_run_of_exec he, fun h => ?_⟩
  have hrest : [FileTransferConnection.closed] = [] := h.terminal [.connecting] .failed _ rfl rfl
  cases hrest

end CarrierSdk.FileTransfer
