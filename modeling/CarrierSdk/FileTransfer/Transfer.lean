import CarrierSdk.FileTransfer.FileTransfer
import CarrierSdk.Mux.Link

/-! One file on its way over a channel: two transfers on top of two multiplexers. The left
peer sends, the right peer receives. -/
namespace CarrierSdk.FileTransfer
open Mux

inductive FileCall
  | pull (offset : UInt64)
  | send (data : List UInt8)
  | cancel (status : Int32) (reason : CString)
  | pend
  | resume
  deriving DecidableEq

structure Transfer where
  link : Link
  ft : Peer → ElaFileTransfer

/-- The receiver has just accepted the offer, and the confirmation is under way. -/
def Transfer.accepted (fileid filename : CString) (filesz : UInt64) (c d : ChannelId) : Transfer where
  link := Link.mk
    (fun
      | .left => (∅ : Channels Nat).insert c ⟨0, .opening, 1⟩
      | .right => (∅ : Channels Nat).insert d ⟨c, .open, 1⟩)
    (Wires.empty.send .right [sendPacket .channelOpenConfirmation .user d c [] 1]) 2
  ft
    | .left => ⟨Function.update (fun _ => .unused) 0 ⟨fileid, some filename, filesz, .standby, some c⟩,
        .connected, .sender⟩
    | .right => ⟨Function.update (fun _ => .unused) 0 ⟨fileid, some filename, filesz, .standby, some d⟩,
        .connected, .receiver⟩

inductive TransferInput
  | call (p : Peer) (fileid : CString) (op : FileCall) (sent : Bool)
  | deliver (p : Peer) (more : Bool)
  deriving DecidableEq

/-- Calls that returned 0, or the length, and callbacks of the application. -/
inductive TransferOutput
  | called (p : Peer) (op : FileCall)
  | notified (p : Peer) (e : FileEvent)
  deriving DecidableEq

def fileCall (ft : ElaFileTransfer) (chs : Channels Nat) (fileid : CString) (sent : Bool) :
    FileCall → FileResult Nat
  | .pull offset => elaFiletransferPull ft chs fileid offset sent streamTag
  | .send data => elaFiletransferSend ft chs fileid data sent streamTag
  | .cancel status reason => elaFiletransferCancel ft chs fileid status reason sent streamTag
  | .pend => elaFiletransferPend ft chs fileid sent
  | .resume => elaFiletransferResume ft chs fileid sent

/-- What a callback of the stream does to the transfer. Offers have been accepted before. -/
def handleEvent (ft : ElaFileTransfer) (more : Bool) : MuxEvent → ElaFileTransfer × Option FileEvent
  | .channelData c data =>
    let r := streamChannelData ft c data more
    (r.ft, r.event)
  | .channelPending c => streamChannelPending ft c
  | .channelResume c => streamChannelResume ft c
  | .channelClose c _ => (streamChannelClose ft c, none)
  | .channelOpen .. => (ft, none)
  | .channelOpened _ => (ft, none)
  | .streamData _ => (ft, none)

def handleEvents (ft : ElaFileTransfer) (more : Bool) : List MuxEvent → ElaFileTransfer × List FileEvent
  | [] => (ft, [])
  | e :: es =>
    let r := handleEvent ft more e
    let q := handleEvents r.1 more es
    (q.1, r.2.toList ++ q.2)

/-- The data callback decides whether the multiplexer keeps the channel. There is nothing to
accept and nothing to confirm any more. -/
def fileEnv (ft : ElaFileTransfer) (pb : Packet) (more : Bool) : NotifyEnv :=
  ⟨.limitExceeded, false, (streamChannelData ft pb.localChannelId pb.payload more).keep, true⟩

def transferStep (s : Transfer) : TransferInput → Option (Transfer × List TransferOutput)
  | .call p fileid op sent =>
    let r := fileCall (s.ft p) (s.link.channels p) fileid sent op
    some (⟨s.link.after p s.link.wire s.link.next ⟨r.channels, r.sent, [], r.ret⟩,
        Function.update s.ft p r.ft⟩,
      match r.ret with
      | .ok () => [.called p op]
      | .error _ => [])
  | .deliver p more =>
    match s.link.wire p.other with
    | [] => none
    | pb :: _ =>
      let r := notifyPacket (s.link.channels p) pb (fileEnv (s.ft p) pb more)
      let q := handleEvents (s.ft p) more r.events
      some (⟨s.link.after p (s.link.wire.taken p.other) s.link.next r, Function.update s.ft p q.1⟩,
        q.2.map (.notified p))

def transferMachine : Machine Transfer TransferInput TransferOutput := ⟨transferStep⟩

/-! What has been sent and handed over, read off the outputs of a run. -/

/-- The receiver's pulls that the sender has not taken up, the bytes handed over since the
last pull, and the bytes sent since a pull was last taken up. -/
structure Ledger where
  pulled : Bool
  pending : Nat
  handed : List UInt8
  sent : List UInt8
  deriving DecidableEq

def Ledger.note (l : Ledger) : TransferOutput → Ledger
  | .called _ (.pull _) => { l with pulled := true, pending := l.pending + 1, handed := [] }
  | .called _ (.send data) => { l with sent := l.sent ++ data }
  | .notified _ (.pull _ _) => { l with pending := l.pending - 1, sent := [] }
  | .notified _ (.data _ data) => { l with handed := l.handed ++ data }
  | _ => l

def ledger (os : List TransferOutput) : Ledger := os.foldl Ledger.note ⟨false, 0, [], []⟩

/-- Since the sender took up the last pull; nothing, as long as it has not. -/
def Ledger.sentSince (l : Ledger) : List UInt8 := if l.pending = 0 then l.sent else []

/-- What the receiver got since its last pull is the beginning of what the sender sent for it. -/
def NothingSkipped (os : List TransferOutput) : Prop :=
  (ledger os).pulled = true → (ledger os).handed <+: (ledger os).sentSince

@[simp] theorem ledger_nil : ledger [] = ⟨false, 0, [], []⟩ := rfl

theorem ledger_append (os ps : List TransferOutput) : ledger (os ++ ps) = ps.foldl Ledger.note (ledger os) :=
  List.foldl_append

/-! The condition. -/

/-- A pull on its way to the sender. -/
def isPull (pb : Packet) : Bool :=
  decide (pb.type = .channelData) && decide (packetType pb.payload = packetPull)

/-- A block finds its item transfering and no pull under way, and a pull finds no block under way. -/
def undisturbed (s : Transfer) : TransferInput → Bool
  | .call .. => true
  | .deliver .left _ =>
    match s.link.wire .right with
    | [] => true
    | pb :: _ => !isPull pb || (s.link.wire .left).isEmpty
  | .deliver .right _ =>
    match s.link.wire .left with
    | [] => true
    | pb :: _ =>
      match (s.ft .right).getFileinfoChannel pb.localChannelId with
      | none => true
      | some i =>
        ((s.link.channels .right).lookup pb.localChannelId).isNone ||
          (decide (((s.ft .right).files i).state = .transfering) && !(s.link.wire .right).any isPull)

end CarrierSdk.FileTransfer
