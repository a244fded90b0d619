import CarrierSdk.Carrier.CString
import CarrierSdk.Library.Bytes
import CarrierSdk.Mux.Multiplexer

/-! File transfers over the channels of a stream: the items of a transfer, the calls of the
application and the callbacks of the stream. The application has set all of its callbacks. -/
namespace CarrierSdk.FileTransfer
open Mux

/-- ELA_MAX_TRANSFERFILE_COUNT -/
abbrev maxTransferFileCount : Nat := 5

abbrev Slot := Fin maxTransferFileCount

instance : NeZero maxTransferFileCount := ⟨by decide⟩

inductive FileTransferState | none | standby | transfering | finished
  deriving DecidableEq

inductive FileTransferConnection | initialized | connecting | connected | closed | failed
  deriving DecidableEq

/-- The field sender_receiver, which is 0 before a connection is asked for. -/
inductive Role | unset | sender | receiver
  deriving DecidableEq

/-- struct FileTransferItem. Its channel is absent where opening one has failed. -/
structure FileTransferItem where
  fileid : CString
  filename : Option CString
  filesz : UInt64
  state : FileTransferState
  channel : Option ChannelId
  deriving DecidableEq

/-- A slot that has never been used. -/
def FileTransferItem.unused : FileTransferItem := ⟨.empty, none, 0, .none, some 0⟩

/-- struct ElaFileTransfer, as far as its connected stream goes. -/
structure ElaFileTransfer where
  files : Slot → FileTransferItem
  state : FileTransferConnection
  senderReceiver : Role

namespace ElaFileTransfer

def slots : List Slot := List.finRange maxTransferFileCount

def getFileinfoFileid (ft : ElaFileTransfer) (fileid : CString) : Option Slot :=
  slots.find? fun i => decide ((ft.files i).fileid = fileid)

def getFileinfoChannel (ft : ElaFileTransfer) (channel : ChannelId) : Option Slot :=
  slots.find? fun i => decide ((ft.files i).channel = some channel)

def setState (ft : ElaFileTransfer) (i : Slot) (state : FileTransferState) : ElaFileTransfer :=
  { ft with files := Function.update ft.files i { ft.files i with state } }

end ElaFileTransfer

/-! Packets from the receiver to the sender. Blocks of the file go as they are. -/

def packetPull : Nat := 2
def packetCancel : Nat := 3

/-- struct packet_pull_t. Padding, which the code leaves as it is on the stack, is zero here. -/
def pullBytes (offset : UInt64) : List UInt8 :=
  Bytes.bigEndian 2 packetPull ++ List.replicate 6 0 ++ Bytes.bigEndian 8 offset.toNat

/-- struct packet_cancel_t with its reason. -/
def cancelBytes (status : Int32) (reason : CString) : List UInt8 :=
  Bytes.bigEndian 2 packetCancel ++ List.replicate 2 0 ++ Bytes.bigEndian 4 status.toUInt32.toNat ++
    reason.bytes ++ List.replicate 4 0

def packetType (data : List UInt8) : Nat := Bytes.number (data.take 2)

def packetOffset (data : List UInt8) : UInt64 := .ofNat (Bytes.number ((data.drop 8).take 8))

def packetStatus (data : List UInt8) : Int32 :=
  .ofUInt32 (.ofNat (Bytes.number ((data.drop 4).take 4)))

def packetReason (data : List UInt8) : List UInt8 := (data.drop 8).takeWhile (· ≠ 0)

@[simp] theorem packetType_pullBytes (offset : UInt64) : packetType (pullBytes offset) = packetPull := rfl

@[simp] theorem packetType_cancelBytes (status : Int32) (reason : CString) :
    packetType (cancelBytes status reason) = packetCancel := rfl

/-! Calls of the application. -/

/-- The transfer after a call, what the multiplexer did, and the result. -/
structure FileResult (Tag : Type) where
  ft : ElaFileTransfer
  channels : Channels Tag
  sent : List (ProtocolBuffer Tag)
  ret : Except MuxError Unit

variable {Tag : Type}

/-- The checks that all calls on an item make, in the order in which they make them. An
empty file id stands for NULL as well. -/
def checkItem (ft : ElaFileTransfer) (fileid : CString) (fits : FileTransferItem → Bool) (role : Role)
    (allowed : FileTransferState → Bool) : Except MuxError Slot :=
  if fileid = .empty then .error .invalidArgs
  else match ft.getFileinfoFileid fileid with
    | none => .error .notExist
    | some i =>
      if !fits (ft.files i) then .error .invalidArgs
      else if ft.senderReceiver ≠ role then .error .wrongState
      else if ft.state ≠ .connected then .error .wrongState
      else if !allowed (ft.files i).state then .error .wrongState
      else .ok i

/-- A packet over the channel of an item, and the item's state once it has gone out. -/
def sendOver (ft : ElaFileTransfer) (chs : Channels Tag) (i : Slot) (state : FileTransferState)
    (call : ChannelId → MuxResult Tag) : FileResult Tag :=
  match (ft.files i).channel with
  | none => ⟨ft, chs, [], .error .invalidArgs⟩
  | some c =>
    let r := call c
    match r.ret with
    | .error e => ⟨ft, r.channels, r.sent, .error e⟩
    | .ok () => ⟨ft.setState i state, r.channels, r.sent, .ok ()⟩

def callItem (ft : ElaFileTransfer) (chs : Channels Tag) (checked : Except MuxError Slot)
    (state : FileTransferState → FileTransferState) (call : ChannelId → MuxResult Tag) : FileResult Tag :=
  match checked with
  | .error e => ⟨ft, chs, [], .error e⟩
  | .ok i => sendOver ft chs i (state (ft.files i).state) call

def elaFiletransferPull (ft : ElaFileTransfer) (chs : Channels Tag) (fileid : CString) (offset : UInt64)
    (sent : Bool) (streamTag : Tag) : FileResult Tag :=
  callItem ft chs
    (checkItem ft fileid (fun item => decide (offset < item.filesz)) .receiver (decide <| · = .standby))
    (fun _ => .transfering) fun c => elaStreamWriteChannel chs c (pullBytes offset) sent streamTag

/-- No data go with length zero only. -/
def elaFiletransferSend (ft : ElaFileTransfer) (chs : Channels Tag) (fileid : CString)
    (data : List UInt8) (sent : Bool) (streamTag : Tag) : FileResult Tag :=
  callItem ft chs
    (checkItem ft fileid (fun item => decide (data.length ≤ item.filesz.toNat)) .sender
      (decide <| · = .transfering))
    id fun c => elaStreamWriteChannel chs c data sent streamTag

/-- The reason is not NULL. -/
def elaFiletransferCancel (ft : ElaFileTransfer) (chs : Channels Tag) (fileid : CString)
    (status : Int32) (reason : CString) (sent : Bool) (streamTag : Tag) : FileResult Tag :=
  callItem ft chs (checkItem ft fileid (fun _ => true) .receiver (decide <| · ≠ .none)) id
    fun c => elaStreamWriteChannel chs c (cancelBytes status reason) sent streamTag

/-- ela_stream_pend_channel and ela_stream_resume_channel refuse channel 0. -/
def streamCall (call : Channels Tag → ChannelId → Bool → MuxResult Tag) (chs : Channels Tag)
    (sent : Bool) (c : ChannelId) : MuxResult Tag :=
  if c = 0 then ⟨chs, [], [], .error .invalidArgs⟩ else call chs c sent

def elaFiletransferPend (ft : ElaFileTransfer) (chs : Channels Tag) (fileid : CString) (sent : Bool) :
    FileResult Tag :=
  callItem ft chs (checkItem ft fileid (fun _ => true) .receiver (decide <| · = .transfering))
    (fun _ => .standby) (streamCall pendChannel chs sent)

def elaFiletransferResume (ft : ElaFileTransfer) (chs : Channels Tag) (fileid : CString) (sent : Bool) :
    FileResult Tag :=
  callItem ft chs (checkItem ft fileid (fun _ => true) .receiver (decide <| · = .standby))
    (fun _ => .transfering) (streamCall resumeChannel chs sent)

/-! Callbacks of the stream. -/

/-- Callbacks of the application. -/
inductive FileEvent
  | pull (fileid : CString) (offset : UInt64)
  | cancel (fileid : CString) (status : Int32) (reason : List UInt8)
  | data (fileid : CString) (data : List UInt8)
  | pending (fileid : CString)
  | resume (fileid : CString)
  deriving DecidableEq

/-- The transfer after a callback of the stream, the application's callback, if it is
reached, and whether the channel is kept. -/
structure CallbackResult where
  ft : ElaFileTransfer
  event : Option FileEvent
  keep : Bool

/-- stream_channel_data, where the application wants more data or not. -/
def streamChannelData (ft : ElaFileTransfer) (channel : ChannelId) (data : List UInt8) (more : Bool) :
    CallbackResult :=
  match ft.getFileinfoChannel channel with
  | none => ⟨ft, none, false⟩
  | some i =>
    let item := ft.files i
    match ft.senderReceiver with
    | .sender =>
      if packetType data = packetPull then
        if item.state ≠ .standby then ⟨ft, none, false⟩
        else ⟨ft.setState i .transfering, some (.pull item.fileid (packetOffset data)), true⟩
      else if packetType data = packetCancel then
        ⟨ft.setState i .none, some (.cancel item.fileid (packetStatus data) (packetReason data)), false⟩
      else ⟨ft, none, false⟩
    | .receiver =>
      if item.state ≠ .transfering then ⟨ft, none, true⟩
      else ⟨ft, some (.data item.fileid data), more⟩
    | .unset => ⟨ft, none, true⟩

/-- What the callbacks for pending and resume do alike on the sender's side. -/
def streamChannelPaused (ft : ElaFileTransfer) (channel : ChannelId) (old new : FileTransferState)
    (event : CString → FileEvent) : ElaFileTransfer × Option FileEvent :=
  if ft.senderReceiver ≠ .sender then (ft, none)
  else match ft.getFileinfoChannel channel with
    | none => (ft, none)
    | some i =>
      let item := ft.files i
      if item.state ≠ old then (ft, none) else (ft.setState i new, some (event item.fileid))

def streamChannelPending (ft : ElaFileTransfer) (channel : ChannelId) :
    ElaFileTransfer × Option FileEvent :=
  streamChannelPaused ft channel .transfering .standby .pending

def streamChannelResume (ft : ElaFileTransfer) (channel : ChannelId) :
    ElaFileTransfer × Option FileEvent :=
  streamChannelPaused ft channel .standby .transfering .resume

/-- stream_channel_close. File id and channel stay in the slot. -/
def streamChannelClose (ft : ElaFileTransfer) (channel : ChannelId) : ElaFileTransfer :=
  match ft.getFileinfoChannel channel with
  | none => ft
  | some i =>
    { ft with
      files := Function.update ft.files i { ft.files i with state := .none, filename := none } }

end CarrierSdk.FileTransfer
