import CarrierSdk.Carrier.Elacp
import CarrierSdk.Library.Table

/-! The part of a carrier node that invites read and write: its friends, the pending
callbacks, the partial assemblies and the history of unanswered invites. -/
namespace CarrierSdk

def elaMaxBundleLen : Nat := 511
def elaMaxInviteDataLen : Nat := 8192
def elaMaxInviteReplyReasonLen : Nat := 255
def elaMaxExtensionNameLen : Nat := 31
def elaMaxIdLen : Nat := 45

/-- INVITE_DATA_UNIT: payload and bundle bytes of one fragment. -/
def inviteDataUnit : Nat := 1280

/-- The size of the history keys and of the sender strings they are printed from. -/
def historyKeySize : Nat := elaMaxIdLen + elaMaxExtensionNameLen + 4

/-- Time is counted in microseconds. -/
def tassemblyTimeout : Nat := 60 * 1000000
def transactionExpireInterval : Nat := 5 * 60 * 1000000

def elaStatusTimeout : Int32 := 1

abbrev FriendNumber := UInt32

/-- A 32-byte public key. -/
abbrev PublicKey := BitVec 256

structure FriendInfo where
  friendNumber : FriendNumber
  userid : UserId
  deriving DecidableEq

/-- struct TransactedCallback. The function and its context are one opaque handle. -/
structure TransactedCallback where
  tid : Tid
  friendNumber : FriendNumber
  callbackContext : Nat
  expireTime : Nat
  bundle : Option CString
  deriving DecidableEq

/-- struct TransactedAssembly. The list holds the bytes below the data offset. -/
structure TransactedAssembly where
  ext : CString
  friendid : UserId
  tid : Tid
  bundle : Option CString
  reason : Option CString
  data : List UInt8
  dataLen : Nat
  expireTime : Nat
  deriving DecidableEq

def TransactedAssembly.dataOff (a : TransactedAssembly) : Nat := a.data.length

/-- memcpy of a fragment behind the bytes already there. -/
def TransactedAssembly.append (a : TransactedAssembly) (data : List UInt8) : TransactedAssembly :=
  { a with data := a.data ++ data }

namespace TransactedAssembly

@[simp] theorem append_ext (a : TransactedAssembly) (d : List UInt8) : (a.append d).ext = a.ext := rfl
@[simp] theorem append_friendid (a : TransactedAssembly) (d : List UInt8) :
    (a.append d).friendid = a.friendid := rfl
@[simp] theorem append_tid (a : TransactedAssembly) (d : List UInt8) : (a.append d).tid = a.tid := rfl
@[simp] theorem append_bundle (a : TransactedAssembly) (d : List UInt8) :
    (a.append d).bundle = a.bundle := rfl
@[simp] theorem append_data (a : TransactedAssembly) (d : List UInt8) :
    (a.append d).data = a.data ++ d := rfl
@[simp] theorem append_dataLen (a : TransactedAssembly) (d : List UInt8) :
    (a.append d).dataLen = a.dataLen := rfl
@[simp] theorem dataOff_append (a : TransactedAssembly) (d : List UInt8) :
    (a.append d).dataOff = a.dataOff + d.length := by simp [dataOff, append]

end TransactedAssembly

/-- struct ElaCarrier. The DHT's friend list maps numbers to public keys; the two flags
say whether the invite callback of the application and of the session extension are set. -/
structure ElaCarrier where
  friends : Table FriendNumber FriendInfo
  dht : Table FriendNumber PublicKey
  isReady : Bool
  friendInvite : Bool
  session : Bool
  friendMessage : Bool
  tcallbacks : Table Tid TransactedCallback
  thistory : Table CString Tid
  tassemblyIreqs : Table Tid TransactedAssembly
  tassemblyIrsps : Table Tid TransactedAssembly
  now : Nat

/-- A node with no friends that has started nothing. -/
def ElaCarrier.empty : ElaCarrier where
  friends := ∅
  dht := ∅
  isReady := true
  friendInvite := true
  session := true
  friendMessage := true
  tcallbacks := ∅
  thistory := ∅
  tassemblyIreqs := ∅
  tassemblyIrsps := ∅
  now := 0

/-- A call of a callback of the application, with its arguments. -/
inductive Notice where
  | friendMessage (sender : UserId) (msg : List UInt8)
  | friendInvite (sender : UserId) (bundle : Option CString) (data : List UInt8)
  | sessionInvite (sender : UserId) (bundle : Option CString) (data : List UInt8)
  | inviteResponse (callbackContext : Nat) (sender : UserId) (bundle : Option CString)
      (status : Int32) (reason : Option CString) (data : List UInt8)
  deriving DecidableEq

/-! Timers and history. -/

/-- The literals of the code, as bytes: "ir_", ":", "session" and "timeout". -/
def historyPrefix : CString := ⟨[105, 114, 95], by decide⟩
def colon : CString := ⟨[58], by decide⟩
def sessionName : CString := ⟨[115, 101, 115, 115, 105, 111, 110], by decide⟩
def timeoutReason : CString := ⟨[116, 105, 109, 101, 111, 117, 116], by decide⟩

/-- transacted_callbacks_put, which sets the expiry time. -/
def transactedCallbacksPut (w : ElaCarrier) (tcb : TransactedCallback) : ElaCarrier :=
  let callback := { tcb with expireTime := w.now + transactionExpireInterval }
  { w with tcallbacks := w.tcallbacks.insert tcb.tid callback }

/-- transacted_callbacks_remove. -/
def transactedCallbacksRemove (w : ElaCarrier) (tid : Tid) : ElaCarrier :=
  { w with tcallbacks := w.tcallbacks.erase tid }

theorem lookup_transactedCallbacksPut (w : ElaCarrier) (tcb : TransactedCallback) (tid : Tid) :
    (transactedCallbacksPut w tcb).tcallbacks.lookup tid =
      if tid = tcb.tid then some { tcb with expireTime := w.now + transactionExpireInterval }
      else w.tcallbacks.lookup tid := Table.lookup_insert_eq _ _ _ _

/-- A callback that is put and removed again takes the entry it replaced with it. -/
theorem lookup_transactedCallbacks_put_remove (w : ElaCarrier) (tcb : TransactedCallback) (tid : Tid) :
    (transactedCallbacksRemove (transactedCallbacksPut w tcb) tcb.tid).tcallbacks.lookup tid =
      if tid = tcb.tid then none else w.tcallbacks.lookup tid := by
  rw [transactedCallbacksRemove, Table.lookup_erase_eq]
  split
  · rfl
  · next h => rw [lookup_transactedCallbacksPut, if_neg h]

/-- sprintf(key, "ir_%s", userid) into a history key. -/
def historyKey (userid : CString) : Option CString :=
  CString.strcpy historyKeySize (historyPrefix.strcat userid)

/-- transaction_history_put_invite. -/
def transactionHistoryPutInvite (w : ElaCarrier) (userid : CString) (tid : Tid) :
    Option ElaCarrier :=
  (historyKey userid).map fun key => { w with thistory := w.thistory.insert key tid }

/-- transaction_history_get_invite, with 0 where there is none. -/
def transactionHistoryGetInvite (w : ElaCarrier) (userid : CString) : Option Tid :=
  (historyKey userid).map fun key => (w.thistory.lookup key).getD 0

/-- transaction_history_remove_invite. -/
def transactionHistoryRemoveInvite (w : ElaCarrier) (userid : CString) : Option ElaCarrier :=
  (historyKey userid).map fun key => { w with thistory := w.thistory.erase key }

/-- do_tassemblies_expire on one of the two tables. -/
def doTassembliesExpire (now : Nat) (t : Table Tid TransactedAssembly) :
    Table Tid TransactedAssembly :=
  t.sweep fun _ item => decide (item.expireTime < now)

/-- transacted_callback_expire. It looks the friend up by the stored number. -/
def transactedCallbackExpire (w : ElaCarrier) (tcb : TransactedCallback) : List Notice :=
  match w.friends.lookup tcb.friendNumber with
  | none => []
  | some fi => [.inviteResponse tcb.callbackContext fi.userid tcb.bundle elaStatusTimeout
      (some timeoutReason) []]

/-- do_transacted_callabcks_check: every expired entry goes, then its callback is called. -/
def doTransactedCallbacksCheck (w : ElaCarrier) : ElaCarrier × List Notice :=
  let expired := fun (_ : Tid) (tcb : TransactedCallback) => decide (tcb.expireTime < w.now)
  ({ w with tcallbacks := w.tcallbacks.sweep expired },
    (w.tcallbacks.selected expired).flatMap (transactedCallbackExpire w))

theorem historyKey_fits {userid : CString} (h : userid.strlen ≤ 76) :
    historyKey userid = some (historyPrefix.strcat userid) := by
  apply CString.strcpy_fits
  simp only [CString.strlen_strcat, historyKeySize, elaMaxIdLen, elaMaxExtensionNameLen]
  have : historyPrefix.strlen = 3 := rfl
  omega

end CarrierSdk
