import CarrierSdk.Carrier.Elacp
import CarrierSdk.Library.PackedStruct

/-! The packets of the carrier protocol as the objects that the setters fill in. The five structures
are laid over one object by a union, and in places the code reaches for a member or a slot of
another packet. -/
namespace CarrierSdk
open PackedStruct FlatTable

/-! The structures. -/

def elacpTypeUserinfo : UInt8 := 3
def elacpTypeFriendRequest : UInt8 := 6
def elacpTypeMessage : UInt8 := 33
def elacpTypeInviteRequest : UInt8 := 34
def elacpTypeInviteResponse : UInt8 := 35

/-- The widths of struct ElaCP: a byte for the type and a pointer. -/
def elaCPWidths : List Nat := [1, 8]

def userInfoWidths : List Nat := elaCPWidths ++ [1, 8, 8, 8, 8, 8, 8]
def friendReqWidths : List Nat := elaCPWidths ++ [8, 8, 8]
def friendMsgWidths : List Nat := elaCPWidths ++ [8, 8]
def inviteReqWidths : List Nat := elaCPWidths ++ [8, 8, 8, 8, 8]
def inviteRspWidths : List Nat := elaCPWidths ++ [8, 8, 8, 4, 8, 8, 8]

namespace Cp
def type : Member := member elaCPWidths 0
def ext : Member := member elaCPWidths 1
end Cp

namespace Pktinfo
def hasAvatar : Member := member userInfoWidths 2
def name : Member := member userInfoWidths 3
def descr : Member := member userInfoWidths 4
def phone : Member := member userInfoWidths 5
def gender : Member := member userInfoWidths 6
def email : Member := member userInfoWidths 7
def region : Member := member userInfoWidths 8
end Pktinfo

namespace Pktfreq
def name : Member := member friendReqWidths 2
def descr : Member := member friendReqWidths 3
def hello : Member := member friendReqWidths 4
end Pktfreq

namespace Pktfmsg
def len : Member := member friendMsgWidths 2
def msg : Member := member friendMsgWidths 3
end Pktfmsg

namespace Pktireq
def tid : Member := member inviteReqWidths 2
def bundle : Member := member inviteReqWidths 3
def totalsz : Member := member inviteReqWidths 4
def len : Member := member inviteReqWidths 5
def data : Member := member inviteReqWidths 6
end Pktireq

namespace Pktirsp
def tid : Member := member inviteRspWidths 2
def bundle : Member := member inviteRspWidths 3
def totalsz : Member := member inviteRspWidths 4
def status : Member := member inviteRspWidths 5
def reason : Member := member inviteRspWidths 6
def len : Member := member inviteRspWidths 7
def data : Member := member inviteRspWidths 8
end Pktirsp

/-- What a member is set to: a string, the bytes behind a pointer, or a number. -/
inductive CpValue
  | string (s : CString)
  | bytes (v : List UInt8)
  | number (n : Int)
  deriving DecidableEq

/-- A string that may be NULL. -/
def asString : Option CpValue → Option (Option CString)
  | none => some none
  | some (.string s) => some (some s)
  | _ => none

def asBytes : Option CpValue → Option (Option (List UInt8))
  | none => some none
  | some (.bytes v) => some (some v)
  | _ => none

def asNumber : Option CpValue → Option Int
  | none => some 0
  | some (.number n) => some n
  | _ => none

/-- A packet as it was allocated. -/
structure CpObject where
  size : Nat
  mem : Object CpValue

namespace CpObject

/-- Nothing outside of the object is read. -/
def read (cp : CpObject) (m : Member) : Option (Option CpValue) :=
  if m.offset + m.width ≤ cp.size then load cp.mem m else none

def put (cp : CpObject) (m : Member) (v : Option CpValue) : CpObject := { cp with mem := store cp.mem m v }

/-- Nothing outside of the object is written. -/
def write (cp : CpObject) (m : Member) (v : Option CpValue) : Option CpObject :=
  if m.offset + m.width ≤ cp.size then some (cp.put m v) else none

def readString (cp : CpObject) (m : Member) : Option (Option CString) := (cp.read m).bind asString
def readBytes (cp : CpObject) (m : Member) : Option (Option (List UInt8)) := (cp.read m).bind asBytes
def readNumber (cp : CpObject) (m : Member) : Option Int := (cp.read m).bind asNumber

def type (cp : CpObject) : Option UInt8 := (cp.readNumber Cp.type).map fun n => UInt8.ofNat n.toNat

/-- The case of a switch over the type, whose other cases fail an assertion. -/
def select (cp : CpObject) (cases : List (UInt8 × Member)) : Option Member := cp.type.bind fun type => cases.lookup type

/-- Assignments to members, one after the other. -/
def assign (ws : List (Member × Option CpValue)) (cp : CpObject) : Option CpObject :=
  ws.foldlM (fun cp w => cp.write w.1 w.2) cp

def setMember (cases : List (UInt8 × Member)) (v : Option CpValue) (cp : CpObject) : Option CpObject :=
  (cp.select cases).bind fun m => cp.write m v

def getString (cases : List (UInt8 × Member)) (cp : CpObject) : Option (Option CString) :=
  (cp.select cases).bind cp.readString

def getBytes (cases : List (UInt8 × Member)) (cp : CpObject) : Option (Option (List UInt8)) :=
  (cp.select cases).bind cp.readBytes

def getNumber (cases : List (UInt8 × Member)) (cp : CpObject) : Option Int :=
  (cp.select cases).bind cp.readNumber

end CpObject
open CpObject

/-- The size that elacp_create allocates. -/
def elacpSize (type : UInt8) : Option Nat :=
  [(elacpTypeUserinfo, userInfoWidths.sum), (elacpTypeFriendRequest, friendReqWidths.sum),
    (elacpTypeMessage, friendMsgWidths.sum), (elacpTypeInviteRequest, inviteReqWidths.sum),
    (elacpTypeInviteResponse, inviteRspWidths.sum)].lookup type

def elacpCreate (type : UInt8) (extName : Option CString) : Option CpObject := do
  let cp : CpObject := ⟨← elacpSize type, cleared⟩
  let cp ← cp.write Cp.type (some (.number type.toNat))
  cp.write Cp.ext (extName.map .string)

/-! The getters. -/

def elacpGetType (cp : CpObject) : Option UInt8 := cp.type

def elacpGetExtension (cp : CpObject) : Option (Option CString) := cp.readString Cp.ext

def elacpGetName : CpObject → Option (Option CString) :=
  getString [(elacpTypeUserinfo, Pktinfo.name), (elacpTypeFriendRequest, Pktfreq.name)]

def elacpGetDescr : CpObject → Option (Option CString) :=
  getString [(elacpTypeUserinfo, Pktinfo.descr), (elacpTypeFriendRequest, Pktfreq.descr)]

def elacpGetGender : CpObject → Option (Option CString) := getString [(elacpTypeUserinfo, Pktinfo.gender)]
def elacpGetPhone : CpObject → Option (Option CString) := getString [(elacpTypeUserinfo, Pktinfo.phone)]
def elacpGetEmail : CpObject → Option (Option CString) := getString [(elacpTypeUserinfo, Pktinfo.email)]
def elacpGetRegion : CpObject → Option (Option CString) := getString [(elacpTypeUserinfo, Pktinfo.region)]

def elacpGetHasAvatar (cp : CpObject) : Option Bool :=
  (getNumber [(elacpTypeUserinfo, Pktinfo.hasAvatar)] cp).map fun n => decide (n ≠ 0)

def elacpGetHello : CpObject → Option (Option CString) := getString [(elacpTypeFriendRequest, Pktfreq.hello)]

def elacpGetTid (cp : CpObject) : Option Tid :=
  (getNumber [(elacpTypeInviteRequest, Pktireq.tid), (elacpTypeInviteResponse, Pktirsp.tid)] cp).map Int64.ofInt

def elacpGetTotalsz (cp : CpObject) : Option Nat :=
  (getNumber [(elacpTypeInviteRequest, Pktireq.totalsz), (elacpTypeInviteResponse, Pktirsp.totalsz)] cp).map Int.toNat

def elacpGetStatus (cp : CpObject) : Option Int32 :=
  (getNumber [(elacpTypeInviteResponse, Pktirsp.status)] cp).map Int32.ofInt

def elacpGetRawData : CpObject → Option (Option (List UInt8)) :=
  getBytes [(elacpTypeMessage, Pktfmsg.msg), (elacpTypeInviteRequest, Pktireq.data),
    (elacpTypeInviteResponse, Pktirsp.data)]

def elacpGetRawDataLength (cp : CpObject) : Option Nat :=
  (getNumber [(elacpTypeMessage, Pktfmsg.len), (elacpTypeInviteRequest, Pktireq.len),
    (elacpTypeInviteResponse, Pktirsp.len)] cp).map Int.toNat

def elacpGetBundle : CpObject → Option (Option CString) :=
  getString [(elacpTypeInviteRequest, Pktireq.bundle), (elacpTypeInviteResponse, Pktirsp.bundle)]

def elacpGetReason : CpObject → Option (Option CString) := getString [(elacpTypeInviteResponse, Pktirsp.reason)]

/-! The setters. A string that the setter asserts is no option. -/

def elacpSetName (name : CString) : CpObject → Option CpObject :=
  setMember [(elacpTypeUserinfo, Pktinfo.name), (elacpTypeFriendRequest, Pktfreq.name)] (some (.string name))

def elacpSetDescr (descr : CString) : CpObject → Option CpObject :=
  setMember [(elacpTypeUserinfo, Pktinfo.descr), (elacpTypeFriendRequest, Pktfreq.descr)] (some (.string descr))

def elacpSetGender (gender : CString) : CpObject → Option CpObject :=
  setMember [(elacpTypeUserinfo, Pktinfo.gender)] (some (.string gender))

def elacpSetPhone (phone : CString) : CpObject → Option CpObject :=
  setMember [(elacpTypeUserinfo, Pktinfo.phone)] (some (.string phone))

def elacpSetEmail (email : CString) : CpObject → Option CpObject :=
  setMember [(elacpTypeUserinfo, Pktinfo.email)] (some (.string email))

def elacpSetRegion (region : CString) : CpObject → Option CpObject :=
  setMember [(elacpTypeUserinfo, Pktinfo.region)] (some (.string region))

def elacpSetHasAvatar (hasAvatar : Bool) : CpObject → Option CpObject :=
  setMember [(elacpTypeUserinfo, Pktinfo.hasAvatar)] (some (.number hasAvatar.toInt))

def elacpSetHello (hello : CString) : CpObject → Option CpObject :=
  setMember [(elacpTypeFriendRequest, Pktfreq.hello)] (some (.string hello))

def elacpSetTid (tid : Tid) : CpObject → Option CpObject :=
  setMember [(elacpTypeInviteRequest, Pktireq.tid), (elacpTypeInviteResponse, Pktirsp.tid)] (some (.number tid.toInt))

def elacpSetTotalsz (totalsz : Nat) : CpObject → Option CpObject :=
  setMember [(elacpTypeInviteRequest, Pktireq.totalsz), (elacpTypeInviteResponse, Pktirsp.totalsz)]
    (some (.number totalsz))

def elacpSetStatus (status : Int32) : CpObject → Option CpObject :=
  setMember [(elacpTypeInviteResponse, Pktirsp.status)] (some (.number status.toInt))

/-- elacp_set_raw_data, which asserts that there are data. -/
def elacpSetRawData (data : List UInt8) (cp : CpObject) : Option CpObject :=
  if data = [] then none
  else
    (setMember [(elacpTypeMessage, Pktfmsg.msg), (elacpTypeInviteRequest, Pktireq.data),
      (elacpTypeInviteResponse, Pktirsp.data)] (some (.bytes data)) cp).bind
    (setMember [(elacpTypeMessage, Pktfmsg.len), (elacpTypeInviteRequest, Pktireq.len),
      (elacpTypeInviteResponse, Pktirsp.len)] (some (.number data.length)))

def elacpSetBundle (bundle : Option CString) : CpObject → Option CpObject :=
  setMember [(elacpTypeInviteRequest, Pktireq.bundle), (elacpTypeInviteResponse, Pktirsp.bundle)]
    (bundle.map .string)

def elacpSetReason (reason : CString) : CpObject → Option CpObject :=
  setMember [(elacpTypeInviteResponse, Pktirsp.reason)] (some (.string reason))

/-! The schema. A field of a table has the slot of its place. -/

namespace Fbs
def userinfo : List String := ["avatar", "name", "descr", "phone", "gender", "email", "region"]
def friendreq : List String := ["name", "descr", "hello"]
def friendmsg : List String := ["ext", "msg"]
def invitereq : List String := ["ext", "tid", "bundle", "totalsz", "data"]
def invitersp : List String := ["ext", "tid", "bundle", "totalsz", "status", "reason", "data"]
end Fbs

def slot (table : List String) (field : String) : Nat := table.idxOf field

/-- flatbuffers_uint8_vec_create reads as many bytes as it is told. -/
def createVec (slot : Nat) (data : Option (List UInt8)) (len : Int) : Option FlatTable :=
  if len.toNat ≤ (data.getD []).length then some [(slot, .ubytes ((data.getD []).take len.toNat))] else none

/-! The cases of elacp_encode. The extension of an invitation is added through the table of messages. -/

section Cases
variable (cp : CpObject)

def encodeUserinfo : Option FlatTable := do
  let name := addPresent (slot Fbs.userinfo "name") (← cp.readString Pktinfo.name)
  let descr ← addString (slot Fbs.userinfo "descr") (← cp.readString Pktinfo.descr)
  let gender ← addString (slot Fbs.userinfo "gender") (← cp.readString Pktinfo.gender)
  let phone ← addString (slot Fbs.userinfo "phone") (← cp.readString Pktinfo.phone)
  let email ← addString (slot Fbs.userinfo "email") (← cp.readString Pktinfo.email)
  let region ← addString (slot Fbs.userinfo "region") (← cp.readString Pktinfo.region)
  let avatar := (slot Fbs.userinfo "avatar", FlatValue.scalar (← cp.readNumber Pktinfo.hasAvatar))
  some (name ++ descr ++ gender ++ phone ++ email ++ region ++ [avatar])

def encodeFriendreq : Option FlatTable := do
  let name ← addString (slot Fbs.friendreq "name") (← cp.readString Pktfreq.name)
  let descr ← addString (slot Fbs.friendreq "descr") (← cp.readString Pktfreq.descr)
  let hello ← addString (slot Fbs.friendreq "hello") (← cp.readString Pktfreq.hello)
  some (name ++ descr ++ hello)

def encodeFriendmsg : Option FlatTable := do
  let ext := addPresent (slot Fbs.friendmsg "ext") (← cp.readString Cp.ext)
  let msg ← createVec (slot Fbs.friendmsg "msg") (← cp.readBytes Pktfmsg.msg) (← cp.readNumber Pktfmsg.len)
  some (ext ++ msg)

def encodeInvitereq : Option FlatTable := do
  let ext := addPresent (slot Fbs.friendmsg "ext") (← cp.readString Cp.ext)
  let tid := (slot Fbs.invitereq "tid", FlatValue.scalar (← cp.readNumber Pktireq.tid))
  let totalsz := (slot Fbs.invitereq "totalsz", FlatValue.scalar ((← cp.readNumber Pktireq.totalsz) % 2 ^ 32))
  let bundle := addPresent (slot Fbs.invitereq "bundle") (← cp.readString Pktireq.bundle)
  let data ← createVec (slot Fbs.invitereq "data") (← cp.readBytes Pktireq.data) (← cp.readNumber Pktireq.len)
  some (ext ++ [tid, totalsz] ++ bundle ++ data)

def encodeInvitersp : Option FlatTable := do
  let ext := addPresent (slot Fbs.friendmsg "ext") (← cp.readString Cp.ext)
  let tid := (slot Fbs.invitersp "tid", FlatValue.scalar (← cp.readNumber Pktirsp.tid))
  let totalsz := (slot Fbs.invitersp "totalsz", FlatValue.scalar ((← cp.readNumber Pktirsp.totalsz) % 2 ^ 32))
  let bundle := addPresent (slot Fbs.invitersp "bundle") (← cp.readString Pktirsp.bundle)
  let status ← cp.readNumber Pktirsp.status
  let reason ← cp.readString Pktirsp.reason
  let answer ← if status ≠ 0 ∧ reason.isSome then some (addPresent (slot Fbs.invitersp "reason") reason)
    else do createVec (slot Fbs.invitersp "data") (← cp.readBytes Pktirsp.data) (← cp.readNumber Pktirsp.len)
  some (ext ++ [tid, totalsz] ++ bundle ++ [(slot Fbs.invitersp "status", .scalar status)] ++ answer)

end Cases

/-- The switch of elacp_encode. -/
def encodeBody (cp : CpObject) (type : UInt8) : Option FlatTable :=
  if type = elacpTypeUserinfo then encodeUserinfo cp
  else if type = elacpTypeFriendRequest then encodeFriendreq cp
  else if type = elacpTypeMessage then encodeFriendmsg cp
  else if type = elacpTypeInviteRequest then encodeInvitereq cp
  else if type = elacpTypeInviteResponse then encodeInvitersp cp
  else none

/-- elacp_encode. -/
def elacpEncodeObject (cp : CpObject) : Option FlatPacket := do
  let type ← cp.type
  let body ← encodeBody cp type
  some ⟨type, some body⟩

/-- A vector as flatcc returns it, which is NULL where it is not stored. -/
def getVec (t : FlatTable) (slot : Nat) : Option (List UInt8) :=
  match FlatTable.get t slot with
  | some (.ubytes v) => some v
  | _ => none

/-! What the decoder assigns to the members. -/

section Assignments
variable (t : FlatTable) (m len : Member) (slot : Nat)

def stringOf : List (Member × Option CpValue) := [(m, (FlatTable.getString t slot).map .string)]

/-- Where a string is not stored, the member stays as it is. -/
def presentOf : List (Member × Option CpValue) :=
  match FlatTable.getString t slot with
  | some s => [(m, some (.string s))]
  | none => []

def boolOf : List (Member × Option CpValue) :=
  [(m, some (.number (decide (FlatTable.getScalar t slot ≠ 0)).toInt))]

def longOf : List (Member × Option CpValue) :=
  [(m, some (.number (Int64.ofInt (FlatTable.getScalar t slot)).toInt))]

def intOf32 : List (Member × Option CpValue) :=
  [(m, some (.number (Int32.ofInt (FlatTable.getScalar t slot)).toInt))]

def sizeOf32 : List (Member × Option CpValue) :=
  [(m, some (.number (FlatTable.getScalar t slot).toNat))]

def vecOf : List (Member × Option CpValue) :=
  [(m, (getVec t slot).map .bytes), (len, some (.number ((getVec t slot).getD []).length))]

end Assignments

/-- The second switch of elacp_decode. The total size of a response is assigned through the
structure of requests. -/
def decodeBody (type : UInt8) (t : FlatTable) : List (Member × Option CpValue) :=
  if type = elacpTypeUserinfo then
    presentOf t Pktinfo.name (slot Fbs.userinfo "name") ++
    stringOf t Pktinfo.descr (slot Fbs.userinfo "descr") ++
    stringOf t Pktinfo.gender (slot Fbs.userinfo "gender") ++
    stringOf t Pktinfo.phone (slot Fbs.userinfo "phone") ++
    stringOf t Pktinfo.email (slot Fbs.userinfo "email") ++
    stringOf t Pktinfo.region (slot Fbs.userinfo "region") ++
    boolOf t Pktinfo.hasAvatar (slot Fbs.userinfo "avatar")
  else if type = elacpTypeFriendRequest then
    stringOf t Pktfreq.name (slot Fbs.friendreq "name") ++
    stringOf t Pktfreq.descr (slot Fbs.friendreq "descr") ++
    stringOf t Pktfreq.hello (slot Fbs.friendreq "hello")
  else if type = elacpTypeMessage then
    vecOf t Pktfmsg.msg Pktfmsg.len (slot Fbs.friendmsg "msg") ++
    presentOf t Cp.ext (slot Fbs.friendmsg "ext")
  else if type = elacpTypeInviteRequest then
    longOf t Pktireq.tid (slot Fbs.invitereq "tid") ++
    sizeOf32 t Pktireq.totalsz (slot Fbs.invitereq "totalsz") ++
    presentOf t Pktireq.bundle (slot Fbs.invitereq "bundle") ++
    vecOf t Pktireq.data Pktireq.len (slot Fbs.invitereq "data") ++
    presentOf t Cp.ext (slot Fbs.invitereq "ext")
  else
    longOf t Pktirsp.tid (slot Fbs.invitersp "tid") ++
    sizeOf32 t Pktireq.totalsz (slot Fbs.invitersp "totalsz") ++
    presentOf t Pktirsp.bundle (slot Fbs.invitersp "bundle") ++
    intOf32 t Pktirsp.status (slot Fbs.invitersp "status") ++
    (if Int32.ofInt (FlatTable.getScalar t (slot Fbs.invitersp "status")) ≠ 0 then
      stringOf t Pktirsp.reason (slot Fbs.invitersp "reason")
    else vecOf t Pktirsp.data Pktirsp.len (slot Fbs.invitersp "data")) ++
    presentOf t Cp.ext (slot Fbs.invitersp "ext")

/-- elacp_decode. Other types are refused before anything is allocated, as elacp_create knows the same five. -/
def elacpDecodeObject (packet : FlatPacket) : Option CpObject := do
  let cp ← elacpCreate packet.type none
  let body ← packet.body
  cp.assign (decodeBody packet.type body)

/-! Reading what was written. -/

namespace CpObject
variable {cp : CpObject} {m n : Member} {v : Option CpValue}

@[simp] theorem size_put : (cp.put m v).size = cp.size := rfl

theorem read_put_self (h : m.offset + m.width ≤ cp.size) (hm : 0 < m.width) : (cp.put m v).read m = some v := by
  rw [read, size_put, if_pos h]
  exact load_store_self hm

theorem read_put_apart (hn : 0 < n.width) (h : m.Apart n) : (cp.put m v).read n = cp.read n := by
  have hload : load (cp.put m v).mem n = load cp.mem n := load_store_apart hn h
  rw [read, read, size_put, hload]

end CpObject

/-! An object seen as a structure: the values of its members by their number. -/

structure Views (cp : CpObject) (widths : List Nat) (f : Nat → Option CpValue) : Prop where
  pos : ∀ w ∈ widths, 0 < w
  size : cp.size = widths.sum
  read : ∀ i < widths.length, cp.read (member widths i) = some (f i)

namespace Views
variable {cp : CpObject} {widths : List Nat} {f : Nat → Option CpValue} {i : Nat}

theorem cleared (hpos : ∀ w ∈ widths, 0 < w) : Views ⟨widths.sum, PackedStruct.cleared⟩ widths fun _ => none where
  pos := hpos
  size := rfl
  read i hi := by
    rw [CpObject.read, if_pos (member_fits hi)]
    exact load_cleared (member_pos hpos hi)

/-- Writing a member changes that one only. -/
theorem write (h : Views cp widths f) (hi : i < widths.length) (v : Option CpValue) :
    ∃ cp', cp.write (member widths i) v = some cp' ∧ Views cp' widths (Function.update f i v) := by
  have hfits : (member widths i).offset + (member widths i).width ≤ cp.size := h.size ▸ member_fits hi
  refine ⟨cp.put (member widths i) v, if_pos hfits, h.pos, h.size, fun j hj => ?_⟩
  by_cases hji : j = i
  · subst hji
    rw [Function.update_self]
    exact read_put_self hfits (member_pos h.pos hj)
  · rw [Function.update_of_ne hji, ← h.read j hj]
    exact read_put_apart (member_pos h.pos hj) (member_apart (Ne.symm hji) hi hj)

theorem readString (h : Views cp widths f) (hi : i < widths.length) : cp.readString (member widths i) = asString (f i) := by
  rw [CpObject.readString, h.read i hi, Option.bind_some]

theorem readBytes (h : Views cp widths f) (hi : i < widths.length) : cp.readBytes (member widths i) = asBytes (f i) := by
  rw [CpObject.readBytes, h.read i hi, Option.bind_some]

theorem readNumber (h : Views cp widths f) (hi : i < widths.length) : cp.readNumber (member widths i) = asNumber (f i) := by
  rw [CpObject.readNumber, h.read i hi, Option.bind_some]

end Views

/-- What elacp_create allocates for a type is as large as a structure, which begins with the header. -/
structure LaidOut (type : UInt8) (widths : List Nat) : Prop where
  positive : ∀ w ∈ widths, 0 < w
  size : elacpSize type = some widths.sum
  length : 1 < widths.length
  type : member widths 0 = Cp.type
  ext : member widths 1 = Cp.ext

theorem userInfo_laidOut : LaidOut elacpTypeUserinfo userInfoWidths := ⟨by decide, rfl, by decide, rfl, rfl⟩
theorem friendReq_laidOut : LaidOut elacpTypeFriendRequest friendReqWidths := ⟨by decide, rfl, by decide, rfl, rfl⟩
theorem friendMsg_laidOut : LaidOut elacpTypeMessage friendMsgWidths := ⟨by decide, rfl, by decide, rfl, rfl⟩
theorem inviteReq_laidOut : LaidOut elacpTypeInviteRequest inviteReqWidths := ⟨by decide, rfl, by decide, rfl, rfl⟩
theorem inviteRsp_laidOut : LaidOut elacpTypeInviteResponse inviteRspWidths := ⟨by decide, rfl, by decide, rfl, rfl⟩

/-- A step of the code yields an object with some values. -/
def Builds (x : Option CpObject) (widths : List Nat) (f : Nat → Option CpValue) : Prop :=
  ∃ cp, x = some cp ∧ Views cp widths f

/-- The first two members of every structure are the header. -/
theorem LaidOut.create {type : UInt8} {widths : List Nat} (hl : LaidOut type widths) (ext : Option CString) :
    Builds (elacpCreate type ext) widths
      (Function.update (Function.update (fun _ => none) 0 (some (.number type.toNat))) 1 (ext.map .string)) := by
  obtain ⟨cp, hwrite, hv⟩ :=
    (Views.cleared hl.positive).write (Nat.zero_lt_of_lt hl.length) (some (.number type.toNat))
  obtain ⟨cp', hwrite', hv'⟩ := hv.write hl.length (ext.map .string)
  rw [hl.type] at hwrite
  rw [hl.ext] at hwrite'
  refine ⟨cp', ?_, hv'⟩
  rw [elacpCreate, hl.size]
  simp only [Option.bind_eq_bind, Option.bind_some, hwrite, hwrite']

/-! The assignments of the decoder, seen so. -/

section Decoding
variable {cp : CpObject} {widths : List Nat} {f g : Nat → Option CpValue} {i j : Nat} {t : FlatTable}

theorem assign_append (ws ws' : List (Member × Option CpValue)) (cp : CpObject) :
    cp.assign (ws ++ ws') = (cp.assign ws).bind fun cp => cp.assign ws' := List.foldlM_append ..

/-- One list of assignments after the other. -/
theorem Builds.append {ws ws' : List (Member × Option CpValue)} (h : Builds (cp.assign ws) widths f)
    (hnext : ∀ cp, Views cp widths f → Builds (cp.assign ws') widths g) :
    Builds (cp.assign (ws ++ ws')) widths g := by
  obtain ⟨mid, hmid, hv⟩ := h
  rw [assign_append, hmid, Option.bind_some]
  exact hnext mid hv

namespace Views

theorem one (h : Views cp widths f) (hi : i < widths.length) (v : Option CpValue) :
    Builds (cp.assign [(member widths i, v)]) widths (Function.update f i v) := by
  obtain ⟨cp', hwrite, hv⟩ := h.write hi v
  refine ⟨cp', ?_, hv⟩
  rw [CpObject.assign, List.foldlM_cons, hwrite]
  rfl

theorem present (h : Views cp widths f) (hi : i < widths.length) (hnone : f i = none) (slot : Nat) :
    Builds (cp.assign (presentOf t (member widths i) slot)) widths
      (Function.update f i ((FlatTable.getString t slot).map .string)) := by
  unfold presentOf
  cases FlatTable.getString t slot with
  | some s => exact h.one hi _
  | none =>
    have hsame : Function.update f i (Option.map CpValue.string none) = f := by
      rw [Option.map_none, ← hnone, Function.update_eq_self]
    rw [hsame]
    exact ⟨cp, rfl, h⟩

theorem vec (h : Views cp widths f) (hi : i < widths.length) (hj : j < widths.length) (slot : Nat) :
    Builds (cp.assign (vecOf t (member widths i) (member widths j) slot)) widths
      (Function.update (Function.update f i ((getVec t slot).map .bytes)) j
        (some (.number ((getVec t slot).getD []).length))) :=
  (h.one hi _).append fun _ h => h.one hj _

end Views

end Decoding

/-! Objects that hold a packet. -/

theorem asString_map (s : Option CString) : asString (s.map .string) = some s := by cases s <;> rfl

/-- A length and a pointer to as many bytes. -/
structure HoldsData (cp : CpObject) (data len : Member) (bytes : List UInt8) : Prop where
  len : cp.readNumber len = some (bytes.length : Int)
  data : ∃ v, cp.readBytes data = some v ∧ v.getD [] = bytes

/-- The members of an object, under the names of its structure, hold a packet. -/
def Represents (cp : CpObject) : ElaCP → Prop
  | .userInfo p => cp.type = some elacpTypeUserinfo ∧ cp.readString Cp.ext = some none ∧
      cp.readNumber Pktinfo.hasAvatar = some p.hasAvatar.toInt ∧ cp.readString Pktinfo.name = some p.name ∧
      cp.readString Pktinfo.descr = some p.descr ∧ cp.readString Pktinfo.phone = some p.phone ∧
      cp.readString Pktinfo.gender = some p.gender ∧ cp.readString Pktinfo.email = some p.email ∧
      cp.readString Pktinfo.region = some p.region
  | .friendReq p => cp.type = some elacpTypeFriendRequest ∧ cp.readString Cp.ext = some none ∧
      cp.readString Pktfreq.name = some p.name ∧ cp.readString Pktfreq.descr = some p.descr ∧
      cp.readString Pktfreq.hello = some p.hello
  | .friendMsg p => cp.type = some elacpTypeMessage ∧ cp.readString Cp.ext = some p.ext ∧
      HoldsData cp Pktfmsg.msg Pktfmsg.len p.msg
  | .inviteReq p => cp.type = some elacpTypeInviteRequest ∧ cp.readString Cp.ext = some p.ext ∧
      cp.readNumber Pktireq.tid = some p.tid.toInt ∧ cp.readString Pktireq.bundle = some p.bundle ∧
      cp.readNumber Pktireq.totalsz = some (p.totalsz : Int) ∧ HoldsData cp Pktireq.data Pktireq.len p.data
  | .inviteRsp p => cp.type = some elacpTypeInviteResponse ∧ cp.readString Cp.ext = some p.ext ∧
      cp.readNumber Pktirsp.tid = some p.tid.toInt ∧ cp.readString Pktirsp.bundle = some p.bundle ∧
      cp.readNumber Pktirsp.totalsz = some (p.totalsz : Int) ∧ cp.readNumber Pktirsp.status = some p.status.toInt ∧
      cp.readString Pktirsp.reason = some p.reason ∧ HoldsData cp Pktirsp.data Pktirsp.len p.data

theorem createVec_full {v : Option (List UInt8)} {bytes : List UInt8} (h : v.getD [] = bytes) (slot : Nat) :
    createVec slot v (bytes.length : Int) = some [(slot, .ubytes bytes)] := by
  rw [createVec, Int.toNat_natCast, h, if_pos (Nat.le_refl _), List.take_length]

theorem toInt_ne_zero (n : Int32) : n.toInt ≠ 0 ↔ n ≠ 0 :=
  not_congr ⟨fun h => Int32.toInt_inj.mp h, fun h => by rw [h]; rfl⟩

theorem elacpEncodeObject_of_type {cp : CpObject} {type : UInt8} {body : Option FlatTable}
    (h : cp.type = some type) (hbody : encodeBody cp type = body) :
    elacpEncodeObject cp = body.map fun t => ⟨type, some t⟩ := by
  rw [elacpEncodeObject, h, Option.bind_eq_bind, Option.bind_some, hbody]
  cases body <;> rfl

/-- The encoder of the objects computes what the encoder of the packets does. -/
theorem elacpEncodeObject_eq {cp : CpObject} {p : ElaCP} (h : Represents cp p) :
    elacpEncodeObject cp = elacpEncode p := by
  cases p with
  | userInfo p =>
    obtain ⟨htype, -, havatar, hname, hdescr, hphone, hgender, hemail, hregion⟩ := h
    rw [elacpEncodeObject_of_type htype (show _ = encodeUserinfo cp from rfl), encodeUserinfo]
    simp only [Option.bind_eq_bind, Option.bind_some, havatar, hname, hdescr, hphone, hgender, hemail, hregion]
    obtain ⟨avatar, name, descr, phone, gender, email, region⟩ := p
    cases descr <;> cases gender <;> cases phone <;> cases email <;> cases region <;> rfl
  | friendReq p =>
    obtain ⟨htype, -, hname, hdescr, hhello⟩ := h
    rw [elacpEncodeObject_of_type htype (show _ = encodeFriendreq cp from rfl), encodeFriendreq]
    simp only [Option.bind_eq_bind, Option.bind_some, hname, hdescr, hhello]
    obtain ⟨name, descr, hello⟩ := p
    cases name <;> cases descr <;> cases hello <;> rfl
  | friendMsg p =>
    obtain ⟨htype, hext, hlen, v, hv, hbytes⟩ := h
    rw [elacpEncodeObject_of_type htype (show _ = encodeFriendmsg cp from rfl), encodeFriendmsg]
    simp only [Option.bind_eq_bind, Option.bind_some, hext, hv, hlen, createVec_full hbytes]
    rfl
  | inviteReq p =>
    obtain ⟨htype, hext, htid, hbundle, htotalsz, hlen, v, hv, hbytes⟩ := h
    rw [elacpEncodeObject_of_type htype (show _ = encodeInvitereq cp from rfl), encodeInvitereq]
    simp only [Option.bind_eq_bind, Option.bind_some, hext, htid, hbundle, htotalsz, hv, hlen, createVec_full hbytes]
    rfl
  | inviteRsp p =>
    obtain ⟨htype, hext, htid, hbundle, htotalsz, hstatus, hreason, hlen, v, hv, hbytes⟩ := h
    rw [elacpEncodeObject_of_type htype (show _ = encodeInvitersp cp from rfl), encodeInvitersp]
    simp only [Option.bind_eq_bind, Option.bind_some, hext, htid, hbundle, htotalsz, hstatus, hreason, hv, hlen,
      createVec_full hbytes, toInt_ne_zero, elacpEncode]
    split <;> rfl

theorem getVec_getD (t : FlatTable) (slot : Nat) : (getVec t slot).getD [] = FlatTable.getUbytes t slot := by
  unfold getVec FlatTable.getUbytes
  cases FlatTable.get t slot with
  | none => rfl
  | some v => cases v <;> rfl

theorem asBytes_map (v : Option (List UInt8)) : asBytes (v.map .bytes) = some v := by cases v <;> rfl

section Represent
variable {cp : CpObject} {widths : List Nat} {f : Nat → Option CpValue} {kind : UInt8} {t : FlatTable}

theorem Views.type (h : Views cp widths f) (hlen : 0 < widths.length) (hcp : member widths 0 = Cp.type)
    (htype : f 0 = some (.number kind.toNat)) : cp.type = some kind := by
  have hread : cp.readNumber Cp.type = some (kind.toNat : Int) := by
    rw [← hcp, h.readNumber hlen, htype]
    rfl
  rw [CpObject.type, hread, Option.map_some, Int.toNat_natCast, UInt8.ofNat_toNat]

theorem Views.data (h : Views cp widths f) {i j : Nat} (hi : i < widths.length) (hj : j < widths.length)
    {v : Option (List UInt8)} (hdata : f i = v.map .bytes) (hlen : asNumber (f j) = some ((v.getD []).length : Int)) :
    HoldsData cp (member widths i) (member widths j) (v.getD []) :=
  ⟨(h.readNumber hj).trans hlen, v, (h.readBytes hi).trans (hdata ▸ asBytes_map v), rfl⟩

theorem LaidOut.readType (hl : LaidOut kind widths) (h : Views cp widths f)
    (htype : f 0 = some (.number kind.toNat)) : cp.type = some kind :=
  h.type (Nat.zero_lt_of_lt hl.length) hl.type htype

theorem LaidOut.readExt (hl : LaidOut kind widths) (h : Views cp widths f) {ext : Option CString}
    (hext : f 1 = ext.map .string) : cp.readString Cp.ext = some ext := by
  rw [← hl.ext, h.readString hl.length, hext, asString_map]

/-- Both decoders take a body, and what the decoder of packets computes, the decoder of objects leaves in
an object. -/
def Decodes (kind : UInt8) (t : FlatTable) : Prop :=
  ∃ p cp, elacpDecode ⟨kind, some t⟩ = some p ∧ elacpDecodeObject ⟨kind, some t⟩ = some cp ∧ Represents cp p

theorem LaidOut.decodes {p : ElaCP} (hl : LaidOut kind widths) (hdecode : elacpDecode ⟨kind, some t⟩ = some p)
    {g : Nat → Option CpValue}
    (hbody : ∀ cp, Views cp widths (Function.update (Function.update (fun _ => none) 0 (some (.number kind.toNat))) 1 none) →
      Builds (cp.assign (decodeBody kind t)) widths g)
    (hp : ∀ cp, Views cp widths g → Represents cp p) : Decodes kind t := by
  obtain ⟨cp, hcp, hv⟩ := hl.create none
  obtain ⟨cp', hassign, hv'⟩ := hbody cp hv
  refine ⟨p, cp', hdecode, ?_, hp cp' hv'⟩
  rw [elacpDecodeObject]
  simp only [hcp, Option.bind_eq_bind, Option.bind_some, hassign]

end Represent

section Bodies
variable (t : FlatTable)

theorem userInfo_decodes : Decodes elacpTypeUserinfo t := by
  apply userInfo_laidOut.decodes rfl
  · intro cp hv
    exact (((((((hv.present (i := 3) (by decide) rfl _).append fun _ h => h.one (i := 4) (by decide) _).append
      fun _ h => h.one (i := 6) (by decide) _).append fun _ h => h.one (i := 5) (by decide) _).append
      fun _ h => h.one (i := 7) (by decide) _).append fun _ h => h.one (i := 8) (by decide) _).append
      fun _ h => h.one (i := 2) (by decide) _)
  · intro cp hv
    exact ⟨userInfo_laidOut.readType hv rfl, userInfo_laidOut.readExt hv rfl,
      hv.readNumber (i := 2) (by decide), (hv.readString (i := 3) (by decide)).trans (asString_map _),
      (hv.readString (i := 4) (by decide)).trans (asString_map _),
      (hv.readString (i := 5) (by decide)).trans (asString_map _),
      (hv.readString (i := 6) (by decide)).trans (asString_map _),
      (hv.readString (i := 7) (by decide)).trans (asString_map _),
      (hv.readString (i := 8) (by decide)).trans (asString_map _)⟩

theorem friendReq_decodes : Decodes elacpTypeFriendRequest t := by
  apply friendReq_laidOut.decodes rfl
  · intro cp hv
    exact ((hv.one (i := 2) (by decide) _).append fun _ h => h.one (i := 3) (by decide) _).append
      fun _ h => h.one (i := 4) (by decide) _
  · intro cp hv
    exact ⟨friendReq_laidOut.readType hv rfl, friendReq_laidOut.readExt hv rfl,
      (hv.readString (i := 2) (by decide)).trans (asString_map _),
      (hv.readString (i := 3) (by decide)).trans (asString_map _),
      (hv.readString (i := 4) (by decide)).trans (asString_map _)⟩

theorem friendMsg_decodes : Decodes elacpTypeMessage t := by
  apply friendMsg_laidOut.decodes rfl
  · intro cp hv
    exact (hv.vec (i := 3) (j := 2) (by decide) (by decide) _).append
      fun _ h => h.present (i := 1) (by decide) rfl _
  · intro cp hv
    rw [← getVec_getD]
    exact ⟨friendMsg_laidOut.readType hv rfl, friendMsg_laidOut.readExt hv rfl,
      hv.data (i := 3) (j := 2) (by decide) (by decide) rfl rfl⟩

theorem inviteReq_decodes : Decodes elacpTypeInviteRequest t := by
  apply inviteReq_laidOut.decodes rfl
  · intro cp hv
    exact ((((hv.one (i := 2) (by decide) _).append fun _ h => h.one (i := 4) (by decide) _).append
      fun _ h => h.present (i := 3) (by decide) rfl _).append
      fun _ h => h.vec (i := 6) (j := 5) (by decide) (by decide) _).append
      fun _ h => h.present (i := 1) (by decide) rfl _
  · intro cp hv
    rw [← getVec_getD]
    exact ⟨inviteReq_laidOut.readType hv rfl, inviteReq_laidOut.readExt hv rfl, hv.readNumber (i := 2) (by decide),
      (hv.readString (i := 3) (by decide)).trans (asString_map _), hv.readNumber (i := 4) (by decide),
      hv.data (i := 6) (j := 5) (by decide) (by decide) rfl rfl⟩

/-- The status decides whether a reason or data are read. -/
theorem inviteRsp_decodes : Decodes elacpTypeInviteResponse t := by
  have hlist : decodeBody elacpTypeInviteResponse t = longOf t Pktirsp.tid 1 ++ sizeOf32 t Pktirsp.totalsz 3 ++
      presentOf t Pktirsp.bundle 2 ++ intOf32 t Pktirsp.status 4 ++
      (if Int32.ofInt (FlatTable.getScalar t 4) ≠ 0 then stringOf t Pktirsp.reason 5
        else vecOf t Pktirsp.data Pktirsp.len 6) ++ presentOf t Cp.ext 0 := rfl
  by_cases hstatus : Int32.ofInt (FlatTable.getScalar t 4) ≠ 0
  · rw [if_pos hstatus] at hlist
    apply inviteRsp_laidOut.decodes rfl
    · intro cp hv
      exact hlist ▸ (((((hv.one (i := 2) (by decide) _).append fun _ h => h.one (i := 4) (by decide) _).append
        fun _ h => h.present (i := 3) (by decide) rfl _).append fun _ h => h.one (i := 5) (by decide) _).append
        fun _ h => h.one (i := 6) (by decide) _).append fun _ h => h.present (i := 1) (by decide) rfl _
    · intro cp hv
      rw [if_pos hstatus, if_pos hstatus]
      exact ⟨inviteRsp_laidOut.readType hv rfl, inviteRsp_laidOut.readExt hv rfl, hv.readNumber (i := 2) (by decide),
        (hv.readString (i := 3) (by decide)).trans (asString_map _), hv.readNumber (i := 4) (by decide),
        hv.readNumber (i := 5) (by decide), (hv.readString (i := 6) (by decide)).trans (asString_map _),
        hv.data (i := 8) (j := 7) (v := none) (by decide) (by decide) rfl rfl⟩
  · rw [if_neg hstatus] at hlist
    apply inviteRsp_laidOut.decodes rfl
    · intro cp hv
      exact hlist ▸ (((((hv.one (i := 2) (by decide) _).append fun _ h => h.one (i := 4) (by decide) _).append
        fun _ h => h.present (i := 3) (by decide) rfl _).append fun _ h => h.one (i := 5) (by decide) _).append
        fun _ h => h.vec (i := 8) (j := 7) (by decide) (by decide) _).append
        fun _ h => h.present (i := 1) (by decide) rfl _
    · intro cp hv
      rw [if_neg hstatus, if_neg hstatus, ← getVec_getD]
      exact ⟨inviteRsp_laidOut.readType hv rfl, inviteRsp_laidOut.readExt hv rfl, hv.readNumber (i := 2) (by decide),
        (hv.readString (i := 3) (by decide)).trans (asString_map _), hv.readNumber (i := 4) (by decide),
        hv.readNumber (i := 5) (by decide), hv.readString (i := 6) (by decide),
        hv.data (i := 8) (j := 7) (by decide) (by decide) rfl rfl⟩

end Bodies

theorem elacpDecode_decodes {packet : FlatPacket} {p : ElaCP} (h : elacpDecode packet = some p) :
    ∃ t, packet.body = some t ∧ Decodes packet.type t := by
  unfold elacpDecode at h
  split at h
  · next t htype hbody => exact ⟨t, hbody, htype ▸ userInfo_decodes t⟩
  · next t htype hbody => exact ⟨t, hbody, htype ▸ friendReq_decodes t⟩
  · next t htype hbody => exact ⟨t, hbody, htype ▸ friendMsg_decodes t⟩
  · next t htype hbody => exact ⟨t, hbody, htype ▸ inviteReq_decodes t⟩
  · next t htype hbody => exact ⟨t, hbody, htype ▸ inviteRsp_decodes t⟩
  · cases h

/-- What the decoder of packets computes, the decoder of objects leaves in an object. -/
theorem elacpDecodeObject_represents {packet : FlatPacket} {p : ElaCP} (h : elacpDecode packet = some p) :
    ∃ cp, elacpDecodeObject packet = some cp ∧ Represents cp p := by
  obtain ⟨t, hbody, q, cp, hdecode, hobject, hq⟩ := elacpDecode_decodes h
  obtain ⟨type, body⟩ := packet
  cases hbody
  cases hdecode.symm.trans h
  exact ⟨cp, hobject, hq⟩

/-! The packets as the carrier builds them. -/

/-- Data and the total size that goes with them. -/
structure CpPayload where
  totalsz : Nat
  bytes : List UInt8
  totalsz_lt : totalsz < 2 ^ 32
  nonempty : bytes ≠ []

/-- The answer to an invitation: data, which may be missing, or a status other than zero and a reason. -/
inductive CpAnswer
  | accepted (payload : Option CpPayload)
  | refused (status : Int32) (nonzero : status ≠ 0) (reason : CString)

/-- What the setters are called with. -/
inductive CpBuilt
  | userInfo (hasAvatar : Bool) (name : Option CString) (descr gender phone email region : CString)
  | friendReq (name descr hello : CString)
  | friendMsg (ext : Option CString) (msg : List UInt8) (nonempty : msg ≠ [])
  | inviteReq (ext : Option CString) (tid : Tid) (bundle : Option CString) (payload : Option CpPayload)
  | inviteRsp (ext : Option CString) (tid : Tid) (bundle : Option CString) (answer : CpAnswer)

/-- A call that is made where there is a value. -/
def callSome {α : Type} (set : α → CpObject → Option CpObject) : Option α → CpObject → Option CpObject
  | some a => set a
  | none => some

def setPayload (payload : CpPayload) (cp : CpObject) : Option CpObject :=
  (elacpSetTotalsz payload.totalsz cp).bind (elacpSetRawData payload.bytes)

/-- The calls in the order of the callers. -/
def CpBuilt.build : CpBuilt → Option CpObject
  | .userInfo hasAvatar name descr gender phone email region =>
    (((((((elacpCreate elacpTypeUserinfo none).bind (elacpSetHasAvatar hasAvatar)).bind
      (callSome elacpSetName name)).bind (elacpSetDescr descr)).bind (elacpSetGender gender)).bind
      (elacpSetPhone phone)).bind (elacpSetEmail email)).bind (elacpSetRegion region)
  | .friendReq name descr hello =>
    (((elacpCreate elacpTypeFriendRequest none).bind (elacpSetName name)).bind (elacpSetDescr descr)).bind
      (elacpSetHello hello)
  | .friendMsg ext msg _ => (elacpCreate elacpTypeMessage ext).bind (elacpSetRawData msg)
  | .inviteReq ext tid bundle payload =>
    (((elacpCreate elacpTypeInviteRequest ext).bind (elacpSetTid tid)).bind
      (callSome (fun s => elacpSetBundle (some s)) bundle)).bind (callSome setPayload payload)
  | .inviteRsp ext tid bundle (.accepted payload) =>
    ((((elacpCreate elacpTypeInviteResponse ext).bind (elacpSetTid tid)).bind (elacpSetStatus 0)).bind
      (callSome (fun s => elacpSetBundle (some s)) bundle)).bind (callSome setPayload payload)
  | .inviteRsp ext tid bundle (.refused status _ reason) =>
    ((((elacpCreate elacpTypeInviteResponse ext).bind (elacpSetTid tid)).bind (elacpSetStatus status)).bind
      (callSome (fun s => elacpSetBundle (some s)) bundle)).bind (elacpSetReason reason)

def payloadBytes (payload : Option CpPayload) : List UInt8 := (payload.map CpPayload.bytes).getD []
def payloadTotalsz (payload : Option CpPayload) : Nat := (payload.map CpPayload.totalsz).getD 0

/-- The packet that is meant. -/
def CpBuilt.packet : CpBuilt → ElaCP
  | .userInfo hasAvatar name descr gender phone email region =>
    .userInfo ⟨hasAvatar, name, descr, phone, gender, email, region⟩
  | .friendReq name descr hello => .friendReq ⟨name, descr, hello⟩
  | .friendMsg ext msg _ => .friendMsg ⟨ext, msg⟩
  | .inviteReq ext tid bundle payload => .inviteReq ⟨ext, tid, bundle, payloadTotalsz payload, payloadBytes payload⟩
  | .inviteRsp ext tid bundle (.accepted payload) =>
    .inviteRsp ⟨ext, tid, bundle, payloadTotalsz payload, 0, none, payloadBytes payload⟩
  | .inviteRsp ext tid bundle (.refused status _ reason) => .inviteRsp ⟨ext, tid, bundle, 0, status, reason, []⟩

theorem CpBuilt.decode_encode_packet (b : CpBuilt) :
    (elacpEncode b.packet).bind elacpDecode = some b.packet := by
  have htotalsz : ∀ payload, payloadTotalsz payload < 2 ^ 32 := by
    intro payload
    cases payload with
    | none => exact Nat.two_pow_pos 32
    | some payload => exact payload.totalsz_lt
  match b with
  | .userInfo .. => exact decode_encode_userInfo ..
  | .friendReq .. => exact decode_encode_friendReq ..
  | .friendMsg .. => exact decode_encode_friendMsg _
  | .inviteReq _ _ _ payload => exact decode_encode_inviteReq _ (htotalsz payload)
  | .inviteRsp _ _ _ (.accepted payload) =>
    exact decode_encode_inviteRsp _ (htotalsz payload) (fun h => absurd rfl h) fun _ => rfl
  | .inviteRsp _ _ _ (.refused _ nonzero _) =>
    exact decode_encode_inviteRsp _ (Nat.two_pow_pos 32) (fun _ => ⟨rfl, rfl⟩) fun h => absurd h nonzero

/-- A step of the code yields an object with a type and some values. -/
structure Fills (x : Option CpObject) (type : UInt8) (widths : List Nat) (f : Nat → Option CpValue) : Prop where
  builds : Builds x widths f
  length : 0 < widths.length
  header : member widths 0 = Cp.type
  type : f 0 = some (.number type.toNat)

theorem LaidOut.fills {type : UInt8} {widths : List Nat} (hl : LaidOut type widths) (ext : Option CString) :
    Fills (elacpCreate type ext) type widths
      (Function.update (Function.update (fun _ => none) 0 (some (.number type.toNat))) 1 (ext.map .string)) :=
  ⟨hl.create ext, Nat.zero_lt_of_lt hl.length, hl.type, rfl⟩

namespace Fills
variable {x : Option CpObject} {type : UInt8} {widths : List Nat} {f : Nat → Option CpValue} {i j : Nat}

/-- A setter reaches the member that the type of the object selects. -/
theorem set (h : Fills x type widths f) {cases : List (UInt8 × Member)} {v : Option CpValue}
    (hcase : cases.lookup type = some (member widths i)) (hi : i ≠ 0 ∧ i < widths.length) :
    Fills (x.bind (setMember cases v)) type widths (Function.update f i v) := by
  obtain ⟨cp, rfl, hv⟩ := h.builds
  have hselect : cp.select cases = some (member widths i) := by
    rw [CpObject.select, hv.type h.length h.header h.type, Option.bind_some, hcase]
  obtain ⟨cp', hwrite, hv'⟩ := hv.write hi.2 v
  refine ⟨⟨cp', ?_, hv'⟩, h.length, h.header, ?_⟩
  · rw [Option.bind_some, setMember, hselect, Option.bind_some, hwrite]
  · rw [Function.update_of_ne (Ne.symm hi.1), h.type]

/-- A string that is set where there is one. -/
theorem setSome (h : Fills x type widths f) {cases : List (UInt8 × Member)} (s : Option CString)
    (hcase : cases.lookup type = some (member widths i)) (hi : i ≠ 0 ∧ i < widths.length) (hnone : f i = none) :
    Fills (x.bind (callSome (fun s => setMember cases (some (.string s))) s)) type widths
      (Function.update f i (s.map .string)) := by
  cases s with
  | some s => exact h.set hcase hi
  | none =>
    have hsame : Function.update f i (Option.map CpValue.string none) = f := by
      rw [Option.map_none, ← hnone, Function.update_eq_self]
    have hskip : x.bind (callSome (fun s => setMember cases (some (.string s))) none) = x := by cases x <;> rfl
    rw [hsame, hskip]
    exact h

theorem setRawData (h : Fills x type widths f) {bytes : List UInt8} (hbytes : bytes ≠ [])
    (hdata : [(elacpTypeMessage, Pktfmsg.msg), (elacpTypeInviteRequest, Pktireq.data),
      (elacpTypeInviteResponse, Pktirsp.data)].lookup type = some (member widths i))
    (hlength : [(elacpTypeMessage, Pktfmsg.len), (elacpTypeInviteRequest, Pktireq.len),
      (elacpTypeInviteResponse, Pktirsp.len)].lookup type = some (member widths j))
    (hi : i ≠ 0 ∧ i < widths.length) (hj : j ≠ 0 ∧ j < widths.length) :
    Fills (x.bind (elacpSetRawData bytes)) type widths
      (Function.update (Function.update f i (some (.bytes bytes))) j (some (.number bytes.length))) := by
  have hsteps : x.bind (elacpSetRawData bytes) =
      (x.bind (setMember [(elacpTypeMessage, Pktfmsg.msg), (elacpTypeInviteRequest, Pktireq.data),
        (elacpTypeInviteResponse, Pktirsp.data)] (some (.bytes bytes)))).bind
      (setMember [(elacpTypeMessage, Pktfmsg.len), (elacpTypeInviteRequest, Pktireq.len),
        (elacpTypeInviteResponse, Pktirsp.len)] (some (.number bytes.length))) := by
    rw [Option.bind_assoc]
    exact congrArg x.bind (funext fun cp => if_neg hbytes)
  rw [hsteps]
  exact (h.set hdata hi).set hlength hj

/-- Data that are set where there are any. -/
theorem setPayload (h : Fills x type widths f) {k : Nat} (payload : Option CpPayload)
    (htotalsz : [(elacpTypeInviteRequest, Pktireq.totalsz), (elacpTypeInviteResponse, Pktirsp.totalsz)].lookup type =
      some (member widths k))
    (hdata : [(elacpTypeMessage, Pktfmsg.msg), (elacpTypeInviteRequest, Pktireq.data),
      (elacpTypeInviteResponse, Pktirsp.data)].lookup type = some (member widths i))
    (hlength : [(elacpTypeMessage, Pktfmsg.len), (elacpTypeInviteRequest, Pktireq.len),
      (elacpTypeInviteResponse, Pktirsp.len)].lookup type = some (member widths j))
    (hk : k ≠ 0 ∧ k < widths.length) (hi : i ≠ 0 ∧ i < widths.length) (hj : j ≠ 0 ∧ j < widths.length)
    (hnone : f k = none ∧ f i = none ∧ f j = none) :
    Fills (x.bind (callSome CarrierSdk.setPayload payload)) type widths
      (Function.update (Function.update (Function.update f k (payload.map fun p => .number p.totalsz))
        i ((payload.map CpPayload.bytes).map .bytes)) j (payload.map fun p => .number p.bytes.length)) := by
  cases payload with
  | some payload =>
    have hsteps : x.bind (callSome CarrierSdk.setPayload (some payload)) =
        (x.bind (elacpSetTotalsz payload.totalsz)).bind (elacpSetRawData payload.bytes) := (Option.bind_assoc ..).symm
    rw [hsteps]
    exact (h.set htotalsz hk).setRawData payload.nonempty hdata hlength hi hj
  | none =>
    have hskip : x.bind (callSome CarrierSdk.setPayload none) = x := by cases x <;> rfl
    obtain ⟨hk', hi', hj'⟩ := hnone
    have hsame : Function.update (Function.update (Function.update f k none) i none) j none = f := by
      rw [← hk', Function.update_eq_self, hk', ← hi', Function.update_eq_self, hi', ← hj', Function.update_eq_self]
    rw [hskip]
    exact hsame.symm ▸ h

/-- An object is left that reads as the values say. -/
theorem represents (h : Fills x type widths f) {p : ElaCP} (hp : ∀ cp, Views cp widths f → Represents cp p) :
    ∃ cp, x = some cp ∧ Represents cp p := by
  obtain ⟨cp, hx, hv⟩ := h.builds
  exact ⟨cp, hx, hp cp hv⟩

end Fills

theorem asNumber_totalsz (payload : Option CpPayload) :
    asNumber (payload.map fun p => .number p.totalsz) = some (payloadTotalsz payload : Int) := by
  cases payload <;> rfl

theorem asNumber_length (payload : Option CpPayload) :
    asNumber (payload.map fun p => .number p.bytes.length) =
      some (((payload.map CpPayload.bytes).getD []).length : Int) := by
  cases payload <;> rfl

/-- What is built holds the packet that is meant. -/
theorem CpBuilt.build_represents (b : CpBuilt) : ∃ cp, b.build = some cp ∧ Represents cp b.packet := by
  match b with
  | .userInfo hasAvatar name descr gender phone email region =>
    have hcreate := userInfo_laidOut.fills none
    have hbuild : Fills (CpBuilt.userInfo hasAvatar name descr gender phone email region).build _ userInfoWidths _ :=
      ((((((hcreate.set (i := 2) rfl (by decide)).setSome (i := 3) name rfl (by decide) rfl).set (i := 4)
        rfl (by decide)).set (i := 6) rfl (by decide)).set (i := 5) rfl (by decide)).set (i := 7)
        rfl (by decide)).set (i := 8) rfl (by decide)
    refine hbuild.represents fun cp hv => ?_
    exact ⟨userInfo_laidOut.readType hv rfl, userInfo_laidOut.readExt hv rfl, hv.readNumber (i := 2) (by decide),
      (hv.readString (i := 3) (by decide)).trans (asString_map _), hv.readString (i := 4) (by decide),
      hv.readString (i := 5) (by decide), hv.readString (i := 6) (by decide),
      hv.readString (i := 7) (by decide), hv.readString (i := 8) (by decide)⟩
  | .friendReq name descr hello =>
    have hcreate := friendReq_laidOut.fills none
    have hbuild : Fills ((((elacpCreate elacpTypeFriendRequest none).bind (elacpSetName name)).bind
        (elacpSetDescr descr)).bind (elacpSetHello hello)) elacpTypeFriendRequest friendReqWidths _ :=
      ((hcreate.set (i := 2) rfl (by decide)).set (i := 3) rfl (by decide)).set (i := 4) rfl (by decide)
    refine hbuild.represents fun cp hv => ?_
    exact ⟨friendReq_laidOut.readType hv rfl, friendReq_laidOut.readExt hv rfl, hv.readString (i := 2) (by decide),
      hv.readString (i := 3) (by decide), hv.readString (i := 4) (by decide)⟩
  | .friendMsg ext msg nonempty =>
    have hcreate := friendMsg_laidOut.fills ext
    have hbuild : Fills (CpBuilt.friendMsg ext msg nonempty).build _ friendMsgWidths _ :=
      hcreate.setRawData (i := 3) (j := 2) nonempty rfl rfl (by decide) (by decide)
    refine hbuild.represents fun cp hv => ?_
    exact ⟨friendMsg_laidOut.readType hv rfl, friendMsg_laidOut.readExt hv rfl,
      hv.data (i := 3) (j := 2) (v := some msg) (by decide) (by decide) rfl rfl⟩
  | .inviteReq ext tid bundle payload =>
    have hcreate := inviteReq_laidOut.fills ext
    have hbuild : Fills ((((elacpCreate elacpTypeInviteRequest ext).bind (elacpSetTid tid)).bind
        (callSome (fun s => elacpSetBundle (some s)) bundle)).bind (callSome setPayload payload))
        elacpTypeInviteRequest inviteReqWidths _ :=
      ((hcreate.set (i := 2) rfl (by decide)).setSome (i := 3) bundle rfl (by decide) rfl).setPayload (k := 4) (i := 6)
        (j := 5) payload rfl rfl rfl (by decide) (by decide) (by decide) ⟨rfl, rfl, rfl⟩
    refine hbuild.represents fun cp hv => ?_
    exact ⟨inviteReq_laidOut.readType hv rfl, inviteReq_laidOut.readExt hv rfl,
      hv.readNumber (i := 2) (by decide), (hv.readString (i := 3) (by decide)).trans (asString_map _),
      (hv.readNumber (i := 4) (by decide)).trans (asNumber_totalsz payload),
      hv.data (i := 6) (j := 5) (by decide) (by decide) rfl (asNumber_length payload)⟩
  | .inviteRsp ext tid bundle (.accepted payload) =>
    have hcreate := inviteRsp_laidOut.fills ext
    have hbuild : Fills (((((elacpCreate elacpTypeInviteResponse ext).bind (elacpSetTid tid)).bind (elacpSetStatus 0)).bind
        (callSome (fun s => elacpSetBundle (some s)) bundle)).bind (callSome setPayload payload))
        elacpTypeInviteResponse inviteRspWidths _ :=
      (((hcreate.set (i := 2) rfl (by decide)).set (i := 5) rfl (by decide)).setSome (i := 3) bundle
        rfl (by decide) rfl).setPayload (k := 4) (i := 8)
        (j := 7) payload rfl rfl rfl (by decide) (by decide) (by decide) ⟨rfl, rfl, rfl⟩
    refine hbuild.represents fun cp hv => ?_
    exact ⟨inviteRsp_laidOut.readType hv rfl, inviteRsp_laidOut.readExt hv rfl,
      hv.readNumber (i := 2) (by decide), (hv.readString (i := 3) (by decide)).trans (asString_map _),
      (hv.readNumber (i := 4) (by decide)).trans (asNumber_totalsz payload), hv.readNumber (i := 5) (by decide),
      hv.readString (i := 6) (by decide),
      hv.data (i := 8) (j := 7) (by decide) (by decide) rfl (asNumber_length payload)⟩
  | .inviteRsp ext tid bundle (.refused status _ reason) =>
    have hcreate := inviteRsp_laidOut.fills ext
    have hbuild : Fills (((((elacpCreate elacpTypeInviteResponse ext).bind (elacpSetTid tid)).bind
        (elacpSetStatus status)).bind (callSome (fun s => elacpSetBundle (some s)) bundle)).bind (elacpSetReason reason))
        elacpTypeInviteResponse inviteRspWidths _ :=
      (((hcreate.set (i := 2) rfl (by decide)).set (i := 5) rfl (by decide)).setSome (i := 3) bundle
        rfl (by decide) rfl).set (i := 6) rfl (by decide)
    refine hbuild.represents fun cp hv => ?_
    exact ⟨inviteRsp_laidOut.readType hv rfl, inviteRsp_laidOut.readExt hv rfl,
      hv.readNumber (i := 2) (by decide), (hv.readString (i := 3) (by decide)).trans (asString_map _),
      hv.readNumber (i := 4) (by decide), hv.readNumber (i := 5) (by decide), hv.readString (i := 6) (by decide),
      hv.data (i := 8) (j := 7) (v := none) (by decide) (by decide) rfl rfl⟩

/-! What the getters return. -/

/-- The length and the bytes that the pointer leads to. -/
structure GetsData (cp : CpObject) (bytes : List UInt8) : Prop where
  length : elacpGetRawDataLength cp = some bytes.length
  data : ∃ v, elacpGetRawData cp = some v ∧ v.getD [] = bytes

/-- Every getter of the type returns what was set, and NULL or 0 where nothing was. -/
def CpBuilt.Gets (cp : CpObject) : CpBuilt → Prop
  | .userInfo hasAvatar name descr gender phone email region =>
    elacpGetType cp = some elacpTypeUserinfo ∧ elacpGetExtension cp = some none ∧
      elacpGetHasAvatar cp = some hasAvatar ∧ elacpGetName cp = some name ∧ elacpGetDescr cp = some (some descr) ∧
      elacpGetGender cp = some (some gender) ∧ elacpGetPhone cp = some (some phone) ∧
      elacpGetEmail cp = some (some email) ∧ elacpGetRegion cp = some (some region)
  | .friendReq name descr hello =>
    elacpGetType cp = some elacpTypeFriendRequest ∧ elacpGetExtension cp = some none ∧
      elacpGetName cp = some (some name) ∧ elacpGetDescr cp = some (some descr) ∧ elacpGetHello cp = some (some hello)
  | .friendMsg ext msg _ =>
    elacpGetType cp = some elacpTypeMessage ∧ elacpGetExtension cp = some ext ∧ GetsData cp msg
  | .inviteReq ext tid bundle payload =>
    elacpGetType cp = some elacpTypeInviteRequest ∧ elacpGetExtension cp = some ext ∧ elacpGetTid cp = some tid ∧
      elacpGetBundle cp = some bundle ∧ elacpGetTotalsz cp = some (payloadTotalsz payload) ∧
      GetsData cp (payloadBytes payload)
  | .inviteRsp ext tid bundle (.accepted payload) =>
    elacpGetType cp = some elacpTypeInviteResponse ∧ elacpGetExtension cp = some ext ∧ elacpGetTid cp = some tid ∧
      elacpGetBundle cp = some bundle ∧ elacpGetStatus cp = some 0 ∧ elacpGetReason cp = some none ∧
      elacpGetTotalsz cp = some (payloadTotalsz payload) ∧ GetsData cp (payloadBytes payload)
  | .inviteRsp ext tid bundle (.refused status _ reason) =>
    elacpGetType cp = some elacpTypeInviteResponse ∧ elacpGetExtension cp = some ext ∧ elacpGetTid cp = some tid ∧
      elacpGetBundle cp = some bundle ∧ elacpGetStatus cp = some status ∧ elacpGetReason cp = some (some reason) ∧
      elacpGetTotalsz cp = some 0 ∧ GetsData cp []

section Getters
variable {cp : CpObject} {type : UInt8} {cases : List (UInt8 × Member)} {m : Member}

theorem getString_of_type (h : cp.type = some type) (hcase : cases.lookup type = some m) :
    CpObject.getString cases cp = cp.readString m := by
  rw [CpObject.getString, CpObject.select, h, Option.bind_some, hcase, Option.bind_some]

theorem getBytes_of_type (h : cp.type = some type) (hcase : cases.lookup type = some m) :
    getBytes cases cp = cp.readBytes m := by
  rw [getBytes, CpObject.select, h, Option.bind_some, hcase, Option.bind_some]

theorem getNumber_of_type (h : cp.type = some type) (hcase : cases.lookup type = some m) {n : Int}
    (hm : cp.readNumber m = some n) : getNumber cases cp = some n := by
  rw [getNumber, CpObject.select, h, Option.bind_some, hcase, Option.bind_some, hm]

theorem getTid_of_type {tid : Tid} (h : cp.type = some type)
    (hcase : [(elacpTypeInviteRequest, Pktireq.tid), (elacpTypeInviteResponse, Pktirsp.tid)].lookup type = some m)
    (hm : cp.readNumber m = some tid.toInt) : elacpGetTid cp = some tid := by
  rw [elacpGetTid, getNumber_of_type h hcase hm, Option.map_some, Int64.ofInt_toInt]

theorem getTotalsz_of_type {n : Nat} (h : cp.type = some type)
    (hcase : [(elacpTypeInviteRequest, Pktireq.totalsz), (elacpTypeInviteResponse, Pktirsp.totalsz)].lookup type = some m)
    (hm : cp.readNumber m = some (n : Int)) : elacpGetTotalsz cp = some n := by
  rw [elacpGetTotalsz, getNumber_of_type h hcase hm, Option.map_some, Int.toNat_natCast]

theorem getStatus_of_type {status : Int32} (h : cp.type = some elacpTypeInviteResponse)
    (hm : cp.readNumber Pktirsp.status = some status.toInt) : elacpGetStatus cp = some status := by
  rw [elacpGetStatus, getNumber_of_type h rfl hm, Option.map_some, Int32.ofInt_toInt]

theorem getsData_of_holds {data len : Member} {bytes : List UInt8} (h : cp.type = some type)
    (hdata : [(elacpTypeMessage, Pktfmsg.msg), (elacpTypeInviteRequest, Pktireq.data),
      (elacpTypeInviteResponse, Pktirsp.data)].lookup type = some data)
    (hlen : [(elacpTypeMessage, Pktfmsg.len), (elacpTypeInviteRequest, Pktireq.len),
      (elacpTypeInviteResponse, Pktirsp.len)].lookup type = some len)
    (hholds : HoldsData cp data len bytes) : GetsData cp bytes := by
  obtain ⟨v, hv, hbytes⟩ := hholds.data
  refine ⟨?_, v, (getBytes_of_type h hdata).trans hv, hbytes⟩
  rw [elacpGetRawDataLength, getNumber_of_type h hlen hholds.len]
  rfl

end Getters

/-- The getters read an object by the structure of its type. -/
theorem CpBuilt.gets_of_represents {cp : CpObject} {b : CpBuilt} (h : Represents cp b.packet) : b.Gets cp := by
  match b with
  | .userInfo hasAvatar name descr gender phone email region =>
    obtain ⟨htype, hext, havatar, hname, hdescr, hphone, hgender, hemail, hregion⟩ := h
    refine ⟨htype, hext, ?_, (getString_of_type htype rfl).trans hname, (getString_of_type htype rfl).trans hdescr,
      (getString_of_type htype rfl).trans hgender, (getString_of_type htype rfl).trans hphone,
      (getString_of_type htype rfl).trans hemail, (getString_of_type htype rfl).trans hregion⟩
    rw [elacpGetHasAvatar, getNumber_of_type htype rfl havatar]
    cases hasAvatar <;> rfl
  | .friendReq name descr hello =>
    obtain ⟨htype, hext, hname, hdescr, hhello⟩ := h
    exact ⟨htype, hext, (getString_of_type htype rfl).trans hname, (getString_of_type htype rfl).trans hdescr,
      (getString_of_type htype rfl).trans hhello⟩
  | .friendMsg ext msg _ =>
    obtain ⟨htype, hext, hdata⟩ := h
    exact ⟨htype, hext, getsData_of_holds htype rfl rfl hdata⟩
  | .inviteReq ext tid bundle payload =>
    obtain ⟨htype, hext, htid, hbundle, htotalsz, hdata⟩ := h
    exact ⟨htype, hext, getTid_of_type htype rfl htid, (getString_of_type htype rfl).trans hbundle,
      getTotalsz_of_type htype rfl htotalsz, getsData_of_holds htype rfl rfl hdata⟩
  | .inviteRsp ext tid bundle (.accepted payload) =>
    obtain ⟨htype, hext, htid, hbundle, htotalsz, hstatus, hreason, hdata⟩ := h
    exact ⟨htype, hext, getTid_of_type htype rfl htid, (getString_of_type htype rfl).trans hbundle,
      getStatus_of_type htype hstatus, (getString_of_type htype rfl).trans hreason,
      getTotalsz_of_type htype rfl htotalsz, getsData_of_holds htype rfl rfl hdata⟩
  | .inviteRsp ext tid bundle (.refused status _ reason) =>
    obtain ⟨htype, hext, htid, hbundle, htotalsz, hstatus, hreason, hdata⟩ := h
    exact ⟨htype, hext, getTid_of_type htype rfl htid, (getString_of_type htype rfl).trans hbundle,
      getStatus_of_type htype hstatus, (getString_of_type htype rfl).trans hreason,
      getTotalsz_of_type htype rfl htotalsz, getsData_of_holds htype rfl rfl hdata⟩

/-- A packet of any type that is built, encoded and decoded comes out as an object of the same type on which
every getter returns what was set. -/
theorem elacp_decode_encode (b : CpBuilt) : ∃ cp packet cp', b.build = some cp ∧
    elacpEncodeObject cp = some packet ∧ elacpDecodeObject packet = some cp' ∧ b.Gets cp ∧ b.Gets cp' := by
  obtain ⟨cp, hbuild, hcp⟩ := b.build_represents
  obtain ⟨packet, hencode, hdecode⟩ := Option.bind_eq_some_iff.mp b.decode_encode_packet
  obtain ⟨cp', hobject, hcp'⟩ := elacpDecodeObject_represents hdecode
  exact ⟨cp, packet, cp', hbuild, (elacpEncodeObject_eq hcp).trans hencode, hobject,
    b.gets_of_represents hcp, b.gets_of_represents hcp'⟩

end CarrierSdk
