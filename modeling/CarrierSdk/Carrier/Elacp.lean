import CarrierSdk.Carrier.CString
import Mathlib.Data.Int.Basic

/-! The packets of the carrier protocol, their encoder and their decoder. A flat table
is what flatcc stores of one table of the schema: a value under each slot that was added. -/
namespace CarrierSdk

abbrev Tid := Int64

inductive FlatValue where
  | string (s : CString)
  | scalar (n : Int)
  | ubytes (v : List UInt8)
  deriving DecidableEq

abbrev FlatTable := List (Nat × FlatValue)

/-- The packet table of the schema. The body is a union, which may be absent. -/
structure FlatPacket where
  type : UInt8
  body : Option FlatTable
  deriving DecidableEq

namespace FlatTable

def get (t : FlatTable) (slot : Nat) : Option FlatValue :=
  (t.find? fun e => e.1 = slot).map Prod.snd

def getString (t : FlatTable) (slot : Nat) : Option CString :=
  match get t slot with
  | some (.string s) => some s
  | _ => none

/-- A scalar that is not stored reads as the schema's default. -/
def getScalar (t : FlatTable) (slot : Nat) : Int :=
  match get t slot with
  | some (.scalar n) => n
  | _ => 0

def getUbytes (t : FlatTable) (slot : Nat) : List UInt8 :=
  match get t slot with
  | some (.ubytes v) => v
  | _ => []

/-- A string is added only where the pointer is not NULL. -/
def addPresent (slot : Nat) (s : Option CString) : FlatTable :=
  match s with
  | some s => [(slot, .string s)]
  | none => []

/-- A string added without a check, which dereferences the pointer. -/
def addString (slot : Nat) (s : Option CString) : Option FlatTable :=
  s.map fun s => [(slot, .string s)]

end FlatTable

/-- struct ElaCPUserInfo. -/
structure ElaCPUserInfo where
  hasAvatar : Bool
  name : Option CString
  descr : Option CString
  phone : Option CString
  gender : Option CString
  email : Option CString
  region : Option CString
  deriving DecidableEq

/-- struct ElaCPFriendReq. -/
structure ElaCPFriendReq where
  name : Option CString
  descr : Option CString
  hello : Option CString
  deriving DecidableEq

/-- struct ElaCPFriendMsg. -/
structure ElaCPFriendMsg where
  ext : Option CString
  msg : List UInt8
  deriving DecidableEq

/-- struct ElaCPInviteReq. -/
structure ElaCPInviteReq where
  ext : Option CString
  tid : Tid
  bundle : Option CString
  totalsz : Nat
  data : List UInt8
  deriving DecidableEq

/-- struct ElaCPInviteRsp. -/
structure ElaCPInviteRsp where
  ext : Option CString
  tid : Tid
  bundle : Option CString
  totalsz : Nat
  status : Int32
  reason : Option CString
  data : List UInt8
  deriving DecidableEq

inductive ElaCP where
  | userInfo (p : ElaCPUserInfo)
  | friendReq (p : ElaCPFriendReq)
  | friendMsg (p : ElaCPFriendMsg)
  | inviteReq (p : ElaCPInviteReq)
  | inviteRsp (p : ElaCPInviteRsp)
  deriving DecidableEq

open FlatTable

/-- elacp_encode. The slots are those of elacp.fbs; the total size is a 32-bit field. -/
def elacpEncode : ElaCP → Option FlatPacket
  | .userInfo p => do
      let descr ← addString 2 p.descr
      let gender ← addString 4 p.gender
      let phone ← addString 3 p.phone
      let email ← addString 5 p.email
      let region ← addString 6 p.region
      some ⟨3, some (addPresent 1 p.name ++ descr ++ gender ++ phone ++ email ++ region ++
        [(0, .scalar p.hasAvatar.toInt)])⟩
  | .friendReq p => do
      let name ← addString 0 p.name
      let descr ← addString 1 p.descr
      let hello ← addString 2 p.hello
      some ⟨6, some (name ++ descr ++ hello)⟩
  | .friendMsg p => some ⟨33, some (addPresent 0 p.ext ++ [(1, .ubytes p.msg)])⟩
  | .inviteReq p => some ⟨34, some (addPresent 0 p.ext ++
      [(1, .scalar p.tid.toInt), (3, .scalar (p.totalsz % 2 ^ 32 : Nat))] ++
      addPresent 2 p.bundle ++ [(4, .ubytes p.data)])⟩
  | .inviteRsp p => some ⟨35, some (addPresent 0 p.ext ++
      [(1, .scalar p.tid.toInt), (3, .scalar (p.totalsz % 2 ^ 32 : Nat))] ++
      addPresent 2 p.bundle ++ [(4, .scalar p.status.toInt)] ++
      if p.status ≠ 0 ∧ p.reason.isSome then addPresent 5 p.reason
      else [(6, .ubytes p.data)])⟩

/-- elacp_decode. A response carries a reason or data, never both, as its status says. -/
def elacpDecode (packet : FlatPacket) : Option ElaCP :=
  match packet.type, packet.body with
  | 3, some t => some (.userInfo
      { hasAvatar := getScalar t 0 ≠ 0, name := getString t 1, descr := getString t 2,
        phone := getString t 3, gender := getString t 4, email := getString t 5,
        region := getString t 6 })
  | 6, some t => some (.friendReq
      { name := getString t 0, descr := getString t 1, hello := getString t 2 })
  | 33, some t => some (.friendMsg { ext := getString t 0, msg := getUbytes t 1 })
  | 34, some t => some (.inviteReq
      { ext := getString t 0, tid := Int64.ofInt (getScalar t 1), bundle := getString t 2,
        totalsz := (getScalar t 3).toNat, data := getUbytes t 4 })
  | 35, some t =>
      let status := Int32.ofInt (getScalar t 4)
      some (.inviteRsp
        { ext := getString t 0, tid := Int64.ofInt (getScalar t 1), bundle := getString t 2,
          totalsz := (getScalar t 3).toNat, status,
          reason := if status ≠ 0 then getString t 5 else none,
          data := if status ≠ 0 then [] else getUbytes t 6 })
  | _, _ => none

/-- A user with all strings but the name, which may be missing, arrives as it was sent. -/
theorem decode_encode_userInfo (hasAvatar : Bool) (name : Option CString) (descr phone gender email region : CString) :
    (elacpEncode (.userInfo ⟨hasAvatar, name, descr, phone, gender, email, region⟩)).bind elacpDecode =
      some (.userInfo ⟨hasAvatar, name, descr, phone, gender, email, region⟩) := by
  cases hasAvatar <;> cases name <;> rfl

/-- A friend request with all strings arrives as it was sent. -/
theorem decode_encode_friendReq (name descr hello : CString) :
    (elacpEncode (.friendReq ⟨name, descr, hello⟩)).bind elacpDecode = some (.friendReq ⟨name, descr, hello⟩) := rfl

/-- A message arrives as it was sent. -/
theorem decode_encode_friendMsg (p : ElaCPFriendMsg) :
    (elacpEncode (.friendMsg p)).bind elacpDecode = some (.friendMsg p) := by
  obtain ⟨ext, msg⟩ := p
  cases ext <;> rfl

/-- A request of a 32-bit total size arrives as it was sent. -/
theorem decode_encode_inviteReq (p : ElaCPInviteReq) (h : p.totalsz < 2 ^ 32) :
    (elacpEncode (.inviteReq p)).bind elacpDecode = some (.inviteReq p) := by
  obtain ⟨ext, tid, bundle, totalsz, data⟩ := p
  have hm : totalsz % 4294967296 = totalsz := Nat.mod_eq_of_lt h
  cases ext <;> cases bundle <;>
    simp [elacpEncode, elacpDecode, addPresent, getString, getScalar, getUbytes, FlatTable.get,
      List.find?, hm]

/-- A response in the shape its status asks for arrives as it was sent. -/
theorem decode_encode_inviteRsp (p : ElaCPInviteRsp) (h : p.totalsz < 2 ^ 32)
    (hr : p.status ≠ 0 → p.reason.isSome ∧ p.data = []) (ha : p.status = 0 → p.reason = none) :
    (elacpEncode (.inviteRsp p)).bind elacpDecode = some (.inviteRsp p) := by
  obtain ⟨ext, tid, bundle, totalsz, status, reason, data⟩ := p
  have hm : totalsz % 4294967296 = totalsz := Nat.mod_eq_of_lt h
  by_cases hs : status = 0
  · cases ha hs
    cases ext <;> cases bundle <;>
      simp [elacpEncode, elacpDecode, addPresent, getString, getScalar, getUbytes, FlatTable.get,
        List.find?, hm, hs]
  · obtain ⟨hi, hd⟩ := hr hs
    obtain ⟨reason, rfl⟩ := Option.isSome_iff_exists.mp hi
    subst hd
    cases ext <;> cases bundle <;>
      simp [elacpEncode, elacpDecode, addPresent, getString, getScalar, FlatTable.get,
        List.find?, hm, hs]

end CarrierSdk
