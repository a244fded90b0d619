import CarrierSdk.Carrier.State

/-! What a node keeps about its friends. The friends table is keyed by the friend number. -/
namespace CarrierSdk.Friends

def elaMaxUserNameLen : Nat := 63
def elaMaxUserDescriptionLen : Nat := 127
def elaMaxPhoneLen : Nat := 31
def elaMaxEmailLen : Nat := 127
def elaMaxRegionLen : Nat := 127
def elaMaxGenderLen : Nat := 31

/-- A char array for texts of a bounded length and their terminator. -/
structure CharArray (len : Nat) where
  text : CString
  fits : text.strlen ≤ len
  deriving DecidableEq

namespace CharArray
variable {len : Nat}

def empty : CharArray len := ⟨.empty, Nat.zero_le _⟩

/-- strcpy into the array, undefined where the text does not fit. -/
def strcpy (s : CString) : Option (CharArray len) :=
  if h : s.strlen ≤ len then some ⟨s, h⟩ else none

@[simp] theorem text_empty : (empty : CharArray len).text = .empty := rfl

@[simp] theorem strcpy_text (a : CharArray len) : strcpy a.text = some a := dif_pos a.fits

theorem ext_text {a b : CharArray len} (h : a.text = b.text) : a = b := by
  cases a
  cases b
  cases h
  rfl

theorem strcpy_of_le {s : CString} (h : s.strlen ≤ len) : strcpy s = some ⟨s, h⟩ := dif_pos h

theorem strcpy_isSome {s : CString} : (strcpy s : Option (CharArray len)).isSome ↔ s.strlen ≤ len := by
  unfold strcpy
  split <;> simp_all

end CharArray

abbrev Label := CharArray elaMaxUserNameLen

/-- ElaConnectionStatus. -/
inductive ConnectionStatus where
  | connected
  | disconnected
  deriving DecidableEq

/-- ElaPresenceStatus. -/
inductive PresenceStatus where
  | none
  | away
  | busy
  deriving DecidableEq

/-- struct ElaUserInfo. -/
structure ElaUserInfo where
  userid : UserId
  name : CharArray elaMaxUserNameLen
  description : CharArray elaMaxUserDescriptionLen
  hasAvatar : Bool
  gender : CharArray elaMaxGenderLen
  phone : CharArray elaMaxPhoneLen
  email : CharArray elaMaxEmailLen
  region : CharArray elaMaxRegionLen
  deriving DecidableEq

/-- struct ElaFriendInfo. -/
structure ElaFriendInfo where
  userInfo : ElaUserInfo
  label : Label
  status : ConnectionStatus
  presence : PresenceStatus
  deriving DecidableEq

/-- An ElaUserInfo that is zero but for its user id. -/
def ElaUserInfo.ofUserid (userid : UserId) : ElaUserInfo where
  userid := userid
  name := .empty
  description := .empty
  hasAvatar := false
  gender := .empty
  phone := .empty
  email := .empty
  region := .empty

/-- The friend that the add and accept calls put into the table. -/
def ElaFriendInfo.ofUserid (userid : UserId) : ElaFriendInfo where
  userInfo := .ofUserid userid
  label := .empty
  status := .disconnected
  presence := .none

/-- The friends of a node. The key is the friend_number of a FriendInfo. -/
abbrev FriendsTable := Table FriendNumber ElaFriendInfo

/-- A table has at most as many entries as there are friend numbers. -/
theorem length_entries_le {ν : Type} (t : Table FriendNumber ν) : t.entries.length ≤ 2 ^ 32 := by
  have hnodup : (t.keys.map UInt32.toNat).Nodup := t.keys_nodup.map fun _ _ h => UInt32.toNat_inj.mp h
  have hrange : t.keys.map UInt32.toNat ⊆ List.range (2 ^ 32) := by
    intro n hn
    obtain ⟨k, -, rfl⟩ := List.mem_map.mp hn
    exact List.mem_range.mpr k.toNat_lt
  have hcount := (hnodup.subperm hrange).length_le
  rw [List.length_map, List.length_range] at hcount
  have hkeys : t.keys.length = t.entries.length := List.length_map _
  omega

end CarrierSdk.Friends
