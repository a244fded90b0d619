import CarrierSdk.Friends.KeyCodec
import CarrierSdk.Storage.PersistenceFile

/-! The friends table that a new node fills from the DHT. The callback that fills it also
ends the iteration, and what a friend has published decides what it returns. -/
namespace CarrierSdk.Friends
open Storage

/-- A friend as the DHT keeps it. The description is the status message that the friend
has published. -/
structure DhtFriend where
  friendNumber : FriendNumber
  publicKey : PublicKey
  userStatus : Int
  desc : List UInt8

/-- get_presence_status. -/
def getPresenceStatus (userStatus : Int) : PresenceStatus :=
  if userStatus < 0 then .none
  else if userStatus > 2 then .busy
  else if userStatus = 0 then .none
  else if userStatus = 1 then .away
  else .busy

/-- The text behind a pointer of a packet, which may be NULL. -/
def orEmpty (s : Option CString) : CString := s.getD .empty

/-- unpack_user_desc. The parameter verifies and reads the bytes as a flat buffer. It returns
nothing where the description is not a user info, and has no defined behaviour where a text
is too long for its array. The flag says whether anything changed. -/
def unpackUserDesc (flatcc : List UInt8 → Option FlatPacket) (desc : List UInt8) (info : ElaUserInfo) :
    Option (Option (ElaUserInfo × Bool)) :=
  match (flatcc desc).bind elacpDecode with
  | some (.userInfo cp) => do
    let name ← CharArray.strcpy (orEmpty cp.name)
    let description ← CharArray.strcpy (orEmpty cp.descr)
    let gender ← CharArray.strcpy (orEmpty cp.gender)
    let phone ← CharArray.strcpy (orEmpty cp.phone)
    let email ← CharArray.strcpy (orEmpty cp.email)
    let region ← CharArray.strcpy (orEmpty cp.region)
    let unpacked : ElaUserInfo :=
      { userid := info.userid, name, description, hasAvatar := cp.hasAvatar, gender, phone, email, region }
    some (some (unpacked, decide (unpacked ≠ info)))
  | _ => some none

/-- The record that friends_iterate_cb puts into the table. The label comes later. -/
def iteratedInfo (f : DhtFriend) (userInfo : ElaUserInfo) : ElaFriendInfo where
  userInfo := userInfo
  label := .empty
  status := .disconnected
  presence := getPresenceStatus f.userStatus

/-- friends_iterate_cb, with the value it returns. -/
def friendsIterateCb (codec : KeyCodec) (flatcc : List UInt8 → Option FlatPacket) (friends : FriendsTable)
    (f : DhtFriend) : Option (FriendsTable × Bool) :=
  let userInfo := ElaUserInfo.ofUserid (codec.encode f.publicKey)
  let put := fun userInfo => friends.insert f.friendNumber (iteratedInfo f userInfo)
  if f.desc.length > 0 then
    (unpackUserDesc flatcc f.desc userInfo).map fun r =>
      match r with
      | none => (friends, false)
      | some (userInfo, _) => (put userInfo, true)
  else some (put userInfo, true)

/-- dht_get_friends with the callback above, which stops where the callback returns false. -/
def dhtGetFriends (codec : KeyCodec) (flatcc : List UInt8 → Option FlatPacket) (friends : FriendsTable) :
    List DhtFriend → Option FriendsTable
  | [] => some friends
  | f :: rest =>
    match friendsIterateCb codec flatcc friends f with
    | none => none
    | some (friends, false) => some friends
    | some (friends, true) => dhtGetFriends codec flatcc friends rest

/-- The part of ela_new that fills the friends table and puts the labels on. The table is
what it then stores. -/
def elaNew (codec : KeyCodec) (flatcc : List UInt8 → Option FlatPacket) (friendList : List DhtFriend)
    (data : PersistenceData) : Option FriendsTable :=
  (dhtGetFriends codec flatcc ∅ friendList).bind fun friends =>
    applyExtraData friends data.extraSavedata data.extraSavedataLen

/-- All texts of a user info fit into the arrays that they are copied to. -/
def fitsArrays (cp : ElaCPUserInfo) : Bool :=
  decide ((orEmpty cp.name).strlen ≤ elaMaxUserNameLen ∧
    (orEmpty cp.descr).strlen ≤ elaMaxUserDescriptionLen ∧ (orEmpty cp.gender).strlen ≤ elaMaxGenderLen ∧
    (orEmpty cp.phone).strlen ≤ elaMaxPhoneLen ∧ (orEmpty cp.email).strlen ≤ elaMaxEmailLen ∧
    (orEmpty cp.region).strlen ≤ elaMaxRegionLen)

/-- A description is empty or a user info with texts of allowed length. -/
def readable (flatcc : List UInt8 → Option FlatPacket) (desc : List UInt8) : Bool :=
  desc.isEmpty ||
    match (flatcc desc).bind elacpDecode with
    | some (.userInfo cp) => fitsArrays cp
    | _ => false

/-- The label that a label section gives a friend of this number who has none. -/
def sectionLabel (extra : List UInt8) (len : Nat) (n : FriendNumber) : Option Label :=
  (applyExtraData (oneFriend n .empty) extra len).map fun friends => labelOf friends n

/-- The table holds exactly the friends of the DHT, each under its number and with the user
id of its key. -/
def Exactly (codec : KeyCodec) (friendList : List DhtFriend) (friends : FriendsTable) : Prop :=
  ∀ n u, (∃ fi, friends.lookup n = some fi ∧ fi.userInfo.userid = u) ↔
    ∃ f ∈ friendList, f.friendNumber = n ∧ codec.encode f.publicKey = u

section Unpack
variable {flatcc : List UInt8 → Option FlatPacket} {desc : List UInt8}

/-- A user info is unpacked exactly where all its texts fit. -/
theorem unpackUserDesc_isSome {cp : ElaCPUserInfo} (hcp : (flatcc desc).bind elacpDecode = some (.userInfo cp))
    (info : ElaUserInfo) : (unpackUserDesc flatcc desc info).isSome ↔ fitsArrays cp = true := by
  constructor
  · intro h
    obtain ⟨r, hr⟩ := Option.isSome_iff_exists.mp h
    simp only [unpackUserDesc, hcp, Option.bind_eq_bind, Option.bind_eq_some_iff] at hr
    obtain ⟨_, h1, _, h2, _, h3, _, h4, _, h5, _, h6, -⟩ := hr
    have hfits : ∀ {len : Nat} {s : CString} {a : CharArray len}, CharArray.strcpy s = some a → s.strlen ≤ len :=
      fun hs => CharArray.strcpy_isSome.mp (by rw [hs]; rfl)
    exact decide_eq_true ⟨hfits h1, hfits h2, hfits h3, hfits h4, hfits h5, hfits h6⟩
  · intro h
    obtain ⟨h1, h2, h3, h4, h5, h6⟩ := of_decide_eq_true h
    simp only [unpackUserDesc, hcp, CharArray.strcpy_of_le h1, CharArray.strcpy_of_le h2,
      CharArray.strcpy_of_le h3, CharArray.strcpy_of_le h4, CharArray.strcpy_of_le h5, CharArray.strcpy_of_le h6]
    rfl

/-- A readable description is unpacked and leaves the user id as it is. -/
theorem unpack_readable (info : ElaUserInfo) (hdesc : desc ≠ []) (h : readable flatcc desc = true) :
    ∃ unpacked changed, unpackUserDesc flatcc desc info = some (some (unpacked, changed)) ∧
      unpacked.userid = info.userid := by
  have hne : desc.isEmpty = false := by simpa using hdesc
  rw [readable, hne, Bool.false_or] at h
  split at h
  · next cp hcp =>
    obtain ⟨r, hr⟩ := Option.isSome_iff_exists.mp ((unpackUserDesc_isSome hcp info).mpr h)
    rw [hr]
    simp only [unpackUserDesc, hcp, Option.bind_eq_bind, Option.bind_eq_some_iff, Option.some.injEq] at hr
    obtain ⟨_, -, _, -, _, -, _, -, _, -, _, -, rfl⟩ := hr
    exact ⟨_, _, rfl, rfl⟩
  · cases h

/-- Any other description is refused, or its texts do not fit. -/
theorem unpack_unreadable (info : ElaUserInfo) (h : readable flatcc desc = false) :
    unpackUserDesc flatcc desc info = some none ∨ unpackUserDesc flatcc desc info = none := by
  obtain ⟨-, h⟩ := Bool.or_eq_false_iff.mp h
  split at h
  · next cp hcp =>
    right
    rw [← Option.not_isSome_iff_eq_none, unpackUserDesc_isSome hcp, h]
    exact Bool.false_ne_true
  · next hother =>
    left
    unfold unpackUserDesc
    split
    · next cp hcp => exact absurd hcp (hother cp)
    · rfl

end Unpack

/-! One friend, and all of them. -/

section Load
variable (codec : KeyCodec) {flatcc : List UInt8 → Option FlatPacket} {friends : FriendsTable}

/-- A readable friend is put into the table, without a label, and the iteration goes on. -/
theorem friendsIterateCb_readable (friends : FriendsTable) {f : DhtFriend} (h : readable flatcc f.desc = true) :
    ∃ fi : ElaFriendInfo, fi.userInfo.userid = codec.encode f.publicKey ∧ fi.label = .empty ∧
      friendsIterateCb codec flatcc friends f = some (friends.insert f.friendNumber fi, true) := by
  by_cases hdesc : f.desc = []
  · exact ⟨iteratedInfo f (.ofUserid (codec.encode f.publicKey)), rfl, rfl, if_neg (by simp [hdesc])⟩
  · obtain ⟨unpacked, changed, hunpack, huser⟩ := unpack_readable (.ofUserid (codec.encode f.publicKey)) hdesc h
    refine ⟨iteratedInfo f unpacked, huser, rfl, ?_⟩
    rw [friendsIterateCb, if_pos (List.length_pos_iff.mpr hdesc), hunpack]
    rfl

/-- At any other friend it ends. -/
theorem friendsIterateCb_unreadable (friends : FriendsTable) {f : DhtFriend} (h : readable flatcc f.desc = false) :
    friendsIterateCb codec flatcc friends f = none ∨
      friendsIterateCb codec flatcc friends f = some (friends, false) := by
  have hdesc : f.desc ≠ [] := by
    intro hnil
    simp [readable, hnil] at h
  rw [friendsIterateCb, if_pos (List.length_pos_iff.mpr hdesc)]
  rcases unpack_unreadable (.ofUserid (codec.encode f.publicKey)) h with hu | hu
  · right
    rw [hu]
    rfl
  · left
    rw [hu]
    rfl

theorem fresh_insert {f : DhtFriend} {rest : List DhtFriend}
    (hf : f.friendNumber ∉ rest.map DhtFriend.friendNumber)
    (hfresh : ∀ g ∈ f :: rest, friends.lookup g.friendNumber = none) (fi : ElaFriendInfo) :
    ∀ g ∈ rest, (friends.insert f.friendNumber fi).lookup g.friendNumber = none := by
  intro g hg
  have hne : g.friendNumber ≠ f.friendNumber := by
    intro he
    exact hf (he ▸ List.mem_map_of_mem hg)
  rw [Table.lookup_insert_eq, if_neg hne]
  exact hfresh g (List.mem_cons_of_mem _ hg)

/-- If all friends are readable the table gets all of them. -/
theorem dhtGetFriends_readable {friendList : List DhtFriend}
    (h : ∀ f ∈ friendList, readable flatcc f.desc = true)
    (hnodup : (friendList.map DhtFriend.friendNumber).Nodup)
    (hempty : ∀ n fi, friends.lookup n = some fi → fi.label = .empty)
    (hfresh : ∀ f ∈ friendList, friends.lookup f.friendNumber = none) :
    ∃ t, dhtGetFriends codec flatcc friends friendList = some t ∧
      (∀ n fi, t.lookup n = some fi → fi.label = .empty) ∧
      ∀ n u, (∃ fi, t.lookup n = some fi ∧ fi.userInfo.userid = u) ↔
        (∃ fi, friends.lookup n = some fi ∧ fi.userInfo.userid = u) ∨
          ∃ f ∈ friendList, f.friendNumber = n ∧ codec.encode f.publicKey = u := by
  induction friendList generalizing friends with
  | nil => exact ⟨friends, rfl, hempty, fun n u => by simp⟩
  | cons f rest ih =>
    obtain ⟨fi, huser, hlabel, hcb⟩ :=
      friendsIterateCb_readable codec friends (h f List.mem_cons_self)
    rw [List.map_cons, List.nodup_cons] at hnodup
    have hnew : ∀ n fi', (friends.insert f.friendNumber fi).lookup n = some fi' → fi'.label = .empty := by
      intro n fi' hfi'
      rw [Table.lookup_insert_eq] at hfi'
      split at hfi'
      · cases hfi'
        exact hlabel
      · exact hempty n fi' hfi'
    obtain ⟨t, ht, htempty, hlookup⟩ := ih (fun g hg => h g (List.mem_cons_of_mem _ hg)) hnodup.2 hnew
      (fresh_insert hnodup.1 hfresh fi)
    refine ⟨t, by rw [dhtGetFriends, hcb]; exact ht, htempty, fun n u => ?_⟩
    have hhead : (∃ fi', (friends.insert f.friendNumber fi).lookup n = some fi' ∧ fi'.userInfo.userid = u) ↔
        (f.friendNumber = n ∧ codec.encode f.publicKey = u) ∨
          ∃ fi', friends.lookup n = some fi' ∧ fi'.userInfo.userid = u := by
      rw [Table.lookup_insert_eq]
      by_cases hn : n = f.friendNumber
      · have hnone := hfresh f List.mem_cons_self
        subst hn
        simp [huser, hnone]
      · simp [hn, Ne.symm hn]
    rw [hlookup, hhead]
    simp only [List.mem_cons, exists_eq_or_imp]
    exact or_assoc.trans or_left_comm

/-- If one friend is not readable, then this one or an earlier one does not get into it. -/
theorem dhtGetFriends_unreadable {friendList : List DhtFriend} {g : DhtFriend} (hg : g ∈ friendList)
    (hbad : readable flatcc g.desc = false)
    (hnodup : (friendList.map DhtFriend.friendNumber).Nodup)
    (hfresh : ∀ f ∈ friendList, friends.lookup f.friendNumber = none) {t : FriendsTable}
    (ht : dhtGetFriends codec flatcc friends friendList = some t) :
    ∃ f ∈ friendList, t.lookup f.friendNumber = none := by
  induction friendList generalizing friends with
  | nil => cases hg
  | cons f rest ih =>
    rw [dhtGetFriends] at ht
    cases hread : readable flatcc f.desc with
    | false =>
      rcases friendsIterateCb_unreadable codec friends hread with hcb | hcb
      · rw [hcb] at ht
        cases ht
      · rw [hcb] at ht
        cases ht
        exact ⟨f, List.mem_cons_self, hfresh f List.mem_cons_self⟩
    | true =>
      obtain ⟨fi, -, -, hcb⟩ := friendsIterateCb_readable codec friends hread
      rw [hcb] at ht
      rw [List.map_cons, List.nodup_cons] at hnodup
      have hmem : g ∈ rest := by
        rcases List.mem_cons.mp hg with rfl | hg
        · cases hread.symm.trans hbad
        · exact hg
      obtain ⟨h, hh, hnone⟩ := ih hmem hnodup.2 (fresh_insert hnodup.1 hfresh fi) ht
      exact ⟨h, List.mem_cons_of_mem _ hh, hnone⟩

end Load

theorem label_oneFriend (n : FriendNumber) :
    ∀ m fi, (oneFriend n .empty).lookup m = some fi → fi.label = .empty := by
  intro m fi h
  rw [oneFriend, Table.lookup_insert_eq] at h
  split at h
  · cases h
    rfl
  · cases h

/-- A stored label section gives every number the label that the table had for it. -/
theorem sectionLabel_stored (friends : FriendsTable) (n : FriendNumber) :
    sectionLabel (getExtraSavedata friends.entries (round256 (getExtraSavedataSize friends.entries)))
      (getExtraSavedataSize friends.entries) n = some (labelOf friends n) := by
  obtain ⟨after, happly, hafter⟩ := apply_storedLabels friends (oneFriend n .empty) [] (label_oneFriend n)
  rw [List.append_nil] at happly
  rw [getExtraSavedataSize_eq, getExtraSavedata_eq _ (lt_round256 _).le, sectionLabel, happly,
    Option.map_some, labelOf, hafter, oneFriend, AList.lookup_insert]
  rfl

/-- After ela_new the table holds exactly the friends of the DHT, and the label section that
it stores keeps the label that the loaded file had for each of them. The loaded file is one
that an earlier store wrote. -/
def LoadsAll (codec : KeyCodec) (flatcc : List UInt8 → Option FlatPacket) (friendList : List DhtFriend)
    (dhtData : List UInt8) (stored : FriendsTable) : Prop :=
  ∃ friends, elaNew codec flatcc friendList
      (persistenceOf dhtData (labelSection stored.entries).length (labelSection stored.entries)) = some friends ∧
    Exactly codec friendList friends ∧
    ∀ f ∈ friendList,
      sectionLabel (getExtraSavedata friends.entries (round256 (getExtraSavedataSize friends.entries)))
        (getExtraSavedataSize friends.entries) f.friendNumber = some (labelOf stored f.friendNumber)

theorem LoadsAll.readable {codec : KeyCodec} {flatcc : List UInt8 → Option FlatPacket}
    {friendList : List DhtFriend} {dhtData : List UInt8} {stored : FriendsTable}
    (hnodup : (friendList.map DhtFriend.friendNumber).Nodup)
    (h : LoadsAll codec flatcc friendList dhtData stored) : ∀ f ∈ friendList, readable flatcc f.desc = true := by
  intro f hf
  by_contra hbad
  obtain ⟨friends, hnew, hexact, -⟩ := h
  obtain ⟨t, ht, happly⟩ := Option.bind_eq_some_iff.mp hnew
  obtain ⟨g, hg, hmissing⟩ := dhtGetFriends_unreadable codec hf (Bool.eq_false_iff.mpr hbad) hnodup
    (fun f _ => AList.lookup_empty f.friendNumber) ht
  have hafter := (applyExtraData_section stored.entries t _ (length_labelSection_lt stored)).symm.trans happly
  obtain ⟨fi, hfi, -⟩ := (hexact g.friendNumber (codec.encode g.publicKey)).mpr ⟨g, hg, rfl, rfl⟩
  rw [← Option.some.inj hafter, lookup_applyLabels_none _ hmissing] at hfi
  cases hfi

/-- With readable friends ela_new fills the table and puts on the stored labels. -/
theorem elaNew_readable (codec : KeyCodec) {flatcc : List UInt8 → Option FlatPacket}
    {friendList : List DhtFriend} (hnodup : (friendList.map DhtFriend.friendNumber).Nodup)
    (dhtData : List UInt8) (stored : FriendsTable) (h : ∀ f ∈ friendList, readable flatcc f.desc = true) :
    ∃ friends, elaNew codec flatcc friendList
        (persistenceOf dhtData (labelSection stored.entries).length (labelSection stored.entries)) = some friends ∧
      Exactly codec friendList friends ∧
      ∀ n fi, friends.lookup n = some fi → fi.label = labelOf stored n := by
  have hempty : ∀ n fi, (∅ : FriendsTable).lookup n = some fi → fi.label = .empty := by
    intro n fi hfi
    rw [AList.lookup_empty] at hfi
    cases hfi
  obtain ⟨t, ht, htempty, hlookup⟩ := dhtGetFriends_readable codec h hnodup hempty
    (fun f _ => AList.lookup_empty f.friendNumber)
  obtain ⟨after, happly, hafter⟩ := apply_storedLabels stored t
    (List.replicate (round256 (labelSection stored.entries).length - (labelSection stored.entries).length) 0)
    htempty
  refine ⟨after, by rw [elaNew, ht]; exact happly, fun n u => ?_, fun n fi hfi => ?_⟩
  · rw [hafter]
    simpa using hlookup n u
  · rw [hafter] at hfi
    obtain ⟨info, -, rfl⟩ := Option.map_eq_some_iff.mp hfi
    rfl

/-- All friends are loaded if and only if every description is empty or can be read. -/
theorem loads_all_iff (codec : KeyCodec) (flatcc : List UInt8 → Option FlatPacket)
    (friendList : List DhtFriend) (hnodup : (friendList.map DhtFriend.friendNumber).Nodup)
    (dhtData : List UInt8) (stored : FriendsTable) :
    LoadsAll codec flatcc friendList dhtData stored ↔ ∀ f ∈ friendList, readable flatcc f.desc = true := by
  refine ⟨LoadsAll.readable hnodup, fun h => ?_⟩
  obtain ⟨friends, hnew, hexact, hlabels⟩ := elaNew_readable codec hnodup dhtData stored h
  refine ⟨friends, hnew, hexact, fun f hf => ?_⟩
  obtain ⟨fi, hfi, -⟩ := (hexact f.friendNumber (codec.encode f.publicKey)).mpr ⟨f, hf, rfl, rfl⟩
  rw [sectionLabel_stored, labelOf, hfi, Option.map_some, Option.getD_some, hlabels _ fi hfi]

theorem loads_all_silent :
    LoadsAll .base58 (fun _ => none) [⟨0, 1, 0, []⟩, ⟨1, 2, 0, []⟩] [] (oneFriend 1 .empty) :=
  (loads_all_iff .base58 (fun _ => none) _ (by decide) [] _).mpr (by decide)

/-- A friend who published something else hides all friends behind it. -/
theorem loads_all_fails : ¬ ∀ (friendList : List DhtFriend) (dhtData : List UInt8) (stored : FriendsTable),
    (friendList.map DhtFriend.friendNumber).Nodup →
      LoadsAll .base58 (fun _ => none) friendList dhtData stored := by
  intro h
  have hread := LoadsAll.readable (by decide) (h [⟨0, 1, 0, [7]⟩, ⟨1, 2, 0, []⟩] [] ∅ (by decide))
  exact absurd (hread _ List.mem_cons_self) (by decide)

end CarrierSdk.Friends
