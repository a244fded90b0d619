import CarrierSdk.Friends.FriendInfo
import CarrierSdk.Friends.KeyCodec

/-! The calls that add, accept and remove a friend. Each changes the friend list of the DHT,
the friends table and the queue of friend events, or none of them. -/
namespace CarrierSdk.Friends

inductive ElaError where
  | invalidArgs
  | notReady
  | alreadyExist
  | notExist
  | dht
  deriving DecidableEq

inductive FriendEventType where
  | added
  | removed
  deriving DecidableEq

/-- struct FriendEvent, with a copy of the friend's info. -/
structure FriendEvent where
  type : FriendEventType
  fi : ElaFriendInfo
  deriving DecidableEq

/-- struct ElaCarrier, as far as the friends are concerned. The friend list of the DHT maps
numbers to public keys. -/
structure ElaCarrier where
  base58Addr : CString
  me : UserId
  isReady : Bool
  dht : Table FriendNumber PublicKey
  friends : FriendsTable
  friendEvents : List FriendEvent

/-- The two halves of an address that its last two bytes are compared with. -/
def addressChecksum : List UInt8 → UInt8 × UInt8
  | [] => (0, 0)
  | b :: rest => (b ^^^ (addressChecksum rest).2, (addressChecksum rest).1)

/-- is_valid_address, with the bytes of a valid address. -/
def validAddress (codec : KeyCodec) (address : CString) : Option (List UInt8) :=
  (codec.decodeAddress address).filter fun addr =>
    decide (addr.drop 36 = [(addressChecksum (addr.take 36)).1, (addressChecksum (addr.take 36)).2])

/-- The public key that an address begins with. -/
def addressKey (addr : List UInt8) : PublicKey := BitVec.ofNat 256 (Bytes.number (addr.take 32))

/-- dht_get_friend_number. -/
def dhtGetFriendNumber (w : ElaCarrier) (key : PublicKey) : Option FriendNumber :=
  (w.dht.entries.find? fun e => e.2 = key).map Sigma.fst

/-- get_friend_number. -/
def getFriendNumber (codec : KeyCodec) (w : ElaCarrier) (friendid : CString) : Option FriendNumber :=
  (codec.decodeKey friendid).bind (dhtGetFriendNumber w)

/-- notify_friend_added and notify_friend_removed. -/
def notifyFriendEvent (type : FriendEventType) (w : ElaCarrier) (fi : ElaFriendInfo) : ElaCarrier :=
  { w with friendEvents := w.friendEvents ++ [⟨type, fi⟩] }

def notifyFriendAdded : ElaCarrier → ElaFriendInfo → ElaCarrier := notifyFriendEvent .added

def notifyFriendRemoved : ElaCarrier → ElaFriendInfo → ElaCarrier := notifyFriendEvent .removed

/-- The end of the two calls that add a friend, after the DHT gave it a number. The user id
is the text of the key. -/
def putFriend (codec : KeyCodec) (w : ElaCarrier) (friendNumber : FriendNumber) (key : PublicKey) :
    ElaCarrier :=
  let fi := ElaFriendInfo.ofUserid (codec.encode key)
  notifyFriendAdded { w with
    dht := w.dht.insert friendNumber key
    friends := w.friends.insert friendNumber fi } fi

/-- ela_add_friend. The DHT refuses the friend or gives it a number. -/
def elaAddFriend (codec : KeyCodec) (tox : Option FriendNumber) (w : ElaCarrier)
    (address hello : Option CString) : ElaCarrier × Option ElaError :=
  match address, hello with
  | some address, some hello =>
    if hello.strlen = 0 ∨ address.strlen = 0 then (w, some .invalidArgs)
    else
      match validAddress codec address with
      | none => (w, some .invalidArgs)
      | some addr =>
        if address = w.base58Addr then (w, some .invalidArgs)
        else if !w.isReady then (w, some .notReady)
        else if (dhtGetFriendNumber w (addressKey addr)).isSome then (w, some .alreadyExist)
        else
          match tox with
          | none => (w, some .dht)
          | some friendNumber => (putFriend codec w friendNumber (addressKey addr), none)
  | _, _ => (w, some .invalidArgs)

/-- ela_accept_friend. -/
def elaAcceptFriend (codec : KeyCodec) (tox : Option FriendNumber) (w : ElaCarrier)
    (userid : Option CString) : ElaCarrier × Option ElaError :=
  match userid with
  | none => (w, some .invalidArgs)
  | some userid =>
    if userid.strlen = 0 then (w, some .invalidArgs)
    else
      match codec.decodeKey userid with
      | none => (w, some .invalidArgs)
      | some key =>
        if userid = w.me.text then (w, some .invalidArgs)
        else if !w.isReady then (w, some .notReady)
        else if (getFriendNumber codec w userid).isSome then (w, some .alreadyExist)
        else
          match tox with
          | none => (w, some .dht)
          | some friendNumber => (putFriend codec w friendNumber key, none)

/-- ela_remove_friend. -/
def elaRemoveFriend (codec : KeyCodec) (w : ElaCarrier) (friendid : Option CString) :
    ElaCarrier × Option ElaError :=
  match friendid with
  | none => (w, some .invalidArgs)
  | some friendid =>
    if friendid.strlen = 0 then (w, some .invalidArgs)
    else if (codec.decodeKey friendid).isNone then (w, some .invalidArgs)
    else if !w.isReady then (w, some .notReady)
    else
      match getFriendNumber codec w friendid with
      | none => (w, some .notExist)
      | some friendNumber =>
        match w.friends.lookup friendNumber with
        | none => (w, some .notExist)
        | some fi => (notifyFriendRemoved { w with
            dht := w.dht.erase friendNumber
            friends := w.friends.erase friendNumber } fi, none)

inductive FriendCall where
  | add (address hello : Option CString)
  | accept (userid : Option CString)
  | remove (friendid : Option CString)

def friendCall (codec : KeyCodec) (tox : Option FriendNumber) (w : ElaCarrier) :
    FriendCall → ElaCarrier × Option ElaError
  | .add address hello => elaAddFriend codec tox w address hello
  | .accept userid => elaAcceptFriend codec tox w userid
  | .remove friendid => elaRemoveFriend codec w friendid

/-- The key that a call names, if its argument can be decoded. -/
def FriendCall.key (codec : KeyCodec) : FriendCall → Option PublicKey
  | .add address _ => (address.bind (validAddress codec)).map addressKey
  | .accept userid => userid.bind codec.decodeKey
  | .remove friendid => friendid.bind codec.decodeKey

def FriendCall.removes : FriendCall → Bool
  | .remove _ => true
  | _ => false

section Lookup
variable {w : ElaCarrier} {key : PublicKey} {n : FriendNumber}

theorem dhtGetFriendNumber_some (h : dhtGetFriendNumber w key = some n) : w.dht.lookup n = some key := by
  obtain ⟨⟨m, k⟩, hfind, rfl⟩ := Option.map_eq_some_iff.mp h
  obtain rfl : k = key := by simpa using List.find?_some hfind
  exact AList.mem_lookup_iff.mpr (List.mem_of_find?_eq_some hfind)

theorem dhtGetFriendNumber_none (h : dhtGetFriendNumber w key = none) (n : FriendNumber) :
    w.dht.lookup n ≠ some key := by
  intro hn
  have hnone := List.find?_eq_none.mp (Option.map_eq_none_iff.mp h) ⟨n, key⟩ (AList.mem_lookup_iff.mp hn)
  simp at hnone

end Lookup

/-- The node after a friend was added under a number. -/
structure Added (codec : KeyCodec) (w w' : ElaCarrier) (n : FriendNumber) (key : PublicKey) : Prop where
  unknown : ∀ m, w.dht.lookup m ≠ some key
  dht : w'.dht = w.dht.insert n key
  friends : w'.friends = w.friends.insert n (.ofUserid (codec.encode key))
  events : w'.friendEvents = w.friendEvents ++ [⟨.added, .ofUserid (codec.encode key)⟩]

/-- The node after a friend was removed. -/
structure Removed (w w' : ElaCarrier) (n : FriendNumber) (key : PublicKey) (fi : ElaFriendInfo) : Prop where
  known : w.dht.lookup n = some key
  stored : w.friends.lookup n = some fi
  dht : w'.dht = w.dht.erase n
  friends : w'.friends = w.friends.erase n
  events : w'.friendEvents = w.friendEvents ++ [⟨.removed, fi⟩]

/-- All that a call can do. -/
inductive Outcome (codec : KeyCodec) (tox : Option FriendNumber) (w : ElaCarrier) (c : FriendCall) :
    ElaCarrier → Option ElaError → Prop
  | failed (e : ElaError) : Outcome codec tox w c w (some e)
  | added {w' : ElaCarrier} {n : FriendNumber} {key : PublicKey} (hc : c.removes = false)
      (hkey : c.key codec = some key) (htox : tox = some n) (h : Added codec w w' n key) :
      Outcome codec tox w c w' none
  | removed {w' : ElaCarrier} {n : FriendNumber} {key : PublicKey} {fi : ElaFriendInfo}
      (hc : c.removes = true) (hkey : c.key codec = some key) (h : Removed w w' n key fi) :
      Outcome codec tox w c w' none

theorem added_putFriend (codec : KeyCodec) {w : ElaCarrier} {n : FriendNumber} {key : PublicKey}
    (h : ¬ (dhtGetFriendNumber w key).isSome = true) : Added codec w (putFriend codec w n key) n key :=
  ⟨dhtGetFriendNumber_none (Option.not_isSome_iff_eq_none.mp h), rfl, rfl, rfl⟩

theorem elaAddFriend_outcome (codec : KeyCodec) (tox : Option FriendNumber) (w : ElaCarrier)
    (address hello : Option CString) :
    Outcome codec tox w (.add address hello) (elaAddFriend codec tox w address hello).1
      (elaAddFriend codec tox w address hello).2 := by
  unfold elaAddFriend
  split
  · split
    · exact .failed _
    · split
      · exact .failed _
      · next addr haddr =>
        split
        · exact .failed _
        · split
          · exact .failed _
          · split
            · exact .failed _
            · next hnew =>
              cases tox with
              | none => exact .failed _
              | some n => exact .added rfl (by simp [FriendCall.key, haddr]) rfl (added_putFriend codec hnew)
  · exact .failed _

theorem elaAcceptFriend_outcome (codec : KeyCodec) (tox : Option FriendNumber) (w : ElaCarrier)
    (userid : Option CString) :
    Outcome codec tox w (.accept userid) (elaAcceptFriend codec tox w userid).1
      (elaAcceptFriend codec tox w userid).2 := by
  unfold elaAcceptFriend
  split
  · exact .failed _
  · split
    · exact .failed _
    · split
      · exact .failed _
      · next key hkey =>
        split
        · exact .failed _
        · split
          · exact .failed _
          · split
            · exact .failed _
            · next hnew =>
              rw [getFriendNumber, hkey, Option.bind_some] at hnew
              cases tox with
              | none => exact .failed _
              | some n => exact .added rfl hkey rfl (added_putFriend codec hnew)

theorem elaRemoveFriend_outcome (codec : KeyCodec) (tox : Option FriendNumber) (w : ElaCarrier)
    (friendid : Option CString) :
    Outcome codec tox w (.remove friendid) (elaRemoveFriend codec w friendid).1
      (elaRemoveFriend codec w friendid).2 := by
  unfold elaRemoveFriend
  split
  · exact .failed _
  · split
    · exact .failed _
    · split
      · exact .failed _
      · split
        · exact .failed _
        · split
          · exact .failed _
          · next n hn =>
            obtain ⟨key, hkey, hn⟩ := Option.bind_eq_some_iff.mp hn
            split
            · exact .failed _
            · next fi hfi => exact .removed rfl hkey ⟨dhtGetFriendNumber_some hn, hfi, rfl, rfl, rfl⟩

theorem friendCall_outcome (codec : KeyCodec) (tox : Option FriendNumber) (w : ElaCarrier) (c : FriendCall) :
    Outcome codec tox w c (friendCall codec tox w c).1 (friendCall codec tox w c).2 := by
  cases c with
  | add address hello => exact elaAddFriend_outcome codec tox w address hello
  | accept userid => exact elaAcceptFriend_outcome codec tox w userid
  | remove friendid => exact elaRemoveFriend_outcome codec tox w friendid

/-! Agreement. -/

/-- The friends table holds a number with a user id exactly where the DHT holds it with
the key of that user id. -/
def Agree (codec : KeyCodec) (w : ElaCarrier) : Prop :=
  ∀ n u, (∃ fi, w.friends.lookup n = some fi ∧ fi.userInfo.userid = u) ↔
    ∃ key, w.dht.lookup n = some key ∧ u = codec.encode key

section Agreement
variable {codec : KeyCodec} {w w' : ElaCarrier} {n : FriendNumber} {key : PublicKey}

theorem Agree.added (h : Agree codec w) (hw : Added codec w w' n key) : Agree codec w' := by
  intro m u
  rw [hw.friends, hw.dht, Table.lookup_insert_eq, Table.lookup_insert_eq]
  by_cases hm : m = n
  · rw [if_pos hm, if_pos hm]
    simp [ElaFriendInfo.ofUserid, ElaUserInfo.ofUserid, eq_comm]
  · rw [if_neg hm, if_neg hm]
    exact h m u

theorem Agree.removed {fi : ElaFriendInfo} (h : Agree codec w) (hw : Removed w w' n key fi) :
    Agree codec w' := by
  intro m u
  rw [hw.friends, hw.dht, Table.lookup_erase_eq, Table.lookup_erase_eq]
  by_cases hm : m = n
  · simp [hm]
  · rw [if_neg hm, if_neg hm]
    exact h m u

theorem Agree.userid (h : Agree codec w) {fi : ElaFriendInfo} (hkey : w.dht.lookup n = some key)
    (hfi : w.friends.lookup n = some fi) : fi.userInfo.userid = codec.encode key := by
  obtain ⟨k, hk, hu⟩ := (h n fi.userInfo.userid).mp ⟨fi, hfi, rfl⟩
  cases hkey.symm.trans hk
  exact hu

/-- No key stands under two numbers of the DHT. -/
def Distinct (w : ElaCarrier) : Prop :=
  ∀ n m key, w.dht.lookup n = some key → w.dht.lookup m = some key → n = m

theorem Distinct.added (h : Distinct w) (hw : Added codec w w' n key) : Distinct w' := by
  intro m m' k hm hm'
  rw [hw.dht, Table.lookup_insert_eq] at hm hm'
  split at hm <;> split at hm'
  · next he he' => rw [he, he']
  · cases hm
    exact (hw.unknown m' hm').elim
  · cases hm'
    exact (hw.unknown m hm).elim
  · exact h m m' k hm hm'

theorem Distinct.removed {fi : ElaFriendInfo} (h : Distinct w) (hw : Removed w w' n key fi) :
    Distinct w' := by
  intro m m' k hm hm'
  rw [hw.dht, Table.lookup_erase_eq] at hm hm'
  split at hm
  · cases hm
  · split at hm'
    · cases hm'
    · exact h m m' k hm hm'

/-- Then no user id stands under two numbers of the friends table. -/
theorem Agree.unique (h : Agree codec w) (hd : Distinct w) {m : FriendNumber} {fi fi' : ElaFriendInfo}
    (hn : w.friends.lookup n = some fi) (hm : w.friends.lookup m = some fi')
    (hu : fi.userInfo.userid = fi'.userInfo.userid) : n = m := by
  obtain ⟨key, hk, hu₁⟩ := (h n fi.userInfo.userid).mp ⟨fi, hn, rfl⟩
  obtain ⟨key', hk', hu₂⟩ := (h m fi'.userInfo.userid).mp ⟨fi', hm, rfl⟩
  cases codec.encode_injective (hu₁.symm.trans (hu.trans hu₂))
  exact hd n m key hk hk'

end Agreement

/-- From every state in agreement each call leads to a state in agreement. A call that
fails changes nothing; one that succeeds adds or removes the friend it names and queues
one event about it. -/
theorem friendCall_agree (codec : KeyCodec) (w : ElaCarrier) (c : FriendCall) (tox : Option FriendNumber)
    (h : Agree codec w) (htox : ∀ n, tox = some n → w.dht.lookup n = none) :
    let r := friendCall codec tox w c
    Agree codec r.1 ∧
      (r.2 ≠ none → r.1.dht = w.dht ∧ r.1.friends = w.friends ∧ r.1.friendEvents = w.friendEvents) ∧
      (r.2 = none → c.removes = false → ∃ n key, c.key codec = some key ∧ w.dht.lookup n = none ∧
        w.friends.lookup n = none ∧ Added codec w r.1 n key) ∧
      (r.2 = none → c.removes = true → ∃ n key fi, c.key codec = some key ∧
        fi.userInfo.userid = codec.encode key ∧ Removed w r.1 n key fi) := by
  intro r
  have hout : Outcome codec tox w c r.1 r.2 := friendCall_outcome codec tox w c
  generalize r.1 = w' at hout ⊢
  generalize r.2 = e at hout ⊢
  cases hout with
  | failed e => exact ⟨h, fun _ => ⟨rfl, rfl, rfl⟩, fun he => (nomatch he), fun he => (nomatch he)⟩
  | @added _ n key hc hkey hn hw =>
    refine ⟨h.added hw, fun he => (he rfl).elim, fun _ _ => ?_, fun _ ht => ?_⟩
    · have hfree := htox n hn
      have hnone : w.friends.lookup n = none := by
        by_contra hne
        obtain ⟨fi, hfi⟩ := Option.ne_none_iff_exists'.mp hne
        obtain ⟨k, hk, -⟩ := (h n _).mp ⟨fi, hfi, rfl⟩
        cases hfree.symm.trans hk
      exact ⟨n, key, hkey, hfree, hnone, hw⟩
    · rw [hc] at ht
      cases ht
  | removed hc hkey hw =>
    refine ⟨h.removed hw, fun he => (he rfl).elim, fun _ hf => ?_, fun _ _ => ?_⟩
    · rw [hc] at hf
      cases hf
    · exact ⟨_, _, _, hkey, h.userid hw.known hw.stored, hw⟩

/-- A node that is ready and has no friends. -/
def ElaCarrier.empty : ElaCarrier where
  base58Addr := .empty
  me := base58Key 0
  isReady := true
  dht := ∅
  friends := ∅
  friendEvents := []

theorem friendCall_agree_accepted : ∃ w' n, Agree .base58 w' ∧ Added .base58 .empty w' n 1 := by
  have haccept : FriendCall.key .base58 (.accept (some (base58Key 1).text)) = some 1 :=
    KeyCodec.base58.decode_encode 1
  obtain ⟨hagree, -, hadded, -⟩ := friendCall_agree .base58 .empty (.accept (some (base58Key 1).text))
    (some 0) (fun n u => by simp [ElaCarrier.empty]) (fun n _ => rfl)
  obtain ⟨n, key, hkey, -, -, hw⟩ := hadded (by decide +kernel) rfl
  cases haccept.symm.trans hkey
  exact ⟨_, n, hagree, hw⟩

end CarrierSdk.Friends
