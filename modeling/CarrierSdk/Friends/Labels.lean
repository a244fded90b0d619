import CarrierSdk.Friends.Calls
import CarrierSdk.Friends.Loading
import CarrierSdk.Library.Machine
import Mathlib.Data.List.Sort

/-! The labels of the friends over restarts. They are stored under the friend numbers, which
a restart gives out anew. -/
namespace CarrierSdk.Friends
open Storage

/-- ela_set_friend_label. A NULL label takes the label away. -/
def elaSetFriendLabel (codec : KeyCodec) (w : ElaCarrier) (friendid label : Option CString) :
    ElaCarrier × Option ElaError :=
  match friendid with
  | none => (w, some .invalidArgs)
  | some friendid =>
    if friendid.strlen = 0 then (w, some .invalidArgs)
    else
      match CharArray.strcpy (orEmpty label) with
      | none => (w, some .invalidArgs)
      | some label =>
        match codec.decodeKey friendid with
        | none => (w, some .invalidArgs)
        | some key =>
          match dhtGetFriendNumber w key with
          | none => (w, some .notExist)
          | some n =>
            if (w.friends.lookup n).isNone then (w, some .notExist)
            else ({ w with friends := setLabel w.friends n label }, none)

/-- The call fails, or it names a friend of the DHT and sets the label of its record. -/
theorem elaSetFriendLabel_cases (codec : KeyCodec) (w : ElaCarrier) (friendid label : Option CString) :
    (∃ e, elaSetFriendLabel codec w friendid label = (w, some e)) ∨
      ∃ key n l, friendid.bind codec.decodeKey = some key ∧ CharArray.strcpy (orEmpty label) = some l ∧
        w.dht.lookup n = some key ∧
        elaSetFriendLabel codec w friendid label = ({ w with friends := setLabel w.friends n l }, none) := by
  unfold elaSetFriendLabel
  split
  · exact .inl ⟨_, rfl⟩
  · split
    · exact .inl ⟨_, rfl⟩
    · split
      · exact .inl ⟨_, rfl⟩
      · next l hl =>
        split
        · exact .inl ⟨_, rfl⟩
        · next key hkey =>
          split
          · exact .inl ⟨_, rfl⟩
          · next n hn =>
            split
            · exact .inl ⟨_, rfl⟩
            · exact .inr ⟨key, n, l, hkey, hl, dhtGetFriendNumber_some hn, rfl⟩

/-- The number that a running DHT gives a new friend. -/
def lowestFree (dht : Table FriendNumber PublicKey) : Option FriendNumber :=
  ((List.range (dht.entries.length + 1)).map UInt32.ofNat).find? fun n => (dht.lookup n).isNone

/-- A friend of the DHT with its number before and after a restart. -/
structure Renumbered where
  new : FriendNumber
  old : FriendNumber
  key : PublicKey

/-- A restarted DHT has the same friends and numbers them from zero in the old order. -/
def renumber (dht : Table FriendNumber PublicKey) : List Renumbered :=
  (dht.entries.insertionSort fun a b => a.1 ≤ b.1).zipIdx.map fun e =>
    ⟨UInt32.ofNat e.2, e.1.1, e.1.2⟩

/-- What the friends have published: a user status and a description for each key. -/
abbrev Published := PublicKey → Int × List UInt8

/-- The friend list that a restarted DHT hands to ela_new. -/
def restartedList (published : Published) (dht : Table FriendNumber PublicKey) : List DhtFriend :=
  (renumber dht).map fun r => ⟨r.new, r.key, (published r.key).1, (published r.key).2⟩

/-- store_persistence_data and, on the file it wrote, ela_new. -/
def restart (codec : KeyCodec) (flatcc : List UInt8 → Option FlatPacket) (dhtData : List UInt8)
    (published : Published) (w : ElaCarrier) : Option ElaCarrier :=
  let data := persistenceOf dhtData (labelSection w.friends.entries).length (labelSection w.friends.entries)
  (elaNew codec flatcc (restartedList published w.dht) data).map fun friends =>
    { w with
      isReady := false
      dht := ((renumber w.dht).map fun r => (⟨r.new, r.key⟩ : Sigma fun _ : FriendNumber => PublicKey)).toAList
      friends
      friendEvents := [] }

/-- A node and the label that its application last set for each user id. -/
structure LabelState where
  carrier : ElaCarrier
  lastSet : UserId → Label

inductive LabelInput where
  | ready (b : Bool)
  | call (c : FriendCall) (refuses : Bool)
  | setLabel (friendid label : Option CString)
  | restart (dhtData : List UInt8) (published : Published)

/-- The application's record of the labels after a call that set one. -/
def recordLabel (codec : KeyCodec) (lastSet : UserId → Label) (friendid label : Option CString) :
    UserId → Label :=
  match friendid.bind codec.decodeKey, CharArray.strcpy (orEmpty label) with
  | some key, some label => Function.update lastSet (codec.encode key) label
  | _, _ => lastSet

def labelStep (codec : KeyCodec) (flatcc : List UInt8 → Option FlatPacket) (s : LabelState) :
    LabelInput → Option (LabelState × List (Option ElaError))
  | .ready b => some ({ s with carrier := { s.carrier with isReady := b } }, [])
  | .call c refuses =>
    let r := friendCall codec (if refuses then none else lowestFree s.carrier.dht) s.carrier c
    some ({ s with carrier := r.1 }, [r.2])
  | .setLabel friendid label =>
    let r := elaSetFriendLabel codec s.carrier friendid label
    some (⟨r.1, if r.2.isNone then recordLabel codec s.lastSet friendid label else s.lastSet⟩, [r.2])
  | .restart dhtData published =>
    (restart codec flatcc dhtData published s.carrier).map fun w => ({ s with carrier := w }, [])

def labelMachine (codec : KeyCodec) (flatcc : List UInt8 → Option FlatPacket) :
    Machine LabelState LabelInput (Option ElaError) := ⟨labelStep codec flatcc⟩

/-- Every friend has the label that was last set for its user id. -/
def LabelsKept (s : LabelState) : Prop :=
  ∀ n fi, s.carrier.friends.lookup n = some fi → fi.label = s.lastSet fi.userInfo.userid

/-- A friend that is new to the DHT has no label set for it from before. At a restart every
friend can be read and finds its own label under its new number. -/
def keepsLabels (codec : KeyCodec) (flatcc : List UInt8 → Option FlatPacket) (s : LabelState) :
    LabelInput → Bool
  | .call c _ =>
    match c.removes, c.key codec with
    | false, some key => (dhtGetFriendNumber s.carrier key).isSome ||
        decide (s.lastSet (codec.encode key) = .empty)
    | _, _ => true
  | .restart _ published => (renumber s.carrier.dht).all fun r =>
      readable flatcc (published r.key).2 &&
        decide (labelOf s.carrier.friends r.new = labelOf s.carrier.friends r.old)
  | _ => true

/-! The numbers after a restart. -/

section Renumber
variable (dht : Table FriendNumber PublicKey)

theorem mem_sorted {e : Sigma fun _ : FriendNumber => PublicKey} :
    e ∈ dht.entries.insertionSort (fun a b => a.1 ≤ b.1) ↔ dht.lookup e.1 = some e.2 := by
  rw [List.mem_insertionSort, ← AList.mem_lookup_iff]
  rfl

theorem renumber_old : (renumber dht).map Renumbered.old =
    (dht.entries.insertionSort fun a b => a.1 ≤ b.1).map Sigma.fst := by
  have hfst : (dht.entries.insertionSort fun a b => a.1 ≤ b.1) =
      (dht.entries.insertionSort fun a b => a.1 ≤ b.1).zipIdx.map Prod.fst := (List.zipIdx_map_fst 0 _).symm
  rw [renumber, List.map_map]
  nth_rewrite 2 [hfst]
  rw [List.map_map]
  rfl

theorem nodup_renumber_old : ((renumber dht).map Renumbered.old).Nodup := by
  rw [renumber_old]
  have hperm := (List.perm_insertionSort (fun a b : Sigma fun _ : FriendNumber => PublicKey => a.1 ≤ b.1)
    dht.entries).map Sigma.fst
  exact hperm.nodup_iff.mpr dht.keys_nodup

theorem nodup_renumber_new : ((renumber dht).map Renumbered.new).Nodup := by
  have hnew : (renumber dht).map Renumbered.new =
      (List.range' 0 (dht.entries.insertionSort fun a b => a.1 ≤ b.1).length).map UInt32.ofNat := by
    rw [renumber, List.map_map, ← List.zipIdx_map_snd, List.map_map]
    rfl
  rw [hnew, List.length_insertionSort]
  refine List.Nodup.map_on (fun i hi j hj h => ?_) List.nodup_range'
  have hlen := length_entries_le dht
  have hsize : UInt32.size = 2 ^ 32 := rfl
  rw [List.mem_range'_1] at hi hj
  have htoNat := congrArg UInt32.toNat h
  rwa [UInt32.toNat_ofNat_of_lt' (by omega), UInt32.toNat_ofNat_of_lt' (by omega)] at htoNat

theorem mem_renumber {r : Renumbered} (h : r ∈ renumber dht) : dht.lookup r.old = some r.key := by
  obtain ⟨e, he, rfl⟩ := List.mem_map.mp h
  exact (mem_sorted dht).mp (List.fst_mem_of_mem_zipIdx he)

/-- The friend list of the restarted DHT. -/
theorem lookup_restarted (n : FriendNumber) (key : PublicKey) :
    (((renumber dht).map fun r =>
        (⟨r.new, r.key⟩ : Sigma fun _ : FriendNumber => PublicKey)).toAList).lookup n = some key ↔
      ∃ r ∈ renumber dht, r.new = n ∧ r.key = key := by
  have hnodup : ((renumber dht).map fun r =>
      (⟨r.new, r.key⟩ : Sigma fun _ : FriendNumber => PublicKey)).NodupKeys := by
    rw [List.NodupKeys, List.keys, List.map_map]
    exact nodup_renumber_new dht
  rw [AList.lookup_to_alist, ← Option.mem_def, List.mem_dlookup_iff hnodup, List.mem_map]
  constructor
  · rintro ⟨r, hr, he⟩
    cases he
    exact ⟨r, hr, rfl, rfl⟩
  · rintro ⟨r, hr, rfl, rfl⟩
    exact ⟨r, hr, rfl⟩

end Renumber

/-! What one step keeps. -/

/-- Friends table and DHT agree, no key is there twice, and the labels are kept. -/
structure LabelInv (codec : KeyCodec) (s : LabelState) : Prop where
  agree : Agree codec s.carrier
  distinct : Distinct s.carrier
  kept : LabelsKept s

section Steps
variable {codec : KeyCodec} {s : LabelState}

theorem LabelInv.added (h : LabelInv codec s) {w : ElaCarrier} {n : FriendNumber} {key : PublicKey}
    (hw : Added codec s.carrier w n key) (hset : s.lastSet (codec.encode key) = .empty) :
    LabelInv codec { s with carrier := w } := by
  refine ⟨h.agree.added hw, h.distinct.added hw, fun m fi hfi => ?_⟩
  simp only [hw.friends, Table.lookup_insert_eq] at hfi
  split at hfi
  · cases hfi
    exact hset.symm
  · exact h.kept m fi hfi

theorem LabelInv.removed (h : LabelInv codec s) {w : ElaCarrier} {n : FriendNumber} {key : PublicKey}
    {fi : ElaFriendInfo} (hw : Removed s.carrier w n key fi) : LabelInv codec { s with carrier := w } := by
  refine ⟨h.agree.removed hw, h.distinct.removed hw, fun m fi hfi => ?_⟩
  simp only [hw.friends, Table.lookup_erase_eq] at hfi
  split at hfi
  · cases hfi
  · exact h.kept m fi hfi

/-- A label that was set is the label of this friend and of no other. -/
theorem LabelInv.labelled (h : LabelInv codec s) {n : FriendNumber} {key : PublicKey} {label : Label}
    (hkey : s.carrier.dht.lookup n = some key) :
    LabelInv codec ⟨{ s.carrier with friends := setLabel s.carrier.friends n label },
      Function.update s.lastSet (codec.encode key) label⟩ := by
  refine ⟨fun m u => ?_, h.distinct, fun m fi hfi => ?_⟩
  · rw [← h.agree m u, lookup_setLabel]
    split
    · simp
    · rfl
  · simp only [lookup_setLabel] at hfi
    split at hfi
    · next hm =>
      obtain ⟨info, hinfo, rfl⟩ := Option.map_eq_some_iff.mp hfi
      have huser : info.userInfo.userid = codec.encode key := h.agree.userid hkey (hm ▸ hinfo)
      simp only [huser, Function.update_self]
    · next hm =>
      obtain ⟨k, hk, hu⟩ := (h.agree m fi.userInfo.userid).mp ⟨fi, hfi, rfl⟩
      have hne : fi.userInfo.userid ≠ codec.encode key := by
        intro he
        cases codec.encode_injective (hu.symm.trans he)
        exact hm (h.distinct m n key hk hkey)
      simp only [Function.update_of_ne hne]
      exact h.kept m fi hfi

theorem LabelInv.setLabel (h : LabelInv codec s) (friendid label : Option CString) :
    LabelInv codec ⟨(elaSetFriendLabel codec s.carrier friendid label).1,
      if (elaSetFriendLabel codec s.carrier friendid label).2.isNone then
        recordLabel codec s.lastSet friendid label else s.lastSet⟩ := by
  rcases elaSetFriendLabel_cases codec s.carrier friendid label with
    ⟨e, he⟩ | ⟨key, n, l, hkey, hl, hn, he⟩
  · rw [he]
    exact h
  · rw [he]
    simpa [recordLabel, hkey, hl] using h.labelled hn

theorem LabelInv.restarted (h : LabelInv codec s) {flatcc : List UInt8 → Option FlatPacket}
    {dhtData : List UInt8} {published : Published} {w : ElaCarrier}
    (hg : keepsLabels codec flatcc s (.restart dhtData published) = true)
    (hw : restart codec flatcc dhtData published s.carrier = some w) :
    LabelInv codec { s with carrier := w } := by
  have hall : ∀ r ∈ renumber s.carrier.dht, readable flatcc (published r.key).2 = true ∧
      labelOf s.carrier.friends r.new = labelOf s.carrier.friends r.old := by
    intro r hr
    have := List.all_eq_true.mp hg r hr
    simpa using this
  have hnodup : ((restartedList published s.carrier.dht).map DhtFriend.friendNumber).Nodup := by
    rw [restartedList, List.map_map]
    exact nodup_renumber_new s.carrier.dht
  have hread : ∀ f ∈ restartedList published s.carrier.dht, readable flatcc f.desc = true := by
    intro f hf
    obtain ⟨r, hr, rfl⟩ := List.mem_map.mp hf
    exact (hall r hr).1
  obtain ⟨friends, hnew, hexact, hlabels⟩ := elaNew_readable codec hnodup dhtData s.carrier.friends hread
  simp only [restart, hnew, Option.map_some, Option.some.injEq] at hw
  subst hw
  refine ⟨fun n u => ?_, fun n m key hn hm => ?_, fun n fi hfi => ?_⟩
  · refine (hexact n u).trans ?_
    simp only [lookup_restarted, restartedList, List.mem_map, exists_exists_and_eq_and]
    constructor
    · rintro ⟨r, hr, hn, hu⟩
      exact ⟨r.key, ⟨r, hr, hn, rfl⟩, hu.symm⟩
    · rintro ⟨key, ⟨r, hr, hn, rfl⟩, hu⟩
      exact ⟨r, hr, hn, hu.symm⟩
  · obtain ⟨r, hr, rfl, hk⟩ := (lookup_restarted _ n key).mp hn
    obtain ⟨r', hr', rfl, hk'⟩ := (lookup_restarted _ m key).mp hm
    have hold : r.old = r'.old := h.distinct _ _ key (hk ▸ mem_renumber _ hr) (hk' ▸ mem_renumber _ hr')
    rw [List.inj_on_of_nodup_map (nodup_renumber_old s.carrier.dht) hr hr' hold]
  · obtain ⟨f, hf, hn, hu⟩ := (hexact n fi.userInfo.userid).mp ⟨fi, hfi, rfl⟩
    obtain ⟨r, hr, rfl⟩ := List.mem_map.mp hf
    obtain ⟨old, hold, hold'⟩ := (h.agree r.old (codec.encode r.key)).mpr ⟨r.key, mem_renumber _ hr, rfl⟩
    rw [hlabels n fi hfi, ← hn, (hall r hr).2, labelOf, hold, Option.map_some, Option.getD_some,
      h.kept r.old old hold, hold', hu]

end Steps

theorem labelInv_step {codec : KeyCodec} {flatcc : List UInt8 → Option FlatPacket} {s t : LabelState}
    {i : LabelInput} {o : List (Option ElaError)} (h : LabelInv codec s)
    (hg : keepsLabels codec flatcc s i = true) (hs : labelStep codec flatcc s i = some (t, o)) :
    LabelInv codec t := by
  cases i with
  | ready b =>
    cases hs
    exact ⟨h.agree, h.distinct, h.kept⟩
  | call c refuses =>
    cases hs
    have hout := friendCall_outcome codec (if refuses then none else lowestFree s.carrier.dht) s.carrier c
    generalize (friendCall codec (if refuses then none else lowestFree s.carrier.dht) s.carrier c).1 = w at hout ⊢
    generalize (friendCall codec (if refuses then none else lowestFree s.carrier.dht) s.carrier c).2 = e at hout
    cases hout with
    | failed e => exact h
    | @added _ n key hc hkey _ hw =>
      have hnew : (dhtGetFriendNumber s.carrier key).isSome = false := by
        rw [Option.isSome_eq_false_iff, Option.isNone_iff_eq_none]
        by_contra hne
        obtain ⟨m, hm⟩ := Option.ne_none_iff_exists'.mp hne
        exact hw.unknown m (dhtGetFriendNumber_some hm)
      simp only [keepsLabels, hc, hkey, hnew, Bool.false_or, decide_eq_true_eq] at hg
      exact h.added hw hg
    | removed _ _ hw => exact h.removed hw
  | setLabel friendid label =>
    cases hs
    exact h.setLabel friendid label
  | restart dhtData published =>
    obtain ⟨w, hw, he⟩ := Option.map_eq_some_iff.mp hs
    cases he
    exact h.restarted hg hw

/-- A node without friends whose application has set no label. -/
def LabelState.fresh (w : ElaCarrier) : LabelState := ⟨{ w with dht := ∅, friends := ∅ }, fun _ => .empty⟩

/-- In every run whose steps meet the condition every friend of the DHT is in the friends
table, after any number of restarts, and has the label that was last set for its user id. -/
theorem labels_kept (codec : KeyCodec) (flatcc : List UInt8 → Option FlatPacket) {w : ElaCarrier}
    {is : List LabelInput} {u : LabelState} {os : List (Option ElaError)}
    (h : (labelMachine codec flatcc).Run (fun s i => keepsLabels codec flatcc s i = true) (.fresh w) is os u) :
    Agree codec u.carrier ∧ LabelsKept u := by
  have hstart : LabelInv codec (.fresh w) := by
    refine ⟨fun n k => ?_, fun n m key hn => ?_, fun n fi hfi => ?_⟩
    · simp [LabelState.fresh]
    · cases (AList.lookup_empty n).symm.trans hn
    · cases (AList.lookup_empty n).symm.trans hfi
  have hend : LabelInv codec u := by
    refine h.invariant (fun {s i t o} hi hg hs => ?_) hstart
    exact labelInv_step hi hg hs
  exact ⟨hend.agree, hend.kept⟩

/-- Two friends are accepted and the second gets a label. Then one of them is removed and the
node is started again. -/
def removeAndRestart (removed : PublicKey) : List LabelInput :=
  let text := fun key => some (base58Key key).text
  [.call (.accept (text 1)) false, .call (.accept (text 2)) false,
    .setLabel (text 2) (some ⟨[72, 105], by decide⟩), .call (.remove (text removed)) false,
    .restart [] fun _ => (0, [])]

theorem labels_kept_last : ∃ u : LabelState, u.carrier.friends.lookup 0 ≠ none ∧ LabelsKept u := by
  obtain ⟨u, os, he, hp⟩ := (labelMachine .base58 fun _ => none).exec_any (.fresh .empty) (removeAndRestart 2)
    (fun r => (r.1.carrier.friends.lookup 0).isSome) (by decide +kernel)
  have hsome : u.carrier.friends.lookup 0 ≠ none := Option.isSome_iff_ne_none.mp hp
  exact ⟨u, hsome, (labels_kept .base58 (fun _ => none)
    (Machine.run_of_exec (fun _ _ h => h) he (by decide +kernel))).2⟩

/-- The friend behind the removed one loses its label. -/
theorem labels_lost : ¬ ∀ (w : ElaCarrier) (is : List LabelInput) (u : LabelState) (os : List (Option ElaError)),
    (labelMachine .base58 fun _ => none).Run Machine.Free (.fresh w) is os u → LabelsKept u := by
  intro h
  obtain ⟨u, os, he, hp⟩ := (labelMachine .base58 fun _ => none).exec_any (.fresh .empty) (removeAndRestart 1)
    (fun r => (r.1.carrier.friends.lookup 0).any fun fi : ElaFriendInfo =>
      decide (fi.label ≠ r.1.lastSet fi.userInfo.userid)) (by decide +kernel)
  obtain ⟨fi, hfi, hlabel⟩ := (Option.any_eq_true _ _).mp hp
  exact of_decide_eq_true hlabel (h _ _ u os (Machine.free_run_of_exec he) 0 fi hfi)

end CarrierSdk.Friends
