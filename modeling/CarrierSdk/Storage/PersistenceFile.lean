import CarrierSdk.Friends.FriendInfo
import CarrierSdk.Library.Bytes

/-! The file carrier.data: a header, the savedata of the DHT and the labels of the friends.
What is stored can be loaded again. -/
namespace CarrierSdk.Storage
open Bytes Friends

def persistenceMagic : Nat := 0x0E0C0D0A
def persistenceRevision : Nat := 2

/-- MAX_PERSISTENCE_SECTION_SIZE, which only the loader checks. -/
def maxPersistenceSectionSize : Nat := 16 * 1024 * 1024

/-- ROUND256. -/
def round256 (s : Nat) : Nat := (((s + 64) >>> 8) + 1) <<< 8

/-- sha256 of a byte string, with SHA256_BYTES of digest. -/
structure Sha256 where
  digest : List UInt8 → List UInt8
  size : ∀ bytes, (digest bytes).length = 32

/-- Bytes copied to the start of a zeroed area. -/
def zeroPadded (size : Nat) (bytes : List UInt8) : List UInt8 :=
  bytes ++ List.replicate (size - bytes.length) 0

/-- The first 256 bytes of the file, which hold the digest of all the others. -/
def persistenceHeader (sha : Sha256) (dhtDataLen extraDataLen : Nat) (sections : List UInt8) : List UInt8 :=
  zeroPadded 256 (bigEndian 4 persistenceMagic ++ bigEndian 4 persistenceRevision ++
    bigEndian 4 dhtDataLen ++ bigEndian 4 extraDataLen ++ sha.digest sections)

/-- The buffer that is written to the file. The second section starts at a rounded offset. -/
def persistenceImage (sha : Sha256) (dhtData : List UInt8) (extraDataLen : Nat)
    (extraData : List UInt8) : List UInt8 :=
  let sections := zeroPadded (round256 dhtData.length) dhtData ++ zeroPadded (round256 extraDataLen) extraData
  persistenceHeader sha dhtData.length extraDataLen sections ++ sections

/-- struct persistence_data. A pointer is the list of the bytes from there to the end
of the buffer. -/
structure PersistenceData where
  dhtSavedataLen : Nat
  dhtSavedata : List UInt8
  extraSavedataLen : Nat
  extraSavedata : List UInt8
  deriving DecidableEq

/-- The k-th 32-bit word of the header. -/
def headerWord (file : List UInt8) (k : Nat) : Nat := number ((file.drop (4 * k)).take 4)

/-- _load_persistence_data_i on the bytes of the file. -/
def loadPersistenceDataI (sha : Sha256) (file : List UInt8) : Option PersistenceData :=
  if file.length < 256 then none
  else if headerWord file 0 ≠ persistenceMagic then none
  else if headerWord file 1 ≠ persistenceRevision then none
  else
    let dhtDataLen := headerWord file 2
    if dhtDataLen > maxPersistenceSectionSize then none
    else
      let extraDataLen := headerWord file 3
      if extraDataLen > maxPersistenceSectionSize then none
      else if file.length ≠ 256 + round256 dhtDataLen + round256 extraDataLen then none
      else
        let buf := file.drop 256
        if (file.drop 16).take 32 ≠ sha.digest buf then none
        else some ⟨dhtDataLen, buf, extraDataLen, buf.drop (round256 dhtDataLen)⟩

/-! The label section. -/

/-- The entries of a friends table in the order its iterator visits them. -/
abbrev Entries := List (Sigma fun _ : FriendNumber => ElaFriendInfo)

/-- get_extra_savedata_size. -/
def getExtraSavedataSize (entries : Entries) : Nat :=
  entries.foldl (fun total fi =>
    let labelLen := fi.2.label.text.strlen
    if labelLen ≠ 0 then total + (4 + labelLen + 1) else total) 0

/-- The bytes of one friend: the number in network order and the label with its terminator. -/
def labelEntry (fi : Sigma fun _ : FriendNumber => ElaFriendInfo) : List UInt8 :=
  bigEndian 4 fi.1.toNat ++ (fi.2.label.text.bytes ++ [0])

/-- get_extra_savedata, which stops where the area is full. -/
def getExtraSavedata : Entries → Nat → List UInt8
  | [], _ => []
  | fi :: rest, len =>
    if len = 0 then []
    else
      let labelLen := fi.2.label.text.strlen
      if labelLen ≠ 0 then
        if len < 4 + labelLen + 1 then []
        else labelEntry fi ++ getExtraSavedata rest (len - (4 + labelLen + 1))
      else getExtraSavedata rest len

/-- The image that store_persistence_data writes. -/
def storeImage (sha : Sha256) (dhtData : List UInt8) (friends : FriendsTable) : List UInt8 :=
  let extraDataLen := getExtraSavedataSize friends.entries
  persistenceImage sha dhtData extraDataLen (getExtraSavedata friends.entries (round256 extraDataLen))

/-- Subtraction in a size_t. -/
def sizeSub (a b : Nat) : Nat := (a + 2 ^ 64 - b) % 2 ^ 64

/-- The friend's record gets a label, where there is such a friend. -/
def setLabel (friends : FriendsTable) (fn : FriendNumber) (label : Label) : FriendsTable :=
  match friends.lookup fn with
  | none => friends
  | some info => friends.insert fn { info with label }

private theorem length_drop_lt {pos : List UInt8} (h : ¬ pos.length < 4) (n : Nat) :
    (pos.drop (4 + n + 1)).length < pos.length := by
  rw [List.length_drop]
  omega

/-- apply_extra_data. It has no defined behaviour where it reads behind the buffer or
where a label does not fit. -/
def applyExtraData (friends : FriendsTable) (pos : List UInt8) (extraSavedataLen : Nat) :
    Option FriendsTable :=
  if extraSavedataLen = 0 then some friends
  else if _ : pos.length < 4 then none
  else
    match CString.scan (pos.drop 4) with
    | none => none
    | some label =>
      if label.strlen = 0 then some friends
      else
        let fn := UInt32.ofNat (number (pos.take 4))
        let rest := pos.drop (4 + label.strlen + 1)
        let len := sizeSub extraSavedataLen (4 + label.strlen + 1)
        match friends.lookup fn with
        | none => applyExtraData friends rest len
        | some _ =>
          match CharArray.strcpy label with
          | none => none
          | some label => applyExtraData (setLabel friends fn label) rest len
termination_by pos.length
decreasing_by all_goals exact length_drop_lt ‹_› _

/-! The file is read as it was written. -/

theorem lt_round256 (s : Nat) : s < round256 s := by
  rw [round256, Nat.shiftRight_eq_div_pow, Nat.shiftLeft_eq]
  omega

theorem length_zeroPadded {size : Nat} {bytes : List UInt8} (h : bytes.length ≤ size) :
    (zeroPadded size bytes).length = size := by
  rw [zeroPadded, List.length_append, List.length_replicate]
  omega

theorem length_persistenceHeader (sha : Sha256) (n k : Nat) (sections : List UInt8) :
    (persistenceHeader sha n k sections).length = 256 := by
  apply length_zeroPadded
  simp only [List.length_append, length_bigEndian, sha.size]
  decide

/-- The words of the header, each less than 2^32. -/
theorem headerWord_header (sha : Sha256) (n k : Nat) (sections rest : List UInt8) :
    let file := persistenceHeader sha n k sections ++ rest
    headerWord file 0 = persistenceMagic ∧ headerWord file 1 = persistenceRevision ∧
      headerWord file 2 = n % 2 ^ 32 ∧ headerWord file 3 = k % 2 ^ 32 ∧
      (file.drop 16).take 32 = sha.digest sections := by
  have hd := sha.size sections
  have hw : ∀ (w : Nat) (before after : List UInt8) (j : Nat), before.length = 4 * j →
      headerWord (before ++ (bigEndian 4 w ++ after)) j = w % 2 ^ 32 := by
    intro w before after j hj
    rw [headerWord, ← hj, List.drop_left, List.take_left' (length_bigEndian 4 w), number_bigEndian]
    rfl
  simp only [persistenceHeader, zeroPadded, List.append_assoc]
  refine ⟨?_, ?_, ?_, ?_, ?_⟩
  · exact hw persistenceMagic [] _ 0 rfl
  · exact hw persistenceRevision (bigEndian 4 _) _ 1 (length_bigEndian 4 _)
  · rw [← List.append_assoc]
    exact hw n (bigEndian 4 _ ++ bigEndian 4 _) _ 2 (by simp)
  · rw [← List.append_assoc, ← List.append_assoc]
    exact hw k ((bigEndian 4 _ ++ bigEndian 4 _) ++ bigEndian 4 _) _ 3 (by simp)
  · have h16 : (((bigEndian 4 persistenceMagic ++ bigEndian 4 persistenceRevision) ++ bigEndian 4 n) ++
        bigEndian 4 k).length = 16 := by simp
    rw [← List.append_assoc, ← List.append_assoc, ← List.append_assoc, ← h16, List.drop_left,
      List.take_left' hd]

/-- The record that the loader makes of an image. -/
def persistenceOf (dhtData : List UInt8) (extraDataLen : Nat) (extraData : List UInt8) : PersistenceData where
  dhtSavedataLen := dhtData.length
  dhtSavedata := zeroPadded (round256 dhtData.length) dhtData ++ zeroPadded (round256 extraDataLen) extraData
  extraSavedataLen := extraDataLen
  extraSavedata := zeroPadded (round256 extraDataLen) extraData

section Image
variable (sha : Sha256) (dhtData : List UInt8) {extraData : List UInt8} {extraDataLen : Nat}

theorem length_persistenceImage (h : extraData.length ≤ round256 extraDataLen) :
    (persistenceImage sha dhtData extraDataLen extraData).length =
      256 + round256 dhtData.length + round256 extraDataLen := by
  rw [persistenceImage, List.length_append, length_persistenceHeader, List.length_append,
    length_zeroPadded (lt_round256 _).le, length_zeroPadded h]
  omega

/-- The header of an image whose sections are within the limit. -/
theorem headerWord_image (extraData : List UInt8) (hdht : dhtData.length ≤ maxPersistenceSectionSize)
    (hextra : extraDataLen ≤ maxPersistenceSectionSize) :
    let file := persistenceImage sha dhtData extraDataLen extraData
    headerWord file 0 = persistenceMagic ∧ headerWord file 1 = persistenceRevision ∧
      headerWord file 2 = dhtData.length ∧ headerWord file 3 = extraDataLen := by
  have hmax : maxPersistenceSectionSize < 2 ^ 32 := by decide
  have hn : dhtData.length % 2 ^ 32 = dhtData.length := Nat.mod_eq_of_lt (by omega)
  have hk : extraDataLen % 2 ^ 32 = extraDataLen := Nat.mod_eq_of_lt (by omega)
  obtain ⟨h0, h1, h2, h3, -⟩ := headerWord_header sha dhtData.length extraDataLen
    (persistenceOf dhtData extraDataLen extraData).dhtSavedata
    (persistenceOf dhtData extraDataLen extraData).dhtSavedata
  exact ⟨h0, h1, h2.trans hn, h3.trans hk⟩

/-- An image whose sections are within the limit is loaded as it was. -/
theorem load_persistenceImage (h : extraData.length ≤ round256 extraDataLen)
    (hdht : dhtData.length ≤ maxPersistenceSectionSize) (hextra : extraDataLen ≤ maxPersistenceSectionSize) :
    loadPersistenceDataI sha (persistenceImage sha dhtData extraDataLen extraData) =
      some (persistenceOf dhtData extraDataLen extraData) := by
  have hlen := length_persistenceImage sha dhtData h
  have hdrop : (persistenceImage sha dhtData extraDataLen extraData).drop 256 =
      (persistenceOf dhtData extraDataLen extraData).dhtSavedata :=
    List.drop_left' (length_persistenceHeader sha _ _ _)
  obtain ⟨h0, h1, h2, h3⟩ := headerWord_image sha dhtData extraData hdht hextra
  have hd : ((persistenceImage sha dhtData extraDataLen extraData).drop 16).take 32 =
      sha.digest (persistenceOf dhtData extraDataLen extraData).dhtSavedata :=
    (headerWord_header sha dhtData.length extraDataLen _ _).2.2.2.2
  have hextraDrop : (persistenceOf dhtData extraDataLen extraData).dhtSavedata.drop (round256 dhtData.length) =
      zeroPadded (round256 extraDataLen) extraData :=
    List.drop_left' (length_zeroPadded (lt_round256 _).le)
  simp only [loadPersistenceDataI, h0, h1, h2, h3, hd, hdrop, hextraDrop, hlen, ne_eq, not_true_eq_false,
    if_false, if_neg (Nat.not_lt.mpr hdht), if_neg (Nat.not_lt.mpr hextra)]
  rw [if_neg (by omega)]
  rfl

/-- A word of the header is the same in every part of an image that holds the header. -/
theorem headerWord_take {file : List UInt8} {m k : Nat} (hk : 4 * k + 4 ≤ m) :
    headerWord (file.take m) k = headerWord file k := by
  rw [headerWord, headerWord, List.drop_take, List.take_take, Nat.min_eq_left (by omega)]

/-- A part of an image is not accepted in its place. -/
theorem load_take_persistenceImage (h : extraData.length ≤ round256 extraDataLen)
    (hdht : dhtData.length ≤ maxPersistenceSectionSize) (hextra : extraDataLen ≤ maxPersistenceSectionSize)
    {m : Nat} (hm : m < (persistenceImage sha dhtData extraDataLen extraData).length) :
    loadPersistenceDataI sha ((persistenceImage sha dhtData extraDataLen extraData).take m) = none := by
  have hlen := length_persistenceImage sha dhtData h
  have htake : ((persistenceImage sha dhtData extraDataLen extraData).take m).length = m := by
    rw [List.length_take, Nat.min_eq_left hm.le]
  by_cases hm' : m < 256
  · rw [loadPersistenceDataI, if_pos (by omega)]
  · obtain ⟨h0, h1, h2, h3⟩ := headerWord_image sha dhtData extraData hdht hextra
    simp only [loadPersistenceDataI, headerWord_take (show 4 * 0 + 4 ≤ m by omega),
      headerWord_take (show 4 * 1 + 4 ≤ m by omega), headerWord_take (show 4 * 2 + 4 ≤ m by omega),
      headerWord_take (show 4 * 3 + 4 ≤ m by omega), h0, h1, h2, h3, htake, ne_eq, not_true_eq_false,
      if_false, if_neg hm', if_neg (Nat.not_lt.mpr hdht), if_neg (Nat.not_lt.mpr hextra)]
    rw [if_pos (by omega)]

/-- A DHT section longer than the limit is not accepted, unless its length wraps around. -/
theorem load_large_persistenceImage (extraDataLen : Nat) (extraData : List UInt8) (hdht : maxPersistenceSectionSize < dhtData.length)
    (hword : dhtData.length < 2 ^ 32) :
    loadPersistenceDataI sha (persistenceImage sha dhtData extraDataLen extraData) = none := by
  obtain ⟨h0, h1, h2, -, -⟩ := headerWord_header sha dhtData.length extraDataLen
    (persistenceOf dhtData extraDataLen extraData).dhtSavedata
    (persistenceOf dhtData extraDataLen extraData).dhtSavedata
  change headerWord (persistenceImage sha dhtData extraDataLen extraData) 0 = _ at h0
  change headerWord (persistenceImage sha dhtData extraDataLen extraData) 1 = _ at h1
  change headerWord (persistenceImage sha dhtData extraDataLen extraData) 2 = _ at h2
  rw [Nat.mod_eq_of_lt hword] at h2
  have hlen : ¬ (persistenceImage sha dhtData extraDataLen extraData).length < 256 := by
    rw [persistenceImage, List.length_append, length_persistenceHeader]
    omega
  simp only [loadPersistenceDataI, h0, h1, h2, ne_eq, not_true_eq_false, if_false, if_neg hlen, if_pos hdht]

end Image

/-! The labels come back. -/

/-- The bytes of all friends that have a label. -/
def labelSection (entries : Entries) : List UInt8 :=
  entries.flatMap fun fi => if fi.2.label.text.strlen ≠ 0 then labelEntry fi else []

theorem labelSection_cons (fi : Sigma fun _ : FriendNumber => ElaFriendInfo) (rest : Entries) :
    labelSection (fi :: rest) =
      (if fi.2.label.text.strlen ≠ 0 then labelEntry fi else []) ++ labelSection rest := rfl

theorem length_labelEntry (fi : Sigma fun _ : FriendNumber => ElaFriendInfo) :
    (labelEntry fi).length = 4 + fi.2.label.text.strlen + 1 := by
  rw [labelEntry, List.length_append, length_bigEndian, List.length_append, List.length_singleton]
  rfl

/-- The sizing pass counts what the section needs. -/
theorem getExtraSavedataSize_eq (entries : Entries) :
    getExtraSavedataSize entries = (labelSection entries).length := by
  have hfold : ∀ total, entries.foldl (fun total fi =>
      let labelLen := fi.2.label.text.strlen
      if labelLen ≠ 0 then total + (4 + labelLen + 1) else total) total =
        total + (labelSection entries).length := by
    induction entries with
    | nil => intro total; rfl
    | cons fi rest ih =>
      intro total
      rw [List.foldl_cons, ih, labelSection_cons, List.length_append]
      by_cases hl : fi.2.label.text.strlen ≠ 0
      · simp only [if_pos hl, length_labelEntry]
        omega
      · simp only [if_neg hl, List.length_nil]
        omega
  rw [getExtraSavedataSize, hfold, Nat.zero_add]

/-- The filling pass writes the whole section where there is room for it. -/
theorem getExtraSavedata_eq (entries : Entries) {len : Nat} (h : (labelSection entries).length ≤ len) :
    getExtraSavedata entries len = labelSection entries := by
  induction entries generalizing len with
  | nil => rfl
  | cons fi rest ih =>
    rw [labelSection_cons, List.length_append] at h
    rw [getExtraSavedata, labelSection_cons]
    by_cases hl : fi.2.label.text.strlen ≠ 0
    · rw [if_pos hl, length_labelEntry] at h
      simp only [if_pos hl]
      rw [if_neg (by omega), if_neg (by omega), ih (by omega)]
    · rw [if_neg hl] at h
      simp only [if_neg hl, List.nil_append]
      split
      · next hz =>
        rw [hz] at h
        exact (List.length_eq_zero_iff.mp (by simpa using h)).symm
      · exact ih (by simpa using h)

theorem lookup_setLabel (friends : FriendsTable) (fn n : FriendNumber) (label : Label) :
    (setLabel friends fn label).lookup n =
      if n = fn then (friends.lookup n).map fun info => { info with label } else friends.lookup n := by
  unfold setLabel
  split
  · next h =>
    split
    · next hn => rw [hn, h]; rfl
    · rfl
  · next info h =>
    rw [Table.lookup_insert_eq]
    split
    · next hn => rw [hn, h]; rfl
    · rfl

/-- What applying the section does for one friend. -/
def applyLabel (friends : FriendsTable) (fi : Sigma fun _ : FriendNumber => ElaFriendInfo) : FriendsTable :=
  if fi.2.label.text.strlen ≠ 0 then setLabel friends fi.1 fi.2.label else friends

/-- One round of the loop reads one entry. -/
theorem applyExtraData_entry {fi : Sigma fun _ : FriendNumber => ElaFriendInfo}
    (hl : fi.2.label.text.strlen ≠ 0) (friends : FriendsTable) (behind : List UInt8) {len : Nat}
    (h : len < 2 ^ 64) :
    applyExtraData friends (labelEntry fi ++ behind) (4 + fi.2.label.text.strlen + 1 + len) =
      applyExtraData (setLabel friends fi.1 fi.2.label) behind len := by
  have hmem : labelEntry fi ++ behind =
      bigEndian 4 fi.1.toNat ++ (fi.2.label.text.bytes ++ 0 :: behind) := by simp [labelEntry]
  have hkey : UInt32.ofNat (number ((labelEntry fi ++ behind).take 4)) = fi.1 := by
    have hmod : fi.1.toNat % 256 ^ 4 = fi.1.toNat := Nat.mod_eq_of_lt fi.1.toNat_lt
    rw [hmem, List.take_left' (length_bigEndian 4 _), number_bigEndian, hmod, UInt32.ofNat_toNat]
  have hscan : CString.scan ((labelEntry fi ++ behind).drop 4) = some fi.2.label.text := by
    rw [hmem, List.drop_left' (length_bigEndian 4 _), CString.scan_terminated]
  have hdrop : (labelEntry fi ++ behind).drop (4 + fi.2.label.text.strlen + 1) = behind :=
    List.drop_left' (length_labelEntry fi)
  have hlen : sizeSub (4 + fi.2.label.text.strlen + 1 + len) (4 + fi.2.label.text.strlen + 1) = len := by
    rw [sizeSub]
    omega
  rw [applyExtraData, if_neg (by omega), dif_neg (by simp [labelEntry]), hscan]
  simp only [if_neg hl, hdrop, hlen, CharArray.strcpy_text]
  generalize UInt32.ofNat (number ((labelEntry fi ++ behind).take 4)) = fn at hkey ⊢
  subst hkey
  cases hfi : friends.lookup fi.1 with
  | none =>
    have hset : setLabel friends fi.1 fi.2.label = friends := by rw [setLabel, hfi]
    rw [hset]
  | some info => rfl

/-- The section is applied entry by entry, up to its length. -/
theorem applyExtraData_section (entries : Entries) (friends : FriendsTable) (behind : List UInt8)
    (h : (labelSection entries).length < 2 ^ 64) :
    applyExtraData friends (labelSection entries ++ behind) (labelSection entries).length =
      some (entries.foldl applyLabel friends) := by
  induction entries generalizing friends with
  | nil => rw [applyExtraData]; rfl
  | cons fi rest ih =>
    rw [labelSection_cons, List.length_append] at h
    rw [labelSection_cons, List.foldl_cons]
    by_cases hl : fi.2.label.text.strlen ≠ 0
    · have happly : applyLabel friends fi = setLabel friends fi.1 fi.2.label := if_pos hl
      rw [if_pos hl, length_labelEntry] at h
      rw [if_pos hl, List.length_append, length_labelEntry, List.append_assoc,
        applyExtraData_entry hl friends _ (by omega), ih _ (by omega), happly]
    · have happly : applyLabel friends fi = friends := if_neg hl
      rw [if_neg hl] at h
      rw [if_neg hl, List.nil_append, happly]
      exact ih friends (by simpa using h)

/-- The label a friends table holds for a number, empty where it holds none. -/
def labelOf (friends : FriendsTable) (n : FriendNumber) : Label :=
  ((friends.lookup n).map ElaFriendInfo.label).getD .empty

theorem lookup_applyLabel (friends : FriendsTable) (fi : Sigma fun _ : FriendNumber => ElaFriendInfo)
    (n : FriendNumber) : (applyLabel friends fi).lookup n =
      if n = fi.1 ∧ fi.2.label.text.strlen ≠ 0 then
        (friends.lookup n).map fun info => { info with label := fi.2.label }
      else friends.lookup n := by
  unfold applyLabel
  by_cases hl : fi.2.label.text.strlen ≠ 0
  · rw [if_pos hl, lookup_setLabel]
    simp only [hl, ne_eq, not_false_eq_true, and_true]
  · rw [if_neg hl, if_neg fun h => hl h.2]

/-- Entries of other friends leave a friend alone. -/
theorem lookup_applyLabels_other (entries : Entries) (friends : FriendsTable) {n : FriendNumber}
    (h : n ∉ entries.keys) : (entries.foldl applyLabel friends).lookup n = friends.lookup n := by
  induction entries generalizing friends with
  | nil => rfl
  | cons fi rest ih =>
    rw [List.keys_cons, List.mem_cons, not_or] at h
    rw [List.foldl_cons, ih _ h.2, lookup_applyLabel, if_neg fun hn => h.1 hn.1]

/-- Labels make no friends. -/
theorem lookup_applyLabels_none (entries : Entries) {friends : FriendsTable} {n : FriendNumber}
    (h : friends.lookup n = none) : (entries.foldl applyLabel friends).lookup n = none := by
  induction entries generalizing friends with
  | nil => exact h
  | cons fi rest ih =>
    apply ih
    rw [lookup_applyLabel, h]
    split <;> rfl

/-- Applied to friends that have no labels yet, the entries of a table give every friend
the label the table holds for its number. -/
theorem lookup_applyLabels (friends restarted : FriendsTable)
    (hempty : ∀ n info, restarted.lookup n = some info → info.label = .empty) (n : FriendNumber) :
    (friends.entries.foldl applyLabel restarted).lookup n =
      (restarted.lookup n).map fun info => { info with label := labelOf friends n } := by
  have hsame : ∀ label : Label, label.text.strlen = 0 → restarted.lookup n =
      (restarted.lookup n).map fun info => { info with label } := by
    intro label hl
    have hlabel : label = .empty := CharArray.ext_text (CString.ext_bytes (List.length_eq_zero_iff.mp hl))
    cases hinfo : restarted.lookup n with
    | none => rfl
    | some info =>
      obtain rfl := hlabel.trans (hempty n info hinfo).symm
      rfl
  have hgen : ∀ (entries : Entries) (t : FriendsTable), entries.NodupKeys → t.lookup n = restarted.lookup n →
      (entries.foldl applyLabel t).lookup n = (restarted.lookup n).map fun info =>
        { info with label := ((entries.dlookup n).map ElaFriendInfo.label).getD .empty } := by
    intro entries
    induction entries with
    | nil => exact fun t _ ht => ht.trans (hsame _ rfl)
    | cons fi rest ih =>
      intro t hnodup ht
      obtain ⟨hfresh, hrest⟩ := List.nodupKeys_cons.mp hnodup
      rw [List.foldl_cons]
      by_cases hn : n = fi.1
      · subst hn
        rw [lookup_applyLabels_other rest _ hfresh, lookup_applyLabel, List.dlookup_cons_eq]
        by_cases hl : fi.2.label.text.strlen = 0
        · rw [if_neg (fun h => h.2 hl), ht]
          exact hsame _ hl
        · rw [if_pos ⟨rfl, hl⟩, ht]
          rfl
      · have hstep : (applyLabel t fi).lookup n = restarted.lookup n := by
          rw [lookup_applyLabel, if_neg fun h => hn h.1, ht]
        rw [ih _ hrest hstep, List.dlookup_cons_ne _ _ hn]
  exact hgen friends.entries restarted friends.nodupKeys rfl

/-- The image of a store is read back, labels included. -/
theorem load_storeImage (sha : Sha256) {dhtData : List UInt8} {friends : FriendsTable}
    (hdht : dhtData.length ≤ maxPersistenceSectionSize)
    (hlabels : getExtraSavedataSize friends.entries ≤ maxPersistenceSectionSize) :
    loadPersistenceDataI sha (storeImage sha dhtData friends) =
      some (persistenceOf dhtData (labelSection friends.entries).length (labelSection friends.entries)) := by
  rw [getExtraSavedataSize_eq] at hlabels
  have hfill := getExtraSavedata_eq friends.entries (lt_round256 (labelSection friends.entries).length).le
  rw [storeImage, getExtraSavedataSize_eq, hfill]
  exact load_persistenceImage sha dhtData (lt_round256 _).le hdht hlabels

/-- A part of the image of a store is not accepted in its place. -/
theorem load_take_storeImage (sha : Sha256) {dhtData : List UInt8} {friends : FriendsTable}
    (hdht : dhtData.length ≤ maxPersistenceSectionSize)
    (hlabels : getExtraSavedataSize friends.entries ≤ maxPersistenceSectionSize) {m : Nat}
    (hm : m < (storeImage sha dhtData friends).length) :
    loadPersistenceDataI sha ((storeImage sha dhtData friends).take m) = none := by
  have hfill : (getExtraSavedata friends.entries (round256 (getExtraSavedataSize friends.entries))).length ≤
      round256 (getExtraSavedataSize friends.entries) := by
    rw [getExtraSavedataSize_eq, getExtraSavedata_eq _ (lt_round256 _).le]
    exact (lt_round256 _).le
  exact load_take_persistenceImage sha dhtData hfill hdht hlabels hm

theorem length_labelSection_le (entries : Entries) :
    (labelSection entries).length ≤ 68 * entries.length := by
  induction entries with
  | nil => exact Nat.le_refl _
  | cons fi rest ih =>
    have hfits : fi.2.label.text.strlen ≤ 63 := fi.2.label.fits
    have hentry : (if fi.2.label.text.strlen ≠ 0 then labelEntry fi else []).length ≤ 68 := by
      split
      · rw [length_labelEntry]
        omega
      · exact Nat.zero_le _
    rw [labelSection_cons, List.length_append, List.length_cons]
    omega

/-- There are not enough friend numbers for a label section that a size_t could not count. -/
theorem length_labelSection_lt (friends : FriendsTable) : (labelSection friends.entries).length < 2 ^ 64 := by
  have hcount := length_entries_le friends
  have hsize := length_labelSection_le friends.entries
  omega

theorem apply_storedLabels (friends restarted : FriendsTable) (behind : List UInt8)
    (hempty : ∀ n info, restarted.lookup n = some info → info.label = .empty) :
    ∃ after, applyExtraData restarted (labelSection friends.entries ++ behind)
        (labelSection friends.entries).length = some after ∧
      ∀ n, after.lookup n =
        (restarted.lookup n).map fun info => { info with label := labelOf friends n } :=
  ⟨_, applyExtraData_section _ _ _ (length_labelSection_lt friends), lookup_applyLabels friends restarted hempty⟩

/-- What store_persistence_data writes is accepted by the loader, which returns the savedata
of the DHT and the labels of all friends. -/
theorem store_load_identity (sha : Sha256) (dhtData : List UInt8) (friends restarted : FriendsTable)
    (hdht : dhtData.length ≤ maxPersistenceSectionSize)
    (hlabels : getExtraSavedataSize friends.entries ≤ maxPersistenceSectionSize)
    (hempty : ∀ n info, restarted.lookup n = some info → info.label = .empty)
    (hsame : ∀ n, n ∈ restarted ↔ n ∈ friends) :
    ∃ data after, loadPersistenceDataI sha (storeImage sha dhtData friends) = some data ∧
      data.dhtSavedataLen = dhtData.length ∧ data.dhtSavedata.take data.dhtSavedataLen = dhtData ∧
      applyExtraData restarted data.extraSavedata data.extraSavedataLen = some after ∧
      ∀ n, (after.lookup n).map ElaFriendInfo.label = (friends.lookup n).map ElaFriendInfo.label := by
  obtain ⟨after, happly, hafter⟩ := apply_storedLabels friends restarted
    (List.replicate (round256 (labelSection friends.entries).length - (labelSection friends.entries).length) 0)
    hempty
  have hdata : (zeroPadded (round256 dhtData.length) dhtData ++ zeroPadded
      (round256 (labelSection friends.entries).length) (labelSection friends.entries)).take dhtData.length =
        dhtData := by
    rw [zeroPadded, List.append_assoc, List.take_left]
  refine ⟨_, after, load_storeImage sha hdht hlabels, rfl, hdata, happly, fun n => ?_⟩
  rw [hafter, Option.map_map]
  cases hf : friends.lookup n with
  | none =>
    have hnone : restarted.lookup n = none :=
      AList.lookup_eq_none.mpr (fun h => AList.lookup_eq_none.mp hf ((hsame n).mp h))
    rw [hnone]
    rfl
  | some info =>
    have hmem : n ∈ friends := AList.lookup_isSome.mp (by rw [hf]; rfl)
    obtain ⟨info', hinfo'⟩ := Option.isSome_iff_exists.mp (AList.lookup_isSome.mpr ((hsame n).mpr hmem))
    rw [hinfo']
    simp [labelOf, hf]

/-- A digest of the right size, for examples. -/
def Sha256.zero : Sha256 := ⟨fun _ => List.replicate 32 0, fun _ => List.length_replicate⟩

/-- The friends of a node with one friend, who is called "b". -/
def oneFriend (fn : FriendNumber) (label : Label) : FriendsTable :=
  (∅ : FriendsTable).insert fn
    { ElaFriendInfo.ofUserid ⟨⟨[98], by decide⟩, by decide, by decide⟩ with label }

theorem store_load_identity_small :
    ∃ data after, loadPersistenceDataI .zero (storeImage .zero [1, 2, 3]
        (oneFriend 7 ⟨⟨[72, 105], by decide⟩, by decide⟩)) = some data ∧
      data.dhtSavedataLen = 3 ∧ data.dhtSavedata.take data.dhtSavedataLen = [1, 2, 3] ∧
      applyExtraData (oneFriend 7 .empty) data.extraSavedata data.extraSavedataLen = some after ∧
      ∀ n, (after.lookup n).map ElaFriendInfo.label = ((oneFriend 7 ⟨⟨[72, 105], by decide⟩,
        by decide⟩).lookup n).map ElaFriendInfo.label := by
  refine store_load_identity .zero [1, 2, 3] _ (oneFriend 7 .empty) (by decide) (by decide) ?_ ?_
  · intro n info h
    rw [oneFriend, Table.lookup_insert_eq] at h
    split at h
    · cases h
      rfl
    · cases h
  · intro n
    rw [oneFriend, oneFriend, AList.mem_insert, AList.mem_insert]

end CarrierSdk.Storage
