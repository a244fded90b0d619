import CarrierSdk.Library.Overwrite
import CarrierSdk.Storage.CrashSafety

/-! The conversion of the old data files. The labels are rewritten in place, by a pointer that
reads and one that writes behind it. -/
namespace CarrierSdk.Storage
open Bytes Friends

/-- The loop of convert_old_dhtdata on the label area, with both pointers as offsets. -/
def convertInPlace : Nat → List UInt8 → Nat → Nat → Option (List UInt8 × Nat × Nat)
  | 0, area, rptr, wptr => some (area, rptr, wptr)
  | count + 1, area, rptr, wptr =>
    if area.length < rptr + 4 then none
    else
      let id := (area.drop rptr).take 4
      match CString.scan (area.drop (rptr + 4)) with
      | none => none
      | some label =>
        let labelLen := label.strlen
        if labelLen = 0 then convertInPlace count area (rptr + 5) wptr
        else
          let area := area.overwrite wptr id.reverse
          -- memmove reads the label after the number has been written.
          let area := area.overwrite (wptr + 4) ((area.drop (rptr + 4)).take (labelLen + 1))
          convertInPlace count area (rptr + (4 + labelLen + 1)) (wptr + (4 + labelLen + 1))

/-- What comes of the loop: the length of the section, and the area, which is cleared between
the pointers. -/
def clearBetween (r : List UInt8 × Nat × Nat) : Nat × List UInt8 :=
  (r.2.2, r.1.overwrite r.2.2 (List.replicate (r.2.1 - r.2.2) 0))

/-- The label section that convert_old_dhtdata makes of eladata, with its area. -/
def convertEladataInPlace (eladata : Option (List UInt8)) : Option (Nat × List UInt8) :=
  match eladata with
  | none => some (0, [])
  | some file =>
    let extraDataLen := file.length - 36
    if extraDataLen = 0 then some (0, [])
    else
      let val := number ((file.drop 32).take 4).reverse
      if val = 0 then some (extraDataLen, [])
      else
        let area := zeroPadded (round256 extraDataLen) (file.drop 36)
        match (convertInPlace val area 0 0).map clearBetween with
        | none => none
        | some (extraDataLen, rewritten) =>
          if area.length < round256 extraDataLen then none
          else some (extraDataLen, rewritten.take (round256 extraDataLen))

/-- convert_old_dhtdata. -/
def convertOldDhtdataInPlace (sha : Sha256) (fault : Option Fault) (d : Directory File) :
    Option (List (FileCall File) × Bool) :=
  match d .dhtdata with
  | none => some ([], false)
  | some dhtData => (convertEladataInPlace (d .eladata)).map fun extra =>
      replaceData fault (persistenceImage sha dhtData extra.1 extra.2) [.dhtdata, .eladata]

/-! The pointer that writes never gets ahead of the one that reads. -/

theorem convertInPlace_eq (count : Nat) {area : List UInt8} {rptr wptr : Nat} (hw : wptr ≤ rptr)
    (hr : rptr ≤ area.length) : (convertInPlace count area rptr wptr).map clearBetween =
      (convertLabels count (area.drop rptr)).map fun r =>
        (wptr + r.1.length, area.take wptr ++ r.1 ++
          List.replicate (rptr + r.2 - (wptr + r.1.length)) 0 ++ area.drop (rptr + r.2)) := by
  induction count generalizing area rptr wptr with
  | zero =>
    have hbetween : wptr + (rptr - wptr) = rptr := Nat.add_sub_cancel' hw
    simp [convertInPlace, convertLabels, clearBetween, List.overwrite, hbetween]
  | succ count ih =>
    have hshort : (area.drop rptr).length < 4 ↔ area.length < rptr + 4 := by
      rw [List.length_drop]
      omega
    rw [convertInPlace, convertLabels, List.drop_drop]
    by_cases hlen : area.length < rptr + 4
    · rw [if_pos hlen, if_pos (hshort.mpr hlen)]
      rfl
    · rw [if_neg hlen, if_neg (fun h => hlen (hshort.mp h))]
      cases hscan : CString.scan (area.drop (rptr + 4)) with
      | none => rfl
      | some label =>
        have hlabel := CString.scan_begins hscan
        have hroom : rptr + 4 + (label.strlen + 1) ≤ area.length := by
          have := congrArg List.length hlabel
          simp only [List.length_take, List.length_drop, List.length_append, List.length_singleton] at this
          rw [← CString.strlen] at this
          omega
        by_cases hempty : label.strlen = 0
        · simp only [if_pos hempty, List.drop_drop]
          rw [ih (by omega) (by omega), Option.map_map]
          refine congrArg (fun f => Option.map f _) (funext fun r => ?_)
          simp only [Function.comp_apply, Nat.add_assoc]
        · simp only [if_neg hempty, List.drop_drop]
          set id := (area.drop rptr).take 4
          have hid : id.reverse.length = 4 := by
            simp only [id, List.length_reverse, List.length_take, List.length_drop]
            omega
          have hlabelLen : (label.bytes ++ [0]).length = label.strlen + 1 := by
            rw [List.length_append, List.length_singleton, CString.strlen]
          -- The number goes in front of the label that is still to be read.
          have hread : ((area.overwrite wptr id.reverse).drop (rptr + 4)).take (label.strlen + 1) =
              label.bytes ++ [0] := by
            rw [List.drop_overwrite (by omega) (by omega), hlabel]
          rw [hread]
          set after := (area.overwrite wptr id.reverse).overwrite (wptr + 4) (label.bytes ++ [0])
          have hnumber : (area.overwrite wptr id.reverse).length = area.length :=
            List.length_overwrite (by omega)
          have hafter : after.length = area.length := by
            rw [List.length_overwrite (by omega), hnumber]
          have htake : after.take (wptr + (4 + label.strlen + 1)) =
              area.take wptr ++ id.reverse ++ (label.bytes ++ [0]) := by
            have hend : wptr + (4 + label.strlen + 1) = wptr + 4 + (label.bytes ++ [0]).length := by omega
            rw [hend, List.take_overwrite (by omega), ← hid, List.take_overwrite (by omega)]
          have hdrop : ∀ k, rptr + (4 + label.strlen + 1) ≤ k → after.drop k = area.drop k := by
            intro k hk
            rw [List.drop_overwrite (by omega) (by omega), List.drop_overwrite (by omega) (by omega)]
          rw [ih (by omega) (by omega), hdrop _ (Nat.le_refl _), Option.map_map]
          refine congrArg (fun f => Option.map f _) (funext fun r => ?_)
          have hlen : (id.reverse ++ label.bytes ++ [0] ++ r.1).length = 4 + label.strlen + 1 + r.1.length := by
            simp only [List.length_append, List.length_singleton, hid, CString.strlen]
          rw [Function.comp_apply, hlen, htake, hdrop _ (by omega)]
          simp only [List.append_assoc, Nat.add_assoc]

/-- The rewriting does what a copy into fresh memory would do. -/
theorem convertEladataInPlace_eq (eladata : Option (List UInt8)) :
    convertEladataInPlace eladata = convertEladata eladata := by
  cases eladata with
  | none => rfl
  | some file =>
    simp only [convertEladataInPlace, convertEladata]
    rw [convertInPlace_eq _ (Nat.le_refl 0) (Nat.zero_le _), List.drop_zero]
    split
    · rfl
    · split
      · rfl
      · cases convertLabels (number ((file.drop 32).take 4).reverse)
          (zeroPadded (round256 (file.length - 36)) (file.drop 36)) <;> simp

theorem convertOldDhtdataInPlace_eq (sha : Sha256) (fault : Option Fault) (d : Directory File) :
    convertOldDhtdataInPlace sha fault d = convertOldDhtdata sha fault d := by
  unfold convertOldDhtdataInPlace convertOldDhtdata
  cases d .dhtdata with
  | none => rfl
  | some dhtData => simp only [convertEladataInPlace_eq]

/-! Well-formed old label files. -/

/-- The old label file: no number occurs twice. -/
structure OldEladata where
  publicKey : List UInt8
  keySize : publicKey.length = 32
  labels : Table FriendNumber Label

/-- Numbers come in host order. -/
def oldEntry (e : Sigma fun _ : FriendNumber => Label) : List UInt8 :=
  (bigEndian 4 e.1.toNat).reverse ++ (e.2.text.bytes ++ [0])

namespace OldEladata

def entriesBytes (old : OldEladata) : List UInt8 := old.labels.entries.flatMap oldEntry

def bytes (old : OldEladata) : List UInt8 :=
  old.publicKey ++ (bigEndian 4 old.labels.entries.length).reverse ++ old.entriesBytes

/-- A friend of an old label file, of whom nothing but the label is known. -/
def labelled (e : Sigma fun _ : FriendNumber => Label) : Sigma fun _ : FriendNumber => ElaFriendInfo :=
  ⟨e.1, { ElaFriendInfo.ofUserid ⟨.empty, by decide, by decide⟩ with label := e.2 }⟩

theorem keys_labelled (entries : List (Sigma fun _ : FriendNumber => Label)) :
    (entries.map labelled).keys = entries.keys := by
  simp [List.keys, labelled, Function.comp_def]

/-- The friends table that has the old labels. -/
def friends (old : OldEladata) : FriendsTable :=
  ⟨old.labels.entries.map labelled, by
    rw [List.NodupKeys, keys_labelled]
    exact old.labels.nodupKeys⟩

theorem dlookup_labelled (entries : List (Sigma fun _ : FriendNumber => Label)) (n : FriendNumber) :
    ((entries.map labelled).dlookup n).map ElaFriendInfo.label = entries.dlookup n := by
  induction entries with
  | nil => rfl
  | cons e rest ih =>
    obtain ⟨m, label⟩ := e
    rw [List.map_cons, labelled]
    by_cases hn : n = m
    · subst hn
      rw [List.dlookup_cons_eq, List.dlookup_cons_eq]
      rfl
    · rw [List.dlookup_cons_ne _ _ hn, List.dlookup_cons_ne _ _ hn]
      exact ih

theorem labelOf_friends (old : OldEladata) (n : FriendNumber) :
    labelOf old.friends n = (old.labels.lookup n).getD .empty := by
  have hlookup := dlookup_labelled old.labels.entries n
  exact congrArg (fun label => label.getD .empty) hlookup

end OldEladata

theorem length_oldEntry (e : Sigma fun _ : FriendNumber => Label) :
    (oldEntry e).length = 4 + e.2.text.strlen + 1 := by
  rw [oldEntry, List.length_append, List.length_reverse, length_bigEndian, List.length_append,
    List.length_singleton]
  rfl

/-- The loop makes of the old entries the section that a store would write. -/
theorem convertLabels_old (entries : List (Sigma fun _ : FriendNumber => Label)) (behind : List UInt8) :
    convertLabels entries.length (entries.flatMap oldEntry ++ behind) =
      some (labelSection (entries.map OldEladata.labelled), (entries.flatMap oldEntry).length) := by
  induction entries with
  | nil => rfl
  | cons e rest ih =>
    set after := rest.flatMap oldEntry ++ behind with hafter
    have hmem : (e :: rest).flatMap oldEntry ++ behind = oldEntry e ++ after := by
      rw [List.flatMap_cons, List.append_assoc]
    have hsplit : oldEntry e ++ after =
        (bigEndian 4 e.1.toNat).reverse ++ (e.2.text.bytes ++ 0 :: after) := by simp [oldEntry]
    have hnumber : (bigEndian 4 e.1.toNat).reverse.length = 4 := by
      rw [List.length_reverse, length_bigEndian]
    have hshort : ¬ (oldEntry e ++ after).length < 4 := by
      rw [List.length_append, length_oldEntry]
      omega
    have hscan : CString.scan ((oldEntry e ++ after).drop 4) = some e.2.text := by
      rw [hsplit, List.drop_left' hnumber, CString.scan_terminated]
    have hdrop : (oldEntry e ++ after).drop (4 + e.2.text.strlen + 1) = after :=
      List.drop_left' (length_oldEntry e)
    have htake : ((oldEntry e ++ after).take 4).reverse = bigEndian 4 e.1.toNat := by
      rw [hsplit, List.take_left' hnumber, List.reverse_reverse]
    rw [hmem, List.length_cons, convertLabels, if_neg hshort, hscan, List.map_cons, labelSection_cons,
      List.flatMap_cons, List.length_append, length_oldEntry]
    by_cases hl : e.2.text.strlen = 0
    · have hlabel : ¬ (OldEladata.labelled e).2.label.text.strlen ≠ 0 := fun h => h hl
      rw [hl] at hdrop
      simp only [hl, if_true, hdrop, ih, Option.map_some]
      rw [if_neg hlabel, List.nil_append]
    · have hlabel : (OldEladata.labelled e).2.label.text.strlen ≠ 0 := hl
      simp only [hl, if_false, hdrop, ih, Option.map_some, htake]
      rw [if_pos hlabel, labelEntry]
      simp [OldEladata.labelled]

/-- Dropping friends without labels makes no entry longer. -/
theorem length_labelSection_old (entries : List (Sigma fun _ : FriendNumber => Label)) :
    (labelSection (entries.map OldEladata.labelled)).length ≤ (entries.flatMap oldEntry).length := by
  induction entries with
  | nil => exact Nat.le_refl _
  | cons e rest ih =>
    have hentry : (if (OldEladata.labelled e).2.label.text.strlen ≠ 0 then labelEntry (OldEladata.labelled e)
        else []).length ≤ (oldEntry e).length := by
      split
      · rw [length_labelEntry, length_oldEntry]
        exact Nat.le_refl _
      · exact Nat.zero_le _
    rw [List.map_cons, labelSection_cons, List.flatMap_cons, List.length_append, List.length_append]
    exact Nat.add_le_add hentry ih

theorem length_entries_le_old (entries : List (Sigma fun _ : FriendNumber => Label)) :
    entries.length ≤ (entries.flatMap oldEntry).length := by
  induction entries with
  | nil => exact Nat.le_refl _
  | cons e rest ih =>
    rw [List.flatMap_cons, List.length_append, length_oldEntry, List.length_cons]
    omega

theorem round256_mono {n m : Nat} (h : n ≤ m) : round256 n ≤ round256 m := by
  unfold round256
  rw [Nat.shiftLeft_eq, Nat.shiftLeft_eq, Nat.shiftRight_eq_div_pow, Nat.shiftRight_eq_div_pow]
  omega

/-- The parts of the old label file that convert_old_dhtdata looks at. -/
theorem OldEladata.bytes_parts (old : OldEladata) (hsize : old.entriesBytes.length ≤ maxPersistenceSectionSize) :
    old.bytes.length - 36 = old.entriesBytes.length ∧ old.bytes.drop 36 = old.entriesBytes ∧
      number ((old.bytes.drop 32).take 4).reverse = old.labels.entries.length := by
  have hcount : (bigEndian 4 old.labels.entries.length).reverse.length = 4 := by
    rw [List.length_reverse, length_bigEndian]
  have hhead : (old.publicKey ++ (bigEndian 4 old.labels.entries.length).reverse).length = 36 := by
    rw [List.length_append, old.keySize, hcount]
  have hmax : maxPersistenceSectionSize < 256 ^ 4 := by decide
  have hle : old.labels.entries.length ≤ old.entriesBytes.length := length_entries_le_old _
  refine ⟨?_, List.drop_left' hhead, ?_⟩
  · rw [OldEladata.bytes, List.length_append, hhead, Nat.add_sub_cancel_left]
  · rw [OldEladata.bytes, List.append_assoc, List.drop_left' old.keySize, List.take_left' hcount,
      List.reverse_reverse, number_bigEndian, Nat.mod_eq_of_lt (by omega)]

/-- What is left of the area once the loop has cleared behind the section. -/
theorem take_cleared {written read : List UInt8} (h : written.length ≤ read.length) :
    (written ++ List.replicate (read.length - written.length) 0 ++
      (zeroPadded (round256 read.length) read).drop read.length).take (round256 written.length) =
        zeroPadded (round256 written.length) written := by
  have hround := round256_mono h
  have hread := lt_round256 read.length
  have hwritten := lt_round256 written.length
  rw [zeroPadded, List.drop_left, List.append_assoc, List.replicate_append_replicate, List.take_append,
    List.take_of_length_le (Nat.le_of_lt hwritten), List.take_replicate, Nat.min_eq_left (by omega), zeroPadded]

/-- The section of a well-formed old label file is the one that a store would write. -/
theorem convertEladata_old (old : OldEladata) (hsize : old.entriesBytes.length ≤ maxPersistenceSectionSize) :
    ∃ area, convertEladata (some old.bytes) = some ((labelSection old.friends.entries).length, area) ∧
      zeroPadded (round256 (labelSection old.friends.entries).length) area =
        zeroPadded (round256 (labelSection old.friends.entries).length) (labelSection old.friends.entries) := by
  obtain ⟨hextra, hdrop, hval⟩ := old.bytes_parts hsize
  have hloop : convertLabels old.labels.entries.length
      (zeroPadded (round256 old.entriesBytes.length) old.entriesBytes) =
        some (labelSection old.friends.entries, old.entriesBytes.length) := convertLabels_old _ _
  have hlen : (labelSection old.friends.entries).length ≤ old.entriesBytes.length := length_labelSection_old _
  have hcount : old.labels.entries.length ≤ old.entriesBytes.length := length_entries_le_old _
  simp only [convertEladata, hextra, hdrop, hval, hloop]
  generalize labelSection old.friends.entries = written at *
  by_cases hnone : old.entriesBytes.length = 0
  · obtain rfl : written = [] := List.length_eq_zero_iff.mp (by omega)
    rw [if_pos hnone]
    exact ⟨[], rfl, rfl⟩
  · have hsome : old.labels.entries.length ≠ 0 := by
      intro h
      rw [OldEladata.entriesBytes, List.length_eq_zero_iff.mp h] at hnone
      exact hnone rfl
    have hround := round256_mono hlen
    have hroom : ¬ (zeroPadded (round256 old.entriesBytes.length) old.entriesBytes).length <
        round256 written.length := by
      rw [length_zeroPadded (Nat.le_of_lt (lt_round256 _))]
      omega
    rw [if_neg hnone, if_neg hsome, if_neg hroom, take_cleared hlen]
    refine ⟨_, rfl, ?_⟩
    rw [zeroPadded, length_zeroPadded (Nat.le_of_lt (lt_round256 _)), Nat.sub_self, List.replicate_zero,
      List.append_nil]

/-- convert_old_dhtdata and then load_persistence_data give back the old DHT data, and apply_extra_data
gives every friend the label of the old file, whatever else is in the directory. -/
theorem migration_preserves (sha : Sha256) (dhtData : List UInt8) (old : OldEladata) {d : Directory File}
    (hdht : d .dhtdata = some dhtData) (hela : d .eladata = some old.bytes)
    (hdhtSize : dhtData.length ≤ maxPersistenceSectionSize)
    (hsize : old.entriesBytes.length ≤ maxPersistenceSectionSize)
    {friends : FriendsTable} (hempty : ∀ n info, friends.lookup n = some info → info.label = .empty) :
    ∃ calls data after, convertOldDhtdataInPlace sha none d = some (calls, true) ∧
      loadPersistenceData sha none (d.calls calls) = some ([], some data) ∧
      data.dhtSavedataLen = dhtData.length ∧ data.dhtSavedata.take data.dhtSavedataLen = dhtData ∧
      applyExtraData friends data.extraSavedata data.extraSavedataLen = some after ∧
      ∀ n, after.lookup n =
        (friends.lookup n).map fun info => { info with label := (old.labels.lookup n).getD .empty } := by
  obtain ⟨area, hconvert, harea⟩ := convertEladata_old old hsize
  obtain ⟨after, happly, hafter⟩ := apply_storedLabels old.friends friends
    (List.replicate (round256 (labelSection old.friends.entries).length -
      (labelSection old.friends.entries).length) 0) hempty
  have hlen : (labelSection old.friends.entries).length ≤ maxPersistenceSectionSize :=
    (length_labelSection_old _).trans hsize
  generalize labelSection old.friends.entries = written at *
  have hload := load_persistenceImage sha dhtData (Nat.le_of_lt (lt_round256 written.length)) hdhtSize hlen
  have himage : persistenceImage sha dhtData written.length area =
      persistenceImage sha dhtData written.length written := by
    rw [persistenceImage, persistenceImage, harea]
  refine ⟨(replaceData none (persistenceImage sha dhtData written.length written) [.dhtdata, .eladata]).1,
    persistenceOf dhtData written.length written, after, ?_, ?_, rfl, ?_, happly, fun n => ?_⟩
  · rw [convertOldDhtdataInPlace_eq, convertOldDhtdata, hdht, hela]
    simp only [hconvert, Option.map_some, himage]
    rfl
  · simp [loadPersistenceData, replaceData, Directory.call, hload]
  · simp [persistenceOf, zeroPadded]
  · rw [hafter, OldEladata.labelOf_friends]

/-- Three friends, one of them without a label. -/
def threeLabels : Table FriendNumber Label :=
  ((∅ : Table FriendNumber Label).insert 0 ⟨⟨[65, 66], by decide⟩, by decide⟩).insert 1 .empty |>.insert 5
    ⟨⟨[67], by decide⟩, by decide⟩

def threeFriends : OldEladata := ⟨List.replicate 32 7, List.length_replicate, threeLabels⟩

/-- A node that was never started with the new format. -/
def oldDirectory : Directory File
  | .dhtdata => some [1, 2, 3]
  | .eladata => some threeFriends.bytes
  | .data | .journal => none

theorem migration_preserves_three : ∃ calls data after,
    convertOldDhtdataInPlace .zero none oldDirectory = some (calls, true) ∧
      loadPersistenceData .zero none (oldDirectory.calls calls) = some ([], some data) ∧
      data.dhtSavedataLen = 3 ∧ data.dhtSavedata.take data.dhtSavedataLen = [1, 2, 3] ∧
      applyExtraData (oneFriend 5 .empty) data.extraSavedata data.extraSavedataLen = some after ∧
      ∀ n, after.lookup n = ((oneFriend 5 .empty).lookup n).map fun info =>
        { info with label := (threeLabels.lookup n).getD .empty } := by
  refine migration_preserves .zero [1, 2, 3] threeFriends rfl rfl (by decide) (by decide) ?_
  intro n info h
  rw [oneFriend, Table.lookup_insert_eq] at h
  split at h <;> cases h
  rfl

end CarrierSdk.Storage
