import CarrierSdk.Storage.PersistenceFile

/-! What the loop that applies the labels reads of a loaded file. The digest covers the sections
but not the header that says how long they are. -/
namespace CarrierSdk.Storage
open Bytes Friends

/-- One turn of the loop: where it begins to read, how many bytes it reads, and the remaining
length before it. -/
structure LabelTurn where
  start : Nat
  read : Nat
  remaining : Nat

/-- The friend that an entry names gets the label, where there is such a friend. -/
def labelFriend (friends : FriendsTable) (fn : FriendNumber) (label : CString) : Option FriendsTable :=
  match friends.lookup fn with
  | none => some friends
  | some _ => (CharArray.strcpy label).map (setLabel friends fn)

/-- apply_extra_data with a record of its turns. -/
def applyExtraDataTurns (friends : FriendsTable) (start : Nat) (pos : List UInt8) (extraSavedataLen : Nat) :
    Option (FriendsTable × List LabelTurn) :=
  if extraSavedataLen = 0 then some (friends, [])
  else if _ : pos.length < 4 then none
  else
    match CString.scan (pos.drop 4) with
    | none => none
    | some label =>
      let size := 4 + label.strlen + 1
      let turn : LabelTurn := ⟨start, size, extraSavedataLen⟩
      if label.strlen = 0 then some (friends, [turn])
      else
        let fn := UInt32.ofNat (number (pos.take 4))
        let rest := pos.drop (4 + label.strlen + 1)
        let len := sizeSub extraSavedataLen size
        (labelFriend friends fn label).bind fun friends =>
          (applyExtraDataTurns friends (start + size) rest len).map fun r => (r.1, turn :: r.2)
termination_by pos.length
decreasing_by
  rw [List.length_drop]
  omega

/-- Leaving the record out gives apply_extra_data. -/
theorem applyExtraDataTurns_fst (friends : FriendsTable) (start : Nat) (pos : List UInt8) (len : Nat) :
    (applyExtraDataTurns friends start pos len).map Prod.fst = applyExtraData friends pos len := by
  fun_induction applyExtraDataTurns friends start pos len with
  | case1 friends start pos => rw [applyExtraData, if_pos rfl]; rfl
  | case2 friends start pos len hlen hpos => rw [applyExtraData, if_neg hlen, dif_pos hpos]; rfl
  | case3 friends start pos len hlen hpos hscan =>
    rw [applyExtraData, if_neg hlen, dif_neg hpos, hscan]
    rfl
  | case4 friends start pos len hlen hpos label hscan size turn hempty =>
    rw [applyExtraData, if_neg hlen, dif_neg hpos, hscan]
    simp only [if_pos hempty]
    rfl
  | case5 friends start pos len hlen hpos label hscan size turn hlabel fn rest len' ih =>
    have hrest : Option.map Prod.fst ∘ (fun f => (applyExtraDataTurns f (start + size) rest len').map
        fun r => (r.1, turn :: r.2)) = fun f => applyExtraData f rest len' := by
      funext f
      rw [← ih f, Function.comp_apply, Option.map_map]
      rfl
    rw [applyExtraData, if_neg hlen, dif_neg hpos, hscan]
    simp only [if_neg hlabel]
    rw [Option.map_bind, hrest, labelFriend]
    cases friends.lookup fn with
    | none => rfl
    | some info =>
      cases hfits : (CharArray.strcpy label : Option Label) with
      | none => rfl
      | some label => rfl

/-- The loop stays inside the section that the header declares, and its remaining length never
passes below zero. A label that does not fit leaves it undefined. -/
def LabelsBounded (friends : FriendsTable) (data : PersistenceData) : Prop :=
  ∃ r, applyExtraDataTurns friends 0 data.extraSavedata data.extraSavedataLen = some r ∧
    ∀ turn ∈ r.2, turn.start + turn.read ≤ data.extraSavedataLen ∧ turn.read ≤ turn.remaining

/-- The bytes are entries of a number and a terminated label, up to the end or to an empty label,
and the labels of the friends that are known fit. -/
def sectionFits (known : FriendNumber → Bool) (bytes : List UInt8) : Bool :=
  if bytes = [] then true
  else if _ : bytes.length < 4 then false
  else
    match CString.scan (bytes.drop 4) with
    | none => false
    | some label =>
      decide (label.strlen = 0) ||
        (!known (UInt32.ofNat (number (bytes.take 4))) || decide (label.strlen ≤ elaMaxUserNameLen)) &&
          sectionFits known (bytes.drop (4 + label.strlen + 1))
termination_by bytes.length
decreasing_by
  rw [List.length_drop]
  omega

/-- Whether a friend is in the table. -/
def known (friends : FriendsTable) (n : FriendNumber) : Bool := (friends.lookup n).isSome

theorem labelFriend_isSome {friends : FriendsTable} {fn : FriendNumber} {label : CString} :
    (labelFriend friends fn label).isSome = (!known friends fn || decide (label.strlen ≤ elaMaxUserNameLen)) := by
  unfold labelFriend known
  cases friends.lookup fn with
  | none => rfl
  | some info =>
    rw [Bool.eq_iff_iff, Option.isSome_map, CharArray.strcpy_isSome]
    simp

theorem known_labelFriend {friends labelled : FriendsTable} {fn : FriendNumber} {label : CString}
    (h : labelFriend friends fn label = some labelled) : known labelled = known friends := by
  unfold labelFriend at h
  split at h
  · cases h
    rfl
  · obtain ⟨label, -, rfl⟩ := Option.map_eq_some_iff.mp h
    funext n
    rw [known, known, lookup_setLabel]
    split
    · exact Option.isSome_map
    · rfl

theorem take_ne_nil {pos : List UInt8} {len : Nat} (hne : len ≠ 0) (hlen : len ≤ pos.length) : pos.take len ≠ [] := by
  rw [← List.length_pos_iff, List.length_take]
  omega

/-- A section that no terminator follows does not fit. -/
theorem sectionFits_unterminated {friends : FriendNumber → Bool} {pos : List UInt8} {len : Nat} (hne : len ≠ 0)
    (hlen : len ≤ pos.length) (hscan : CString.scan (pos.drop 4) = none) :
    sectionFits friends (pos.take len) = false := by
  have hnone : CString.scan ((pos.take len).drop 4) = none := by
    rw [List.drop_take, CString.scan_eq_none]
    exact fun hz => CString.scan_eq_none.mp hscan (List.mem_of_mem_take hz)
  rw [sectionFits, if_neg (take_ne_nil hne hlen), hnone]
  split <;> rfl

/-- The first entry of a section, told by the buffer that it lies in. -/
theorem sectionFits_entry {friends : FriendNumber → Bool} {pos : List UInt8} {len : Nat} {label : CString}
    (hne : len ≠ 0) (hlen : len ≤ pos.length) (hscan : CString.scan (pos.drop 4) = some label) :
    sectionFits friends (pos.take len) = (decide (4 + label.strlen + 1 ≤ len) && (decide (label.strlen = 0) ||
      (!friends (UInt32.ofNat (number (pos.take 4))) || decide (label.strlen ≤ elaMaxUserNameLen)) &&
        sectionFits friends ((pos.drop (4 + label.strlen + 1)).take (len - (4 + label.strlen + 1))))) := by
  rw [sectionFits, if_neg (take_ne_nil hne hlen), List.length_take, Nat.min_eq_left hlen]
  split
  · next hshort => rw [decide_eq_false (by omega), Bool.false_and]
  · next hlong =>
    rw [List.drop_take, CString.scan_take hscan]
    by_cases hfits : label.strlen < len - 4
    · rw [if_pos hfits, decide_eq_true (by omega), Bool.true_and]
      simp only [List.take_take, List.drop_take, Nat.min_eq_left (Nat.le_of_not_lt hlong)]
    · rw [if_neg hfits, decide_eq_false (by omega), Bool.false_and]

/-- The turns stay inside what is left of the section exactly where it fits. -/
theorem turns_bounded_iff (friends : FriendsTable) (start : Nat) (pos : List UInt8) (len : Nat)
    (hlen : len ≤ pos.length) (hsize : len < 2 ^ 64) :
    (∃ r, applyExtraDataTurns friends start pos len = some r ∧
      ∀ turn ∈ r.2, turn.start + turn.read ≤ start + len ∧ turn.read ≤ turn.remaining) ↔
    sectionFits (known friends) (pos.take len) = true := by
  fun_induction applyExtraDataTurns friends start pos len with
  | case1 friends start pos =>
    rw [List.take_zero, sectionFits, if_pos rfl]
    exact iff_of_true ⟨_, rfl, fun turn hturn => by cases hturn⟩ rfl
  | case2 friends start pos len hne hpos =>
    rw [sectionFits, if_neg (take_ne_nil hne hlen), dif_pos (by rw [List.length_take]; omega)]
    refine iff_of_false ?_ Bool.false_ne_true
    rintro ⟨r, hr, -⟩
    cases hr
  | case3 friends start pos len hne hpos hscan =>
    rw [sectionFits_unterminated hne hlen hscan]
    refine iff_of_false ?_ Bool.false_ne_true
    rintro ⟨r, hr, -⟩
    cases hr
  | case4 friends start pos len hne hpos label hscan size turn hempty =>
    rw [sectionFits_entry hne hlen hscan, decide_eq_true hempty, Bool.true_or, Bool.and_true, decide_eq_true_eq]
    constructor
    · rintro ⟨r, hr, hturns⟩
      cases hr
      exact (hturns turn (List.mem_singleton_self _)).2
    · intro hfits
      refine ⟨_, rfl, fun t ht => ?_⟩
      rw [List.mem_singleton.mp ht]
      exact ⟨Nat.add_le_add_left hfits start, hfits⟩
  | case5 friends start pos len hne hpos label hscan size turn hlabel fn rest len' ih =>
    rw [sectionFits_entry hne hlen hscan, decide_eq_false hlabel, Bool.false_or]
    by_cases hfits : size ≤ len
    · have hrest : len' = len - size := by
        simp only [len', sizeSub]
        omega
      have hshorter : len' ≤ rest.length := by
        rw [hrest, List.length_drop]
        omega
      have htotal : start + size + len' = start + len := by omega
      rw [decide_eq_true hfits, Bool.true_and, ← labelFriend_isSome, Bool.and_eq_true, ← hrest]
      change _ ↔ (labelFriend friends fn label).isSome = true ∧ sectionFits (known friends) (rest.take len') = true
      cases hl : labelFriend friends fn label with
      | none =>
        refine iff_of_false ?_ fun h => Bool.false_ne_true h.1
        rintro ⟨r, hr, -⟩
        cases hr
      | some labelled =>
        have hiff := ih labelled hshorter (by omega)
        rw [known_labelFriend hl, htotal] at hiff
        rw [← hiff, Option.bind_some]
        constructor
        · rintro ⟨r, hr, hturns⟩
          obtain ⟨q, hq, rfl⟩ := Option.map_eq_some_iff.mp hr
          exact ⟨rfl, q, hq, fun t ht => hturns t (List.mem_cons_of_mem _ ht)⟩
        · rintro ⟨-, q, hq, hturns⟩
          refine ⟨_, by rw [hq, Option.map_some], fun t ht => ?_⟩
          rcases List.mem_cons.mp ht with rfl | ht
          · exact ⟨Nat.add_le_add_left hfits start, hfits⟩
          · exact hturns t ht
    · rw [decide_eq_false hfits, Bool.false_and]
      refine iff_of_false ?_ Bool.false_ne_true
      rintro ⟨r, hr, hturns⟩
      obtain ⟨labelled, -, hr⟩ := Option.bind_eq_some_iff.mp hr
      obtain ⟨q, -, rfl⟩ := Option.map_eq_some_iff.mp hr
      exact hfits (hturns turn List.mem_cons_self).2

/-- The label section of a file that the loader accepts lies in the buffer. -/
theorem extraSavedata_inside {sha : Sha256} {file : List UInt8} {data : PersistenceData}
    (h : loadPersistenceDataI sha file = some data) :
    data.extraSavedataLen ≤ data.extraSavedata.length ∧ data.extraSavedataLen < 2 ^ 64 := by
  have hmax : maxPersistenceSectionSize < 2 ^ 64 := by decide
  simp only [loadPersistenceDataI, Option.ite_none_left_eq_some, Option.some.injEq] at h
  obtain ⟨-, -, -, -, hextra, hsize, -, rfl⟩ := h
  have hround := lt_round256 (headerWord file 3)
  simp only [List.length_drop]
  omega

/-- For every file that the loader accepts, the loop stays inside the label section if and only
if the declared bytes are well-formed entries. -/
theorem labels_bounded_iff (sha : Sha256) (file : List UInt8) (friends : FriendsTable) {data : PersistenceData}
    (h : loadPersistenceDataI sha file = some data) :
    LabelsBounded friends data ↔
      sectionFits (known friends) (data.extraSavedata.take data.extraSavedataLen) = true := by
  obtain ⟨hinside, hsize⟩ := extraSavedata_inside h
  have hiff := turns_bounded_iff friends 0 data.extraSavedata data.extraSavedataLen hinside hsize
  rwa [Nat.zero_add] at hiff

/-- A section with one label. -/
def labelledFile (sha : Sha256) : List UInt8 := persistenceImage sha [] 6 [0, 0, 0, 0, 65, 0]

theorem labels_bounded_one : ∃ data, loadPersistenceDataI .zero (labelledFile .zero) = some data ∧
    LabelsBounded (oneFriend 0 .empty) data := by
  have hload : loadPersistenceDataI .zero (labelledFile .zero) = some (persistenceOf [] 6 [0, 0, 0, 0, 65, 0]) :=
    load_persistenceImage .zero [] (by decide) (by decide) (by decide)
  exact ⟨_, hload, (labels_bounded_iff .zero _ _ hload).mpr (by decide +kernel)⟩

/-- The same bytes under a header that declares one byte less, whatever the digest is. -/
theorem labels_unbounded : ¬ ∃ sha : Sha256, ∀ file friends data, loadPersistenceDataI sha file = some data →
    LabelsBounded friends data := by
  rintro ⟨sha, h⟩
  have hload : loadPersistenceDataI sha (persistenceImage sha [] 5 [0, 0, 0, 0, 65, 0]) =
      some (persistenceOf [] 5 [0, 0, 0, 0, 65, 0]) :=
    load_persistenceImage sha [] (by decide) (by decide) (by decide)
  obtain ⟨hinside, hsize⟩ := extraSavedata_inside hload
  have hfits := (turns_bounded_iff (oneFriend 0 .empty) 0 _ _ hinside hsize).mp (h _ _ _ hload)
  exact absurd hfits (by decide +kernel)

end CarrierSdk.Storage
