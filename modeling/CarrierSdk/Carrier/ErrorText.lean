import CarrierSdk.Carrier.CString
import CarrierSdk.Library.StoreLog
import Mathlib.Data.Option.Basic

/-! The text of an error code: the prefix of its facility, and behind it the description that the
function of the facility stores. -/
namespace CarrierSdk.ErrorText
open StoreLog

/-! Codes. -/

/-- ELA_MK_ERROR, whose type is unsigned int. -/
def elaMkError (facility code : UInt32) : UInt32 :=
  (0x80000000 : UInt32) ||| (facility <<< 24 ||| ((code &&& 0x80000000) >>> 8 ||| (code &&& 0x7FFFFFFF)))

def elafIce : Int32 := 5
def elafDht : Int32 := 6

def elaerrInvalidArgs : UInt32 := 0x01
def elaerrBufferTooSmall : UInt32 := 0x03

def elaGeneralError (code : UInt32) : UInt32 := elaMkError 1 code
def elaSysError (code : UInt32) : UInt32 := elaMkError 2 code
def elaIceError (code : UInt32) : UInt32 := elaMkError 5 code

theorem le_elaMkError (facility code : UInt32) : 2 ^ 31 ≤ (elaMkError facility code).toNat := by
  rw [elaMkError, UInt32.toNat_or]
  exact Nat.left_le_or

/-- As an int an error is negative. -/
theorem elaMkError_neg (facility code : UInt32) : (elaMkError facility code).toInt32.toInt < 0 := by
  have hle := le_elaMkError facility code
  have hlt := (elaMkError facility code).toNat_lt
  show (elaMkError facility code).toBitVec.toInt < 0
  rw [BitVec.toInt_eq_toNat_cond, UInt32.toNat_toBitVec]
  split <;> omega

def ascii (s : String) : List UInt8 := s.toList.map fun c => UInt8.ofNat c.toNat

structure ErrorDesc where
  errcode : Int32
  errdesc : CString

/-- error_codes. -/
def errorCodes : List ErrorDesc :=
  [⟨0x01, ⟨ascii "Invalid argument(s)", by decide⟩⟩,
   ⟨0x02, ⟨ascii "Out of memory", by decide⟩⟩,
   ⟨0x03, ⟨ascii "Too small buffer size", by decide⟩⟩,
   ⟨0x04, ⟨ascii "Bad persistent data", by decide⟩⟩,
   ⟨0x05, ⟨ascii "Invalid persistent file", by decide⟩⟩,
   ⟨0x06, ⟨ascii "Invalid control packet", by decide⟩⟩,
   ⟨0x07, ⟨ascii "Invalid credential", by decide⟩⟩,
   ⟨0x08, ⟨ascii "Carrier is already being running", by decide⟩⟩,
   ⟨0x09, ⟨ascii "Carrier is not ready", by decide⟩⟩,
   ⟨0x0A, ⟨ascii "Friend does not exist", by decide⟩⟩,
   ⟨0x0B, ⟨ascii "Friend already exists", by decide⟩⟩,
   ⟨0x0C, ⟨ascii "Unmatched request", by decide⟩⟩,
   ⟨0x0D, ⟨ascii "Invalid carrier userid", by decide⟩⟩,
   ⟨0x0E, ⟨ascii "Invalid carrier nodeid", by decide⟩⟩,
   ⟨0x0F, ⟨ascii "Being in wrong state", by decide⟩⟩,
   ⟨0x10, ⟨ascii "Instance is being busy", by decide⟩⟩,
   ⟨0x11, ⟨ascii "Language binding error", by decide⟩⟩,
   ⟨0x12, ⟨ascii "Encrypt error", by decide⟩⟩,
   ⟨0x13, ⟨ascii "SDP is too long", by decide⟩⟩,
   ⟨0x14, ⟨ascii "Invalid SDP", by decide⟩⟩,
   ⟨0x15, ⟨ascii "Not implemented yet", by decide⟩⟩,
   ⟨0x16, ⟨ascii "Exceeding the limit", by decide⟩⟩,
   ⟨0x17, ⟨ascii "Allocate port error", by decide⟩⟩,
   ⟨0x18, ⟨ascii "Bad proxy type", by decide⟩⟩,
   ⟨0x19, ⟨ascii "Bad proxy host", by decide⟩⟩,
   ⟨0x1A, ⟨ascii "Bad proxy port", by decide⟩⟩,
   ⟨0x1B, ⟨ascii "No proxy available", by decide⟩⟩,
   ⟨0x1C, ⟨ascii "Load encrypted persistent data error", by decide⟩⟩,
   ⟨0x1D, ⟨ascii "Bad bootstrap host", by decide⟩⟩,
   ⟨0x1E, ⟨ascii "Bad bootstrap port", by decide⟩⟩,
   ⟨0x1F, ⟨ascii "Data content too long", by decide⟩⟩,
   ⟨0x20, ⟨ascii "Try add myself as friend", by decide⟩⟩,
   ⟨0x21, ⟨ascii "Bad carrier node address", by decide⟩⟩,
   ⟨0x22, ⟨ascii "Friend is being offline", by decide⟩⟩,
   ⟨0xFF, ⟨ascii "Unknown error", by decide⟩⟩]

/-! The functions of the facilities. -/

/-- The stores of strcpy. -/
def strcpyStores (text : CString) : Stores UInt8 := block 0 (text.bytes ++ [0])

theorem strcpyStores_within {text : CString} {len : Nat} (h : text.strlen < len) :
    Within (strcpyStores text) len := by
  apply within_block
  rw [List.length_append, List.length_singleton, Nat.zero_add]
  exact h

theorem replay_strcpyStores (memory : Nat → UInt8) (text : CString) :
    replay memory (strcpyStores text) text.strlen = 0 := by
  have hlast := replay_block_last memory 0 text.bytes 0
  rwa [Nat.zero_add] at hlast

/-- The terminator is stored behind a buffer that ends with the text. -/
theorem strcpyStores_not_within (text : CString) (more : Stores UInt8) :
    ¬ Within (strcpyStores text ++ more) text.strlen := by
  intro h
  have hmem : (text.strlen, (0 : UInt8)) ∈ strcpyStores text := by
    have hlast := block_last_mem 0 text.bytes (0 : UInt8)
    rwa [Nat.zero_add] at hlast
  exact Nat.lt_irrefl _ (h _ (List.mem_append_left _ hmem))

/-- What a function of type strerror_t returns and stores, its positions counted from its buffer. -/
structure Described where
  rc : Int32
  stores : Stores UInt8

/-- strerror_t, which is told also what the buffer holds. Nothing where an assertion fails. -/
abbrev StrerrorT := Int32 → (Nat → UInt8) → Nat → Option Described

/-- The body that general_error and dht_error have in common. -/
def describe (codes : List ErrorDesc) : StrerrorT := fun errcode _ len =>
  match codes.find? fun d => decide (errcode = d.errcode) with
  | none => some ⟨(elaGeneralError elaerrInvalidArgs).toInt32, []⟩
  | some d =>
    if len ≤ d.errdesc.strlen then some ⟨(elaGeneralError elaerrInvalidArgs).toInt32, []⟩
    else some ⟨0, strcpyStores d.errdesc⟩

def generalError : StrerrorT := describe errorCodes
def dhtError : StrerrorT := describe errorCodes

/-- system_error over the strerror_r of the platform. -/
def systemError (strerrorR : StrerrorT) : StrerrorT := fun errcode memory len =>
  (strerrorR errcode memory len).map fun r =>
    if r.rc < 0 then { r with rc := (elaSysError elaerrInvalidArgs).toInt32 } else { r with rc := 0 }

/-- ice_strerror over the stores of pj_strerror. -/
def iceStrerror (pjStrerror : Int32 → (Nat → UInt8) → Nat → Stores UInt8) : StrerrorT := fun errcode memory len =>
  if len = 0 then none else some ⟨0, pjStrerror errcode memory len⟩

/-- A function that is given a length greater than zero returns, stores nothing at or behind the
length, and where it reports no error leaves a terminator in front of it. -/
structure Respects (f : StrerrorT) : Prop where
  returns : ∀ errcode memory len, 0 < len → (f errcode memory len).isSome
  inside : ∀ errcode memory len r, 0 < len → f errcode memory len = some r → Within r.stores len
  terminated : ∀ errcode memory len r, 0 < len → memory 0 = 0 → f errcode memory len = some r →
    0 ≤ r.rc → ∃ i < len, replay memory r.stores i = 0

theorem describe_respects (codes : List ErrorDesc) : Respects (describe codes) where
  returns errcode memory len _ := by
    unfold describe
    split
    · rfl
    · split <;> rfl
  inside errcode memory len r _ h := by
    unfold describe at h
    split at h
    · cases h
      exact fun s hs => by cases hs
    · next d hd =>
      split at h
      · cases h
        exact fun s hs => by cases hs
      · next hlen =>
        cases h
        exact strcpyStores_within (Nat.lt_of_not_le hlen)
  terminated errcode memory len r _ _ h hrc := by
    have herror : ¬ (0 : Int32) ≤ (elaGeneralError elaerrInvalidArgs).toInt32 := by decide
    unfold describe at h
    split at h
    · cases h
      exact absurd hrc herror
    · next d hd =>
      split at h
      · cases h
        exact absurd hrc herror
      · next hlen =>
        cases h
        exact ⟨d.errdesc.strlen, Nat.lt_of_not_le hlen, replay_strcpyStores memory d.errdesc⟩

/-- A function that stores what another stores, and reports an error where the other does. -/
theorem Respects.map {f : StrerrorT} (h : Respects f) {g : Described → Described}
    (hstores : ∀ r, (g r).stores = r.stores) (hrc : ∀ r, 0 ≤ (g r).rc → 0 ≤ r.rc) :
    Respects fun errcode memory len => (f errcode memory len).map g where
  returns errcode memory len hlen := by
    rw [Option.isSome_map]
    exact h.returns errcode memory len hlen
  inside errcode memory len r hlen hr := by
    obtain ⟨q, hq, rfl⟩ := Option.map_eq_some_iff.mp hr
    rw [hstores]
    exact h.inside errcode memory len q hlen hq
  terminated errcode memory len r hlen hmem hr hge := by
    obtain ⟨q, hq, rfl⟩ := Option.map_eq_some_iff.mp hr
    rw [hstores]
    exact h.terminated errcode memory len q hlen hmem hq (hrc q hge)

theorem systemError_respects {strerrorR : StrerrorT} (h : Respects strerrorR) : Respects (systemError strerrorR) := by
  refine h.map ?_ ?_
  · intro r
    split <;> rfl
  · intro r hge
    split at hge
    · have herror : ¬ (0 : Int32) ≤ (elaSysError elaerrInvalidArgs).toInt32 := by decide
      exact absurd hge herror
    · next hrc => exact Int32.not_lt.mp hrc

theorem iceStrerror_respects {pjStrerror : Int32 → (Nat → UInt8) → Nat → Stores UInt8}
    (h : Respects fun errcode memory len => some ⟨0, pjStrerror errcode memory len⟩) :
    Respects (iceStrerror pjStrerror) where
  returns errcode memory len hlen := by
    rw [iceStrerror, if_neg (Nat.ne_of_gt hlen)]
    rfl
  inside errcode memory len r hlen hr := by
    rw [iceStrerror, if_neg (Nat.ne_of_gt hlen)] at hr
    exact h.inside errcode memory len r hlen hr
  terminated errcode memory len r hlen hmem hr hge := by
    rw [iceStrerror, if_neg (Nat.ne_of_gt hlen)] at hr
    exact h.terminated errcode memory len r hlen hmem hr hge

/-! The table. -/

structure FacilityDesc where
  desc : CString
  errstring : Option StrerrorT

/-- facility_codes before anything is registered. -/
def facilityCodes (strerrorR : StrerrorT) : List FacilityDesc :=
  [⟨⟨ascii "[General] ", by decide⟩, some generalError⟩,
   ⟨⟨ascii "[System] ", by decide⟩, some (systemError strerrorR)⟩,
   ⟨⟨ascii "Reserved facility", by decide⟩, none⟩,
   ⟨⟨ascii "Reserved facility", by decide⟩, none⟩,
   ⟨⟨ascii "[ICE] ", by decide⟩, none⟩,
   ⟨⟨ascii "[DHT] ", by decide⟩, some dhtError⟩]

/-- ela_register_strerror. A function that is there already stays. -/
def elaRegisterStrerror (codes : List FacilityDesc) (facility : Int32) (userStrerr : StrerrorT) :
    Except Int32 (List FacilityDesc) :=
  if facility ≤ 0 ∨ elafDht < facility then .error (elaGeneralError elaerrInvalidArgs).toInt32
  else .ok (codes.modify (facility.toInt - 1).toNat fun d =>
    if d.errstring.isNone then { d with errstring := some userStrerr } else d)

/-- Every function of the table respects the length that it is given. -/
def TableRespects (codes : List FacilityDesc) : Prop := ∀ d ∈ codes, ∀ f, d.errstring = some f → Respects f

theorem facilityCodes_respect {strerrorR : StrerrorT} (h : Respects strerrorR) :
    TableRespects (facilityCodes strerrorR) := by
  intro d hd f hf
  simp only [facilityCodes, List.mem_cons, List.not_mem_nil, or_false] at hd
  rcases hd with rfl | rfl | rfl | rfl | rfl | rfl <;> cases hf
  · exact describe_respects _
  · exact systemError_respects h
  · exact describe_respects _

theorem elaRegisterStrerror_respects {codes registered : List FacilityDesc} {facility : Int32} {f : StrerrorT}
    (htable : TableRespects codes) (hf : Respects f) (h : elaRegisterStrerror codes facility f = .ok registered) :
    TableRespects registered := by
  unfold elaRegisterStrerror at h
  split at h
  · cases h
  · cases h
    intro d hd g hg
    obtain ⟨i, hi, rfl⟩ := List.getElem_of_mem hd
    rw [List.length_modify] at hi
    have hold := htable codes[i] (List.getElem_mem hi)
    rw [List.getElem_modify] at hg
    split at hg
    · split at hg
      · cases hg
        exact hf
      · exact hold g hg
    · exact hold g hg

/-! The text of an error. -/

/-- What ela_get_strerror comes to. -/
inductive StrerrorOutcome
  | null (error : Int32)
  | text
  /-- An assertion of the function of the facility fails. -/
  | aborted
  /-- The table is read outside of its entries. -/
  | outsideTable
  deriving DecidableEq

/-- The outcome, the stores from the buffer on, and the facility and the length of the call that the
function of the facility gets. -/
structure StrerrorRun where
  outcome : StrerrorOutcome
  stores : Stores UInt8
  called : Option (Int32 × Nat)

def negative (error : Int32) : Bool := error &&& (0x80000000 : UInt32).toInt32 != 0

def facilityOf (error : Int32) : Int32 := (error >>> 24) &&& 0x0F

def errcodeOf (error : Int32) : Int32 := error &&& 0x00FFFFFF

/-- The index of the table that an error of a known facility has. -/
def knownFacility (codes : List FacilityDesc) (error : Int32) : Bool :=
  negative error && !(decide (facilityOf error ≤ 0) || decide ((codes.length : Int) < (facilityOf error).toInt))

/-- facility_codes[facility - 1]. -/
def faciDesc (codes : List FacilityDesc) (error : Int32) : Option FacilityDesc :=
  codes[((facilityOf error).toInt - 1).toNat]?

/-- ela_get_strerror from where the prefix fits: the copy of the prefix, and the call of the
function of the facility on what is left. -/
def describedRun (faciDesc : FacilityDesc) (facility errcode : Int32) (memory : Nat → UInt8) (len : Nat) :
    StrerrorRun :=
  let descLen := faciDesc.desc.strlen
  let stores := strcpyStores faciDesc.desc
  match faciDesc.errstring with
  | none => ⟨.text, stores, none⟩
  | some f =>
    let called := some (facility, len - descLen)
    match f errcode (fun i => replay memory stores (descLen + i)) (len - descLen) with
    | none => ⟨.aborted, stores, called⟩
    | some r => ⟨if r.rc < 0 then .null r.rc else .text, stores ++ shift descLen r.stores, called⟩

/-- ela_get_strerror on the memory that the buffer begins, or on NULL. -/
def elaGetStrerror (codes : List FacilityDesc) (error : Int32) (buf : Option (Nat → UInt8)) (len : Nat) :
    StrerrorRun :=
  match buf with
  | none => ⟨.null (elaGeneralError elaerrInvalidArgs).toInt32, [], none⟩
  | some memory =>
    if !knownFacility codes error then ⟨.null (elaGeneralError elaerrInvalidArgs).toInt32, [], none⟩
    else match faciDesc codes error with
      | none => ⟨.outsideTable, [], none⟩
      | some d =>
        if len < d.desc.strlen then ⟨.null (elaGeneralError elaerrBufferTooSmall).toInt32, [], none⟩
        else describedRun d (facilityOf error) (errcodeOf error) memory len

/-- The table is read inside its entries, nothing is stored at or behind the length, no registered
function gets the length zero, and the result is NULL or a terminated text. -/
structure ErrorTextSafe (buf : Option (Nat → UInt8)) (len : Nat) (run : StrerrorRun) : Prop where
  inTable : run.outcome ≠ .outsideTable
  within : Within run.stores len
  called : run.called ≠ some (elafIce, 0)
  result : (∃ e, run.outcome = .null e) ∨
    run.outcome = .text ∧ ∃ memory, buf = some memory ∧ ∃ i < len, replay memory run.stores i = 0

theorem null_safe (buf : Option (Nat → UInt8)) (len : Nat) (error : Int32) :
    ErrorTextSafe buf len ⟨.null error, [], none⟩ where
  inTable h := by cases h
  within s hs := by cases hs
  called h := by cases h
  result := .inl ⟨error, rfl⟩

/-- The check of the facility keeps the index inside the table. -/
theorem faciDesc_of_known {codes : List FacilityDesc} {error : Int32} (h : knownFacility codes error = true) :
    ∃ d ∈ codes, faciDesc codes error = some d := by
  rw [knownFacility, Bool.and_eq_true, Bool.not_eq_true', Bool.or_eq_false_iff, decide_eq_false_iff_not,
    decide_eq_false_iff_not] at h
  obtain ⟨-, hpos, hmax⟩ := h
  have hpos : ¬ (facilityOf error).toInt ≤ 0 := fun hle => hpos (Int32.le_iff_toInt_le.mpr hle)
  have hindex : ((facilityOf error).toInt - 1).toNat < codes.length := by omega
  exact ⟨codes[_], List.getElem_mem hindex, List.getElem?_eq_getElem hindex⟩

theorem describedRun_not_within (d : FacilityDesc) (facility errcode : Int32) (memory : Nat → UInt8) :
    ¬ Within (describedRun d facility errcode memory d.desc.strlen).stores d.desc.strlen := by
  have hplain : ¬ Within (strcpyStores d.desc) d.desc.strlen := by
    have h := strcpyStores_not_within d.desc []
    rwa [List.append_nil] at h
  unfold describedRun
  split
  · exact hplain
  · next f hf =>
    simp only
    split
    · exact hplain
    · next r hr => exact strcpyStores_not_within d.desc _

/-- With a byte for the terminator the prefix stays inside, and so does what the function of the
facility adds. -/
theorem describedRun_safe {d : FacilityDesc} (hd : ∀ f, d.errstring = some f → Respects f)
    (facility errcode : Int32) (memory : Nat → UInt8) {len : Nat} (hlen : d.desc.strlen < len) :
    ErrorTextSafe (some memory) len (describedRun d facility errcode memory len) := by
  have hpre := strcpyStores_within hlen
  have hzero := replay_strcpyStores memory d.desc
  have hleft : 0 < len - d.desc.strlen := Nat.sub_pos_of_lt hlen
  unfold describedRun
  cases hf : d.errstring with
  | none => exact ⟨nofun, hpre, nofun, .inr ⟨rfl, memory, rfl, d.desc.strlen, hlen, hzero⟩⟩
  | some f =>
    have hres := hd f hf
    let behind := fun i => replay memory (strcpyStores d.desc) (d.desc.strlen + i)
    obtain ⟨r, hr⟩ := Option.isSome_iff_exists.mp (hres.returns errcode behind _ hleft)
    simp only [behind] at hr
    simp only [hr]
    refine ⟨?_, ?_, ?_, ?_⟩
    · show (if r.rc < 0 then StrerrorOutcome.null r.rc else .text) ≠ .outsideTable
      split <;> exact nofun
    · exact hpre.append (hres.inside _ _ _ r hleft hr).shift
    · intro h
      have hzero : len - d.desc.strlen = 0 := congrArg Prod.snd (Option.some.inj h)
      omega
    · by_cases hrc : r.rc < 0
      · exact .inl ⟨r.rc, if_pos hrc⟩
      · obtain ⟨i, hi, hterm⟩ := hres.terminated _ _ _ r hleft hzero hr (Int32.not_lt.mp hrc)
        refine .inr ⟨if_neg hrc, memory, rfl, d.desc.strlen + i, by omega, ?_⟩
        rw [replay_append, replay_shift]
        exact hterm

/-- For any table whose functions respect their lengths. -/
theorem table_safe_iff {codes : List FacilityDesc} (htable : TableRespects codes) (error : Int32)
    (buf : Option (Nat → UInt8)) (len : Nat) :
    ErrorTextSafe buf len (elaGetStrerror codes error buf len) ↔
      (buf.isSome = true → knownFacility codes error = true →
        ∀ d, faciDesc codes error = some d → len ≠ d.desc.strlen) := by
  cases buf with
  | none => exact iff_of_true (null_safe none len _) fun h => by cases h
  | some memory =>
    by_cases hknown : knownFacility codes error = true
    · obtain ⟨d, hd, hdesc⟩ := faciDesc_of_known hknown
      have hrun : elaGetStrerror codes error (some memory) len =
          if len < d.desc.strlen then ⟨.null (elaGeneralError elaerrBufferTooSmall).toInt32, [], none⟩
          else describedRun d (facilityOf error) (errcodeOf error) memory len := by
        rw [elaGetStrerror, hknown, hdesc]
        rfl
      rw [hrun]
      constructor
      · intro hsafe _ _ e he
        cases hdesc.symm.trans he
        rintro rfl
        rw [if_neg (Nat.lt_irrefl _)] at hsafe
        exact describedRun_not_within d _ _ memory hsafe.within
      · intro hlen
        have hne := hlen rfl hknown d hdesc
        split
        · exact null_safe _ len _
        · next hge => exact describedRun_safe (htable d hd) _ _ memory (by omega)
    · have hrun : elaGetStrerror codes error (some memory) len =
          ⟨.null (elaGeneralError elaerrInvalidArgs).toInt32, [], none⟩ := by
        rw [elaGetStrerror, Bool.not_eq_true _ |>.mp hknown]
        rfl
      rw [hrun]
      exact iff_of_true (null_safe _ len _) fun _ h => absurd h hknown

/-- For every error code, buffer and length, with any function registered for the ICE facility: the
text stays in the buffer if and only if the length is not just that of the prefix. -/
theorem error_text_safe_iff {strerrorR userStrerr : StrerrorT} {codes : List FacilityDesc}
    (hsys : Respects strerrorR) (huser : Respects userStrerr)
    (hreg : elaRegisterStrerror (facilityCodes strerrorR) elafIce userStrerr = .ok codes)
    (error : Int32) (buf : Option (Nat → UInt8)) (len : Nat) :
    ErrorTextSafe buf len (elaGetStrerror codes error buf len) ↔
      (buf.isSome = true → knownFacility codes error = true →
        ∀ d, faciDesc codes error = some d → len ≠ d.desc.strlen) :=
  table_safe_iff (elaRegisterStrerror_respects (facilityCodes_respect hsys) huser hreg) error buf len

/-- A text that is cut where the length ends, with its terminator. -/
def cutStores (text : CString) (len : Nat) : Stores UInt8 :=
  if len = 0 then [] else block 0 (text.bytes.take (len - 1) ++ [0])

theorem cutStores_respects (text : CString) : Respects fun _ _ len => some ⟨0, cutStores text len⟩ where
  returns _ _ _ _ := rfl
  inside errcode memory len r hlen h := by
    cases h
    simp only [cutStores, if_neg (Nat.ne_of_gt hlen)]
    apply within_block
    simp only [List.length_append, List.length_take, List.length_singleton]
    omega
  terminated errcode memory len r hlen hmem h hrc := by
    cases h
    have hlast := replay_block_last memory 0 (text.bytes.take (len - 1)) 0
    refine ⟨_, ?_, by simp only [cutStores, if_neg (Nat.ne_of_gt hlen)]; exact hlast⟩
    simp only [List.length_take]
    omega

def notPermitted : CString := ⟨ascii "Operation not permitted", by decide⟩
def unknownError : CString := ⟨ascii "Unknown error 1", by decide⟩

/-- The table that ela_session_register_strerror leaves, where both libraries know one text. -/
def sessionCodes : List FacilityDesc :=
  (facilityCodes fun _ _ len => some ⟨0, cutStores notPermitted len⟩).modify 4 fun d =>
    { d with errstring := some (iceStrerror fun _ _ len => cutStores unknownError len) }

theorem sessionCodes_registered :
    elaRegisterStrerror (facilityCodes fun _ _ len => some ⟨0, cutStores notPermitted len⟩) elafIce
      (iceStrerror fun _ _ len => cutStores unknownError len) = .ok sessionCodes := rfl

theorem error_text_safe_ice :
    ErrorTextSafe (some fun _ => 1) 64 (elaGetStrerror sessionCodes (elaIceError 1).toInt32 (some fun _ => 1) 64) := by
  refine (error_text_safe_iff (cutStores_respects notPermitted)
    (iceStrerror_respects (cutStores_respects unknownError)) sessionCodes_registered _ _ 64).mpr ?_
  intro _ _ d hd
  have hice : faciDesc sessionCodes (elaIceError 1).toInt32 = sessionCodes[4]? := rfl
  cases hice.symm.trans hd
  decide

/-- A buffer of six bytes gets the prefix of the ICE facility and a seventh byte. -/
theorem error_text_overrun : ¬ ∀ strerrorR userStrerr codes, Respects strerrorR → Respects userStrerr →
    elaRegisterStrerror (facilityCodes strerrorR) elafIce userStrerr = .ok codes →
    ∀ error buf len, ErrorTextSafe buf len (elaGetStrerror codes error buf len) := by
  intro h
  have hsafe := h _ _ _ (cutStores_respects notPermitted) (iceStrerror_respects (cutStores_respects unknownError))
    sessionCodes_registered (elaIceError 1).toInt32 (some fun _ => 1) 6
  have hbyte : (6, (0 : UInt8)) ∈
      (elaGetStrerror sessionCodes (elaIceError 1).toInt32 (some fun _ => 1) 6).stores := by decide
  exact absurd (hsafe.within _ hbyte) (Nat.lt_irrefl 6)

end CarrierSdk.ErrorText
