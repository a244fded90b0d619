import CarrierSdk.FileTransfer.Agreement

/-! What the receiver reads of an offer: of the bundle that a session is requested with, and of the cookie of a
channel. Both are words that blanks separate, so a name with white space is not read back. -/
namespace CarrierSdk.FileTransfer
open Mux

/-- ela_filetransfer_new, up to what is set from its other arguments. -/
def elaFiletransferNew (info : Option FileInfo) (drawn : PublicKey) (ext alloc : Bool) :
    Except MuxError ElaFileTransfer :=
  if info.any fun i => !i.valid then .error .invalidArgs
  else if !ext then .error .notExist
  else if !alloc then .error .outOfMemory
  else .ok { connectedTransfer .unset (info.map fun i => newItem (i.chosenId drawn) i.filename i.size) with
    state := .initialized }

/-- The name, the id and the size that an item records. -/
def FileTransferItem.offer (item : FileTransferItem) : Option Offer :=
  item.filename.map fun filename => ⟨filename, item.fileid, item.filesz⟩

/-- The bundle of sender_state_changed, once the stream is initialized. An item that stands by has a name. -/
def senderBundle (item : FileTransferItem) : CString :=
  match item.offer with
  | some o => if item.state = .standby then offerCookie o else arrayString bundleName
  | none => arrayString bundleName

/-- The cookie of sender_state_changed, once the stream is connected. No channel is opened for another item. -/
def senderCookie (item : FileTransferItem) : Option CString :=
  if item.state = .standby then item.offer.map offerCookie else none

/-- The part of both formats that is about the file, "%255s %45s %llu". -/
def scanFile (text : List UInt8) : Option Offer := do
  let (filename, text) ← scanWord 255 text
  let (fileid, text) ← scanWord 45 text
  let filesz ← scanUnsigned text
  some ⟨arrayString filename, arrayString fileid, filesz⟩

/-- sessionreq_callback: the file that the application is told of, where the bundle has one. Its format skips
the first word, whatever it is. -/
def sessionreqCallback (bundle : CString) : Option (Option Offer) :=
  if (32 : UInt8) ∈ bundle.bytes then
    (scanWord bundle.strlen bundle.bytes).bind fun r => (scanFile r.2).map some
  else some none

/-! Both are read like the words behind the first. -/

def fileBytes (o : Offer) : List UInt8 :=
  o.filename.bytes ++ 32 :: (o.fileid.bytes ++ 32 :: printUnsigned o.filesz.toNat)

theorem scanOffer_eq (cookie : CString) : scanOffer cookie = (scanWord 31 cookie.bytes).bind fun r =>
    (scanFile r.2).bind fun o => if r.1 = bundleName then some o else none := by
  simp only [scanOffer, scanFile, Option.bind_eq_bind, Option.bind_assoc, Option.bind_some]

theorem scanBundleName {width : Nat} (h : bundleName.length ≤ width) (o : Offer) :
    scanWord width (offerCookie o).bytes = some (bundleName, 32 :: fileBytes o) := by
  rw [bytes_offerCookie]
  exact scanWord_word solid_bundleName (by decide) h

theorem scanOffer_printed (o : Offer) : scanOffer (offerCookie o) = scanFile (32 :: fileBytes o) := by
  rw [scanOffer_eq, scanBundleName (by decide), Option.bind_some]
  simp only [if_true, Option.bind_fun_some]

theorem sessionreqCallback_printed (o : Offer) :
    sessionreqCallback (offerCookie o) = (scanFile (32 :: fileBytes o)).map some := by
  have hlen : bundleName.length ≤ (offerCookie o).strlen := by
    rw [CString.strlen, bytes_offerCookie, offerBytes, List.length_append]
    exact Nat.le_add_right _ _
  have hblank : (32 : UInt8) ∈ (offerCookie o).bytes := by
    rw [bytes_offerCookie, offerBytes]
    exact List.mem_append_right _ List.mem_cons_self
  rw [sessionreqCallback, if_pos hblank, scanBundleName hlen, Option.bind_some]

/-! Names that are read back. -/

theorem scanWord_eq_some {width : Nat} {text word rest : List UInt8} (h : scanWord width text = some (word, rest)) :
    word = ((text.dropWhile isSpace).take width).takeWhile (!isSpace ·) ∧
      rest = (text.dropWhile isSpace).drop word.length ∧ word ≠ [] := by
  simp only [scanWord] at h
  split at h
  · cases h
  next hne =>
    obtain ⟨rfl, rfl⟩ := Prod.mk.inj (Option.some.inj h)
    exact ⟨rfl, rfl, hne⟩

theorem scanFile_eq_some {text : List UInt8} {o : Offer} (h : scanFile text = some o) :
    ∃ filename rest fileid rest', scanWord 255 text = some (filename, rest) ∧
      scanWord 45 rest = some (fileid, rest') ∧ scanUnsigned rest' = some o.filesz ∧
      o.filename = arrayString filename ∧ o.fileid = arrayString fileid := by
  simp only [scanFile, Option.bind_eq_bind, Option.bind_eq_some_iff, Option.some.injEq] at h
  obtain ⟨⟨filename, rest⟩, hname, ⟨fileid, rest'⟩, hid, filesz, hsize, rfl⟩ := h
  exact ⟨filename, rest, fileid, rest', hname, hid, hsize, rfl, rfl⟩

theorem scanFile_solid {text : List UInt8} {o : Offer} (h : scanFile text = some o) : Solid o.filename.bytes := by
  obtain ⟨filename, rest, fileid, rest', hname, -, -, hfilename, -⟩ := scanFile_eq_some h
  rw [hfilename]
  intro b hb
  have hword := (List.takeWhile_sublist _).subset hb
  rw [(scanWord_eq_some hname).1] at hword
  simpa using List.mem_takeWhile_imp hword

/-! A path that names more than its last part. The scan of a name and an id without a slash has not passed the
slash of the path. -/

theorem dropWhile_slash (before after : List UInt8) :
    (before ++ 47 :: after).dropWhile isSpace = before.dropWhile isSpace ++ 47 :: after := by
  have hslash : (47 :: after).dropWhile isSpace = 47 :: after := List.dropWhile_cons_of_neg (by decide)
  rw [List.dropWhile_append]
  split
  · next h => rw [hslash, List.isEmpty_iff.mp h, List.nil_append]
  · rfl

theorem scanWord_slash {width : Nat} {before after word rest : List UInt8}
    (h : scanWord width (before ++ 47 :: after) = some (word, rest)) (hslash : (47 : UInt8) ∉ word)
    (hlen : word.length < width) : ∃ before', rest = before' ++ 47 :: after ∧
      ∀ after', scanWord width (before ++ 47 :: after') = some (word, before' ++ 47 :: after') := by
  obtain ⟨hword, hrest, hne⟩ := scanWord_eq_some h
  rw [dropWhile_slash] at hword hrest
  rw [← List.take_takeWhile] at hword
  have hwhole : word = (before.dropWhile isSpace ++ 47 :: after).takeWhile (!isSpace ·) := by
    rw [hword] at hlen ⊢
    exact List.take_of_length_le (by rw [List.length_take] at hlen; omega)
  rw [List.takeWhile_append] at hwhole
  split at hwhole
  · refine absurd ?_ hslash
    rw [hwhole, List.takeWhile_cons_of_pos (by decide)]
    exact List.mem_append_right _ List.mem_cons_self
  next hshort =>
    have hle : word.length ≤ (before.dropWhile isSpace).length := hwhole ▸ (List.takeWhile_sublist _).length_le
    refine ⟨(before.dropWhile isSpace).drop word.length, ?_, fun after' => ?_⟩
    · rw [hrest, List.drop_append_of_le_length hle]
    · have hword' : ((before.dropWhile isSpace ++ 47 :: after').take width).takeWhile (!isSpace ·) = word := by
        rw [← List.take_takeWhile, List.takeWhile_append, if_neg hshort, ← hwhole, List.take_of_length_le hlen.le]
      simp only [scanWord, dropWhile_slash, hword', if_neg hne, List.drop_append_of_le_length hle]

theorem scanUnsigned_slash (before after after' : List UInt8) :
    scanUnsigned (before ++ 47 :: after) = scanUnsigned (before ++ 47 :: after') := by
  have hdigits : ∀ l : List UInt8, (l ++ 47 :: after).takeWhile isDigit = (l ++ 47 :: after').takeWhile isDigit := by
    intro l
    have hslash : ∀ z, (47 :: z : List UInt8).takeWhile isDigit = [] := fun z => List.takeWhile_cons_of_neg (by decide)
    rw [List.takeWhile_append, List.takeWhile_append, hslash, hslash]
  cases hl : before.dropWhile isSpace with
  | nil =>
    have hnone : ∀ z, scanUnsigned (before ++ 47 :: z) = none := by
      intro z
      simp [scanUnsigned, dropWhile_slash, hl, isDigit]
    rw [hnone, hnone]
  | cons b l =>
    have hrest := hdigits l
    have hall := hdigits (b :: l)
    simp only [scanUnsigned, dropWhile_slash, hl, List.cons_append, List.head?_cons, List.tail_cons]
    simp only [List.cons_append] at hall
    split
    · rw [hrest]
    · rw [hall]

theorem scanWord_noNul {width : Nat} {text word rest : List UInt8} (h : scanWord width text = some (word, rest))
    (hz : (0 : UInt8) ∉ text) : (arrayString word).bytes = word ∧ (0 : UInt8) ∉ rest := by
  obtain ⟨hword, hrest, -⟩ := scanWord_eq_some h
  have hskip := (List.dropWhile_sublist isSpace (l := text)).subset
  refine ⟨bytes_arrayString fun hw => hz (hskip ?_), fun hr => hz (hskip ?_)⟩
  · rw [hword] at hw
    exact List.mem_of_mem_take ((List.takeWhile_sublist _).subset hw)
  · rw [hrest] at hr
    exact List.mem_of_mem_drop hr

theorem scanFile_slash {before after : List UInt8} {o : Offer} (h : scanFile (before ++ 47 :: after) = some o)
    (hz : (0 : UInt8) ∉ before ++ 47 :: after) (hname : (47 : UInt8) ∉ o.filename.bytes)
    (hlen : o.filename.strlen < 255) (hid : (47 : UInt8) ∉ o.fileid.bytes) (hlen' : o.fileid.strlen < 45)
    (after' : List UInt8) : scanFile (before ++ 47 :: after') = some o := by
  obtain ⟨filename, rest, fileid, rest', hscan, hscan', hsize, hfilename, hfileid⟩ := scanFile_eq_some h
  obtain ⟨hbytes, hz'⟩ := scanWord_noNul hscan hz
  rw [hfilename, CString.strlen, hbytes] at hlen
  rw [hfilename, hbytes] at hname
  obtain ⟨between, rfl, hnext⟩ := scanWord_slash hscan hname hlen
  obtain ⟨hbytes', -⟩ := scanWord_noNul hscan' hz'
  rw [hfileid, CString.strlen, hbytes'] at hlen'
  rw [hfileid, hbytes'] at hid
  obtain ⟨between', rfl, hnext'⟩ := scanWord_slash hscan' hid hlen'
  rw [scanUnsigned_slash between' after after'] at hsize
  obtain ⟨oname, oid, osize⟩ := o
  simp only at hfilename hfileid hsize
  simp only [scanFile, hnext, hnext', hsize, hfilename, hfileid, Option.bind_eq_bind, Option.bind_some]

theorem scanFile_blank (text : List UInt8) : scanFile (32 :: text) = scanFile text := by
  rw [scanFile, scanWord_blank, scanFile]

/-- A single word is no offer. -/
theorem scanFile_word {word : List UInt8} (hs : Solid word) (hlen : word.length ≤ 255) : scanFile word = none := by
  cases hw : scanFile word with
  | none => rfl
  | some o =>
    obtain ⟨filename, rest, fileid, rest', hscan, hscan', -, -, -⟩ := scanFile_eq_some hw
    obtain ⟨hword, hrest, hne⟩ := scanWord_eq_some hscan
    have hskip : word.dropWhile isSpace = word := by
      cases word with
      | nil => rfl
      | cons b word => exact List.dropWhile_cons_of_neg (by simp [hs b List.mem_cons_self])
    have hwhole : filename = word := by
      rw [hword, hskip, List.take_of_length_le hlen]
      exact List.takeWhile_eq_self_iff.mpr fun b hb => by simp [hs b hb]
    rw [hskip, hwhole, List.drop_length] at hrest
    obtain ⟨hword', -, hne'⟩ := scanWord_eq_some hscan'
    rw [hrest] at hword'
    exact absurd hword' hne'

/-! The two names of a file that is added. -/

theorem cutSlashes_cases {path : CString} (h : beforeSlashes path ≠ []) :
    cutSlashes path = basename path ∨ ∃ before, (cutSlashes path).bytes = before ++ 47 :: (basename path).bytes ∧
      (47 : UInt8) ∉ (basename path).bytes := by
  have hsub : ((beforeSlashes path).reverse.takeWhile (· ≠ 47)).reverse.Sublist path.bytes := by
    have hrev := (List.takeWhile_sublist (fun b : UInt8 => decide (b ≠ 47)) (l := (beforeSlashes path).reverse)).reverse
    rw [List.reverse_reverse] at hrev
    exact hrev.trans (beforeSlashes_sublist path)
  have hcut : (cutSlashes path).bytes = beforeSlashes path := by
    rw [cutSlashes, if_neg h, bytes_part (beforeSlashes_sublist path)]
  have hbase : (basename path).bytes = ((beforeSlashes path).reverse.takeWhile (· ≠ 47)).reverse := by
    rw [basename, if_neg h, bytes_part hsub]
  have hsplit : beforeSlashes path = ((beforeSlashes path).reverse.dropWhile (· ≠ 47)).reverse ++
      ((beforeSlashes path).reverse.takeWhile (· ≠ 47)).reverse := by
    rw [← List.reverse_append, List.takeWhile_append_dropWhile, List.reverse_reverse]
  cases hd : (beforeSlashes path).reverse.dropWhile (· ≠ 47) with
  | nil =>
    rw [hd, List.reverse_nil, List.nil_append, ← hbase, ← hcut] at hsplit
    exact .inl (CString.ext_bytes hsplit)
  | cons b l =>
    have hb : b = 47 := by
      have hhead := List.head?_dropWhile_not (fun b : UInt8 => decide (b ≠ 47)) (beforeSlashes path).reverse
      rw [hd] at hhead
      simpa using hhead
    refine .inr ⟨l.reverse, ?_, ?_⟩
    · rw [hcut, hbase]
      refine hsplit.trans ?_
      rw [hd, hb, List.reverse_cons, List.append_assoc, List.singleton_append]
    · rw [hbase, List.mem_reverse]
      exact fun hm => absurd (List.mem_takeWhile_imp hm) (by decide)

/-- A path of nothing but slashes has no white space. -/
theorem solid_slashes {path : CString} (h : beforeSlashes path = []) : Solid path.bytes := by
  have hall := List.dropWhile_eq_nil_iff.mp (List.reverse_eq_nil_iff.mp h)
  intro b hb
  have hb' : b = 47 := by simpa using hall b (List.mem_reverse.mpr hb)
  rw [hb']
  decide

theorem chosenId_base58 {info : FileInfo} (h : info.valid = true) (drawn : PublicKey) :
    (info.chosenId drawn).strlen ≤ 44 ∧ (47 : UInt8) ∉ (info.chosenId drawn).bytes := by
  obtain ⟨key, hkey⟩ := chosenId_eq_base58 h drawn
  rw [hkey]
  exact ⟨(Friends.base58Key key).short, fun h => absurd (Friends.le_of_mem_base58Text h) (by decide)⟩

/-- What is recorded of a file that is added. -/
def FileInfo.recorded (info : FileInfo) (drawn : PublicKey) : Offer :=
  ⟨basename info.filename, info.chosenId drawn, info.size⟩

/-- An offer whose name has no white space is read back, whatever the file is. -/
theorem scanFile_printed {info : FileInfo} (h : info.valid = true) (drawn : PublicKey) {name : CString}
    (hname : Solid name.bytes) (hne : name ≠ .empty) (hlen : name.strlen ≤ 255) :
    scanFile (32 :: fileBytes ⟨name, info.chosenId drawn, info.size⟩) =
      some ⟨name, info.chosenId drawn, info.size⟩ := by
  obtain ⟨hid, hlen'⟩ := chosenId_solid h drawn
  rw [← scanOffer_printed]
  exact scanOffer_offerCookie hname hne hlen hid (chosenId_ne_empty info drawn) hlen'

theorem filename_ne_empty {info : FileInfo} (h : info.valid = true) : info.filename ≠ .empty := by
  simp only [FileInfo.valid, Bool.and_eq_true, decide_eq_true_eq] at h
  exact h.1.1

theorem scanFile_recorded {info : FileInfo} (h : info.valid = true) (drawn : PublicKey) :
    scanFile (32 :: fileBytes (info.recorded drawn)) = some (info.recorded drawn) ↔
      Solid (basename info.filename).bytes := by
  have hsub := (basename_sublist (filename_ne_empty h)).length_le
  exact ⟨fun hscan => scanFile_solid hscan, fun hs =>
    scanFile_printed h drawn hs (basename_ne_empty _) (hsub.trans info.filenameFits)⟩

/-- The cookie of a file that is added is read as what is recorded, where the path is its own base name or where
its words happen to spell the offer. -/
theorem scanFile_added {info : FileInfo} (h : info.valid = true) (drawn : PublicKey) :
    scanFile (32 :: fileBytes (info.offer drawn)) = some (info.recorded drawn) ↔
      (cutSlashes info.filename = basename info.filename ∧ Solid (basename info.filename).bytes) ∨
        scanFile (cutSlashes info.filename).bytes = some (info.recorded drawn) := by
  have hlen : (cutSlashes info.filename).strlen ≤ 255 := (cutSlashes_sublist _).length_le.trans info.filenameFits
  by_cases hcut : Solid (cutSlashes info.filename).bytes
  · rw [show info.offer drawn = ⟨cutSlashes info.filename, info.chosenId drawn, info.size⟩ from rfl,
      scanFile_printed h drawn hcut (cutSlashes_ne_empty (filename_ne_empty h)) hlen, scanFile_word hcut hlen,
      or_iff_left (by simp), FileInfo.recorded, Option.some.injEq, Offer.mk.injEq, and_iff_left ⟨rfl, rfl⟩]
    exact ⟨fun heq => ⟨heq, heq ▸ hcut⟩, fun heq => heq.1⟩
  · have hself : ¬ (cutSlashes info.filename = basename info.filename ∧ Solid (basename info.filename).bytes) :=
      fun ⟨heq, hs⟩ => hcut (heq ▸ hs)
    rw [or_iff_right hself]
    have hname : beforeSlashes info.filename ≠ [] := fun hnil => hcut (by
      rw [cutSlashes, if_pos hnil]
      exact solid_slashes hnil)
    rcases cutSlashes_cases hname with heq | ⟨before, hbytes, hslash⟩
    · have hspace : ∀ text, scanFile text ≠ some (info.recorded drawn) := fun text hscan =>
        hcut (heq ▸ scanFile_solid hscan)
      exact iff_of_false (hspace _) (hspace _)
    · have hshort : (basename info.filename).strlen < 255 := by
        rw [CString.strlen, hbytes, List.length_append, List.length_cons] at hlen
        rw [CString.strlen]
        omega
      obtain ⟨hidlen, hid⟩ := chosenId_base58 h drawn
      -- Neither scan gets as far as the last slash.
      have hstops : ∀ after after' : List UInt8, (0 : UInt8) ∉ (32 :: before) ++ 47 :: after →
          scanFile ((32 :: before) ++ 47 :: after) = some (info.recorded drawn) →
            scanFile ((32 :: before) ++ 47 :: after') = some (info.recorded drawn) :=
        fun after after' hz hscan => scanFile_slash hscan hz hslash hshort hid (Nat.lt_succ_of_le hidlen) after'
      have hprinted : 32 :: fileBytes (info.offer drawn) = (32 :: before) ++ 47 :: ((basename info.filename).bytes ++
          32 :: ((info.chosenId drawn).bytes ++ 32 :: printUnsigned info.size.toNat)) := by
        simp [fileBytes, FileInfo.offer, hbytes]
      have hpath : 32 :: (cutSlashes info.filename).bytes =
          (32 :: before) ++ 47 :: (basename info.filename).bytes := by
        rw [hbytes, List.cons_append]
      rw [← scanFile_blank (cutSlashes info.filename).bytes, hprinted, hpath]
      refine ⟨hstops _ _ fun hz => ?_, hstops _ _ fun hz => ?_⟩
      · rw [← hprinted] at hz
        refine (offerCookie (info.offer drawn)).noNul ?_
        rw [bytes_offerCookie]
        exact List.mem_append_right _ hz
      · rw [← hpath] at hz
        exact (cutSlashes info.filename).noNul ((List.mem_cons.mp hz).resolve_left (by decide))

/-! The calls. -/

theorem elaFiletransferNew_ok {info : FileInfo} {drawn : PublicKey} {ext alloc : Bool} {ft : ElaFileTransfer}
    (h : elaFiletransferNew (some info) drawn ext alloc = .ok ft) :
    info.valid = true ∧ ft.files 0 = newItem (info.chosenId drawn) info.filename info.size := by
  unfold elaFiletransferNew at h
  split at h
  · cases h
  next hvalid =>
    split at h
    · cases h
    split at h
    · cases h
    · cases h
      exact ⟨by simpa using hvalid, rfl⟩

theorem elaFiletransferAdd_ok {Tag : Type} {ft : ElaFileTransfer} {chs : Channels Tag} {info : FileInfo}
    {drawn : PublicKey} {alloc : Alloc} {sent : Bool} {tag : Tag}
    (h : (elaFiletransferAdd ft chs info drawn alloc sent tag).ret = .ok ()) : info.valid = true ∧
      ∃ i c, alloc = .id c ∧ checkAdd ft info = .ok i ∧ elaFiletransferAdd ft chs info drawn alloc sent tag =
        ⟨ft.put i ⟨info.chosenId drawn, some (basename info.filename), info.size, .standby, some c⟩,
          chs.insert c ⟨0, .opening, tag⟩,
          [sendPacket .channelOpen .user c 0 (cookiePayload (some (offerCookie (info.offer drawn)))) tag], .ok ()⟩ := by
  unfold elaFiletransferAdd at h ⊢
  cases hcheck : checkAdd ft info with
  | error e =>
    rw [hcheck] at h
    cases h
  | ok i =>
    have hvalid : info.valid = true := by
      by_contra hinvalid
      rw [checkAdd, if_pos (by simpa using hinvalid)] at hcheck
      cases hcheck
    simp only [hcheck] at h ⊢
    cases alloc with
    | outOfMemory => cases h
    | limitExceeded => cases h
    | id c =>
      cases sent with
      | false => cases h
      | true => exact ⟨hvalid, i, c, rfl, rfl, rfl⟩

/-- What the receiver reads is what the sender's item records: for the first file where its base name has no white
space, for a file that is added where the path is besides its own base name, or happens to spell the offer. -/
theorem offers_survive_iff (info : FileInfo) (drawn : PublicKey) :
    (∀ (ext alloc : Bool) (ft : ElaFileTransfer),
      elaFiletransferNew (some info) drawn ext alloc = .ok ft →
        (ft.files 0).offer = some (info.recorded drawn) ∧
        (sessionreqCallback (senderBundle (ft.files 0)) = some (some (info.recorded drawn)) ↔
          Solid (basename info.filename).bytes) ∧
        ((senderCookie (ft.files 0)).bind scanOffer = some (info.recorded drawn) ↔
          Solid (basename info.filename).bytes)) ∧
    ∀ (ft : ElaFileTransfer) (chs : Channels Nat) (alloc : Alloc) (sent : Bool) (tag : Nat),
      (elaFiletransferAdd ft chs info drawn alloc sent tag).ret = .ok () →
        ∃ i pb, (elaFiletransferAdd ft chs info drawn alloc sent tag).sent = [pb] ∧ checkAdd ft info = .ok i ∧
          ((elaFiletransferAdd ft chs info drawn alloc sent tag).ft.files i).offer = some (info.recorded drawn) ∧
          ((payloadCookie pb.payload).bind scanOffer = some (info.recorded drawn) ↔
            (cutSlashes info.filename = basename info.filename ∧ Solid (basename info.filename).bytes) ∨
              scanFile (cutSlashes info.filename).bytes = some (info.recorded drawn)) := by
  constructor
  · intro ext alloc ft hnew
    obtain ⟨hvalid, hitem⟩ := elaFiletransferNew_ok hnew
    have hbundle : senderBundle (ft.files 0) = offerCookie (info.recorded drawn) := by rw [hitem]; rfl
    have hcookie : senderCookie (ft.files 0) = some (offerCookie (info.recorded drawn)) := by rw [hitem]; rfl
    refine ⟨by rw [hitem]; rfl, ?_, ?_⟩
    · rw [hbundle, sessionreqCallback_printed, Option.map_eq_some_iff]
      simp only [Option.some.injEq, exists_eq_right]
      exact scanFile_recorded hvalid drawn
    · rw [hcookie, Option.bind_some, scanOffer_printed]
      exact scanFile_recorded hvalid drawn
  · intro ft chs alloc sent tag hadded
    obtain ⟨hvalid, i, c, -, hcheck, hadd⟩ := elaFiletransferAdd_ok hadded
    rw [hadd]
    refine ⟨i, _, rfl, hcheck, ?_, ?_⟩
    · exact congrArg FileTransferItem.offer (Function.update_self i _ ft.files)
    · rw [show (sendPacket .channelOpen .user c 0 (cookiePayload (some (offerCookie (info.offer drawn)))) tag).payload =
        cookiePayload (some (offerCookie (info.offer drawn))) from rfl, payloadCookie_cookiePayload, Option.bind_some,
        scanOffer_printed]
      exact scanFile_added hvalid drawn

theorem noFileid_le : CString.empty.strlen ≤ 45 := Nat.zero_le _

/-- A name with a blank, and a path with a directory. -/
def blankName : FileInfo := ⟨⟨[97, 32, 98], by decide⟩, .empty, 5, by decide, noFileid_le⟩
def pathName : FileInfo := ⟨⟨[100, 47, 102], by decide⟩, .empty, 5, by decide, noFileid_le⟩

theorem offers_garbled :
    (¬ ∀ (info : FileInfo) (drawn : PublicKey) (ext alloc : Bool) (ft : ElaFileTransfer),
      elaFiletransferNew (some info) drawn ext alloc = .ok ft →
        sessionreqCallback (senderBundle (ft.files 0)) = some (ft.files 0).offer) ∧
    ¬ ∀ (ft : ElaFileTransfer) (chs : Channels Nat) (info : FileInfo) (drawn : PublicKey) (alloc : Alloc) (sent : Bool)
      (tag : Nat) (i : Slot), checkAdd ft info = .ok i →
        ∀ pb ∈ (elaFiletransferAdd ft chs info drawn alloc sent tag).sent, (payloadCookie pb.payload).bind scanOffer =
          ((elaFiletransferAdd ft chs info drawn alloc sent tag).ft.files i).offer := by
  constructor
  · intro h
    exact absurd (h blankName 0 true true _ rfl) (by decide +kernel)
  · intro h
    exact absurd (h (connectedTransfer .sender none) ∅ pathName 0 (.id 1) true 1 0 rfl _ List.mem_cons_self)
      (by decide +kernel)

end CarrierSdk.FileTransfer
