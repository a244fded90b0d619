import CarrierSdk.FileTransfer.Transfer
import CarrierSdk.Friends.KeyCodec
import CarrierSdk.Mux.Cookies

/-! Files are offered over channels of their own: the cookie of a channel, the calls that open one, and two
transfers with any number of files. -/
namespace CarrierSdk.FileTransfer
open Mux

/-! Texts. -/

/-- isspace in the C locale. -/
def isSpace (b : UInt8) : Bool := decide (b = 32) || decide (9 ≤ b) && decide (b ≤ 13)

def isDigit (b : UInt8) : Bool := decide (48 ≤ b) && decide (b ≤ 57)

/-- %llu of printf. -/
def printUnsigned (n : Nat) : List UInt8 :=
  if n = 0 then [48] else ((Nat.digits 10 n).map fun d => UInt8.ofNat (48 + d)).reverse

def digitsValue (digits : List UInt8) : Nat := digits.foldl (fun n b => n * 10 + (b.toNat - 48)) 0

/-- %s of sscanf with a width. -/
def scanWord (width : Nat) (text : List UInt8) : Option (List UInt8 × List UInt8) :=
  let text := text.dropWhile isSpace
  let word := (text.take width).takeWhile (!isSpace ·)
  if word = [] then none else some (word, text.drop word.length)

/-- %llu of sscanf, which takes a sign as well. A number that is too large stands for the largest. -/
def scanUnsigned (text : List UInt8) : Option UInt64 :=
  let text := text.dropWhile isSpace
  let digits := (if text.head? = some 43 ∨ text.head? = some 45 then text.tail else text).takeWhile isDigit
  let value := digitsValue digits
  if digits = [] then none
  else if 2 ^ 64 ≤ value then some (.ofNat (2 ^ 64 - 1))
  else if text.head? = some 45 then some (0 - .ofNat value)
  else some (.ofNat value)

/-- The string that an array begins with. -/
def arrayString (bytes : List UInt8) : CString := ⟨bytes.takeWhile (· ≠ 0), CString.zero_notMem_takeWhile bytes⟩

/-- bundle_prefix -/
def bundleName : List UInt8 := "filetransfer".toList.map fun c => UInt8.ofNat c.toNat

structure Offer where
  filename : CString
  fileid : CString
  filesz : UInt64
  deriving DecidableEq

def offerBytes (o : Offer) : List UInt8 :=
  bundleName ++ 32 :: (o.filename.bytes ++ 32 :: (o.fileid.bytes ++ 32 :: printUnsigned o.filesz.toNat))

/-- The cookie of a channel for a file. -/
def offerCookie (o : Offer) : CString := arrayString (offerBytes o)

def scanOffer (cookie : CString) : Option Offer := do
  let (name, text) ← scanWord 31 cookie.bytes
  let (filename, text) ← scanWord 255 text
  let (fileid, text) ← scanWord 45 text
  let filesz ← scanUnsigned text
  if name = bundleName then some ⟨arrayString filename, arrayString fileid, filesz⟩ else none

/-! What is printed is read back. -/

theorem digitsValue_printUnsigned (n : Nat) : digitsValue (printUnsigned n) = n := by
  unfold printUnsigned
  split
  next h => rw [h]; rfl
  have hfold : ∀ l : List Nat, (∀ d ∈ l, d < 10) →
      digitsValue (l.map fun d => UInt8.ofNat (48 + d)).reverse = Nat.ofDigits 10 l := by
    intro l
    induction l with
    | nil => exact fun _ => rfl
    | cons d l ih =>
      intro hl
      have hd : d < 10 := hl d List.mem_cons_self
      have hdigit : (UInt8.ofNat (48 + d)).toNat - 48 = d := by
        rw [UInt8.toNat_ofNat_of_lt' (by simp [UInt8.size]; omega)]
        omega
      rw [Nat.ofDigits_cons, ← ih fun e he => hl e (List.mem_cons_of_mem _ he)]
      simp only [digitsValue, List.map_cons, List.reverse_cons, List.foldl_append, List.foldl_cons, List.foldl_nil,
        hdigit]
      omega
  rw [hfold _ fun d hd => Nat.digits_lt_base (by decide) hd, Nat.ofDigits_digits]

theorem isDigit_printUnsigned {n : Nat} {b : UInt8} (h : b ∈ printUnsigned n) : isDigit b = true := by
  unfold printUnsigned at h
  split at h
  · rw [List.mem_singleton.mp h]
    decide
  · obtain ⟨d, hd, rfl⟩ := List.mem_map.mp (List.mem_reverse.mp h)
    have hlt : d < 10 := Nat.digits_lt_base (by decide) hd
    interval_cases d <;> decide

theorem printUnsigned_ne_nil (n : Nat) : printUnsigned n ≠ [] := by
  unfold printUnsigned
  split
  · exact List.cons_ne_nil _ _
  next h =>
    rw [Ne, List.reverse_eq_nil_iff, List.map_eq_nil_iff, Nat.digits_eq_nil_iff_eq_zero]
    exact h

/-- Text without white space. -/
def Solid (text : List UInt8) : Prop := ∀ b ∈ text, isSpace b = false

theorem not_isSpace {b : UInt8} (h : 48 ≤ b) : isSpace b = false := by
  simp only [isSpace, Bool.or_eq_false_iff, Bool.and_eq_false_iff, decide_eq_false_iff_not]
  rw [UInt8.le_iff_toNat_le] at h
  refine ⟨fun he => ?_, .inr fun hle => ?_⟩
  · rw [he] at h
    exact absurd h (by decide)
  · rw [UInt8.le_iff_toNat_le] at hle
    exact absurd (h.trans hle) (by decide)

theorem Solid.digits (n : Nat) : Solid (printUnsigned n) := by
  intro b hb
  have hd := isDigit_printUnsigned hb
  simp only [isDigit, Bool.and_eq_true, decide_eq_true_eq] at hd
  exact not_isSpace hd.1

theorem dropWhile_solid {text rest : List UInt8} (hs : Solid text) (hne : text ≠ []) :
    (text ++ rest).dropWhile isSpace = text ++ rest := by
  cases text with
  | nil => exact absurd rfl hne
  | cons b text => rw [List.cons_append, List.dropWhile_cons_of_neg (by simp [hs b List.mem_cons_self])]

/-- A word that ends at a blank is read as a whole. -/
theorem scanWord_word {width : Nat} {word rest : List UInt8} (hs : Solid word) (hne : word ≠ [])
    (hlen : word.length ≤ width) : scanWord width (word ++ 32 :: rest) = some (word, 32 :: rest) := by
  have hskip : (word ++ 32 :: rest).dropWhile isSpace = word ++ 32 :: rest := dropWhile_solid hs hne
  have hword : ((word ++ 32 :: rest).take width).takeWhile (!isSpace ·) = word := by
    have hkeep : ∀ b ∈ word, (!isSpace b) = true := fun b hb => by rw [hs b hb]; rfl
    rw [List.take_append, List.take_of_length_le hlen, List.takeWhile_append_of_pos hkeep]
    cases width - word.length with
    | zero => simp
    | succ k =>
      rw [List.take_succ_cons, List.takeWhile_cons_of_neg (by decide), List.append_nil]
  simp only [scanWord, hskip, hword, if_neg hne, List.drop_left]

theorem scanWord_blank (width : Nat) (text : List UInt8) : scanWord width (32 :: text) = scanWord width text := by
  simp only [scanWord, List.dropWhile_cons_of_pos (show isSpace 32 = true by decide)]

theorem scanUnsigned_printed {n : Nat} (h : n < 2 ^ 64) : scanUnsigned (32 :: printUnsigned n) = some (.ofNat n) := by
  have hskip : (32 :: printUnsigned n).dropWhile isSpace = printUnsigned n := by
    have hs : (printUnsigned n ++ []).dropWhile isSpace = printUnsigned n ++ [] :=
      dropWhile_solid (Solid.digits n) (printUnsigned_ne_nil n)
    rw [List.append_nil] at hs
    rw [List.dropWhile_cons_of_pos (by decide), hs]
  have hdigits : (printUnsigned n).takeWhile isDigit = printUnsigned n :=
    List.takeWhile_eq_self_iff.mpr fun b hb => isDigit_printUnsigned hb
  have hsign : ∀ b, (printUnsigned n).head? = some b → b ≠ 43 ∧ b ≠ 45 := by
    intro b hb
    have hd := isDigit_printUnsigned (List.mem_of_head? hb)
    constructor <;> rintro rfl <;> exact absurd hd (by decide)
  have hplus : (printUnsigned n).head? ≠ some 43 := fun hb => (hsign _ hb).1 rfl
  have hminus : (printUnsigned n).head? ≠ some 45 := fun hb => (hsign _ hb).2 rfl
  simp only [scanUnsigned, hskip, hplus, hminus, or_self, if_false, hdigits, digitsValue_printUnsigned,
    printUnsigned_ne_nil, if_neg (Nat.not_le.mpr h)]

theorem bytes_arrayString {l : List UInt8} (h : (0 : UInt8) ∉ l) : (arrayString l).bytes = l :=
  List.takeWhile_eq_self_iff.mpr fun _ hb => decide_eq_true fun hz => h (hz ▸ hb)

theorem arrayString_bytes (s : CString) : arrayString s.bytes = s := CString.ext_bytes (bytes_arrayString s.noNul)

theorem solid_bundleName : Solid bundleName := by
  have hall : (bundleName.all fun b => !isSpace b) = true := by decide
  exact fun b hb => by simpa using List.all_eq_true.mp hall b hb

theorem bytes_offerCookie (o : Offer) : (offerCookie o).bytes = offerBytes o := by
  refine bytes_arrayString fun hb => ?_
  have hbundle : (0 : UInt8) ∉ bundleName := by decide
  have hdigits : (0 : UInt8) ∉ printUnsigned o.filesz.toNat := fun h => absurd (isDigit_printUnsigned h) (by decide)
  simp [offerBytes, hbundle, hdigits, o.filename.noNul, o.fileid.noNul] at hb

/-- An offer that goes into a cookie is read back where neither name has white space. -/
theorem scanOffer_offerCookie {o : Offer} (hname : Solid o.filename.bytes) (hname' : o.filename ≠ .empty)
    (hlen : o.filename.strlen ≤ 255) (hid : Solid o.fileid.bytes) (hid' : o.fileid ≠ .empty)
    (hlen' : o.fileid.strlen ≤ 45) : scanOffer (offerCookie o) = some o := by
  have hne : ∀ {s : CString}, s ≠ .empty → s.bytes ≠ [] := fun h he => h (CString.ext_bytes he)
  have hbundle : scanWord 31 (offerBytes o) = some (bundleName, 32 :: (o.filename.bytes ++ 32 ::
      (o.fileid.bytes ++ 32 :: printUnsigned o.filesz.toNat))) :=
    scanWord_word solid_bundleName (by decide) (by decide)
  have hfilename : scanWord 255 (32 :: (o.filename.bytes ++ 32 :: (o.fileid.bytes ++ 32 ::
      printUnsigned o.filesz.toNat))) = some (o.filename.bytes, _) :=
    (scanWord_blank _ _).trans (scanWord_word hname (hne hname') hlen)
  have hfileid : scanWord 45 (32 :: (o.fileid.bytes ++ 32 :: printUnsigned o.filesz.toNat)) =
      some (o.fileid.bytes, _) :=
    (scanWord_blank _ _).trans (scanWord_word hid (hne hid') hlen')
  simp only [scanOffer, bytes_offerCookie, hbundle, hfilename, hfileid, scanUnsigned_printed o.filesz.toNat_lt,
    Option.bind_eq_bind, Option.bind_some, if_true, arrayString_bytes, UInt64.ofNat_toNat]

/-! Offers on the sender's side. -/

def ElaFileTransfer.getFileinfoFree (ft : ElaFileTransfer) : Option Slot :=
  ElaFileTransfer.slots.find? fun i => decide ((ft.files i).state = .none)

def ElaFileTransfer.put (ft : ElaFileTransfer) (i : Slot) (item : FileTransferItem) : ElaFileTransfer :=
  { ft with files := Function.update ft.files i item }

/-- ela_id_is_valid -/
def elaIdIsValid (id : CString) : Bool := decide (id ≠ .empty) && (Friends.base58Number 32 id).isSome

/-- struct ElaFileTransferInfo -/
structure FileInfo where
  filename : CString
  fileid : CString
  size : UInt64
  filenameFits : filename.strlen ≤ 255
  fileidFits : fileid.strlen ≤ 45

/-- What is asked of a file that is offered. -/
def FileInfo.valid (info : FileInfo) : Bool :=
  decide (info.filename ≠ .empty) && decide (info.size ≠ 0) &&
    (decide (info.fileid = .empty) || elaIdIsValid info.fileid)

/-- The file id that is given, or one that ela_filetransfer_fileid draws. -/
def FileInfo.chosenId (info : FileInfo) (drawn : PublicKey) : CString :=
  if info.fileid = .empty then (Friends.base58Key drawn).text else info.fileid

/-- The bytes of a path before the slashes that it ends with. -/
def beforeSlashes (path : CString) : List UInt8 := (path.bytes.reverse.dropWhile (· = 47)).reverse

/-- What basename makes of its argument: slashes at the end are cut off in place, unless there is nothing else. -/
def cutSlashes (path : CString) : CString :=
  if beforeSlashes path = [] then path else arrayString (beforeSlashes path)

/-- basename of a path that is not empty -/
def basename (path : CString) : CString :=
  if beforeSlashes path = [] then arrayString [47]
  else arrayString ((beforeSlashes path).reverse.takeWhile (· ≠ 47)).reverse

/-! Names and ids of offers. -/

theorem beforeSlashes_sublist (path : CString) : (beforeSlashes path).Sublist path.bytes := by
  have h : (beforeSlashes path).Sublist path.bytes.reverse.reverse := (List.dropWhile_sublist _).reverse
  rwa [List.reverse_reverse] at h

theorem bytes_part {path : CString} {l : List UInt8} (h : l.Sublist path.bytes) : (arrayString l).bytes = l :=
  bytes_arrayString fun hz => path.noNul (h.subset hz)

theorem cutSlashes_sublist (path : CString) : (cutSlashes path).bytes.Sublist path.bytes := by
  unfold cutSlashes
  split
  · exact List.Sublist.refl _
  · rw [bytes_part (beforeSlashes_sublist path)]
    exact beforeSlashes_sublist path

theorem cutSlashes_ne_empty {path : CString} (h : path ≠ .empty) : cutSlashes path ≠ .empty := by
  unfold cutSlashes
  split
  · exact h
  next hne =>
    intro he
    rw [← bytes_part (beforeSlashes_sublist path), he] at hne
    exact hne rfl

theorem basename_sublist {path : CString} (h : path ≠ .empty) : (basename path).bytes.Sublist path.bytes := by
  unfold basename
  split
  next hnil =>
    have hall : ∀ b ∈ path.bytes, b = 47 := by
      have hd : path.bytes.reverse.dropWhile (· = 47) = [] := List.reverse_eq_nil_iff.mp hnil
      intro b hb
      simpa using List.dropWhile_eq_nil_iff.mp hd b (List.mem_reverse.mpr hb)
    obtain ⟨b, hb⟩ := List.exists_mem_of_ne_nil path.bytes fun he => h (CString.ext_bytes he)
    exact List.singleton_sublist.mpr (hall b hb ▸ hb)
  · have hpart : ((beforeSlashes path).reverse.takeWhile (· ≠ 47)).reverse.Sublist path.bytes := by
      have hrev := (List.takeWhile_sublist (fun b : UInt8 => decide (b ≠ 47)) (l := (beforeSlashes path).reverse)).reverse
      rw [List.reverse_reverse] at hrev
      exact hrev.trans (beforeSlashes_sublist path)
    rw [bytes_part hpart]
    exact hpart

theorem basename_ne_empty (path : CString) : basename path ≠ .empty := by
  unfold basename
  split
  · decide
  next hne =>
    have hbytes : (0 : UInt8) ∉ ((beforeSlashes path).reverse.takeWhile (· ≠ 47)).reverse := by
      intro hz
      have hmem := (List.takeWhile_sublist _).subset (List.mem_reverse.mp hz)
      exact path.noNul ((beforeSlashes_sublist path).subset (List.mem_reverse.mp hmem))
    intro he
    have hnil := congrArg CString.bytes he
    rw [bytes_arrayString hbytes] at hnil
    rw [beforeSlashes, List.reverse_eq_nil_iff] at hne
    obtain ⟨b, l, hd⟩ := List.exists_cons_of_ne_nil hne
    have hhead := List.head?_dropWhile_not (fun b : UInt8 => decide (b = 47)) path.bytes.reverse
    rw [hd] at hhead
    have hb : b ≠ 47 := by simpa using hhead
    have hkeep : (b :: l).takeWhile (fun b : UInt8 => decide (b ≠ 47)) ≠ [] := by
      rw [List.takeWhile_cons_of_pos (by simpa using hb)]
      exact List.cons_ne_nil _ _
    rw [beforeSlashes, List.reverse_reverse, hd] at hnil
    exact hkeep (List.reverse_eq_nil_iff.mp hnil)

theorem chosenId_ne_empty (info : FileInfo) (drawn : PublicKey) : info.chosenId drawn ≠ .empty := by
  unfold FileInfo.chosenId
  split
  · exact Friends.base58Text_ne_empty (by decide) _
  next h => exact h

/-- The file id of an offer is a key in base58. -/
theorem chosenId_eq_base58 {info : FileInfo} (h : info.valid = true) (drawn : PublicKey) :
    ∃ key : PublicKey, info.chosenId drawn = (Friends.base58Key key).text := by
  unfold FileInfo.chosenId
  split
  · exact ⟨drawn, rfl⟩
  next hne =>
    have hid : elaIdIsValid info.fileid = true := by
      simp only [FileInfo.valid, hne, decide_false, Bool.false_or, Bool.and_eq_true] at h
      exact h.2
    simp only [elaIdIsValid, Bool.and_eq_true] at hid
    obtain ⟨n, hn⟩ := Option.isSome_iff_exists.mp hid.2
    obtain ⟨hlt, htext⟩ := Friends.base58Number_eq_some.mp hn
    exact ⟨⟨n, hlt⟩, htext.symm⟩

theorem chosenId_solid {info : FileInfo} (h : info.valid = true) (drawn : PublicKey) :
    Solid (info.chosenId drawn).bytes ∧ (info.chosenId drawn).strlen ≤ 45 := by
  obtain ⟨key, hkey⟩ := chosenId_eq_base58 h drawn
  rw [hkey]
  exact ⟨fun b hb => not_isSpace (UInt8.le_trans (by decide) (Friends.le_of_mem_base58Text hb)),
    (Friends.base58Key key).short.trans (by decide)⟩

/-! Adding a file. -/

variable {Tag : Type}

/-- A channel is opened for an item, which is dropped where that fails. -/
def offerItem (ft : ElaFileTransfer) (chs : Channels Tag) (i : Slot) (item : FileTransferItem) (cookie : CString)
    (alloc : Alloc) (sent : Bool) (tag : Tag) : FileResult Tag :=
  let r := openChannel chs alloc (cookiePayload (some cookie)) sent tag
  match r.ret, alloc with
  | .ok (), .id c => ⟨ft.put i { item with state := .standby, channel := some c }, r.channels, r.sent, .ok ()⟩
  | ret, _ => ⟨ft.put i { item with state := .none, filename := none, channel := none }, r.channels, r.sent, ret⟩

/-- The checks of ela_filetransfer_add, and the slot that the file gets. -/
def checkAdd (ft : ElaFileTransfer) (info : FileInfo) : Except MuxError Slot :=
  if !info.valid then .error .invalidArgs
  else if ft.senderReceiver ≠ .sender then .error .wrongState
  else if ft.state ≠ .connected then .error .wrongState
  else match ft.getFileinfoFree with
    | none => .error .limitExceeded
    | some i => .ok i

/-- The offer that goes into the cookie, after basename. -/
def FileInfo.offer (info : FileInfo) (drawn : PublicKey) : Offer :=
  ⟨cutSlashes info.filename, info.chosenId drawn, info.size⟩

def elaFiletransferAdd (ft : ElaFileTransfer) (chs : Channels Tag) (info : FileInfo) (drawn : PublicKey)
    (alloc : Alloc) (sent : Bool) (tag : Tag) : FileResult Tag :=
  match checkAdd ft info with
  | .error e => ⟨ft, chs, [], .error e⟩
  | .ok i =>
    offerItem ft chs i ⟨info.chosenId drawn, some (basename info.filename), info.size, .none, none⟩
      (offerCookie (info.offer drawn)) alloc sent tag

/-! Offers on the receiver's side. -/

/-- stream_channel_open: the transfer, and whether the channel is accepted. -/
def streamChannelOpen (ft : ElaFileTransfer) (channel : ChannelId) (cookie : Option CString) :
    ElaFileTransfer × Bool :=
  if ft.senderReceiver ≠ .receiver then (ft, false)
  else match cookie.bind scanOffer with
    | none => (ft, false)
    | some o =>
      match ft.getFileinfoFileid o.fileid with
      | none =>
        match ft.getFileinfoFree with
        | none => (ft, false)
        | some i => (ft.put i ⟨o.fileid, some o.filename, o.filesz, .standby, some channel⟩, true)
      | some i =>
        if (ft.files i).state ≠ .standby then (ft, false)
        else if (ft.files i).filesz ≠ o.filesz then (ft, false)
        else (ft.put i { ft.files i with channel := some channel }, true)

/-- The cookie that the open callback is passed. -/
def payloadCookie (payload : List UInt8) : Option CString := if payload = [] then none else CString.scan payload

/-! Two transfers. The left peer sends files, the right peer receives them. -/

inductive FilesInput
  | add (p : Peer) (info : FileInfo) (drawn : PublicKey) (alloc : Alloc) (sent : Bool)
  | call (p : Peer) (fileid : CString) (op : FileCall) (sent : Bool)
  | deliver (p : Peer) (tag : Nat) (alloc : Alloc) (sent more : Bool)

/-- Calls that succeeded, and callbacks of the application. -/
inductive FilesOutput
  | added (p : Peer)
  | transfer (o : TransferOutput)
  | file (p : Peer) (fileid : CString) (filename : Option CString) (filesz : UInt64)
  deriving DecidableEq

/-- What a callback of the stream does. -/
def filesEvent (p : Peer) (ft : ElaFileTransfer) (more : Bool) : MuxEvent → ElaFileTransfer × List FilesOutput
  | .channelOpen c payload => ((streamChannelOpen ft c (payloadCookie payload)).1, [])
  | .channelOpened c =>
    (ft,
      if ft.senderReceiver ≠ .receiver then []
      else match ft.getFileinfoChannel c with
        | none => []
        | some i => [.file p (ft.files i).fileid (ft.files i).filename (ft.files i).filesz])
  | e =>
    let r := handleEvent ft more e
    (r.1, (r.2.toList.map (.notified p)).map .transfer)

def filesEvents (p : Peer) (ft : ElaFileTransfer) (more : Bool) :
    List MuxEvent → ElaFileTransfer × List FilesOutput
  | [] => (ft, [])
  | e :: es =>
    let r := filesEvent p ft more e
    let q := filesEvents p r.1 more es
    (q.1, r.2 ++ q.2)

/-- The callbacks for opening and for data decide what the multiplexer does. -/
def filesEnv (ft : ElaFileTransfer) (pb : Packet) (alloc : Alloc) (sent more : Bool) : NotifyEnv where
  alloc := alloc
  accept := match alloc with
    | .id c => (streamChannelOpen ft c (payloadCookie pb.payload)).2
    | _ => false
  keep := (streamChannelData ft pb.localChannelId pb.payload more).keep
  sent := sent

def ofIncarnation (tag : Nat) (pb : Packet) : Bool := decide (pb.tag = tag)

/-- Of the packets of a channel the oldest is delivered. -/
def filesStep (s : Transfer) : FilesInput → Option (Transfer × List FilesOutput)
  | .add p info drawn alloc sent =>
    if allocFree (s.link.channels p) alloc then
      let r := elaFiletransferAdd (s.ft p) (s.link.channels p) info drawn alloc sent s.link.next
      some (⟨s.link.after p s.link.wire (s.link.next + 1) ⟨r.channels, r.sent, [], r.ret⟩,
          Function.update s.ft p r.ft⟩,
        match r.ret with
        | .ok () => [.added p]
        | .error _ => [])
    else none
  | .call p fileid op sent =>
    let r := fileCall (s.ft p) (s.link.channels p) fileid sent op
    some (⟨s.link.after p s.link.wire s.link.next ⟨r.channels, r.sent, [], r.ret⟩,
        Function.update s.ft p r.ft⟩,
      match r.ret with
      | .ok () => [.transfer (.called p op)]
      | .error _ => [])
  | .deliver p tag alloc sent more =>
    match (s.link.wire p.other).find? (ofIncarnation tag) with
    | none => none
    | some pb =>
      if allocFree (s.link.channels p) alloc then
        let r := notifyPacket (s.link.channels p) pb (filesEnv (s.ft p) pb alloc sent more)
        let q := filesEvents p (s.ft p) more r.events
        some (⟨s.link.after p (s.link.wire.takenFirst p.other (ofIncarnation tag)) s.link.next r,
          Function.update s.ft p q.1⟩, q.2)
      else none

def filesMachine : Machine Transfer FilesInput FilesOutput := ⟨filesStep⟩

/-- A file that the sender gave when it made the transfer, and the name and the size under which the receiver
gave it as well. The sender has compared the file ids. -/
structure FirstFile where
  info : FileInfo
  drawn : PublicKey
  known : Option (CString × UInt64)
  valid : info.valid = true

def FirstFile.fileid (f : FirstFile) : CString := f.info.chosenId f.drawn

/-- The item that ela_filetransfer_new makes. -/
def newItem (fileid path : CString) (size : UInt64) : FileTransferItem :=
  ⟨fileid, some (basename path), size, .standby, none⟩

def connectedTransfer (role : Role) (first : Option FileTransferItem) : ElaFileTransfer :=
  ⟨Function.update (fun _ => .unused) 0 (first.getD .unused), .connected, role⟩

/-- The offer of the first file has the name of the item. -/
def FirstFile.offer (f : FirstFile) : Offer := ⟨basename f.info.filename, f.fileid, f.info.size⟩

/-- Both peers have become connected. The sender has opened a channel for the first file. -/
def Transfer.connected (first : Option FirstFile) (alloc : Alloc) (sent : Bool) : Transfer :=
  let receiver := connectedTransfer .receiver
    (first.bind fun f => f.known.map fun k => newItem f.fileid k.1 k.2)
  match first with
  | none => ⟨Link.new, fun | .left => connectedTransfer .sender none | .right => receiver⟩
  | some f =>
    let item := newItem f.fileid f.info.filename f.info.size
    let r := offerItem (connectedTransfer .sender (some item)) ∅ 0 item (offerCookie f.offer) alloc sent Link.new.next
    ⟨Link.new.after .left Link.new.wire (Link.new.next + 1) ⟨r.channels, r.sent, [], r.ret⟩,
      fun | .left => r.ft | .right => receiver⟩

end CarrierSdk.FileTransfer
