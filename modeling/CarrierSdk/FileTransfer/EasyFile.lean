import CarrierSdk.Library.BufferedFile
import CarrierSdk.Library.Machine
import Mathlib.Data.UInt

/-! Receiving a file with EasyFile: the part file, the transfers that continue it, and the final
name. One transfer runs at a time, and one file is offered in it. -/
namespace CarrierSdk.FileTransfer

/-- The file of the sender. Its size is an off_t. -/
structure SentFile where
  bytes : List UInt8
  fits : bytes.length < 2 ^ 63

def SentFile.size (sent : SentFile) : UInt64 := .ofNat sent.bytes.length

/-- How far a transfer is: no file is announced, it has been cancelled, or pulled; the data callback has
counted the last byte; it has closed the part file. -/
inductive Stage | waiting | cancelled | pulled | complete | closed
  deriving DecidableEq

/-- struct EasyFile of a receiver. -/
structure EasyFile where
  stage : Stage
  filesz : UInt64
  offset : UInt64
  fp : BufferedFile
  deriving DecidableEq

/-- The part file, which a transfer may have open. -/
inductive PartFile
  | resting (bytes : Option (List UInt8))
  | receiving (file : EasyFile)
  deriving DecidableEq

structure Download where
  part : PartFile
  final : Option (List UInt8)
  deriving DecidableEq

/-- ela_file_recv where one of the checks on the names or fopen fails, where the transfer cannot be
accepted, or neither; and then the callbacks. The results of fwrite and fclose are the bytes
that get through. What is in the buffer goes to the disk at any time. -/
inductive DownloadInput
  | recv (opened accepted : Bool)
  | file (pulled : Bool)
  | data (data : List UInt8) (written flushed : Nat)
  | fclose (flushed : Nat)
  | rename
  | interrupted (flushed : Nat)
  deriving DecidableEq

inductive DownloadOutput
  | pull (offset : UInt64)
  | cancel
  | close
  deriving DecidableEq

/-- ela_file_recv. The file is opened for appending, which creates it. -/
def elaFileRecv (opened accepted : Bool) (final part : Option (List UInt8)) : PartFile :=
  if final.isSome || !opened then .resting part
  else
    let disk := part.getD []
    if accepted then .receiving ⟨.waiting, 0, .ofNat disk.length, .ofDisk disk⟩ else .resting (some disk)

def notifyFileCb (file : EasyFile) (size : UInt64) (pulled : Bool) : PartFile × List DownloadOutput :=
  let file := { file with filesz := size }
  if file.filesz ≤ file.offset then (.receiving { file with stage := .cancelled }, [.cancel])
  else if pulled then (.receiving { file with stage := .pulled }, [.pull file.offset])
  else (.resting (some file.fp.disk), [.close])

/-- notify_data_cb up to fclose. The result of fwrite, the number of blocks that were written
whole, is never negative. -/
def notifyDataCb (file : EasyFile) (data : List UInt8) (written flushed : Nat) :
    EasyFile × List DownloadOutput :=
  let fp := (file.fp.write data written).flush flushed
  let offset := file.offset + .ofNat data.length
  let file := { file with fp, offset }
  if file.filesz < file.offset then (file, [.cancel])
  else if file.offset = file.filesz then ({ file with stage := .complete }, [])
  else (file, [])

/-- The data continue the sent file, and are anything beyond its end. -/
def SentFile.continues (sent : SentFile) (offset : Nat) (data : List UInt8) : Prop :=
  data.take (sent.bytes.length - offset) = (sent.bytes.drop offset).take data.length

instance (sent : SentFile) (offset : Nat) (data : List UInt8) : Decidable (sent.continues offset data) :=
  inferInstanceAs (Decidable (_ = _))

def downloadStep (sent : SentFile) (s : Download) (input : DownloadInput) :
    Option (Download × List DownloadOutput) :=
  match input, s.part with
  | .recv opened accepted, .resting part => some (⟨elaFileRecv opened accepted s.final part, s.final⟩, [])
  | .file pulled, .receiving file =>
    if file.stage = .waiting ∨ file.stage = .cancelled then
      let r := notifyFileCb file sent.size pulled
      some (⟨r.1, s.final⟩, r.2)
    else none
  | .data data written flushed, .receiving file =>
    if file.stage = .pulled ∧ sent.continues file.offset.toNat data then
      let r := notifyDataCb file data written flushed
      some (⟨.receiving r.1, s.final⟩, r.2)
    else none
  | .fclose flushed, .receiving file =>
    if file.stage = .complete then
      some (⟨.receiving { file with stage := .closed, fp := file.fp.finish flushed }, s.final⟩, [])
    else none
  | .rename, .receiving file =>
    if file.stage = .closed then some (⟨.resting none, some file.fp.disk⟩, [.close]) else none
  | .interrupted flushed, .receiving file =>
    some (⟨.resting (some (file.fp.finish flushed).disk), s.final⟩, [])
  | _, _ => none

def downloadMachine (sent : SentFile) : Machine Download DownloadInput DownloadOutput := ⟨downloadStep sent⟩

/-! What is promised. -/

/-- What is on the disk under the name of the part file. -/
def PartFile.disk : PartFile → Option (List UInt8)
  | .resting bytes => bytes
  | .receiving file => some file.fp.disk

/-- No transfer whose file is announced stays with a part file of the announced size. -/
structure Exact (sent : SentFile) (s : Download) : Prop where
  disk : ∀ l ∈ s.part.disk, l <+: sent.bytes
  final : ∀ l ∈ s.final, l = sent.bytes
  renamed : ∀ file, s.part = .receiving file → file.stage = .cancelled ∨ file.stage = .pulled →
    file.fp.contents.length ≠ sent.bytes.length

/-- When the file is announced, the part file is not complete. Data come only while all bytes
before them were written, do not go beyond the end of the file, and are written whole
where they complete it. What is in the buffer when the file is closed gets to the disk. -/
def writesWhole (sent : SentFile) (s : Download) (input : DownloadInput) : Bool :=
  match input, s.part with
  | .file _, .receiving file => file.offset < sent.size
  | .data data written _, .receiving file =>
    data = [] || (file.fp.contents.length = file.offset.toNat &&
      (file.offset.toNat + data.length < sent.bytes.length ||
        (file.offset.toNat + data.length = sent.bytes.length && data.length ≤ written)))
  | .fclose flushed, .receiving file => file.fp.buffered.length ≤ flushed
  | _, _ => true

/-! The invariant of a transfer. -/

variable {sent : SentFile}

/-- Bytes are counted at least as fast as they are written. -/
structure Progress (sent : SentFile) (file : EasyFile) : Prop where
  written : file.fp.contents <+: sent.bytes
  counted : file.fp.contents.length ≤ file.offset.toNat
  bounded : file.offset.toNat ≤ sent.bytes.length
  waiting : file.stage = .waiting → file.fp.contents.length = file.offset.toNat
  uncancelled : file.stage ≠ .cancelled
  pulled : file.stage = .pulled → file.filesz = sent.size ∧ file.offset.toNat < sent.bytes.length
  complete : file.stage = .complete → file.fp.contents = sent.bytes
  closed : file.stage = .closed → file.fp.disk = sent.bytes

def PartFile.Sound (sent : SentFile) : PartFile → Prop
  | .resting bytes => ∀ l ∈ bytes, l <+: sent.bytes
  | .receiving file => Progress sent file

structure Download.Sound (sent : SentFile) (s : Download) : Prop where
  part : s.part.Sound sent
  final : ∀ l ∈ s.final, l = sent.bytes

theorem SentFile.toNat_size (sent : SentFile) : sent.size.toNat = sent.bytes.length := by
  have := sent.fits
  simp [SentFile.size, UInt64.toNat_ofNat']
  omega

theorem SentFile.lt_size_iff {sent : SentFile} {offset : UInt64} :
    offset < sent.size ↔ offset.toNat < sent.bytes.length := by
  rw [UInt64.lt_iff_toNat_lt, sent.toNat_size]

/-- Bytes that continue what a prefix of the file counts give the next prefix. -/
theorem SentFile.append_continues {l data : List UInt8} (hl : l <+: sent.bytes)
    (hdata : sent.continues l.length data) (hfit : l.length + data.length ≤ sent.bytes.length) :
    l ++ data = sent.bytes.take (l.length + data.length) := by
  rw [SentFile.continues, List.take_of_length_le (by omega)] at hdata
  rw [List.take_add, ← hdata, ← List.prefix_iff_eq_take.mp hl]

theorem elaFileRecv_sound {opened accepted : Bool} {final part : Option (List UInt8)}
    (h : ∀ l ∈ part, l <+: sent.bytes) : (elaFileRecv opened accepted final part).Sound sent := by
  have hdisk : part.getD [] <+: sent.bytes := by
    cases part with
    | none => exact List.nil_prefix
    | some l => exact h l rfl
  have hlength := hdisk.length_le
  have hfits := sent.fits
  have hoffset : (UInt64.ofNat (part.getD []).length).toNat = (part.getD []).length := by
    rw [UInt64.toNat_ofNat']
    omega
  unfold elaFileRecv
  split
  · exact h
  · cases accepted with
    | false =>
      intro l hl
      cases hl
      exact hdisk
    | true => constructor <;> simp [hoffset, hdisk, hlength]

theorem notifyFileCb_sound {file : EasyFile} {pulled : Bool} (h : Progress sent file)
    (hlt : file.offset < sent.size) : (notifyFileCb file sent.size pulled).1.Sound sent := by
  have hoffset : file.offset.toNat < sent.bytes.length := SentFile.lt_size_iff.mp hlt
  unfold notifyFileCb
  simp only [if_neg (UInt64.not_le.mpr hlt)]
  cases pulled with
  | false =>
    intro l hl
    cases hl
    exact file.fp.disk_isPrefix.trans h.written
  | true => constructor <;> simp [h.written, h.counted, h.bounded, hoffset]

/-- What the writes of the data callback may do while all bytes before were written. -/
structure WholeBlock (sent : SentFile) (file : EasyFile) (data : List UInt8) (written : Nat) : Prop where
  continued : sent.continues file.offset.toNat data
  whole : data = [] ∨ (file.fp.contents.length = file.offset.toNat ∧
    (file.offset.toNat + data.length < sent.bytes.length ∨
      (file.offset.toNat + data.length = sent.bytes.length ∧ data.length ≤ written)))

namespace WholeBlock
variable {file : EasyFile} {data : List UInt8} {written : Nat}

theorem fits (h : WholeBlock sent file data written) (hlt : file.offset.toNat < sent.bytes.length) :
    file.offset.toNat + data.length ≤ sent.bytes.length := by
  rcases h.whole with rfl | ⟨-, hless | ⟨heq, -⟩⟩
  · exact Nat.le_of_lt hlt
  · exact Nat.le_of_lt hless
  · exact Nat.le_of_eq heq

theorem written_isPrefix (h : WholeBlock sent file data written) (hp : Progress sent file)
    (hlt : file.offset.toNat < sent.bytes.length) :
    file.fp.contents ++ data.take written <+: sent.bytes := by
  have hfit := h.fits hlt
  rcases h.whole with rfl | ⟨hcounted, -⟩
  · simpa using hp.written
  · have hdata := h.continued
    rw [← hcounted] at hdata hfit
    have hblock : file.fp.contents ++ data.take written <+: file.fp.contents ++ data :=
      (List.prefix_append_right_inj _).mpr (List.take_prefix _ _)
    rw [sent.append_continues hp.written hdata hfit] at hblock
    exact hblock.trans (List.take_prefix _ _)

theorem completes (h : WholeBlock sent file data written) (hp : Progress sent file)
    (hlt : file.offset.toNat < sent.bytes.length)
    (hend : file.offset.toNat + data.length = sent.bytes.length) :
    file.fp.contents ++ data.take written = sent.bytes := by
  rcases h.whole with rfl | ⟨hcounted, hless | ⟨-, hwritten⟩⟩
  · rw [List.length_nil] at hend
    omega
  · omega
  · have hdata := h.continued
    rw [← hcounted] at hdata hend
    rw [List.take_of_length_le hwritten, sent.append_continues hp.written hdata (Nat.le_of_eq hend), hend,
      List.take_length]

end WholeBlock

theorem notifyDataCb_progress {file : EasyFile} {data : List UInt8} {written flushed : Nat}
    (h : Progress sent file) (hstage : file.stage = .pulled) (hblock : WholeBlock sent file data written) :
    Progress sent (notifyDataCb file data written flushed).1 := by
  obtain ⟨hsize, hlt⟩ := h.pulled hstage
  have hfit := hblock.fits hlt
  have hfits := sent.fits
  have hoffset : (file.offset + .ofNat data.length).toNat = file.offset.toNat + data.length := by
    rw [UInt64.toNat_add, UInt64.toNat_ofNat']
    omega
  have hnot : ¬ file.filesz < file.offset + .ofNat data.length := by
    rw [hsize, UInt64.lt_iff_toNat_lt, hoffset, sent.toNat_size]
    omega
  unfold notifyDataCb
  simp only [if_neg hnot]
  generalize hdef : (file.fp.write data written).flush flushed = fp
  have hfp : fp.contents = file.fp.contents ++ data.take written := by
    rw [← hdef, BufferedFile.contents_flush, BufferedFile.contents_write]
  have hwritten : fp.contents <+: sent.bytes := hfp ▸ hblock.written_isPrefix h hlt
  have hcounted : fp.contents.length ≤ file.offset.toNat + data.length := by
    have := h.counted
    rw [hfp, List.length_append, List.length_take]
    omega
  split
  · rename_i heq
    have hend : file.offset.toNat + data.length = sent.bytes.length := by
      rw [← hoffset, heq, hsize, sent.toNat_size]
    have hcomplete : fp.contents = sent.bytes := hfp ▸ hblock.completes h hlt hend
    refine ⟨hwritten, hoffset ▸ hcounted, hoffset ▸ hfit, ?_, ?_, ?_, ?_, ?_⟩ <;> simp [hcomplete]
  · rename_i hne
    have hless : file.offset.toNat + data.length < sent.bytes.length := by
      refine Nat.lt_of_le_of_ne hfit fun hend => hne ?_
      rw [← UInt64.toNat_inj, hoffset, hsize, sent.toNat_size, hend]
    refine ⟨hwritten, hoffset ▸ hcounted, hoffset ▸ hfit, ?_, ?_, ?_, ?_, ?_⟩ <;>
      simp [hstage, hoffset, hsize, hless]

theorem Progress.fclose {file : EasyFile} {flushed : Nat} (h : Progress sent file)
    (hcomplete : file.stage = .complete) (hflushed : file.fp.buffered.length ≤ flushed) :
    Progress sent { file with stage := .closed, fp := file.fp.finish flushed } := by
  have hdisk : (file.fp.finish flushed).disk = sent.bytes := by
    rw [BufferedFile.finish_whole hflushed, h.complete hcomplete]
  have hcontents : (file.fp.finish flushed).contents = sent.bytes := by
    rw [BufferedFile.contents, hdisk]
    exact List.append_nil _
  have hcounted := h.counted
  rw [h.complete hcomplete] at hcounted
  constructor <;> simp [hcontents, hdisk, hcounted, h.bounded]

theorem Progress.finish_isPrefix {file : EasyFile} (h : Progress sent file) (n : Nat) :
    (file.fp.finish n).disk <+: sent.bytes :=
  (file.fp.finish_isPrefix n).trans h.written

theorem downloadStep_sound {s t : Download} {input : DownloadInput} {o : List DownloadOutput}
    (h : s.Sound sent) (hg : writesWhole sent s input = true) (hs : downloadStep sent s input = some (t, o)) :
    t.Sound sent := by
  obtain ⟨part, final⟩ := s
  obtain ⟨hpart, hfinal⟩ := h
  cases part with
  | resting part =>
    cases input with
    | recv opened accepted =>
      cases hs
      exact ⟨elaFileRecv_sound hpart, hfinal⟩
    | _ => cases hs
  | receiving file =>
    cases input with
    | recv opened accepted => cases hs
    | file pulled =>
      simp only [downloadStep] at hs
      split at hs <;> cases hs
      exact ⟨notifyFileCb_sound hpart (of_decide_eq_true hg), hfinal⟩
    | data data written flushed =>
      simp only [downloadStep] at hs
      split at hs <;> cases hs
      next hdata =>
        refine ⟨notifyDataCb_progress hpart hdata.1 ⟨hdata.2, ?_⟩, hfinal⟩
        simpa [writesWhole] using hg
    | fclose flushed =>
      simp only [downloadStep] at hs
      split at hs <;> cases hs
      next hcomplete => exact ⟨Progress.fclose hpart hcomplete (of_decide_eq_true hg), hfinal⟩
    | rename =>
      simp only [downloadStep] at hs
      split at hs <;> cases hs
      next hclosed =>
        refine ⟨fun l hl => (by cases hl), fun l hl => ?_⟩
        cases hl
        exact hpart.closed hclosed
    | interrupted flushed =>
      cases hs
      refine ⟨fun l hl => ?_, hfinal⟩
      cases hl
      exact Progress.finish_isPrefix hpart flushed

theorem Download.Sound.exact {s : Download} (h : s.Sound sent) : Exact sent s := by
  obtain ⟨part, final⟩ := s
  obtain ⟨hpart, hfinal⟩ := h
  refine ⟨?_, hfinal, ?_⟩
  · cases part with
    | resting bytes => exact hpart
    | receiving file =>
      intro l hl
      cases hl
      exact file.fp.disk_isPrefix.trans hpart.written
  · rintro file hfile (hstage | hstage) hlength <;> cases hfile
    · exact hpart.uncancelled hstage
    · have hcounted := hpart.counted
      have hlt := (hpart.pulled hstage).2
      omega

/-- Runs begin with a directory without the final name, whose part file, if there is one, holds a
prefix of the sent file. Where each step writes whole, the part file is a prefix in every
state, what gets the final name is the sent file, and no complete part file is left. -/
theorem received_exact {bytes : Option (List UInt8)} (hpart : ∀ l ∈ bytes, l <+: sent.bytes) {u : Download}
    {is : List DownloadInput} {os : List DownloadOutput}
    (h : (downloadMachine sent).Run (fun s input => writesWhole sent s input = true)
      ⟨.resting bytes, none⟩ is os u) : Exact sent u := by
  have hstart : Download.Sound sent ⟨.resting bytes, none⟩ := ⟨hpart, fun l hl => by cases hl⟩
  exact (h.invariant (fun hsound hg hs => downloadStep_sound hsound hg hs) hstart).exact

/-- A file of three bytes. -/
def threeBytes : SentFile := ⟨[1, 2, 3], by decide⟩

/-- The first byte is in the part file already. The second is written and lost with the buffer
when the transfer is interrupted; the next transfer gets the rest. -/
def interruptedOnce : List DownloadInput :=
  [.recv true true, .file true, .data [2] 1 0, .interrupted 0, .recv true true, .file true, .data [2] 1 1,
    .data [3] 1 0, .fclose 1, .rename]

theorem received_exact_interrupted : ∃ u, Exact threeBytes u ∧ u = ⟨.resting none, some [1, 2, 3]⟩ := by
  obtain ⟨u, os, he, hp⟩ := (downloadMachine threeBytes).exec_any ⟨.resting (some [1]), none⟩ interruptedOnce
    (fun r => decide (r.1 = ⟨.resting none, some [1, 2, 3]⟩)) (by decide +kernel)
  have hrun := Machine.run_of_exec (fun _ _ h => h) he
    (show (downloadMachine threeBytes).guarded (writesWhole threeBytes) ⟨.resting (some [1]), none⟩
      interruptedOnce = true by decide +kernel)
  have hpart : ∀ l ∈ some [1], l <+: threeBytes.bytes := by
    intro l hl
    cases hl
    exact ⟨[2, 3], rfl⟩
  exact ⟨u, received_exact hpart hrun, of_decide_eq_true hp⟩

/-- Of the first block only one byte is written. The second block is appended to it, completes the
count, and the file is presented under its final name. -/
theorem received_corrupt : ∃ u os, (downloadMachine threeBytes).Run Machine.Free ⟨.resting none, none⟩
      [.recv true true, .file true, .data [1, 2] 1 0, .data [3] 1 0, .fclose 2, .rename] os u ∧
    u.final = some [1, 3] ∧ ¬ Exact threeBytes u := by
  obtain ⟨u, os, he, hp⟩ := (downloadMachine threeBytes).exec_any ⟨.resting none, none⟩
    [.recv true true, .file true, .data [1, 2] 1 0, .data [3] 1 0, .fclose 2, .rename]
    (fun r => decide (r.1.final = some [1, 3])) (by decide +kernel)
  have hfinal : u.final = some [1, 3] := of_decide_eq_true hp
  refine ⟨u, os, Machine.free_run_of_exec he, hfinal, fun hexact => ?_⟩
  have := hexact.final _ hfinal
  revert this
  decide

end CarrierSdk.FileTransfer
