import CarrierSdk.Storage.PersistenceFile
import CarrierSdk.Library.FileSystem
import CarrierSdk.Library.Machine

/-! The directory of a node under stores, crashes and restarts. After the first completed
store no crash loses the data. -/
namespace CarrierSdk.Storage
open Bytes Friends

inductive File where
  | data
  | journal
  | dhtdata
  | eladata
  deriving DecidableEq

/-- A call of the operating system that fails before the journal is opened, when it is
opened, after a number of bytes were written, or when it is flushed. -/
inductive Fault where
  | early
  | openJournal
  | write (written : Nat)
  | fsync

/-- The common end of the store and of the conversion: the image goes to the journal,
which then takes the place of the data file. Without a fault it succeeds. -/
def replaceData (fault : Option Fault) (image : List UInt8) (old : List File) : List (FileCall File) × Bool :=
  match fault with
  | some .early => ([], false)
  | some .openJournal => ([], false)
  | some (.write written) => ([.create .journal, .write .journal (image.take written), .remove .journal], false)
  | some .fsync => ([.create .journal, .write .journal image, .remove .journal], false)
  | none => ([.create .journal, .write .journal image] ++ old.map .remove ++
      [.remove .data, .rename .journal .data], true)

/-- What store_persistence_data finds in the node. -/
structure Stored where
  dhtData : List UInt8
  friends : FriendsTable

/-- What the loader makes of it. -/
def Stored.contents (p : Stored) : PersistenceData :=
  persistenceOf p.dhtData (labelSection p.friends.entries).length (labelSection p.friends.entries)

/-- Both sections pass the loader's check of their length. -/
def Stored.withinLimit (p : Stored) : Bool :=
  decide (p.dhtData.length ≤ maxPersistenceSectionSize) &&
    decide (getExtraSavedataSize p.friends.entries ≤ maxPersistenceSectionSize)

/-- store_persistence_data. -/
def storePersistenceData (sha : Sha256) (fault : Option Fault) (p : Stored) : List (FileCall File) × Bool :=
  replaceData fault (storeImage sha p.dhtData p.friends) []

/-- The loop of convert_old_dhtdata over the old friends: the bytes it writes and the number
of bytes it reads. Friends without a label are dropped; numbers come in host order. -/
def convertLabels : Nat → List UInt8 → Option (List UInt8 × Nat)
  | 0, _ => some ([], 0)
  | count + 1, memory =>
    if memory.length < 4 then none
    else
      match CString.scan (memory.drop 4) with
      | none => none
      | some label =>
        if label.strlen = 0 then (convertLabels count (memory.drop 5)).map fun r => (r.1, 5 + r.2)
        else
          (convertLabels count (memory.drop (4 + label.strlen + 1))).map fun r =>
            ((memory.take 4).reverse ++ label.bytes ++ [0] ++ r.1, 4 + label.strlen + 1 + r.2)

/-- The label section that convert_old_dhtdata makes of eladata: its length and its area. -/
def convertEladata (eladata : Option (List UInt8)) : Option (Nat × List UInt8) :=
  match eladata with
  | none => some (0, [])
  | some file =>
    let extraDataLen := file.length - 36
    if extraDataLen = 0 then some (0, [])
    else
      let count := number ((file.drop 32).take 4).reverse
      if count = 0 then some (extraDataLen, [])
      else
        let area := zeroPadded (round256 extraDataLen) (file.drop 36)
        match convertLabels count area with
        | none => none
        | some (written, read) =>
          if area.length < round256 written.length then none
          else some (written.length, (written ++ List.replicate (read - written.length) 0 ++
            area.drop read).take (round256 written.length))

/-- convert_old_dhtdata, which has no defined behaviour where eladata makes it read behind
its buffer. -/
def convertOldDhtdata (sha : Sha256) (fault : Option Fault) (d : Directory File) :
    Option (List (FileCall File) × Bool) :=
  match d .dhtdata with
  | none => some ([], false)
  | some dhtData => (convertEladata (d .eladata)).map fun extra =>
      replaceData fault (persistenceImage sha dhtData extra.1 extra.2) [.dhtdata, .eladata]

/-- load_persistence_data: the calls it makes and what it returns. -/
def loadPersistenceData (sha : Sha256) (fault : Option Fault) (d : Directory File) :
    Option (List (FileCall File) × Option PersistenceData) :=
  match (d .journal).bind (loadPersistenceDataI sha) with
  | some data => some ([.remove .data, .rename .journal .data], some data)
  | none =>
    match d .data with
    | some file => some ([], loadPersistenceDataI sha file)
    | none =>
      match d .dhtdata with
      | none => some ([], none)
      | some _ => (convertOldDhtdata sha fault d).map fun r =>
          (r.1, if r.2 then (d.calls r.1 .data).bind (loadPersistenceDataI sha) else none)

/-- The directory and whether a node runs on it. -/
structure StorageState where
  directory : Directory File
  running : Bool

/-- How far a call of the library came before a crash. -/
structure Crash where
  made : Nat
  arrived : Nat

inductive StorageInput where
  | store (p : Stored) (fault : Option Fault) (crash : Option Crash)
  | restart (fault : Option Fault) (crash : Option Crash)
  | halt

inductive StorageEvent where
  | stored (p : Stored)
  | failed (p : Stored)
  | interrupted (p : Stored)
  | loaded (result : Option PersistenceData)

/-- The directory and the state of the node after calls that a crash may interrupt. -/
def StorageState.after (s : StorageState) (calls : List (FileCall File)) : Option Crash → StorageState
  | none => ⟨s.directory.calls calls, true⟩
  | some c => ⟨s.directory.crash calls c.made c.arrived, false⟩

/-- A node loads the data when it starts and stores only after that. -/
def storageStep (sha : Sha256) (s : StorageState) :
    StorageInput → Option (StorageState × List StorageEvent)
  | .store p fault crash =>
    if s.running then
      let r := storePersistenceData sha fault p
      some (s.after r.1 crash,
        if crash.isSome then [.interrupted p] else if r.2 then [.stored p] else [.failed p])
    else none
  | .restart fault crash =>
    if s.running then none
    else (loadPersistenceData sha fault s.directory).map fun r =>
      (s.after r.1 crash, if crash.isSome then [] else [.loaded r.2])
  | .halt => some ({ s with running := false }, [])

def storageMachine (sha : Sha256) : Machine StorageState StorageInput StorageEvent := ⟨storageStep sha⟩

/-- The stores whose data a load may return: the last completed one and those that were
interrupted after it. There are none before the first completed store. -/
def mayLoad (os : List StorageEvent) : List Stored :=
  os.foldl (fun allowed e =>
    match e with
    | .stored p => [p]
    | .interrupted p => if allowed.isEmpty then [] else allowed ++ [p]
    | .failed _ => allowed
    | .loaded _ => allowed) []

/-- Every load after the first completed store returns what one of these stores stored. -/
def LoadsLatest (os : List StorageEvent) : Prop :=
  ∀ before result after, os = before ++ .loaded result :: after → mayLoad before ≠ [] →
    ∃ p ∈ mayLoad before, result = some p.contents

/-! What the next load returns, at every moment of a store and of a load. -/

/-- What the loader finds in the journal, else in the data file. -/
def recovered (sha : Sha256) (d : Directory File) : Option PersistenceData :=
  ((d .journal).bind (loadPersistenceDataI sha)).or ((d .data).bind (loadPersistenceDataI sha))

section Recovery
variable {sha : Sha256} {d : Directory File} {x : PersistenceData}

theorem recovered_journal {file : List UInt8} (hj : d .journal = some file)
    (hx : loadPersistenceDataI sha file = some x) : recovered sha d = some x := by
  rw [recovered, hj, Option.bind_some, hx, Option.some_or]

theorem recovered_data (hj : (d .journal).bind (loadPersistenceDataI sha) = none) :
    recovered sha d = (d .data).bind (loadPersistenceDataI sha) := by rw [recovered, hj, Option.none_or]

/-- Once there is something to recover a load returns it, and a crash does not lose it. -/
theorem load_recovers (fault : Option Fault) (h : recovered sha d = some x) :
    ∃ calls, loadPersistenceData sha fault d = some (calls, some x) ∧
      d.Always (fun d' => recovered sha d' = some x) calls := by
  cases hj : (d .journal).bind (loadPersistenceDataI sha) with
  | some y =>
    obtain ⟨file, hfile, hy⟩ := Option.bind_eq_some_iff.mp hj
    obtain rfl : x = y := Option.some.inj (h.symm.trans (recovered_journal hfile hy))
    have hmoved : recovered sha (d.calls [.remove .data, .rename .journal .data]) = some x := by
      simp [Directory.call, hfile, recovered, hy]
    have hkept : d.call (.remove .data) .journal = some file := by simp [Directory.call, hfile]
    have hremoved : recovered sha (d.call (.remove .data)) = some x := recovered_journal hkept hy
    exact ⟨[.remove .data, .rename .journal .data], by rw [loadPersistenceData, hj],
      .atomic h (by simp) (.atomic hremoved (by simp) hmoved)⟩
  | none =>
    rw [recovered_data hj] at h
    obtain ⟨file, hfile, hx⟩ := Option.bind_eq_some_iff.mp h
    exact ⟨[], by simp only [loadPersistenceData, hj, hfile, hx], by rwa [← recovered_data hj] at h⟩

/-- The journal is gone in the end, or it was never opened. -/
theorem replaceData_settles (fault : Option Fault) (image : List UInt8) (old : List File)
    (hj : (d .journal).bind (loadPersistenceDataI sha) = none) :
    (d.calls (replaceData fault image old).1 .journal).bind (loadPersistenceDataI sha) = none := by
  cases fault with
  | none =>
    have hsplit : (replaceData none image old).1 = ([.create .journal, .write .journal image] ++
        old.map .remove ++ [.remove .data]) ++ [.rename .journal .data] := by simp [replaceData]
    rw [hsplit, Directory.calls_append, Directory.calls_cons, Directory.calls_nil,
      Directory.call_rename_self, Option.bind_none]
  | some f =>
    cases f with
    | early | openJournal => exact hj
    | write written => simp [replaceData, Directory.call]
    | fsync => simp [replaceData, Directory.call]

/-- A load that is not interrupted leaves no journal that could be loaded. -/
theorem load_settles {fault : Option Fault} {calls : List (FileCall File)} {r : Option PersistenceData}
    (h : loadPersistenceData sha fault d = some (calls, r)) :
    (d.calls calls .journal).bind (loadPersistenceDataI sha) = none := by
  unfold loadPersistenceData at h
  split at h
  · next data hj =>
    obtain ⟨file, hfile, -⟩ := Option.bind_eq_some_iff.mp hj
    cases h
    simp [Directory.call, hfile]
  · next hj =>
    split at h
    · cases h
      exact hj
    · split at h
      · cases h
        exact hj
      · obtain ⟨⟨made, ok⟩, hconvert, hr⟩ := Option.map_eq_some_iff.mp h
        cases hr
        unfold convertOldDhtdata at hconvert
        split at hconvert
        · cases hconvert
          exact hj
        · obtain ⟨extra, -, hmade⟩ := Option.map_eq_some_iff.mp hconvert
          obtain rfl := congrArg Prod.fst hmade
          exact replaceData_settles fault _ _ hj

theorem load_stored {p : Stored} (h : p.withinLimit = true) :
    loadPersistenceDataI sha (storeImage sha p.dhtData p.friends) = some p.contents := by
  obtain ⟨hdht, hlabels⟩ := Bool.and_eq_true_iff.mp h
  exact load_storeImage sha (of_decide_eq_true hdht) (of_decide_eq_true hlabels)

/-- A part of a stored image in the journal is passed over, unless it is the whole image. -/
theorem recovered_part {p : Stored} (h : p.withinLimit = true) (m : Nat) {d' : Directory File}
    (hdata : d' .data = d .data)
    (hj : d' .journal = some ((storeImage sha p.dhtData p.friends).take m)) :
    recovered sha d' = (d .data).bind (loadPersistenceDataI sha) ∨ recovered sha d' = some p.contents := by
  by_cases hm : m < (storeImage sha p.dhtData p.friends).length
  · left
    have hnone : (d' .journal).bind (loadPersistenceDataI sha) = none := by
      rw [hj, Option.bind_some]
      obtain ⟨hdht, hlabels⟩ := Bool.and_eq_true_iff.mp h
      exact load_take_storeImage sha (of_decide_eq_true hdht) (of_decide_eq_true hlabels) hm
    rw [recovered_data hnone, hdata]
  · right
    rw [List.take_of_length_le (Nat.not_lt.mp hm)] at hj
    exact recovered_journal hj (load_stored h)

/-- What the next load returns while a store is under way. -/
def Underway (sha : Sha256) (d : Directory File) (p : Stored) (d' : Directory File) : Prop :=
  recovered sha d' = (d .data).bind (loadPersistenceDataI sha) ∨ recovered sha d' = some p.contents

/-- The journal is opened and a part of the image is written to it. -/
theorem underway_journal {p : Stored} (h : p.withinLimit = true)
    (hj : (d .journal).bind (loadPersistenceDataI sha) = none) (n : Nat) (rest : List (FileCall File))
    (hrest : (d.calls [.create .journal, .write .journal
      ((storeImage sha p.dhtData p.friends).take n)]).Always (Underway sha d p) rest) :
    d.Always (Underway sha d p)
      (.create .journal :: .write .journal ((storeImage sha p.dhtData p.friends).take n) :: rest) := by
  have hbegin : Underway sha d p (d.call (.create .journal)) :=
    recovered_part h 0 (by simp [Directory.call]) (by simp [Directory.call])
  refine .atomic (.inl (recovered_data hj)) (by simp) ⟨hbegin, fun m => ?_, hrest⟩
  refine recovered_part h (min m n) (by simp [Directory.interrupted, Directory.call]) ?_
  simp [Directory.interrupted, Directory.call, List.take_take]

/-- During a store the next load returns what it returned before or what is stored, and
after it what is stored, or what it returned before where a call failed. -/
theorem store_recovers {p : Stored} (h : p.withinLimit = true) (fault : Option Fault)
    (hj : (d .journal).bind (loadPersistenceDataI sha) = none) :
    d.Always (Underway sha d p) (storePersistenceData sha fault p).1 ∧
      (d.calls (storePersistenceData sha fault p).1 .journal).bind (loadPersistenceDataI sha) = none ∧
      recovered sha (d.calls (storePersistenceData sha fault p).1) =
        if (storePersistenceData sha fault p).2 then some p.contents else recovered sha d := by
  have hstart : Underway sha d p d := .inl (recovered_data hj)
  -- A failed store takes the journal away again.
  have hfail : ∀ n, d.Always (Underway sha d p)
        [.create .journal, .write .journal ((storeImage sha p.dhtData p.friends).take n), .remove .journal] ∧
      (d.calls [.create .journal, .write .journal ((storeImage sha p.dhtData p.friends).take n),
        .remove .journal] .journal).bind (loadPersistenceDataI sha) = none ∧
      recovered sha (d.calls [.create .journal, .write .journal
        ((storeImage sha p.dhtData p.friends).take n), .remove .journal]) = recovered sha d := by
    intro n
    have hend : recovered sha (d.calls [.create .journal, .write .journal
        ((storeImage sha p.dhtData p.friends).take n), .remove .journal]) = recovered sha d := by
      rw [recovered_data hj]
      simp [recovered, Directory.call]
    refine ⟨underway_journal h hj n _ ?_, by simp [Directory.call], hend⟩
    refine .atomic ?_ (by simp) (.inl (hend.trans (recovered_data hj)))
    exact recovered_part h n (by simp [Directory.call]) (by simp [Directory.call])
  cases fault with
  | none =>
    have hwhole : (storeImage sha p.dhtData p.friends).take (storeImage sha p.dhtData p.friends).length =
        storeImage sha p.dhtData p.friends := List.take_length
    have hload : loadPersistenceDataI sha (storeImage sha p.dhtData p.friends) = some p.contents := load_stored h
    have hmoved : recovered sha (d.calls (storePersistenceData sha none p).1) = some p.contents := by
      simp [storePersistenceData, replaceData, Directory.call, recovered, hload]
    refine ⟨?_, by simp [storePersistenceData, replaceData, Directory.call], hmoved⟩
    have hwritten := underway_journal h hj (storeImage sha p.dhtData p.friends).length
      [.remove .data, .rename .journal .data]
    rw [hwhole] at hwritten
    refine hwritten (.atomic (.inr ?_) (by simp) (.atomic (.inr ?_) (by simp) (.inr hmoved)))
    · exact recovered_journal (by simp [Directory.call]) hload
    · exact recovered_journal (by simp [Directory.call]) hload
  | some f =>
    cases f with
    | early => exact ⟨hstart, hj, rfl⟩
    | openJournal => exact ⟨hstart, hj, rfl⟩
    | write written => exact hfail written
    | fsync =>
      have hwhole := hfail (storeImage sha p.dhtData p.friends).length
      rw [List.take_length] at hwhole
      exact hwhole

end Recovery

/-! Runs. -/

theorem mayLoad_snoc (os : List StorageEvent) (e : StorageEvent) :
    mayLoad (os ++ [e]) =
      match e with
      | .stored p => [p]
      | .interrupted p => if (mayLoad os).isEmpty then [] else mayLoad os ++ [p]
      | .failed _ => mayLoad os
      | .loaded _ => mayLoad os := List.foldl_concat _ _ _ _

theorem LoadsLatest.snoc {os : List StorageEvent} {e : StorageEvent} (h : LoadsLatest os)
    (he : ∀ r, e = .loaded r → mayLoad os ≠ [] → ∃ p ∈ mayLoad os, r = some p.contents) :
    LoadsLatest (os ++ [e]) := by
  have hos : Machine.EachAfter (fun before e => ∀ r, e = .loaded r → mayLoad before ≠ [] →
      ∃ p ∈ mayLoad before, r = some p.contents) os := by
    intro before e after hsplit r hr
    subst hr
    exact h before r after hsplit
  intro before r after hsplit
  exact hos.snoc he before _ after hsplit r rfl

/-- What holds after every step: the loads so far returned what they had to, the next load
will do so, and a running node has no journal that could be loaded. -/
structure Durable (sha : Sha256) (s : StorageState) (os : List StorageEvent) : Prop where
  loads : LoadsLatest os
  kept : mayLoad os ≠ [] → ∃ p ∈ mayLoad os, recovered sha s.directory = some p.contents
  settled : s.running = true → (s.directory .journal).bind (loadPersistenceDataI sha) = none

theorem durable_store {sha : Sha256} {s t : StorageState} {os o : List StorageEvent} {p : Stored}
    {fault : Option Fault} {crash : Option Crash} (h : Durable sha s os) (hp : p.withinLimit = true)
    (hs : storageStep sha s (.store p fault crash) = some (t, o)) : Durable sha t (os ++ o) := by
  simp only [storageStep] at hs
  split at hs
  · next hr =>
    obtain ⟨halways, hsettled, hend⟩ := store_recovers hp fault (h.settled hr)
    cases crash with
    | none =>
      cases hs
      cases hok : (storePersistenceData sha fault p).2 with
      | true =>
        rw [hok] at hend
        refine ⟨h.loads.snoc (by simp), fun _ => ?_, fun _ => hsettled⟩
        exact ⟨p, by simp [mayLoad_snoc], hend⟩
      | false =>
        rw [hok] at hend
        refine ⟨h.loads.snoc (by simp), fun hne => ?_, fun _ => hsettled⟩
        simp only [Option.isSome_none, Bool.false_eq_true, if_false, mayLoad_snoc] at hne ⊢
        obtain ⟨q, hq, hkept⟩ := h.kept hne
        exact ⟨q, hq, hend.trans hkept⟩
    | some c =>
      cases hs
      refine ⟨h.loads.snoc (by simp), fun hne => ?_, fun hrun => Bool.noConfusion hrun⟩
      simp only [Option.isSome_some, if_true, mayLoad_snoc] at hne ⊢
      have hbefore : mayLoad os ≠ [] := by
        intro hnil
        rw [hnil] at hne
        exact hne rfl
      rw [if_neg (by simpa using hbefore)]
      obtain ⟨q, hq, hkept⟩ := h.kept hbefore
      rcases halways.crash c.made c.arrived with hold | hnew
      · rw [← recovered_data (h.settled hr)] at hold
        exact ⟨q, by simp [hq], hold.trans hkept⟩
      · exact ⟨p, by simp, hnew⟩
  · cases hs

theorem durable_restart {sha : Sha256} {s t : StorageState} {os o : List StorageEvent}
    {fault : Option Fault} {crash : Option Crash} (h : Durable sha s os)
    (hs : storageStep sha s (.restart fault crash) = some (t, o)) : Durable sha t (os ++ o) := by
  simp only [storageStep] at hs
  split at hs
  · cases hs
  · obtain ⟨⟨calls, r⟩, hload, hs⟩ := Option.map_eq_some_iff.mp hs
    cases crash with
    | none =>
      cases hs
      have hreturns : mayLoad os ≠ [] → ∃ p ∈ mayLoad os, r = some p.contents ∧
          recovered sha (s.directory.calls calls) = some p.contents := by
        intro hne
        obtain ⟨p, hp, hkept⟩ := h.kept hne
        obtain ⟨calls', hload', halways⟩ := load_recovers fault hkept
        cases hload.symm.trans hload'
        exact ⟨p, hp, rfl, halways.calls⟩
      refine ⟨h.loads.snoc fun r' hr' hne => ?_, fun hne => ?_, fun _ => load_settles hload⟩
      · cases hr'
        obtain ⟨p, hp, hr, -⟩ := hreturns hne
        exact ⟨p, hp, hr⟩
      · simp only [Option.isSome_none, Bool.false_eq_true, if_false, mayLoad_snoc] at hne ⊢
        obtain ⟨p, hp, -, hrec⟩ := hreturns hne
        exact ⟨p, hp, hrec⟩
    | some c =>
      cases hs
      simp only [Option.isSome_some, if_true, List.append_nil]
      refine ⟨h.loads, fun hne => ?_, fun hrun => Bool.noConfusion hrun⟩
      obtain ⟨p, hp, hkept⟩ := h.kept hne
      obtain ⟨calls', hload', halways⟩ := load_recovers fault hkept
      cases hload.symm.trans hload'
      exact ⟨p, hp, halways.crash c.made c.arrived⟩

/-- The loader would accept what is stored. -/
def StorageInput.withinLimit : StorageInput → Bool
  | .store p _ _ => p.withinLimit
  | _ => true

theorem durable_step {sha : Sha256} {s t : StorageState} {os o : List StorageEvent} {i : StorageInput}
    (h : Durable sha s os) (hi : i.withinLimit = true) (hs : storageStep sha s i = some (t, o)) :
    Durable sha t (os ++ o) := by
  cases i with
  | store p fault crash => exact durable_store h hi hs
  | restart fault crash => exact durable_restart h hs
  | halt =>
    cases hs
    rw [List.append_nil]
    exact ⟨h.loads, h.kept, fun hrun => Bool.noConfusion hrun⟩

/-- In every run whose stores pass the loader's own check of lengths, from any directory,
every load after the first completed store returns the data of that store or of a later
one, and the next load will return too. -/
theorem loads_latest (sha : Sha256) {d : Directory File} {is : List StorageInput} {u : StorageState}
    {os : List StorageEvent}
    (h : (storageMachine sha).Run (fun _ i => i.withinLimit = true) ⟨d, false⟩ is os u) :
    LoadsLatest os ∧ (mayLoad os ≠ [] → ∀ fault, ∃ p ∈ mayLoad os, ∃ calls,
      loadPersistenceData sha fault u.directory = some (calls, some p.contents)) := by
  have hstart : Durable sha ⟨d, false⟩ [] :=
    ⟨fun before _ _ hsplit => by simp at hsplit, fun hne => (hne rfl).elim, fun hrun => Bool.noConfusion hrun⟩
  have hend : Durable sha u ([] ++ os) := by
    refine h.history (fun {s i t o os} hi hg hs => ?_) hstart
    exact durable_step hi hg hs
  refine ⟨hend.loads, fun hne fault => ?_⟩
  obtain ⟨p, hp, hkept⟩ := hend.kept hne
  obtain ⟨calls, hload, -⟩ := load_recovers fault hkept
  exact ⟨p, hp, calls, hload⟩

/-- A node that starts without any data, stores once, stops and starts again. -/
def storeOnce (p : Stored) : List StorageInput :=
  [.restart none none, .store p none none, .halt, .restart none none]

theorem exec_storeOnce (sha : Sha256) (p : Stored) :
    ∃ u, (storageMachine sha).exec ⟨fun _ => none, false⟩ (storeOnce p) =
      some (u, [.loaded none, .stored p,
        .loaded (loadPersistenceDataI sha (storeImage sha p.dhtData p.friends))]) :=
  ⟨⟨Directory.calls (fun _ => none) (storePersistenceData sha none p).1, true⟩, rfl⟩

theorem loads_latest_small : ∃ os : List StorageEvent,
    mayLoad os = [⟨[1, 2, 3], ∅⟩] ∧ LoadsLatest os := by
  obtain ⟨u, he⟩ := exec_storeOnce .zero ⟨[1, 2, 3], ∅⟩
  exact ⟨_, rfl, (loads_latest .zero (Machine.run_of_exec (fun _ _ h => h) he (by decide +kernel))).1⟩

/-- A DHT section longer than the limit is stored, and never loaded again. -/
theorem loads_fail : ¬ ∀ (d : Directory File) (is : List StorageInput) (u : StorageState)
    (os : List StorageEvent), (storageMachine .zero).Run Machine.Free ⟨d, false⟩ is os u → LoadsLatest os := by
  intro h
  obtain ⟨u, he⟩ := exec_storeOnce .zero ⟨List.replicate (maxPersistenceSectionSize + 1) 0, ∅⟩
  have hnone := load_large_persistenceImage .zero (List.replicate (maxPersistenceSectionSize + 1) 0)
    0 [] (by rw [List.length_replicate]; omega) (by rw [List.length_replicate]; decide)
  obtain ⟨p, -, hp⟩ := h _ _ u _ (Machine.free_run_of_exec he) [.loaded none, .stored _] _ [] rfl (by simp [mayLoad])
  cases hnone.symm.trans hp

end CarrierSdk.Storage
