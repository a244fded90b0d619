import CarrierSdk.Carrier.Reassembly

/-! The address of an assembled invite: the friend, the transaction and the extension of all its
fragments. The assembly remembers the first fragment's name, and the last one's decides who hears
of the invite and where the history records it. -/
namespace CarrierSdk

/-- An invite request packet and the friend that sent it. -/
structure Fragment where
  sender : UserId
  packet : ElaCPInviteReq

/-- A delivered invite, with the callbacks that were called and the node after them. -/
structure DeliveredInvite where
  fragments : List Fragment
  carrier : ElaCarrier
  notices : List NodeOutput

def DeliveredInvite.bundle (d : DeliveredInvite) : Option CString := d.fragments.head?.bind fun f => f.packet.bundle

def DeliveredInvite.data (d : DeliveredInvite) : List UInt8 := d.fragments.flatMap fun f => f.packet.data

/-- A node and the fragments that went into each assembly. The code does not keep them. -/
structure AddressState where
  node : NodeState
  parts : Table Tid (List Fragment)

/-- The fragments of the assembly that is held under a tid. -/
def AddressState.held (s : AddressState) (tid : Tid) : List Fragment :=
  if (s.node.carrier.tassemblyIreqs.lookup tid).isSome then (s.parts.lookup tid).getD [] else []

/-- The invite request fragment that a packet brings and that is not dropped. -/
def copiedFragment (w : ElaCarrier) : NodeInput → Option Fragment
  | .message fn packet =>
    match elacpDecode packet, w.friends.lookup fn with
    | some (.inviteReq cp), some fi => if dropsRequest w fn cp then none else some ⟨fi.userid, cp⟩
    | _, _ => none
  | _ => none

/-- The record of a fragment after the step of the node. -/
def recordFragment (s : AddressState) (t : NodeState) (o : List NodeOutput) (f : Fragment) :
    AddressState × List DeliveredInvite :=
  let fragments := s.held f.packet.tid ++ [f]
  if (t.carrier.tassemblyIreqs.lookup f.packet.tid).isSome then
    (⟨t, s.parts.insert f.packet.tid fragments⟩, [])
  else (⟨t, s.parts⟩, [⟨fragments, t.carrier, o⟩])

/-- A step of the node. It puts out the invites that it delivers. -/
def addressStep (s : AddressState) (i : NodeInput) : Option (AddressState × List DeliveredInvite) :=
  (nodeStep s.node i).map fun r =>
    match copiedFragment s.node.carrier i with
    | some f => recordFragment s r.1 r.2 f
    | none => (⟨r.1, s.parts⟩, [])

def addressMachine : Machine AddressState NodeInput DeliveredInvite := ⟨addressStep⟩

/-- All fragments come from one friend under one tid and one name, or all under none. -/
def SameAddress (fragments : List Fragment) (friendid : UserId) (tid : Tid) (name : Option CString) : Prop :=
  ∀ f ∈ fragments, f.sender = friendid ∧ f.packet.tid = tid ∧ f.packet.ext = name

/-- An invite went to the handler of its extension and into the history. -/
structure Addressed (d : DeliveredInvite) (friendid : UserId) (tid : Tid) (name : Option CString) : Prop where
  fragments : d.fragments ≠ [] ∧ SameAddress d.fragments friendid tid name
  application : name = none → d.notices =
    if d.carrier.friendInvite then [.arrived (.friendInvite friendid d.bundle d.data)] else []
  session : name = some sessionName → d.notices =
    if d.carrier.session then [.arrived (.sessionInvite friendid d.bundle d.data)] else []
  nobody : ∀ ext, name = some ext → ext ≠ sessionName → d.notices = []
  recorded : ∃ key, historyKey (inviteFrom friendid name) = some key ∧ d.carrier.thistory.lookup key = some tid

/-- A fragment that joins an assembly carries a name exactly if the fragments there do. -/
def keepsName (s : AddressState) (i : NodeInput) : Bool :=
  (copiedFragment s.node.carrier i).all fun f =>
    (s.held f.packet.tid).all fun g => g.packet.ext.isSome == f.packet.ext.isSome

/-- What the fragments that are on record say of the assemblies. -/
structure MadeFrom (fragments : List Fragment) (tid : Tid) (a : TransactedAssembly) (name : Option CString) : Prop where
  same : SameAddress fragments a.friendid tid name
  nonempty : fragments ≠ []
  ext : a.ext = name.getD .empty
  bundle : a.bundle = fragments.head?.bind fun f => f.packet.bundle
  data : a.data = fragments.flatMap fun f => f.packet.data

def AddressInv (s : AddressState) : Prop :=
  ∀ tid a, s.node.carrier.tassemblyIreqs.lookup tid = some a →
    ∃ fragments name, s.parts.lookup tid = some fragments ∧ MadeFrom fragments tid a name

/-- The packet that brings a fragment. -/
theorem copiedFragment_some {w : ElaCarrier} {i : NodeInput} {f : Fragment} (h : copiedFragment w i = some f) :
    ∃ fn packet fi, i = .message fn packet ∧ elacpDecode packet = some (.inviteReq f.packet) ∧
      w.friends.lookup fn = some fi ∧ f.sender = fi.userid ∧ dropsRequest w fn f.packet = false := by
  unfold copiedFragment at h
  split at h
  · next fn packet =>
    split at h
    · next cp fi hcp hfi =>
      split at h
      · cases h
      · next hkept =>
        cases h
        exact ⟨fn, packet, fi, rfl, hcp, hfi, rfl, by simpa using hkept⟩
    · cases h
  · cases h

/-- A packet that brings no fragment changes no request assembly, and nothing else adds one. -/
theorem assemblies_kept {s t : NodeState} {i : NodeInput} {o : List NodeOutput}
    (hstep : nodeStep s i = some (t, o)) (hnone : copiedFragment s.carrier i = none) (tid : Tid)
    (a : TransactedAssembly) (ha : t.carrier.tassemblyIreqs.lookup tid = some a) :
    s.carrier.tassemblyIreqs.lookup tid = some a := by
  cases nodeStep_tables hstep with
  | @request fn packet cp ns hi hcp h ho =>
    subst hi
    have hdrop : dropsRequest s.carrier fn cp = true := by
      cases hfi : s.carrier.friends.lookup fn with
      | none => simp only [dropsRequest, hfi]
      | some fi => simpa only [copiedFragment, hcp, hfi, ite_eq_left_iff, reduceCtorEq, imp_false,
          Bool.not_eq_true, Bool.not_eq_false] using hnone
    rwa [((handleInviteRequest_reassembles h).dropped hdrop).1] at ha
  | response hi hcp h ho => rwa [handleInviteResponse_ireqs h] at ha
  | fewer _ hreqs _ => exact hreqs tid a ha

/-- The assembly that a fragment is copied into, and the record of its fragments. -/
theorem AddressInv.joined {s : AddressState} (hs : AddressInv s) {f : Fragment} {a : TransactedAssembly}
    (hjoins : JoinsRequest s.node.carrier f.sender f.packet a)
    (hpass : requestRejected a f.sender f.packet = false)
    (hname : ∀ g ∈ s.held f.packet.tid, g.packet.ext.isSome = f.packet.ext.isSome) :
    MadeFrom (s.held f.packet.tid ++ [f]) f.packet.tid (a.append f.packet.data) f.packet.ext := by
  have hsender : a.friendid = f.sender := requestRejected_sender hpass
  cases hjoins with
  | held ha =>
    obtain ⟨fragments, name, hparts, hmade⟩ := hs _ _ ha
    have hheld : s.held f.packet.tid = fragments := by
      simp only [AddressState.held, ha, hparts, Option.isSome_some, if_true, Option.getD_some]
    rw [hheld] at hname ⊢
    have hext : name = f.packet.ext := by
      obtain ⟨g, hg⟩ := List.exists_mem_of_ne_nil _ hmade.nonempty
      have hsome := hname g hg
      rw [(hmade.same g hg).2.2] at hsome
      cases hn : f.packet.ext with
      | none => simpa [hn] using hsome
      | some ext =>
        obtain ⟨ext', rfl⟩ := Option.isSome_iff_exists.mp (hsome.trans (by rw [hn]; rfl))
        have hmatch := requestRejected_ext hpass ext hn
        rw [hmade.ext] at hmatch
        exact congrArg some hmatch
    subst hext
    refine ⟨fun g hg => ?_, by simp, hmade.ext, ?_, ?_⟩
    · rcases List.mem_append.mp hg with hg | hg
      · exact hmade.same g hg
      · rw [List.mem_singleton.mp hg]
        exact ⟨hsender.symm, rfl, rfl⟩
    · rw [List.head?_append_of_ne_nil _ hmade.nonempty]
      exact hmade.bundle
    · simp [hmade.data]
  | fresh ha hz hmax hnew =>
    simp only [newRequestAssembly, Option.bind_eq_bind, Option.bind_eq_some_iff, CString.strcpy_eq_some,
      Option.some.injEq] at hnew
    obtain ⟨ext, ⟨-, rfl⟩, rfl⟩ := hnew
    have hheld : s.held f.packet.tid = [] := by simp [AddressState.held, ha]
    rw [hheld]
    refine ⟨fun g hg => ?_, by simp, rfl, rfl, by simp⟩
    rw [List.mem_singleton.mp hg]
    exact ⟨rfl, rfl, rfl⟩

/-- The invite that a last fragment completes is addressed as that fragment is. -/
theorem MadeFrom.addressed {fragments : List Fragment} {tid : Tid} {a : TransactedAssembly} {name : Option CString}
    {w : ElaCarrier} {key : CString} (h : MadeFrom fragments tid a name)
    (hkey : historyKey (inviteFrom a.friendid name) = some key)
    (hrecorded : w.thistory.lookup key = some tid) :
    Addressed ⟨fragments, w, (notifyInvite w a.friendid name a).map .arrived⟩ a.friendid tid name := by
  have hbundle : DeliveredInvite.bundle ⟨fragments, w, (notifyInvite w a.friendid name a).map .arrived⟩ = a.bundle :=
    h.bundle.symm
  have hdata : DeliveredInvite.data ⟨fragments, w, (notifyInvite w a.friendid name a).map .arrived⟩ = a.data :=
    h.data.symm
  refine ⟨⟨h.nonempty, h.same⟩, fun hname => ?_, fun hname => ?_, fun ext hname hne => ?_, key, hkey, hrecorded⟩
  · rw [hbundle, hdata, hname, notifyInvite]
    split <;> rfl
  · rw [hbundle, hdata, hname]
    simp only [notifyInvite, true_and]
    split <;> rfl
  · rw [hname]
    simp only [notifyInvite, hne, false_and, if_false, List.map_nil]

/-- One step keeps the record, and what it delivers is addressed. -/
theorem AddressInv.step {s t : AddressState} {i : NodeInput} {o : List DeliveredInvite} (hs : AddressInv s)
    (hname : keepsName s i = true) (hstep : addressStep s i = some (t, o)) :
    AddressInv t ∧ ∀ d ∈ o, ∃ friendid tid name, Addressed d friendid tid name := by
  obtain ⟨⟨node, notices⟩, hnode, hrecord⟩ := Option.map_eq_some_iff.mp hstep
  cases hcopied : copiedFragment s.node.carrier i with
  | none =>
    simp only [hcopied, Prod.mk.injEq] at hrecord
    obtain ⟨rfl, rfl⟩ := hrecord
    refine ⟨fun tid a ha => hs tid a (assemblies_kept hnode hcopied tid a ha), fun d hd => ?_⟩
    cases hd
  | some f =>
    obtain ⟨fn, packet, fi, rfl, hcp, hfi, hsender, hkept⟩ := copiedFragment_some hcopied
    have hheld : ∀ g ∈ s.held f.packet.tid, g.packet.ext.isSome = f.packet.ext.isSome := by
      simpa [keepsName, hcopied] using hname
    obtain ⟨⟨w, ns⟩, hn, h⟩ := Option.map_eq_some_iff.mp hnode
    cases h
    simp only [notifyFriendMessage, hcp] at hn
    simp only [hcopied, recordFragment] at hrecord
    cases handleInviteRequest_step hn with
    | ignored hall =>
      obtain ⟨fi', a, hfi', hjoins⟩ := joins_of_not_dropped hkept hn
      have hrejected := hall fi' a hfi' hjoins
      rw [← dropsRequest_joins hfi' hjoins, hkept] at hrejected
      cases hrejected
    | @stored fi' a hfi' hjoins hpass hmore =>
      obtain rfl := Option.some.inj (hfi.symm.trans hfi')
      rw [← hsender] at hjoins hpass
      have hmade := hs.joined hjoins hpass hheld
      simp only [AList.lookup_insert, Option.isSome_some, if_true, Prod.mk.injEq] at hrecord
      obtain ⟨rfl, rfl⟩ := hrecord
      refine ⟨fun tid b hb => ?_, fun d hd => by cases hd⟩
      simp only [Table.lookup_insert_eq] at hb ⊢
      split at hb
      · next htid =>
        cases hb
        rw [if_pos htid, htid]
        exact ⟨_, _, rfl, hmade⟩
      · next htid =>
        rw [if_neg htid]
        exact hs tid b hb
    | @delivered fi' a key hfi' hjoins hpass hfull hlen hkey =>
      obtain rfl := Option.some.inj (hfi.symm.trans hfi')
      rw [← hsender] at hjoins hpass hkey
      have hmade := hs.joined hjoins hpass hheld
      simp only [AList.lookup_erase, Option.isSome_none, Bool.false_eq_true, if_false, Prod.mk.injEq] at hrecord
      obtain ⟨rfl, rfl⟩ := hrecord
      refine ⟨fun tid b hb => ?_, fun d hd => ?_⟩
      · rw [Table.lookup_erase_eq] at hb
        split at hb
        · cases hb
        · exact hs tid b hb
      · rw [List.mem_singleton.mp hd]
        have hfriend : (a.append f.packet.data).friendid = f.sender := by
          rw [TransactedAssembly.append_friendid]
          exact requestRejected_sender hpass
        refine ⟨f.sender, f.packet.tid, f.packet.ext, ?_⟩
        rw [← hfriend] at hkey ⊢
        rw [← hsender, ← hfriend]
        exact hmade.addressed hkey (AList.lookup_insert _)

abbrev AddressHistory (s : AddressState) (os : List DeliveredInvite) : Prop :=
  AddressInv s ∧ ∀ d ∈ os, ∃ friendid tid name, Addressed d friendid tid name

/-- Where no fragment without a name joins an assembly that was begun under one, or the other way
round, every invite is delivered and recorded under the address of all its fragments. -/
theorem invites_addressed {s u : AddressState} {is : List NodeInput} {os : List DeliveredInvite}
    (hs : NodeStarted s.node)
    (hrun : Machine.Run addressMachine (fun s i => keepsName s i = true) s is os u) :
    ∀ d ∈ os, ∃ friendid tid name, Addressed d friendid tid name := by
  have hstart : AddressHistory s [] := ⟨fun tid a ha => by simp [hs.tassemblyIreqs] at ha, fun d hd => by cases hd⟩
  have hend : AddressHistory u ([] ++ os) := by
    refine hrun.history (fun {s i t o os} h hname hstep => ?_) hstart
    obtain ⟨hinv, hnew⟩ := h.1.step hname hstep
    refine ⟨hinv, fun d hd => ?_⟩
    rcases List.mem_append.mp hd with hd | hd
    · exact h.2 d hd
    · exact hnew d hd
  exact hend.2

/-- The first half of a session invite, and a second half with another name field. -/
def twoHalves (second : FlatTable) : List NodeInput :=
  [.message 0 ⟨34, some [(0, .string sessionName), (1, .scalar 5), (3, .scalar 2), (4, .ubytes [7])]⟩,
    .message 0 ⟨34, some (second ++ [(1, .scalar 5), (3, .scalar 2), (4, .ubytes [8])])⟩]

/-- A node with two friends, at which nothing is on record. -/
def AddressState.twoFriends : AddressState := ⟨.start .twoFriends, ∅⟩

theorem invites_addressed_session : ∃ u, ∃ d : DeliveredInvite,
    addressMachine.exec .twoFriends (twoHalves [(0, .string sessionName)]) = some (u, [d]) ∧
      ∃ friendid tid name, Addressed d friendid tid name := by
  obtain ⟨u, os, hexec, hone⟩ := addressMachine.exec_any .twoFriends (twoHalves [(0, .string sessionName)])
    (fun r => decide (r.2.length = 1)) (by decide +kernel)
  obtain ⟨d, rfl⟩ := List.length_eq_one_iff.mp (of_decide_eq_true hone)
  have hrun := Machine.run_of_exec (g := keepsName) (G := fun s i => keepsName s i = true)
    (fun _ _ hg => hg) hexec (by decide +kernel)
  exact ⟨u, d, hexec, invites_addressed NodeStarted.twoFriends hrun d (List.mem_singleton_self d)⟩

/-- The second half carries no name. The application hears of the session invite. -/
theorem session_invite_astray : ¬ ∀ (s : AddressState) is os u, NodeStarted s.node →
    Machine.Run addressMachine Machine.Free s is os u →
      ∀ d ∈ os, ∃ friendid tid name, Addressed d friendid tid name := by
  intro h
  obtain ⟨u, os, hexec, hmixed⟩ := addressMachine.exec_any .twoFriends (twoHalves [])
    (fun r => r.2.any fun d => decide (d.fragments.map (fun f => f.packet.ext) = [some sessionName, none]))
    (by decide +kernel)
  obtain ⟨d, hd, hnames⟩ := List.any_eq_true.mp hmixed
  obtain ⟨friendid, tid, name, haddr⟩ := h _ _ _ _ NodeStarted.twoFriends (Machine.free_run_of_exec hexec) d hd
  have hall : ∀ ext ∈ d.fragments.map (fun f => f.packet.ext), ext = name := by
    intro ext hext
    obtain ⟨f, hf, rfl⟩ := List.mem_map.mp hext
    exact (haddr.fragments.2 f hf).2.2
  rw [of_decide_eq_true hnames] at hall
  have hfirst : some sessionName = name := hall _ (by simp)
  have hsecond : none = name := hall _ (by simp)
  cases hfirst.trans hsecond.symm

end CarrierSdk
