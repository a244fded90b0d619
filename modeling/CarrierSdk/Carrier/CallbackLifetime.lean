import CarrierSdk.Carrier.Node

/-! How often an invite callback is called, and what the expiry sweep makes of the ones
that are still pending. -/
namespace CarrierSdk

/-- No callback is called twice, and none that is pending past its expiry when a sweep runs
stays without its call: the sweep times it out under the user id that was invited. -/
def SweepCompletes (u : NodeState) (os : List NodeOutput) : Prop :=
  ∀ t o, nodeStep u .callbacksCheck = some (t, o) →
    ∀ inv ∈ u.issued, inv.expireTime < u.carrier.now → inv.context ∉ invocations os →
      o.filter (fun e => decide (e.context = some inv.context)) =
        [.expired (.inviteResponse inv.context inv.userid inv.bundle elaStatusTimeout
          (some timeoutReason) [])]

/-- A call that puts its callback has a transaction id of its own, and a sweep finds the
friend that was invited under the number in each entry that has expired. -/
def completionGuard (s : NodeState) : NodeInput → Bool
  | .invite env addr bundle data =>
    !reachesLastFragment env s.carrier addr bundle data ||
      (s.carrier.tcallbacks.lookup env.tid).isNone
  | .callbacksCheck =>
    (s.carrier.tcallbacks.selected fun _ tcb => decide (tcb.expireTime < s.carrier.now)).all
      fun tcb => s.issued.all fun inv =>
        decide (inv.context ≠ tcb.callbackContext) ||
          (s.carrier.friends.lookup tcb.friendNumber).any fun fi => decide (fi.userid = inv.userid)
  | _ => true

/-! What a sweep puts out. -/

theorem transactedCallbackExpire_context {w : ElaCarrier} {tcb : TransactedCallback} :
    ∀ n ∈ transactedCallbackExpire w tcb, n.context = some tcb.callbackContext := by
  intro n hn
  unfold transactedCallbackExpire at hn
  split at hn
  · cases hn
  · rw [List.mem_singleton.mp hn]
    rfl

/-- A sweep calls at most one callback for each entry it selects, in their order. -/
theorem invocations_expire (w : ElaCarrier) (l : List TransactedCallback) :
    (invocations ((l.flatMap (transactedCallbackExpire w)).map .expired)).Sublist
      (l.map TransactedCallback.callbackContext) := by
  induction l with
  | nil => exact List.Sublist.refl _
  | cons tcb l ih =>
    rw [List.flatMap_cons, List.map_append, invocations_append, List.map_cons]
    have hh : (invocations ((transactedCallbackExpire w tcb).map .expired)).Sublist
        [tcb.callbackContext] := by
      unfold transactedCallbackExpire
      split
      · exact List.nil_sublist _
      · exact List.Sublist.refl _
    exact hh.append ih

/-- Among entries of different contexts, the calls with one context are those of its entry. -/
theorem filter_expire (w : ElaCarrier) {l : List TransactedCallback} {tcb : TransactedCallback}
    (hn : (l.map TransactedCallback.callbackContext).Nodup) (hm : tcb ∈ l) :
    ((l.flatMap (transactedCallbackExpire w)).map NodeOutput.expired).filter
        (fun e => decide (e.context = some tcb.callbackContext)) =
      (transactedCallbackExpire w tcb).map .expired := by
  have hself : ∀ a : TransactedCallback,
      ∀ e ∈ (transactedCallbackExpire w a).map NodeOutput.expired,
        e.context = some a.callbackContext := by
    intro a e he
    obtain ⟨n, hx, rfl⟩ := List.mem_map.mp he
    exact transactedCallbackExpire_context n hx
  have hother : ∀ l : List TransactedCallback, tcb.callbackContext ∉ l.map TransactedCallback.callbackContext →
      ((l.flatMap (transactedCallbackExpire w)).map NodeOutput.expired).filter
        (fun e => decide (e.context = some tcb.callbackContext)) = [] := by
    intro l hl
    rw [List.filter_eq_nil_iff]
    intro e he hc
    obtain ⟨n, hx, rfl⟩ := List.mem_map.mp he
    obtain ⟨a, ha, hx⟩ := List.mem_flatMap.mp hx
    have hae := transactedCallbackExpire_context n hx
    have hnc : n.context = some tcb.callbackContext := of_decide_eq_true hc
    rw [hae, Option.some.injEq] at hnc
    exact hl (hnc ▸ List.mem_map_of_mem ha)
  induction l with
  | nil => cases hm
  | cons a l ih =>
    rw [List.map_cons, List.nodup_cons] at hn
    rw [List.flatMap_cons, List.map_append, List.filter_append]
    rcases List.mem_cons.mp hm with rfl | hm
    · rw [hother l hn.1, List.append_nil, List.filter_eq_self]
      intro e he
      exact decide_eq_true (hself tcb e he)
    · have hne : tcb.callbackContext ∉ [a].map TransactedCallback.callbackContext := by
        intro hc
        exact hn.1 (List.mem_singleton.mp hc ▸ List.mem_map_of_mem hm)
      have ha := hother [a] hne
      rw [List.flatMap_singleton] at ha
      rw [ha, List.nil_append, ih hn.2 hm]

/-! At most once. -/

/-- Contexts belong to one call each, and those pending have not been used. -/
structure OnceInv (s : NodeState) (os : List NodeOutput) : Prop where
  used : ∀ c ∈ invocations os, c < s.calls
  once : (invocations os).Nodup
  pending : ∀ tid tcb, s.carrier.tcallbacks.lookup tid = some tcb →
    tcb.callbackContext < s.calls ∧ tcb.callbackContext ∉ invocations os
  distinct : ∀ tid tid' tcb tcb', s.carrier.tcallbacks.lookup tid = some tcb →
    s.carrier.tcallbacks.lookup tid' = some tcb' →
    tcb.callbackContext = tcb'.callbackContext → tid = tid'

private theorem pending_mono {s t : NodeState} {os : List NodeOutput} (hi : OnceInv s os)
    (hn : s.calls ≤ t.calls)
    (hk : ∀ tid tcb, t.carrier.tcallbacks.lookup tid = some tcb →
      s.carrier.tcallbacks.lookup tid = some tcb) : OnceInv t os where
  used := fun c hc => Nat.lt_of_lt_of_le (hi.used c hc) hn
  once := hi.once
  pending := fun tid tcb hl =>
    ⟨Nat.lt_of_lt_of_le (hi.pending tid tcb (hk tid tcb hl)).1 hn, (hi.pending tid tcb (hk tid tcb hl)).2⟩
  distinct := fun tid tid' tcb tcb' hl hl' =>
    hi.distinct tid tid' tcb tcb' (hk tid tcb hl) (hk tid' tcb' hl')

/-- Outputs whose contexts were all pending, in entries that are gone now. -/
private theorem onceInv_used {s t : NodeState} {os o : List NodeOutput} (hi : OnceInv s os)
    (hn : t.calls = s.calls)
    (hk : ∀ tid tcb, t.carrier.tcallbacks.lookup tid = some tcb →
      s.carrier.tcallbacks.lookup tid = some tcb ∧ tcb.callbackContext ∉ invocations o)
    (ho : ∀ c ∈ invocations o, ∃ tid tcb, s.carrier.tcallbacks.lookup tid = some tcb ∧
      tcb.callbackContext = c) (hd : (invocations o).Nodup) : OnceInv t (os ++ o) where
  used := by
    intro c hc
    rw [invocations_append, List.mem_append] at hc
    rw [hn]
    rcases hc with hc | hc
    · exact hi.used c hc
    · obtain ⟨tid, tcb, hl, rfl⟩ := ho c hc
      exact (hi.pending tid tcb hl).1
  once := by
    rw [invocations_append]
    refine hi.once.append hd ?_
    intro c hc hc'
    obtain ⟨tid, tcb, hl, rfl⟩ := ho c hc'
    exact (hi.pending tid tcb hl).2 hc
  pending := by
    intro tid tcb hl
    obtain ⟨hl, hno⟩ := hk tid tcb hl
    rw [hn, invocations_append, List.mem_append, not_or]
    exact ⟨(hi.pending tid tcb hl).1, (hi.pending tid tcb hl).2, hno⟩
  distinct := fun tid tid' tcb tcb' hl hl' =>
    hi.distinct tid tid' tcb tcb' (hk tid tcb hl).1 (hk tid' tcb' hl').1

/-- The entries a sweep selects have contexts of their own. -/
private theorem nodup_selected {s : NodeState} {os : List NodeOutput} (hi : OnceInv s os)
    (p : Tid → TransactedCallback → Bool) :
    ((s.carrier.tcallbacks.selected p).map TransactedCallback.callbackContext).Nodup :=
  Table.nodup_selected_map fun tid tid' tcb tcb' hl hl' _ _ => hi.distinct tid tid' tcb tcb' hl hl'

private theorem onceInv_step {s t : NodeState} {i : NodeInput} {o os : List NodeOutput}
    (hi : OnceInv s os) (_ : Machine.Free s i) (h : nodeStep s i = some (t, o)) :
    OnceInv t (os ++ o) := by
  have hsame : ∀ {o : List NodeOutput}, invocations o = [] → OnceInv t os → OnceInv t (os ++ o) := by
    intro o ho ht
    have he : invocations (os ++ o) = invocations os := by rw [invocations_append, ho, List.append_nil]
    exact ⟨by rw [he]; exact ht.used, by rw [he]; exact ht.once, by rw [he]; exact ht.pending, ht.distinct⟩
  cases nodeStep_cases h with
  | quiet hc _ _ hn _ hq =>
    exact hsame (invocations_quiet hq) (pending_mono hi hn fun tid tcb hl => hc ▸ hl)
  | stored => exact hsame rfl (pending_mono hi (Nat.le_refl _) fun tid tcb hl => hl)
  | @delivered fn packet cp fi tcb a hd hf hc hj hr hl =>
    refine onceInv_used hi rfl ?_ ?_ (List.nodup_singleton _)
    · intro tid tcb' hl'
      rw [NodeState.afterResponse, Table.lookup_erase_eq] at hl'
      split at hl'
      · cases hl'
      · next hne =>
        refine ⟨hl', fun hm => hne ?_⟩
        exact hi.distinct _ _ _ _ hl' hc (List.mem_singleton.mp hm)
    · intro c hm
      exact ⟨cp.tid, tcb, hc, (List.mem_singleton.mp hm).symm⟩
  | @registered env addr bundle data userid hreach hu =>
    refine hsame rfl ⟨fun c hc => Nat.lt_succ_of_lt (hi.used c hc), hi.once, ?_, ?_⟩
    · intro tid tcb hl
      rw [lookup_transactedCallbacksPut] at hl
      split at hl
      · simp only [Option.some.injEq] at hl
        subst hl
        exact ⟨Nat.lt_succ_self _, fun hm => Nat.lt_irrefl _ (hi.used _ hm)⟩
      · exact ⟨Nat.lt_succ_of_lt (hi.pending tid tcb hl).1, (hi.pending tid tcb hl).2⟩
    · intro tid tid' tcb tcb' hl hl' he
      rw [lookup_transactedCallbacksPut] at hl hl'
      split at hl
      · next ht =>
        split at hl'
        · next ht' => rw [ht, ht']
        · simp only [Option.some.injEq] at hl
          subst hl
          have := (hi.pending tid' tcb' hl').1
          rw [← he] at this
          exact absurd this (Nat.lt_irrefl _)
      · split at hl'
        · simp only [Option.some.injEq] at hl'
          subst hl'
          have := (hi.pending tid tcb hl).1
          rw [he] at this
          exact absurd this (Nat.lt_irrefl _)
        · exact hi.distinct tid tid' tcb tcb' hl hl' he
  | @withdrawn env addr bundle data e hreach =>
    refine hsame rfl (pending_mono hi (Nat.le_succ _) fun tid tcb hl => ?_)
    rw [lookup_withdrawn] at hl
    split at hl
    · cases hl
    · exact hl
  | swept =>
    have hsub := invocations_expire s.carrier
      (s.carrier.tcallbacks.selected fun _ tcb => decide (tcb.expireTime < s.carrier.now))
    refine onceInv_used hi rfl ?_ ?_ ((nodup_selected hi _).sublist hsub)
    · intro tid tcb hl
      obtain ⟨hl, hlive⟩ := Table.lookup_sweep_some.mp hl
      refine ⟨hl, fun hm => ?_⟩
      obtain ⟨tcb', hsel, he⟩ := List.mem_map.mp (hsub.subset hm)
      obtain ⟨tid', hl', hexp⟩ := Table.mem_selected.mp hsel
      have ht := hi.distinct tid' tid tcb' tcb hl' hl he
      subst ht
      rw [Option.some.inj (hl'.symm.trans hl), hlive] at hexp
      cases hexp
    · intro c hm
      obtain ⟨tcb, hsel, he⟩ := List.mem_map.mp (hsub.subset hm)
      obtain ⟨tid, hl, -⟩ := Table.mem_selected.mp hsel
      exact ⟨tid, tcb, hl, he⟩

/-! Exactly once. -/

/-- Every invite that was issued has been answered, or still has its entry. -/
def Kept (s : NodeState) (os : List NodeOutput) : Prop :=
  ∀ inv ∈ s.issued, inv.context ∈ invocations os ∨
    ∃ tcb, s.carrier.tcallbacks.lookup inv.tid = some tcb ∧ tcb.callbackContext = inv.context ∧
      tcb.bundle = inv.bundle ∧ tcb.expireTime = inv.expireTime

/-- An expired entry whose friend the sweep finds is timed out under the invited user id. -/
private theorem expire_found {s : NodeState} {inv : Invited} {tid : Tid} {tcb : TransactedCallback}
    (hg : completionGuard s .callbacksCheck = true) (hm : inv ∈ s.issued)
    (hl : s.carrier.tcallbacks.lookup tid = some tcb) (hx : tcb.callbackContext = inv.context)
    (he : tcb.expireTime < s.carrier.now) :
    transactedCallbackExpire s.carrier tcb = [.inviteResponse inv.context inv.userid tcb.bundle
      elaStatusTimeout (some timeoutReason) []] := by
  have hsel : tcb ∈ s.carrier.tcallbacks.selected fun _ tcb => decide (tcb.expireTime < s.carrier.now) :=
    Table.mem_selected.mpr ⟨tid, hl, decide_eq_true he⟩
  simp only [completionGuard, List.all_eq_true, Bool.or_eq_true, decide_eq_true_eq] at hg
  rcases hg tcb hsel inv hm with hne | hf
  · exact absurd hx.symm hne
  · obtain ⟨fi, hfi, hu⟩ := (Option.any_eq_true _ _).mp hf
    rw [decide_eq_true_eq] at hu
    simp only [transactedCallbackExpire, hfi, hu, hx]

/-- A guarded call that reaches its last fragment uses a tid that no entry has. -/
private theorem tid_free {s : NodeState} {env : CallEnv} {addr bundle : Option CString}
    {data : Option (List UInt8)} {tid : Tid} {tcb : TransactedCallback}
    (hg : completionGuard s (.invite env addr bundle data) = true)
    (hreach : reachesLastFragment env s.carrier addr bundle data = true)
    (hl : s.carrier.tcallbacks.lookup tid = some tcb) : tid ≠ env.tid := by
  have hfree : s.carrier.tcallbacks.lookup env.tid = none := by
    simpa [completionGuard, hreach] using hg
  rintro rfl
  rw [hfree] at hl
  cases hl

private theorem kept_step {s t : NodeState} {i : NodeInput} {o os : List NodeOutput}
    (hk : Kept s os) (hg : completionGuard s i = true) (h : nodeStep s i = some (t, o)) :
    Kept t (os ++ o) := by
  have hleft : ∀ {c : Nat}, c ∈ invocations os → c ∈ invocations (os ++ o) := by
    intro c hc
    rw [invocations_append]
    exact List.mem_append_left _ hc
  have hright : ∀ {c : Nat}, c ∈ invocations o → c ∈ invocations (os ++ o) := by
    intro c hc
    rw [invocations_append]
    exact List.mem_append_right _ hc
  cases nodeStep_cases h with
  | quiet hc _ hiss _ _ _ =>
    intro inv hm
    rw [hiss] at hm
    rcases hk inv hm with hu | hp
    · exact .inl (hleft hu)
    · exact .inr (hc ▸ hp)
  | stored =>
    intro inv hm
    rcases hk inv hm with hu | hp
    · exact .inl (hleft hu)
    · exact .inr hp
  | @delivered fn packet cp fi tcb a hd hf hc hj hr hl =>
    intro inv hm
    rcases hk inv hm with hu | ⟨tcb', hl', hx, hb⟩
    · exact .inl (hleft hu)
    · by_cases ht : inv.tid = cp.tid
      · rw [ht] at hl'
        have hs := Option.some.inj (hc.symm.trans hl')
        exact .inl (hright (List.mem_singleton.mpr (by rw [hs, hx])))
      · refine .inr ⟨tcb', ?_, hx, hb⟩
        rw [NodeState.afterResponse, Table.lookup_erase_eq, if_neg ht]
        exact hl'
  | @registered env addr bundle data userid hreach hu =>
    -- The tid of the call is free, so no earlier entry is overwritten.
    intro inv hm
    rcases List.mem_append.mp hm with hm | hm
    · rcases hk inv hm with hu | ⟨tcb, hl, hx⟩
      · exact .inl (hleft hu)
      · refine .inr ⟨tcb, ?_, hx⟩
        have hne : inv.tid ≠ (inviteCallback env bundle s.calls).tid := tid_free hg hreach hl
        rw [lookup_transactedCallbacksPut, if_neg hne]
        exact hl
    · rw [List.mem_singleton.mp hm]
      have hput := lookup_transactedCallbacksPut s.carrier (inviteCallback env bundle s.calls) env.tid
      rw [if_pos (by rfl)] at hput
      exact .inr ⟨_, hput, rfl, rfl, rfl⟩
  | @withdrawn env addr bundle data e hreach =>
    intro inv hm
    rcases hk inv hm with hu | ⟨tcb, hl, hx⟩
    · exact .inl (hleft hu)
    · refine .inr ⟨tcb, ?_, hx⟩
      rw [lookup_withdrawn, if_neg (tid_free hg hreach hl)]
      exact hl
  | swept =>
    intro inv hm
    rcases hk inv hm with hu | ⟨tcb, hl, hx, hb⟩
    · exact .inl (hleft hu)
    · by_cases he : tcb.expireTime < s.carrier.now
      · refine .inl (hright ?_)
        have hsel : tcb ∈ s.carrier.tcallbacks.selected
            fun _ tcb => decide (tcb.expireTime < s.carrier.now) :=
          Table.mem_selected.mpr ⟨_, hl, decide_eq_true he⟩
        have hn : NodeOutput.expired (.inviteResponse inv.context inv.userid tcb.bundle
            elaStatusTimeout (some timeoutReason) []) ∈
            (doTransactedCallbacksCheck s.carrier).2.map .expired := by
          refine List.mem_map_of_mem (List.mem_flatMap.mpr ⟨tcb, hsel, ?_⟩)
          rw [expire_found hg hm hl hx he]
          exact List.mem_singleton_self _
        exact List.mem_filterMap.mpr ⟨_, hn, rfl⟩
      · exact .inr ⟨tcb, Table.lookup_sweep_some.mpr ⟨hl, decide_eq_false he⟩, hx, hb⟩

private theorem kept_sweep {u : NodeState} {os : List NodeOutput} (hi : OnceInv u os)
    (hk : Kept u os) (hg : completionGuard u .callbacksCheck = true) : SweepCompletes u os := by
  intro t o h inv hm he hno
  simp only [nodeStep, Option.some.injEq, Prod.mk.injEq] at h
  obtain ⟨-, rfl⟩ := h
  rcases hk inv hm with hu | ⟨tcb, hl, hx, hb, hexp⟩
  · exact absurd hu hno
  · rw [← hexp] at he
    have hsel : tcb ∈ u.carrier.tcallbacks.selected fun _ tcb => decide (tcb.expireTime < u.carrier.now) :=
      Table.mem_selected.mpr ⟨_, hl, decide_eq_true he⟩
    have hf := filter_expire u.carrier (nodup_selected hi _) hsel
    rw [expire_found hg hm hl hx he, hb, hx] at hf
    exact hf

/-- No invite callback is ever called twice. Where calls use tids that are free and sweeps
find the invited friends, the sweep after its expiry calls each one that is still pending. -/
theorem invites_complete_once {s u : NodeState} {is : List NodeInput} {os : List NodeOutput}
    (hs : NodeStarted s) :
    (nodeMachine.Run Machine.Free s is os u → (invocations os).Nodup) ∧
      (nodeMachine.Run (fun s i => completionGuard s i = true) s is os u →
        completionGuard u .callbacksCheck = true →
        (invocations os).Nodup ∧ SweepCompletes u os) := by
  have hstart : OnceInv s [] := by
    refine ⟨by simp [invocations], List.nodup_nil, ?_, ?_⟩
    · intro tid tcb hl
      rw [hs.tcallbacks] at hl
      cases hl
    · intro tid tid' tcb tcb' hl
      rw [hs.tcallbacks] at hl
      cases hl
  have honce : nodeMachine.Run Machine.Free s is os u → OnceInv u os := by
    intro h
    have hend : OnceInv u ([] ++ os) := h.history onceInv_step hstart
    exact hend
  refine ⟨fun h => (honce h).once, fun h hg => ?_⟩
  have hkept : Kept s [] := by
    intro inv hm
    rw [hs.issued] at hm
    cases hm
  have hend : Kept u ([] ++ os) := h.history kept_step hkept
  have hi := honce (h.mono fun _ _ _ => trivial)
  exact ⟨hi.once, kept_sweep hi hend hg⟩

/-- Friend zero is invited by a call whose callback entry holds a number, and nobody answers
for six minutes. -/
def inviteUnanswered (memory : FriendNumber) : List NodeInput :=
  [.invite (.small 5 memory) (some (UserId.small 0).text) none (some [7]), .tick 360000000]

/-- The memory of the callback entry happens to hold the number of the friend. -/
theorem invites_complete_once_unanswered :
    ∃ u : NodeState, ∃ inv ∈ u.issued, inv.userid = .small 0 ∧
      inv.expireTime < u.carrier.now ∧ SweepCompletes u [.returned none] := by
  obtain ⟨u, os, he, hp⟩ := nodeMachine.exec_any (.start .twoFriends) (inviteUnanswered 0)
    (fun r => decide (r.2 = [.returned none]) && completionGuard r.1 .callbacksCheck &&
      r.1.issued.any fun inv => decide (inv.userid = .small 0) &&
        decide (inv.expireTime < r.1.carrier.now)) (by decide +kernel)
  simp only [Bool.and_eq_true, decide_eq_true_eq, List.any_eq_true] at hp
  obtain ⟨⟨rfl, hg⟩, inv, hm, hu, hx⟩ := hp
  exact ⟨u, inv, hm, hu, hx, ((invites_complete_once .twoFriends).2
    (Machine.run_of_exec (fun _ _ h => h) he (by decide +kernel)) hg).2⟩

/-- The memory of the callback entry holds a number no friend has, and the callback is lost. -/
theorem invites_complete_once_fails :
    ¬ ∀ (s u : NodeState) (is : List NodeInput) (os : List NodeOutput), NodeStarted s →
      nodeMachine.Run Machine.Free s is os u → (invocations os).Nodup ∧ SweepCompletes u os := by
  intro h
  obtain ⟨u, os, he, hp⟩ := nodeMachine.exec_any (.start .twoFriends) (inviteUnanswered 3452816845)
    (fun r : NodeState × List NodeOutput => decide (invocations r.2 = []) &&
      (nodeStep r.1 .callbacksCheck).any (fun q : NodeState × List NodeOutput => decide (q.2 = [])) &&
      r.1.issued.any fun inv => decide (inv.expireTime < r.1.carrier.now)) (by decide +kernel)
  simp only [Bool.and_eq_true, decide_eq_true_eq, List.any_eq_true, Option.any_eq_true] at hp
  obtain ⟨⟨hno, ⟨t, o⟩, hs, rfl⟩, inv, hm, hx⟩ := hp
  have hsweep := (h _ u _ os .twoFriends (Machine.free_run_of_exec he)).2 t [] hs inv hm hx
  rw [hno] at hsweep
  cases hsweep List.not_mem_nil

end CarrierSdk
