import CarrierSdk.Carrier.State
import CarrierSdk.Library.LongestMatch
import CarrierSdk.Library.Machine

/-! Which callback a session request reaches. Callbacks are set for prefixes of the bundle and
kept in the order of decreasing length, so that the first one that fits is the longest. -/
namespace CarrierSdk

/-- A callback that is not NULL, and the context it is called with. -/
abbrev RequestHandler (α γ : Type) := α × Option γ

/-- struct BundledRequestCallback. -/
structure BundledRequestCallback (α γ : Type) where
  bundlePrefix : CString
  callback : Option α
  context : Option γ

/-- struct SessionExtension, as far as requests go. -/
structure SessionExtension (α γ : Type) where
  defaultCallback : Option α
  defaultContext : Option γ
  callbacks : List (BundledRequestCallback α γ)

/-- The arguments of ela_session_set_callback, and whether there is memory for a new entry. -/
structure SetCallback (α γ : Type) where
  bundlePrefix : Option CString
  callback : Option α
  context : Option γ
  alloc : Bool

inductive CallbackError | invalidArgs | outOfMemory
  deriving DecidableEq

variable {α γ : Type}

/-- Where the loop of ela_session_set_callback stops: at the entry for the prefix, or at the
place of a new one, before the first entry that is shorter. -/
inductive CallbackPlace
  | entry (idx : Nat)
  | new (idx : Nat)

def callbackPlace (bundlePrefix : CString) : List (BundledRequestCallback α γ) → Nat → CallbackPlace
  | [], idx => .new idx
  | brc :: rest, idx =>
    if brc.bundlePrefix.strlen = bundlePrefix.strlen then
      if brc.bundlePrefix = bundlePrefix then .entry idx else callbackPlace bundlePrefix rest (idx + 1)
    else if brc.bundlePrefix.strlen < bundlePrefix.strlen then .new idx
    else callbackPlace bundlePrefix rest (idx + 1)

/-- A NULL prefix stands for the empty one. -/
def SetCallback.target (call : SetCallback α γ) : CString := call.bundlePrefix.getD .empty

/-- ela_session_set_callback. -/
def elaSessionSetCallback (ext : SessionExtension α γ) (call : SetCallback α γ) :
    SessionExtension α γ × Except CallbackError Unit :=
  if elaMaxBundleLen < call.target.strlen then (ext, .error .invalidArgs)
  else if call.target.strlen = 0 then
    ({ ext with
        defaultCallback := call.callback
        defaultContext := if call.callback.isSome then call.context else none }, .ok ())
  else
    match callbackPlace call.target ext.callbacks 0 with
    | .entry idx =>
      if call.callback.isSome then
        ({ ext with
            callbacks := ext.callbacks.modify idx fun brc =>
              { brc with callback := call.callback, context := call.context } }, .ok ())
      else ({ ext with callbacks := ext.callbacks.eraseIdx idx }, .ok ())
    | .new idx =>
      if call.alloc then
        ({ ext with
            callbacks := ext.callbacks.insertIdx idx ⟨call.target, call.callback, call.context⟩ }, .ok ())
      else (ext, .error .outOfMemory)

def SessionExtension.defaultHandler (ext : SessionExtension α γ) : Option (RequestHandler α γ) :=
  ext.defaultCallback.map fun callback => (callback, ext.defaultContext)

def BundledRequestCallback.handler (brc : BundledRequestCallback α γ) : Option (RequestHandler α γ) :=
  brc.callback.map fun callback => (callback, brc.context)

/-- friend_invite: the callback it calls. No bundle and the empty one go to the default. -/
def friendInvite (ext : SessionExtension α γ) (bundle : Option CString) : Option (RequestHandler α γ) :=
  let bundle := bundle.getD .empty
  if bundle.strlen = 0 then ext.defaultHandler
  else
    match ext.callbacks.find? fun brc => brc.bundlePrefix.bytes.isPrefixOf bundle.bytes with
    | none => ext.defaultHandler
    | some brc =>
      match brc.handler with
      | none => ext.defaultHandler
      | some handler => some handler

/-- An extension after ela_session_init. -/
def SessionExtension.new : SessionExtension α γ := ⟨none, none, []⟩

/-- Puts out the calls that return 0. -/
def bundleMachine : Machine (SessionExtension α γ) (SetCallback α γ) (SetCallback α γ) where
  step ext call :=
    let r := elaSessionSetCallback ext call
    some (r.1, match r.2 with
      | .ok () => [call]
      | .error _ => [])

/-! What the calls mean. -/

/-- The handler that a call sets for a prefix, if it is about that prefix. -/
def SetCallback.sets (p : List UInt8) (call : SetCallback α γ) : Option (Option (RequestHandler α γ)) :=
  if call.target.bytes = p then some (call.callback.map fun callback => (callback, call.context)) else none

/-- The handler that was last set for a prefix. -/
def lastSet (os : List (SetCallback α γ)) (p : List UInt8) : Option (RequestHandler α γ) :=
  (os.filterMap (SetCallback.sets p)).getLast?.join

/-- What becomes of the entry of a prefix. Taking a callback away that is not there leaves an
entry without one. -/
def enter : Option (Option (RequestHandler α γ)) → Option (RequestHandler α γ) →
    Option (Option (RequestHandler α γ))
  | _, some handler => some (some handler)
  | none, none => some none
  | some _, none => none

def entered (os : List (SetCallback α γ)) (p : List UInt8) : Option (Option (RequestHandler α γ)) :=
  (os.filterMap (SetCallback.sets p)).foldl enter none

/-- A prefix of the bundle has an entry without a callback, no longer one has a callback, and a
shorter one has one that is not the default. -/
def Shadowed (os : List (SetCallback α γ)) (bundle : CString) : Prop :=
  ∃ p, p ≠ [] ∧ p <+: bundle.bytes ∧ entered os p = some none ∧ NoLonger (lastSet os) bundle.bytes p ∧
    longestMatch (lastSet os) bundle.bytes ≠ lastSet os []

theorem entered_append (os : List (SetCallback α γ)) (call : SetCallback α γ) (p : List UInt8) :
    entered (os ++ [call]) p =
      match call.sets p with
      | none => entered os p
      | some handler => enter (entered os p) handler := by
  rw [entered, List.filterMap_append, List.foldl_append, ← entered]
  cases h : call.sets p <;> simp [h]

theorem lastSet_append (os : List (SetCallback α γ)) (call : SetCallback α γ) (p : List UInt8) :
    lastSet (os ++ [call]) p = (call.sets p).getD (lastSet os p) := by
  rw [lastSet, List.filterMap_append, List.getLast?_append]
  cases h : call.sets p <;> simp [h, lastSet]

/-- An entry with a callback holds the one that was last set. -/
theorem entered_join (os : List (SetCallback α γ)) (p : List UInt8) : (entered os p).join = lastSet os p := by
  induction os using List.reverseRecOn with
  | nil => rfl
  | append_singleton os call ih =>
    rw [entered_append, lastSet_append]
    cases call.sets p with
    | none => exact ih
    | some handler =>
      cases handler <;> cases entered os p <;> rfl

/-! What a call does to the list. -/

abbrev prefixBytes (brc : BundledRequestCallback α γ) : List UInt8 := brc.bundlePrefix.bytes

/-- A place that the loop may stop at when it begins to count at an index. -/
inductive Placed (bundlePrefix : CString) (callbacks : List (BundledRequestCallback α γ)) (idx : Nat) :
    CallbackPlace → Prop
  | entry (before : List (BundledRequestCallback α γ)) {after : List (BundledRequestCallback α γ)}
      {brc : BundledRequestCallback α γ}
      (list : callbacks = before ++ brc :: after) (found : brc.bundlePrefix = bundlePrefix) :
      Placed bundlePrefix callbacks idx (.entry (idx + before.length))
  | new (before : List (BundledRequestCallback α γ)) {after : List (BundledRequestCallback α γ)}
      (list : callbacks = before ++ after)
      (passed : ∀ brc ∈ before, bundlePrefix.strlen ≤ brc.bundlePrefix.strlen ∧
        brc.bundlePrefix ≠ bundlePrefix)
      (shorter : ∀ brc ∈ after.head?, brc.bundlePrefix.strlen < bundlePrefix.strlen) :
      Placed bundlePrefix callbacks idx (.new (idx + before.length))

theorem Placed.cons {bundlePrefix : CString} {brc : BundledRequestCallback α γ}
    {rest : List (BundledRequestCallback α γ)} {idx : Nat} {place : CallbackPlace}
    (h : Placed bundlePrefix rest (idx + 1) place) (hle : bundlePrefix.strlen ≤ brc.bundlePrefix.strlen)
    (hne : brc.bundlePrefix ≠ bundlePrefix) : Placed bundlePrefix (brc :: rest) idx place := by
  cases h with
  | @entry before after brc' list found =>
    rw [Nat.add_assoc, Nat.add_comm 1]
    exact .entry (brc :: before) (by rw [list, List.cons_append]) found
  | @new before after list passed shorter =>
    rw [Nat.add_assoc, Nat.add_comm 1]
    exact .new (brc :: before) (by rw [list, List.cons_append])
      (List.forall_mem_cons.mpr ⟨⟨hle, hne⟩, passed⟩) shorter

theorem callbackPlace_placed (bundlePrefix : CString) (callbacks : List (BundledRequestCallback α γ))
    (idx : Nat) : Placed bundlePrefix callbacks idx (callbackPlace bundlePrefix callbacks idx) := by
  induction callbacks generalizing idx with
  | nil => exact .new [] rfl (by simp) (by simp)
  | cons brc rest ih =>
    rw [callbackPlace]
    split
    · next hlen =>
      split
      · next hfound => exact .entry [] rfl hfound
      · next hne => exact (ih _).cons (Nat.le_of_eq hlen.symm) hne
    · next hlen =>
      split
      · next hlt => exact .new [] rfl (by simp) (by simpa using hlt)
      · next hle =>
        refine (ih _).cons (Nat.le_of_not_lt hle) fun he => hlen ?_
        rw [he]

/-- The list against the calls that returned 0. -/
structure Registered (ext : SessionExtension α γ) (os : List (SetCallback α γ)) : Prop where
  descending : Descending prefixBytes ext.callbacks
  nonempty : ∀ brc ∈ ext.callbacks, prefixBytes brc ≠ []
  entries : ∀ p, p ≠ [] →
    (entryAt prefixBytes ext.callbacks p).map BundledRequestCallback.handler = entered os p
  default : ext.defaultHandler = lastSet os []

section Step
variable {ext : SessionExtension α γ} {os : List (SetCallback α γ)} {call : SetCallback α γ}
  {before after : List (BundledRequestCallback α γ)} {brc : BundledRequestCallback α γ}

/-- What the calls mean after one more that is about a prefix. -/
theorem entered_sets (p : List UInt8) :
    entered (os ++ [call]) p =
      if p = call.target.bytes then
        enter (entered os p) (call.callback.map fun callback => (callback, call.context))
      else entered os p := by
  rw [entered_append, SetCallback.sets]
  by_cases h : p = call.target.bytes
  · rw [if_pos h.symm, if_pos h]
  · rw [if_neg (Ne.symm h), if_neg h]

theorem Registered.setDefault (h : Registered ext os) (htarget : call.target.bytes = []) :
    Registered
      { ext with
        defaultCallback := call.callback
        defaultContext := if call.callback.isSome then call.context else none } (os ++ [call]) where
  descending := h.descending
  nonempty := h.nonempty
  entries p hp := by
    have hne : p ≠ call.target.bytes := by rwa [htarget]
    rw [entered_sets, if_neg hne]
    exact h.entries p hp
  default := by
    rw [lastSet_append, SetCallback.sets, if_pos htarget, Option.getD_some, SessionExtension.defaultHandler]
    cases call.callback <;> rfl

/-- The default is as it was when a call was about a prefix. -/
theorem Registered.keepsDefault (h : Registered ext os) (htarget : call.target.bytes ≠ []) :
    ext.defaultHandler = lastSet (os ++ [call]) [] := by
  rw [lastSet_append, SetCallback.sets, if_neg htarget, Option.getD_none]
  exact h.default

theorem Registered.update (h : Registered ext os) (hlist : ext.callbacks = before ++ brc :: after)
    (hfound : brc.bundlePrefix = call.target) {callback : α} (hset : call.callback = some callback) :
    Registered
      { ext with
        callbacks := before ++ { brc with callback := call.callback, context := call.context } :: after }
      (os ++ [call]) := by
  have hdescending := h.descending
  rw [hlist] at hdescending
  have htarget : call.target.bytes = prefixBytes brc := by rw [prefixBytes, hfound]
  have hbrc := h.nonempty brc (by rw [hlist]; simp)
  have hkey : prefixBytes { brc with callback := call.callback, context := call.context } = prefixBytes brc :=
    rfl
  refine ⟨hdescending.replace hkey, ?_, fun p hp => ?_, h.keepsDefault (htarget ▸ hbrc)⟩
  · have hnonempty := h.nonempty
    rw [hlist] at hnonempty
    simpa only [List.forall_mem_append, List.forall_mem_cons] using hnonempty
  · have hentry := h.entries p hp
    rw [hlist] at hentry
    dsimp only
    rw [entryAt_replace hdescending hkey, entered_sets, htarget]
    split
    · rw [Option.map_some, BundledRequestCallback.handler, hset]
      cases entered os p <;> rfl
    · exact hentry

theorem Registered.remove (h : Registered ext os) (hlist : ext.callbacks = before ++ brc :: after)
    (hfound : brc.bundlePrefix = call.target) (hset : call.callback = none) :
    Registered { ext with callbacks := before ++ after } (os ++ [call]) := by
  have hdescending := h.descending
  rw [hlist] at hdescending
  have htarget : call.target.bytes = prefixBytes brc := by rw [prefixBytes, hfound]
  have hbrc := h.nonempty brc (by rw [hlist]; simp)
  refine ⟨hdescending.remove, fun x hx => ?_, fun p hp => ?_, h.keepsDefault (htarget ▸ hbrc)⟩
  · refine h.nonempty x ?_
    rw [hlist]
    rcases List.mem_append.mp hx with hx | hx
    · exact List.mem_append_left _ hx
    · exact List.mem_append_right _ (List.mem_cons_of_mem _ hx)
  · have hentry := h.entries p hp
    rw [hlist] at hentry
    rw [entryAt_remove hdescending, entered_sets, htarget]
    split
    · next hp' =>
      rw [hp', (entryAt_eq_some hdescending.once).mpr ⟨by simp, rfl⟩, Option.map_some] at hentry
      rw [hp', ← hentry, hset]
      rfl
    · exact hentry

theorem Registered.insert (h : Registered ext os) (hlist : ext.callbacks = before ++ after)
    (htarget : call.target.bytes ≠ [])
    (hpassed : ∀ brc ∈ before, call.target.strlen ≤ brc.bundlePrefix.strlen ∧
      brc.bundlePrefix ≠ call.target)
    (hshorter : ∀ brc ∈ after.head?, brc.bundlePrefix.strlen < call.target.strlen) :
    Registered
      { ext with callbacks := before ++ ⟨call.target, call.callback, call.context⟩ :: after }
      (os ++ [call]) := by
  have hdescending := h.descending
  rw [hlist] at hdescending
  have hbefore : ∀ x ∈ before, call.target.bytes.length ≤ (prefixBytes x).length ∧
      prefixBytes x ≠ call.target.bytes := fun x hx =>
    ⟨(hpassed x hx).1, fun he => (hpassed x hx).2 (CString.ext_bytes he)⟩
  -- The first of the entries behind is the longest of them.
  have hafter : ∀ x ∈ after, (prefixBytes x).length < call.target.bytes.length := by
    intro x hx
    cases after with
    | nil => cases hx
    | cons y rest =>
      have hy : (prefixBytes y).length < call.target.bytes.length := hshorter y rfl
      rcases List.mem_cons.mp hx with rfl | hx
      · exact hy
      · have hrest := (List.pairwise_append.mp hdescending.lengths).2.1
        exact Nat.lt_of_le_of_lt ((List.pairwise_cons.mp hrest).1 x hx) hy
  have hnone : entryAt prefixBytes (before ++ after) call.target.bytes = none := by
    refine entryAt_eq_none.mpr fun x hx => ?_
    rcases List.mem_append.mp hx with hx | hx
    · exact (hbefore x hx).2
    · exact fun he => absurd (congrArg List.length he) (Nat.ne_of_lt (hafter x hx))
  refine ⟨hdescending.insert (fun x hx => hbefore x hx) hafter, fun x hx => ?_, fun p hp => ?_,
    h.keepsDefault htarget⟩
  · rcases List.mem_append.mp hx with hx | hx
    · exact h.nonempty x (by rw [hlist]; exact List.mem_append_left _ hx)
    · rcases List.mem_cons.mp hx with rfl | hx
      · exact htarget
      · exact h.nonempty x (by rw [hlist]; exact List.mem_append_right _ hx)
  · have hentry := h.entries p hp
    rw [hlist] at hentry
    rw [entryAt_insert fun x hx => (hbefore x hx).2, entered_sets]
    change Option.map _ (if p = call.target.bytes then _ else _) = _
    split
    · next hp' =>
      rw [hp', hnone, Option.map_none] at hentry
      rw [hp', ← hentry, Option.map_some, BundledRequestCallback.handler]
      cases call.callback <;> rfl
    · exact hentry

end Step

theorem modify_length {ε : Type} (before after : List ε) (e : ε) (f : ε → ε) :
    (before ++ e :: after).modify before.length f = before ++ f e :: after := by
  induction before with
  | nil => rfl
  | cons x before ih => simp [ih]

theorem insertIdx_length {ε : Type} (before after : List ε) (e : ε) :
    (before ++ after).insertIdx before.length e = before ++ e :: after := by
  induction before with
  | nil => rfl
  | cons x before ih => simp [ih]

theorem eraseIdx_length {ε : Type} (before after : List ε) (e : ε) :
    (before ++ e :: after).eraseIdx before.length = before ++ after := by
  rw [List.eraseIdx_append_of_length_le (Nat.le_refl _), Nat.sub_self, List.eraseIdx_cons_zero]

/-- A call that returns 0 has set its handler, and one that fails has changed nothing. -/
theorem Registered.step {ext ext' : SessionExtension α γ} {call : SetCallback α γ}
    {os o : List (SetCallback α γ)} (h : Registered ext os)
    (hstep : bundleMachine.step ext call = some (ext', o)) : Registered ext' (os ++ o) := by
  cases hstep
  unfold elaSessionSetCallback
  split
  · rwa [List.append_nil]
  split
  · next hzero => exact h.setDefault (List.length_eq_zero_iff.mp hzero)
  next hne =>
  have htarget : call.target.bytes ≠ [] := fun he => hne (congrArg List.length he)
  have hplaced := callbackPlace_placed call.target ext.callbacks 0
  generalize callbackPlace call.target ext.callbacks 0 = place at hplaced
  cases hplaced with
  | entry _ hlist hfound =>
    rw [Nat.zero_add]
    cases hset : call.callback with
    | none =>
      have hremoved := h.remove hlist hfound hset
      simpa only [Option.isSome_none, Bool.false_eq_true, if_false, hlist, eraseIdx_length] using hremoved
    | some callback =>
      have hupdated := h.update hlist hfound hset
      rw [hset] at hupdated
      simpa only [Option.isSome_some, if_true, hlist, modify_length] using hupdated
  | new _ hlist hpassed hshorter =>
    rw [Nat.zero_add]
    cases call.alloc with
    | false =>
      simpa only [Bool.false_eq_true, if_false, List.append_nil] using h
    | true =>
      have hinserted := h.insert hlist htarget hpassed hshorter
      simpa only [if_true, hlist, insertIdx_length] using hinserted

theorem Registered.new : Registered (.new : SessionExtension α γ) [] where
  descending := ⟨.nil, .nil⟩
  nonempty := by simp [SessionExtension.new]
  entries _ _ := rfl
  default := rfl

/-! What friend_invite finds. -/

section Dispatch
variable {ext : SessionExtension α γ} {os : List (SetCallback α γ)} {bundle : CString}

/-- The entry that is found holds a callback of its own, or there is the default. -/
theorem Registered.friendInvite (h : Registered ext os) (hne : bundle.bytes ≠ []) :
    friendInvite ext (some bundle) =
      (((longestMatch (entryAt prefixBytes ext.callbacks) bundle.bytes).bind
        BundledRequestCallback.handler).or (lastSet os [])) := by
  have hlen : bundle.strlen ≠ 0 := fun he => hne (List.length_eq_zero_iff.mp he)
  rw [CarrierSdk.friendInvite, Option.getD_some, if_neg hlen, find_eq_longestMatch h.descending, ← h.default]
  cases longestMatch (entryAt prefixBytes ext.callbacks) bundle.bytes with
  | none => rfl
  | some brc =>
    simp only [Option.bind_some]
    cases brc.handler <;> rfl

theorem lastSet_none {p : List UInt8} (h : entered os p = none) : lastSet os p = none := by
  rw [← entered_join, h]
  rfl

theorem Registered.entered_none (h : Registered ext os) {p : List UInt8} (hp : p ≠ [])
    (hnone : entryAt prefixBytes ext.callbacks p = none) : entered os p = none := by
  rw [← h.entries p hp, hnone, Option.map_none]

/-- The longest entry is found. It is not the one of the empty prefix. -/
theorem Registered.longest (h : Registered ext os) {brc : BundledRequestCallback α γ}
    (hfound : longestMatch (entryAt prefixBytes ext.callbacks) bundle.bytes = some brc) :
    prefixBytes brc ≠ [] ∧ prefixBytes brc <+: bundle.bytes ∧
      entered os (prefixBytes brc) = some brc.handler ∧
      NoLonger (entered os) bundle.bytes (prefixBytes brc) := by
  obtain ⟨p, hp, hentry, hmax⟩ := longestMatch_eq_some.mp hfound
  obtain ⟨hmem, rfl⟩ := (entryAt_eq_some h.descending.once).mp hentry
  have hne := h.nonempty brc hmem
  refine ⟨hne, hp, ?_, fun q hq hlen => ?_⟩
  · rw [← h.entries _ hne, hentry, Option.map_some]
  · exact h.entered_none (List.length_pos_iff.mp (Nat.zero_lt_of_lt hlen)) (hmax q hq hlen)

/-- Without an entry for a prefix of the bundle the default is meant. -/
theorem Registered.unregistered (h : Registered ext os)
    (hnone : longestMatch (entryAt prefixBytes ext.callbacks) bundle.bytes = none) :
    longestMatch (lastSet os) bundle.bytes = lastSet os [] := by
  have hlast : ∀ p, p ≠ [] → p <+: bundle.bytes → lastSet os p = none := fun p hp hpre =>
    lastSet_none (h.entered_none hp (longestMatch_eq_none.mp hnone p hpre))
  cases hdefault : lastSet os [] with
  | none =>
    refine longestMatch_eq_none.mpr fun p hpre => ?_
    by_cases hp : p = []
    · rw [hp, hdefault]
    · exact hlast p hp hpre
  | some handler =>
    refine longestMatch_eq_some.mpr ⟨[], List.nil_prefix, hdefault, fun q hq hlen => ?_⟩
    exact hlast q (List.length_pos_iff.mp hlen) hq

theorem Registered.dispatch (h : Registered ext os) (hne : bundle.bytes ≠ []) :
    CarrierSdk.friendInvite ext (some bundle) = longestMatch (lastSet os) bundle.bytes ↔
      ¬ Shadowed os bundle := by
  rw [h.friendInvite hne]
  cases hfound : longestMatch (entryAt prefixBytes ext.callbacks) bundle.bytes with
  | none =>
    refine iff_of_true ?_ ?_
    · rw [h.unregistered hfound, Option.bind_none, Option.none_or]
    · rintro ⟨p, hp, hpre, hentry, -⟩
      rw [h.entered_none hp (longestMatch_eq_none.mp hfound p hpre)] at hentry
      cases hentry
  | some brc =>
    obtain ⟨hkey, hpre, hentry, hmax⟩ := h.longest hfound
    rw [Option.bind_some]
    cases hhandler : brc.handler with
    | none =>
      rw [hhandler] at hentry
      rw [Option.none_or]
      constructor
      · rintro heq ⟨-, -, -, -, -, hdefault⟩
        exact hdefault heq.symm
      · intro hno
        by_contra hdefault
        exact hno ⟨_, hkey, hpre, hentry, fun q hq hlen => lastSet_none (hmax q hq hlen), Ne.symm hdefault⟩
    | some handler =>
      rw [hhandler] at hentry
      have hset : lastSet os (prefixBytes brc) = some handler := by
        rw [← entered_join, hentry]
        rfl
      refine iff_of_true ?_ ?_
      · rw [Option.some_or, longestMatch_eq_some.mpr
          ⟨_, hpre, hset, fun q hq hlen => lastSet_none (hmax q hq hlen)⟩]
      -- An entry without a callback is neither longer than the longest one nor shorter than a set one.
      · rintro ⟨p, -, hpre', hentry', hmax', -⟩
        rcases Nat.lt_trichotomy p.length (prefixBytes brc).length with hlt | heq | hgt
        · rw [hmax' _ hpre hlt] at hset
          cases hset
        · rw [(List.prefix_of_prefix_length_le hpre' hpre (Nat.le_of_eq heq)).eq_of_length heq, hentry] at hentry'
          cases hentry'
        · rw [hmax p hpre' hgt] at hentry'
          cases hentry'

end Dispatch

/-- After any calls the list is in the order of decreasing length, each prefix once. A request
reaches the callback last set for the longest prefix of its bundle that has one, unless a prefix in
between was taken away while it was not there. -/
theorem dispatch_longest {is os : List (SetCallback α γ)} {u : SessionExtension α γ}
    (h : Machine.Run bundleMachine Machine.Free .new is os u) :
    Descending prefixBytes u.callbacks ∧ ∀ bundle : Option CString,
      (friendInvite u bundle = longestMatch (lastSet os) (bundle.getD .empty).bytes ↔
        ¬ Shadowed os (bundle.getD .empty)) := by
  have hend : Registered u ([] ++ os) :=
    h.history (fun hr _ hstep => hr.step hstep) Registered.new
  rw [List.nil_append] at hend
  refine ⟨hend.descending, fun bundle => ?_⟩
  by_cases hne : (bundle.getD .empty).bytes = []
  · have hlen : (bundle.getD .empty).strlen = 0 := congrArg List.length hne
    refine iff_of_true ?_ ?_
    · rw [friendInvite, if_pos hlen, hend.default, hne]
      rfl
    · rintro ⟨p, hp, hpre, -⟩
      rw [hne] at hpre
      exact hp (List.prefix_nil.mp hpre)
  · have hsame : friendInvite u bundle = friendInvite u (some (bundle.getD .empty)) := by
      cases bundle with
      | none => exact absurd rfl hne
      | some b => rfl
    rw [hsame]
    exact hend.dispatch hne

/-- Callbacks for two prefixes, the longer one set last. -/
def twoPrefixes : List (SetCallback Nat Unit) :=
  [⟨some ⟨[97], by decide⟩, some 1, none, true⟩, ⟨some ⟨[97, 98], by decide⟩, some 2, none, true⟩]

theorem dispatch_longest_two : ∃ u : SessionExtension Nat Unit,
    friendInvite u (some ⟨[97, 98, 99], by decide⟩) = some (2, none) ∧
      Descending prefixBytes u.callbacks := by
  obtain ⟨u, os, he, hp⟩ := bundleMachine.exec_any .new twoPrefixes
    (fun r => decide (friendInvite r.1 (some ⟨[97, 98, 99], by decide⟩) = some (2, none)))
    (by decide +kernel)
  exact ⟨u, of_decide_eq_true hp, (dispatch_longest (Machine.free_run_of_exec he)).1⟩

/-- Taking away a callback that was never set hides the one of a shorter prefix. -/
theorem dispatch_shadowed : ¬ ∀ (is os : List (SetCallback Nat Unit)) (u : SessionExtension Nat Unit),
    Machine.Run bundleMachine Machine.Free .new is os u → ∀ bundle : Option CString,
      friendInvite u bundle = longestMatch (lastSet os) (bundle.getD .empty).bytes := by
  intro h
  obtain ⟨u, os, he, hp⟩ := bundleMachine.exec_any .new
    ([⟨some ⟨[97], by decide⟩, some 1, none, true⟩, ⟨some ⟨[97, 98], by decide⟩, none, none, true⟩] :
      List (SetCallback Nat Unit))
    (fun r => decide (friendInvite r.1 (some ⟨[97, 98], by decide⟩) = none ∧
      longestMatch (lastSet r.2) [97, 98] = some (1, none))) (by decide +kernel)
  obtain ⟨hnone, hset⟩ := of_decide_eq_true hp
  have heq := h _ os u (Machine.free_run_of_exec he) (some ⟨[97, 98], by decide⟩)
  rw [hnone] at heq
  rw [Option.getD_some, hset] at heq
  cases heq

end CarrierSdk
