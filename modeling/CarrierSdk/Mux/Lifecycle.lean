import CarrierSdk.Mux.Handler

/-! The callbacks of every incarnation of a channel, in runs where the application calls from inside them. -/
namespace CarrierSdk.Mux

abbrev Callback := Incarnation × MuxEvent

def callbacks (os : List HandlerOutput) : List Callback :=
  os.filterMap fun
    | .callback ch e => some (ch, e)
    | _ => none

def MuxEvent.isClose : MuxEvent → Bool
  | .channelClose .. => true
  | _ => false

def MuxEvent.isOpened : MuxEvent → Bool
  | .channelOpened _ => true
  | _ => false

/-- The callbacks that belong to an open channel. -/
def MuxEvent.needsOpened : MuxEvent → Bool
  | .channelData .. | .channelPending _ | .channelResume _ => true
  | _ => false

def Closed (hs : List Callback) (ch : Incarnation) : Prop := ∃ e, (ch, e) ∈ hs ∧ e.isClose = true

def Opened (hs : List Callback) (ch : Incarnation) : Prop := ∃ e, (ch, e) ∈ hs ∧ e.isOpened = true

/-- A callback at its place in the life of the incarnation. -/
structure InOrder (hs : List Callback) (p : Callback) : Prop where
  alive : ¬ Closed hs p.1
  once : p.2.isOpened = true → ¬ Opened hs p.1
  behind : p.2.needsOpened = true → Opened hs p.1

/-- The channel_close of a channel that is still in the table runs. -/
def Frame.closes (c : ChannelId) : Frame → Bool
  | .closing x _ | .timedOut x _ => decide (x = c)
  | _ => false

def Frame.isTimedOut : Frame → Bool
  | .timedOut .. => true
  | _ => false

/-- Frames that only an idle handler puts up. -/
def Frame.isBase : Frame → Bool
  | .opening .. | .data .. | .streamData | .checkpoint .. | .closeChannels .. => true
  | _ => false

theorem Frame.isBase_of_isLoop {f : Frame} (hf : f.isLoop = true) : f.isBase = true := by
  cases f with
  | checkpoint | closeChannels => rfl
  | _ => cases hf

section Histories
variable {hs : List Callback} {ch : Incarnation} {p : Callback}

/-- What was called at some time was called before or is called now. -/
theorem called_snoc (kind : MuxEvent → Bool) : (∃ e, (ch, e) ∈ hs ++ [p] ∧ kind e = true) ↔
    (∃ e, (ch, e) ∈ hs ∧ kind e = true) ∨ p.1 = ch ∧ kind p.2 = true := by
  constructor
  · rintro ⟨e, hmem, he⟩
    rcases List.mem_append.mp hmem with hmem | hmem
    · exact .inl ⟨e, hmem, he⟩
    · cases List.mem_singleton.mp hmem
      exact .inr ⟨rfl, he⟩
  · rintro (⟨e, hmem, he⟩ | ⟨rfl, he⟩)
    · exact ⟨e, List.mem_append_left _ hmem, he⟩
    · exact ⟨p.2, List.mem_append_right _ List.mem_cons_self, he⟩

theorem closed_snoc : Closed (hs ++ [p]) ch ↔ Closed hs ch ∨ p.1 = ch ∧ p.2.isClose = true := called_snoc _

theorem opened_snoc : Opened (hs ++ [p]) ch ↔ Opened hs ch ∨ p.1 = ch ∧ p.2.isOpened = true := called_snoc _

end Histories

namespace MultiplexHandler

/-- What the application must not do from inside a callback: close a channel from inside its own channel_close,
go on with a channel that it has closed from inside channel_open or refuse the data of one that it has closed
from inside channel_data, and open or close any channel from inside the channel_close of a timeout. -/
def Calm (h : MultiplexHandler) : HandlerInput → Bool
  | .callbackReturns ok _ =>
    match h.stack with
    | .opening c _ :: _ => !ok || (h.channels.lookup c).isSome
    | .data c _ :: _ => ok || (h.channels.lookup c).isSome
    | _ => true
  | .open _ (.id _) _ _ => !h.stack.any Frame.isTimedOut
  | .close c _ => (h.channels.lookup c).isNone || !h.stack.any fun f => f.isTimedOut || f.closes c
  | _ => true

/-- The channels and the frames against the callbacks so far. -/
structure Lives (h : MultiplexHandler) (hs : List Callback) : Prop where
  ordered : Machine.EachAfter InOrder hs
  known : ∀ p ∈ hs, p.1.number < h.next
  number : ∀ c ch, h.channels.lookup c = some ch → ch.tag.number < h.next
  unique : ∀ c c' ch ch', h.channels.lookup c = some ch → h.channels.lookup c' = some ch' → ch.tag = ch'.tag → c = c'
  closing : ∀ c ch, h.channels.lookup c = some ch → Closed hs ch.tag → ∃ f ∈ h.stack, f.closes c = true
  opened : ∀ c ch, h.channels.lookup c = some ch → ch.tag.type.hasCallbacks = true →
    (ch.status ≠ .opening ↔ Opened hs ch.tag)
  frames : ∀ f ∈ h.stack, ∀ c ch, f.channel = some (c, ch) →
    ∀ ch', h.channels.lookup c = some ch' → ch'.tag = ch.tag
  waiting : ∀ c ch, .opening c ch ∈ h.stack → ∀ ch', h.channels.lookup c = some ch' → ch'.status = .opening
  bottom : ∀ above f below, h.stack = above ++ f :: below → f.isBase = true → below = []
  due : ∀ above f below, h.stack = above ++ f :: below → f.isTimedOut = true →
    above = [] ∧ ∃ rest, below = [.checkpoint rest h.modified]

section Lives
variable {h t : MultiplexHandler} {hs : List Callback} {c : ChannelId} {ch : HandlerChannel} {f : Frame}
  {below : List Frame}

/-- The channels of one state come from those of another. -/
def Fewer (t h : MultiplexHandler) : Prop := ∀ c ch, t.channels.lookup c = some ch → h.channels.lookup c = some ch

/-- Channels go, and a frame goes that is no channel_close. -/
theorem Lives.fewer (hl : Lives h hs) (hfewer : Fewer t h) (hnext : t.next = h.next)
    (hclosing : ∀ c ch, t.channels.lookup c = some ch →
      ∀ f ∈ h.stack, f.closes c = true → ∃ g ∈ t.stack, g.closes c = true)
    (hstack : ∃ above, h.stack = above ++ t.stack)
    (hdue : (∀ f ∈ t.stack, f.isTimedOut = false) ∨ t.modified = h.modified) : Lives t hs := by
  obtain ⟨above₀, habove₀⟩ := hstack
  have hmem : ∀ f ∈ t.stack, f ∈ h.stack := fun f hf => habove₀ ▸ List.mem_append_right _ hf
  refine ⟨hl.ordered, hnext ▸ hl.known, ?_, ?_, ?_, ?_, ?_, ?_, ?_, ?_⟩
  · intro c ch hc
    exact hnext ▸ hl.number c ch (hfewer c ch hc)
  · intro c c' ch ch' hc hc' he
    exact hl.unique c c' ch ch' (hfewer c ch hc) (hfewer c' ch' hc') he
  · intro c ch hc hcl
    obtain ⟨f, hf, hcloses⟩ := hl.closing c ch (hfewer c ch hc) hcl
    exact hclosing c ch hc f hf hcloses
  · intro c ch hc
    exact hl.opened c ch (hfewer c ch hc)
  · intro f hf c ch hch ch' hc'
    exact hl.frames f (hmem f hf) c ch hch ch' (hfewer c ch' hc')
  · intro c ch hf ch' hc'
    exact hl.waiting c ch (hmem _ hf) ch' (hfewer c ch' hc')
  · intro above f below hsplit
    exact hl.bottom (above₀ ++ above) f below (by rw [habove₀, hsplit, List.append_assoc])
  · intro above f below hsplit hf
    obtain ⟨hnil, rest, hrest⟩ := hl.due (above₀ ++ above) f below (by rw [habove₀, hsplit, List.append_assoc]) hf
    refine ⟨(List.append_eq_nil_iff.mp hnil).2, rest, ?_⟩
    rcases hdue with hnone | hmodified
    · rw [hnone f (by rw [hsplit]; exact List.mem_append_right _ List.mem_cons_self)] at hf
      cases hf
    · rw [hrest, hmodified]

/-- A frame goes on the stack. -/
theorem Lives.push (hl : Lives h hs)
    (hframe : ∀ c ch, f.channel = some (c, ch) → ∀ ch', h.channels.lookup c = some ch' → ch'.tag = ch.tag)
    (hopening : ∀ c ch, f = .opening c ch → ∀ ch', h.channels.lookup c = some ch' → ch'.status = .opening)
    (hbase : f.isBase = true → h.stack = []) (hnone : ∀ g ∈ h.stack, g.isTimedOut = false)
    (hdue : f.isTimedOut = true → ∃ rest, h.stack = [.checkpoint rest h.modified]) :
    Lives { h with stack := f :: h.stack } hs := by
  refine ⟨hl.ordered, hl.known, hl.number, hl.unique, ?_, hl.opened, ?_, ?_, ?_, ?_⟩
  · intro c ch hc hcl
    obtain ⟨g, hg, hcloses⟩ := hl.closing c ch hc hcl
    exact ⟨g, List.mem_cons_of_mem _ hg, hcloses⟩
  · intro g hg c ch hch ch' hc'
    rcases List.mem_cons.mp hg with rfl | hg
    · exact hframe c ch hch ch' hc'
    · exact hl.frames g hg c ch hch ch' hc'
  · intro c ch hf ch' hc'
    rcases List.mem_cons.mp hf with he | hf
    · exact hopening c ch he.symm ch' hc'
    · exact hl.waiting c ch hf ch' hc'
  · intro above g below hsplit hg
    cases above with
    | nil =>
      obtain ⟨rfl, rfl⟩ := List.cons.inj hsplit
      exact hbase hg
    | cons _ above => exact hl.bottom above g below (List.cons.inj hsplit).2 hg
  · intro above g below hsplit hg
    cases above with
    | nil =>
      obtain ⟨rfl, rfl⟩ := List.cons.inj hsplit
      exact ⟨rfl, hdue hg⟩
    | cons _ above =>
      have hmem : g ∈ h.stack := (List.cons.inj hsplit).2 ▸ List.mem_append_right _ List.mem_cons_self
      rw [hnone g hmem] at hg
      cases hg

/-- A callback that opens nothing. -/
theorem Lives.event {p : Callback} (hl : Lives h hs) (horder : InOrder hs p) (hnumber : p.1.number < h.next)
    (hopened : p.2.isOpened = false)
    (hclose : p.2.isClose = true → ∀ c ch, h.channels.lookup c = some ch → ch.tag = p.1 →
      ∃ f ∈ h.stack, f.closes c = true) : Lives h (hs ++ [p]) := by
  refine ⟨hl.ordered.snoc horder, ?_, hl.number, hl.unique, ?_, ?_, hl.frames, hl.waiting, hl.bottom, hl.due⟩
  · intro q hq
    rcases List.mem_append.mp hq with hq | hq
    · exact hl.known q hq
    · rw [List.mem_singleton.mp hq]
      exact hnumber
  · intro c ch hc hcl
    rcases closed_snoc.mp hcl with hcl | ⟨he, hp⟩
    · exact hl.closing c ch hc hcl
    · exact hclose hp c ch hc he.symm
  · intro c ch hc hcallbacks
    rw [hl.opened c ch hc hcallbacks, opened_snoc, hopened]
    simp

/-- A channel changes, along with what is known of it. -/
theorem Lives.sets {g : HandlerChannel → HandlerChannel} {hs' : List Callback} (hl : Lives h hs)
    (hc : h.channels.lookup c = some ch) (htag : ∀ ch, (g ch).tag = ch.tag)
    (hordered : Machine.EachAfter InOrder hs') (hknown : ∀ p ∈ hs', p.1.number < h.next)
    (hclosed : ∀ x, Closed hs' x → Closed hs x) (hother : ∀ x, x ≠ ch.tag → (Opened hs' x ↔ Opened hs x))
    (hstatus : ch.tag.type.hasCallbacks = true → ((g ch).status ≠ .opening ↔ Opened hs' ch.tag))
    (hnone : ∀ ch', .opening c ch' ∉ h.stack) : Lives (h.setChannel c g) hs' := by
  have hlookup : ∀ x ch', (h.setChannel c g).channels.lookup x = some ch' →
      ∃ ch₀, h.channels.lookup x = some ch₀ ∧ ch'.tag = ch₀.tag ∧
        (x = c ∧ ch₀ = ch ∧ ch' = g ch ∨ x ≠ c ∧ ch₀ = ch') := by
    intro x ch' hx
    rw [lookup_setChannel] at hx
    split at hx
    · next he =>
      subst he
      rw [hc, Option.map_some] at hx
      cases hx
      exact ⟨ch, hc, htag ch, .inl ⟨rfl, rfl, rfl⟩⟩
    · next hne => exact ⟨ch', hx, rfl, .inr ⟨hne, rfl⟩⟩
  have hnext : (h.setChannel c g).next = h.next := by
    unfold setChannel
    split <;> rfl
  have hmodified : (h.setChannel c g).modified = h.modified := by
    unfold setChannel
    split <;> rfl
  refine ⟨hordered, hnext ▸ hknown, ?_, ?_, ?_, ?_, ?_, ?_, ?_, ?_⟩
  · intro x ch' hx
    obtain ⟨ch₀, h₀, he, -⟩ := hlookup x ch' hx
    rw [he, hnext]
    exact hl.number x ch₀ h₀
  · intro x x' ch' ch'' hx hx' he
    obtain ⟨ch₀, h₀, he₀, -⟩ := hlookup x ch' hx
    obtain ⟨ch₁, h₁, he₁, -⟩ := hlookup x' ch'' hx'
    exact hl.unique x x' ch₀ ch₁ h₀ h₁ (by rw [← he₀, ← he₁, he])
  · intro x ch' hx hcl
    obtain ⟨ch₀, h₀, he, -⟩ := hlookup x ch' hx
    rw [setChannel_stack]
    exact hl.closing x ch₀ h₀ (hclosed _ (he ▸ hcl))
  · intro x ch' hx hcallbacks
    obtain ⟨ch₀, h₀, he, ⟨rfl, rfl, rfl⟩ | ⟨hne, rfl⟩⟩ := hlookup x ch' hx
    · rw [he] at hcallbacks ⊢
      exact hstatus hcallbacks
    · have hdistinct : ch₀.tag ≠ ch.tag := fun he => hne (hl.unique x c ch₀ ch h₀ hc he)
      exact (hl.opened x ch₀ h₀ hcallbacks).trans (hother _ hdistinct).symm
  · intro f hf x ch' hch ch'' hx
    rw [setChannel_stack] at hf
    obtain ⟨ch₀, h₀, he, -⟩ := hlookup x ch'' hx
    rw [he]
    exact hl.frames f hf x ch' hch ch₀ h₀
  · intro x ch' hf ch'' hx
    rw [setChannel_stack] at hf
    obtain ⟨ch₀, h₀, -, ⟨rfl, -, -⟩ | ⟨-, rfl⟩⟩ := hlookup x ch'' hx
    · exact (hnone ch' hf).elim
    · exact hl.waiting x ch' hf ch₀ h₀
  · intro above f below hsplit
    rw [setChannel_stack] at hsplit
    exact hl.bottom above f below hsplit
  · intro above f below hsplit
    rw [setChannel_stack] at hsplit
    rw [hmodified]
    exact hl.due above f below hsplit

/-- A new incarnation. -/
theorem Lives.put (hl : Lives h hs) (ch : HandlerChannel) (hfree : h.channels.lookup c = none)
    (hunused : ∀ f ∈ h.stack, ∀ ch', f.channel ≠ some (c, ch')) (hnumber : ch.tag.number = h.next)
    (hstatus : ch.status = .opening) (hnone : ∀ f ∈ h.stack, f.isTimedOut = false) :
    Lives { h.put c ch with next := h.next + 1 } hs := by
  have hfresh : ∀ p ∈ hs, p.1 ≠ ch.tag := fun p hp he =>
    Nat.lt_irrefl _ (hnumber ▸ he ▸ hl.known p hp)
  have hlookup : ∀ x ch', (h.channels.insert c ch).lookup x = some ch' →
      x = c ∧ ch' = ch ∨ x ≠ c ∧ h.channels.lookup x = some ch' := by
    intro x ch' hx
    rw [Table.lookup_insert_eq] at hx
    split at hx
    · next he =>
      cases hx
      exact .inl ⟨he, rfl⟩
    · next hne => exact .inr ⟨hne, hx⟩
  have hold : ∀ x ch', h.channels.lookup x = some ch' → ch'.tag ≠ ch.tag := fun x ch' hx he =>
    Nat.lt_irrefl _ (hnumber ▸ he ▸ hl.number x ch' hx)
  refine ⟨hl.ordered, fun p hp => Nat.lt_succ_of_lt (hl.known p hp), ?_, ?_, ?_, ?_, ?_, ?_, hl.bottom, ?_⟩
  · intro x ch' hx
    rcases hlookup x ch' hx with ⟨-, rfl⟩ | ⟨-, hx⟩
    · exact hnumber ▸ Nat.lt_succ_self _
    · exact Nat.lt_succ_of_lt (hl.number x ch' hx)
  · intro x x' ch' ch'' hx hx' he
    rcases hlookup x ch' hx with ⟨rfl, rfl⟩ | ⟨-, hx₀⟩
    · rcases hlookup x' ch'' hx' with ⟨rfl, -⟩ | ⟨-, hx₁⟩
      · rfl
      · exact (hold x' ch'' hx₁ he.symm).elim
    · rcases hlookup x' ch'' hx' with ⟨-, rfl⟩ | ⟨-, hx₁⟩
      · exact (hold x ch' hx₀ he).elim
      · exact hl.unique x x' ch' ch'' hx₀ hx₁ he
  · intro x ch' hx hcl
    rcases hlookup x ch' hx with ⟨-, rfl⟩ | ⟨-, hx⟩
    · obtain ⟨e, hmem, -⟩ := hcl
      exact (hfresh _ hmem rfl).elim
    · exact hl.closing x ch' hx hcl
  · intro x ch' hx hcallbacks
    rcases hlookup x ch' hx with ⟨-, rfl⟩ | ⟨-, hx⟩
    · refine ⟨fun hne => (hne hstatus).elim, ?_⟩
      rintro ⟨e, hmem, -⟩
      exact (hfresh _ hmem rfl).elim
    · exact hl.opened x ch' hx hcallbacks
  · intro f hf x ch' hch ch'' hx
    rcases hlookup x ch'' hx with ⟨rfl, -⟩ | ⟨-, hx⟩
    · exact (hunused f hf ch' hch).elim
    · exact hl.frames f hf x ch' hch ch'' hx
  · intro x ch' hf ch'' hx
    rcases hlookup x ch'' hx with ⟨rfl, -⟩ | ⟨-, hx⟩
    · exact (hunused _ hf ch' rfl).elim
    · exact hl.waiting x ch' hf ch'' hx
  · intro above f below hsplit hf
    have hmem : f ∈ h.stack := by
      have hsplit' : h.stack = above ++ f :: below := hsplit
      rw [hsplit']
      exact List.mem_append_right _ List.mem_cons_self
    rw [hnone f hmem] at hf
    cases hf

theorem fewer_remove (h : MultiplexHandler) (c : ChannelId) : Fewer (h.remove c) h := by
  intro x ch hx
  rw [lookup_remove] at hx
  split at hx
  · cases hx
  · exact hx

theorem remove_next (h : MultiplexHandler) (c : ChannelId) : (h.remove c).next = h.next := by
  unfold MultiplexHandler.remove
  split <;> rfl

theorem Lives.remove (hl : Lives h hs) (hnone : ∀ f ∈ h.stack, f.isTimedOut = false) (c : ChannelId) :
    Lives (h.remove c) hs := by
  refine hl.fewer (fewer_remove h c) (remove_next h c) (fun x ch _ f hf hcloses => ?_) ⟨[], by rw [remove_stack]; rfl⟩
    (.inl (by rwa [remove_stack]))
  rw [remove_stack]
  exact ⟨f, hf, hcloses⟩

theorem callbacks_append (os ps : List HandlerOutput) : callbacks (os ++ ps) = callbacks os ++ callbacks ps :=
  List.filterMap_append

theorem callbacks_check (x : Check) (os : List HandlerOutput) : callbacks (.check x :: os) = callbacks os := rfl

theorem callbacks_sent (packets : List (ProtocolBuffer Incarnation)) : callbacks (packets.map .sent) = [] :=
  Machine.filterMap_map_none (fun _ => rfl) packets

theorem callbacks_call (checks : List Check) (tag : Incarnation) (e : MuxEvent) :
    callbacks (checks.map .check ++ [.callback tag e]) = [(tag, e)] := by
  rw [callbacks_append, callbacks, Machine.filterMap_map_none fun _ => rfl]
  rfl

/-- A channel that is alive is announced as closed. -/
theorem Lives.closeAndRemove {ch' : HandlerChannel} (hl : Lives h hs) (hc : h.channels.lookup c = some ch')
    (htag : ch'.tag = ch.tag) (hcloses : ∀ f ∈ h.stack, f.closes c = false)
    (hnone : ∀ f ∈ h.stack, f.isTimedOut = false) (reason : CloseReason) :
    Lives (h.closeAndRemove c ch reason).1 (hs ++ callbacks (h.closeAndRemove c ch reason).2) := by
  have halive : ¬ Closed hs ch.tag := by
    intro hcl
    obtain ⟨f, hf, hfc⟩ := hl.closing c ch' hc (htag ▸ hcl)
    rw [hcloses f hf] at hfc
    cases hfc
  unfold MultiplexHandler.closeAndRemove
  split
  · rw [call, callbacks_call]
    have hpush : Lives { h with stack := .closing c ch :: h.stack } hs := by
      refine hl.push ?_ (fun _ _ he => nomatch he) (fun he => nomatch he) hnone (fun he => nomatch he)
      intro x ch₀ he ch₁ hx
      cases he
      rw [hc] at hx
      cases hx
      exact htag
    refine hpush.event ⟨halive, fun he => (nomatch he), fun he => (nomatch he)⟩ (htag ▸ hl.number c ch' hc) rfl ?_
    intro _ x ch₀ hx he
    have hsame : x = c := hl.unique x c ch₀ ch' hx hc (he.trans htag.symm)
    exact ⟨_, List.mem_cons_self, decide_eq_true hsame.symm⟩
  · rw [show callbacks [] = [] from rfl, List.append_nil]
    exact hl.remove hnone c

/-- channel_opened, channel_pending and channel_resume put up a frame that waits for nothing. -/
theorem Lives.told {ch' : HandlerChannel} (hl : Lives h hs) (hstack : h.stack = [])
    (htag : ∀ ch₀, h.channels.lookup c = some ch₀ → ch₀.tag = ch'.tag) :
    Lives { h with stack := .told c ch' :: h.stack } hs := by
  have hnone : ∀ f ∈ h.stack, f.isTimedOut = false := by
    rw [hstack]
    exact fun f hf => nomatch hf
  refine hl.push ?_ (fun _ _ he => nomatch he) (fun he => nomatch he) hnone (fun he => nomatch he)
  intro x ch₀ he ch₁ hx
  cases he
  exact htag ch₁ hx

theorem Lives.alive (hl : Lives h hs) (hstack : h.stack = []) (hc : h.channels.lookup c = some ch) :
    ¬ Closed hs ch.tag := by
  intro hcl
  obtain ⟨f, hf, -⟩ := hl.closing c ch hc hcl
  rw [hstack] at hf
  cases hf

/-- A channel that was being opened is open. -/
theorem Lives.opens {g : HandlerChannel → HandlerChannel} {ch' : HandlerChannel} (hl : Lives h hs)
    (hstack : h.stack = []) (hc : h.channels.lookup c = some ch) (hopening : ch.status = .opening)
    (htag : ∀ ch, (g ch).tag = ch.tag) (hstatus : ∀ ch, (g ch).status ≠ .opening) (hch' : ch'.tag = ch.tag) :
    Lives ((h.setChannel c g).tell c ch' (.channelOpened c)).1
      (hs ++ callbacks ((h.setChannel c g).tell c ch' (.channelOpened c)).2) := by
  have halive := hl.alive hstack hc
  have hnone : ∀ ch₀, .opening c ch₀ ∉ h.stack := by
    rw [hstack]
    exact fun ch₀ hmem => nomatch hmem
  have hlookup : ∀ ch₀, (h.setChannel c g).channels.lookup c = some ch₀ → ch₀.tag = ch'.tag := by
    intro ch₀ hx
    rw [lookup_setChannel, if_pos rfl, hc, Option.map_some] at hx
    cases hx
    rw [htag, hch']
  unfold tell
  split
  · next hcallbacks =>
    rw [call, callbacks_call, hch']
    rw [hch'] at hcallbacks
    have hnew : ¬ Opened hs ch.tag := fun ho => (hl.opened c ch hc hcallbacks).mpr ho hopening
    have horder : InOrder hs (ch.tag, .channelOpened c) := ⟨halive, fun _ => hnew, fun he => nomatch he⟩
    have hset : Lives (h.setChannel c g) (hs ++ [(ch.tag, .channelOpened c)]) := by
      refine hl.sets hc htag (hl.ordered.snoc horder) ?_ ?_ ?_ ?_ hnone
      · intro p hp
        rcases List.mem_append.mp hp with hp | hp
        · exact hl.known p hp
        · rw [List.mem_singleton.mp hp]
          exact hl.number c ch hc
      · intro x hx
        rcases closed_snoc.mp hx with hx | ⟨-, he⟩
        · exact hx
        · cases he
      · intro x hx
        rw [opened_snoc]
        simp [Ne.symm hx]
      · intro _
        rw [opened_snoc]
        simp [hstatus, MuxEvent.isOpened]
    exact hset.told (by rw [setChannel_stack, hstack]) hlookup
  · next hcallbacks =>
    rw [hch'] at hcallbacks
    rw [show callbacks [] = [] from rfl, List.append_nil]
    exact hl.sets hc htag hl.ordered hl.known (fun _ hx => hx) (fun _ _ => Iff.rfl)
      (fun hx => (hcallbacks hx).elim) hnone

/-- A channel that is open is told of a change. -/
theorem Lives.changes {g : HandlerChannel → HandlerChannel} {e : MuxEvent} (hl : Lives h hs)
    (hstack : h.stack = []) (hc : h.channels.lookup c = some ch) (hopen : ch.status ≠ .opening)
    (htag : ∀ ch, (g ch).tag = ch.tag) (hstatus : ∀ ch, (g ch).status ≠ .opening) (he : e.needsOpened = true) :
    Lives ((h.setChannel c g).tell c ch e).1 (hs ++ callbacks ((h.setChannel c g).tell c ch e).2) := by
  have halive := hl.alive hstack hc
  have hkind : e.isOpened = false ∧ e.isClose = false := by
    cases e with
    | channelData | channelPending | channelResume => exact ⟨rfl, rfl⟩
    | _ => cases he
  have hset : Lives (h.setChannel c g) hs := by
    refine hl.sets hc htag hl.ordered hl.known (fun _ hx => hx) (fun _ _ => Iff.rfl) (fun hcallbacks => ?_) ?_
    · rw [← hl.opened c ch hc hcallbacks]
      exact ⟨fun _ => hopen, fun _ => hstatus ch⟩
    · rw [hstack]
      exact fun ch₀ hmem => nomatch hmem
  have hlookup : (h.setChannel c g).channels.lookup c = some (g ch) := by
    rw [lookup_setChannel, if_pos rfl, hc, Option.map_some]
  unfold tell
  split
  · next hcallbacks =>
    have hbefore := (hl.opened c ch hc hcallbacks).mp hopen
    have horder : InOrder hs (ch.tag, e) := ⟨halive, fun ho => (by rw [hkind.1] at ho; cases ho), fun _ => hbefore⟩
    have hnumber : ch.tag.number < (h.setChannel c g).next := htag ch ▸ hset.number c (g ch) hlookup
    rw [call, callbacks_call]
    have hevent := hset.event horder hnumber hkind.1 fun hcl => by rw [hkind.2] at hcl; cases hcl
    refine hevent.told (by rw [setChannel_stack, hstack]) fun ch₀ hx => ?_
    rw [hlookup] at hx
    cases hx
    exact htag ch
  · rw [show callbacks [] = [] from rfl, List.append_nil]
    exact hset

/-! The steps. -/

/-- What is left to show of a step. -/
def Keeps (hs : List Callback) (r : MultiplexHandler × List HandlerOutput) : Prop := Lives r.1 (hs ++ callbacks r.2)

theorem Lives.quiet {os : List HandlerOutput} (hl : Lives t hs) (hos : callbacks os = []) : Keeps hs (t, os) := by
  rwa [Keeps, hos, List.append_nil]

theorem none_timedOut (hstack : h.stack = []) : ∀ f ∈ h.stack, f.isTimedOut = false := by
  rw [hstack]
  exact fun f hf => nomatch hf

theorem Lives.answerOpen (hl : Lives h hs) (hstack : h.stack = []) {ok : Bool} (sent : Bool)
    (hlinked : ok = true → ∃ ch₀, h.channels.lookup c = some ch₀ ∧ ch₀.tag = ch.tag ∧ ch₀.status = .opening) :
    Keeps hs (h.answerOpen c ch ok sent) := by
  have hnone := none_timedOut hstack
  cases ok with
  | true =>
    obtain ⟨ch₀, hc, htag, hopening⟩ := hlinked rfl
    cases sent with
    | true => exact hl.opens hstack hc hopening (fun _ => rfl) (fun _ he => nomatch he) htag.symm
    | false =>
      refine hl.closeAndRemove hc htag ?_ hnone _
      rw [hstack]
      exact fun f hf => nomatch hf
  | false => cases sent <;> exact (hl.remove hnone c).quiet rfl

theorem allocates_id (halloc : h.allocates (.id c) = true) :
    h.channels.lookup c = none ∧ ∀ f ∈ h.stack, ∀ ch, f.channel ≠ some (c, ch) := by
  simp only [allocates, inUse, Bool.and_eq_true, Bool.not_eq_true', Bool.or_eq_false_iff, List.any_eq_false] at halloc
  obtain ⟨-, hlookup, hframes⟩ := halloc
  refine ⟨Option.not_isSome_iff_eq_none.mp (by simp [hlookup]), fun f hf ch he => ?_⟩
  have hnot := hframes f hf
  rw [he] at hnot
  simp at hnot

theorem Lives.notifyOpen (hl : Lives h hs) (hstack : h.stack = []) (type : ChannelType) (pb : ReadPacket)
    {alloc : Alloc} (halloc : h.allocates alloc = true) (sent : Bool) :
    Keeps hs (h.notifyOpen type pb alloc sent) := by
  cases alloc with
  | outOfMemory => exact hl.quiet rfl
  | limitExceeded => exact hl.quiet (by cases sent <;> rfl)
  | id c =>
    obtain ⟨hfree, hunused⟩ := allocates_id halloc
    have hput := hl.put ⟨pb.remoteChannelId, .opening, ⟨type, h.next⟩⟩ hfree hunused rfl rfl (none_timedOut hstack)
    have hlookup : (h.channels.insert c ⟨pb.remoteChannelId, .opening, ⟨type, h.next⟩⟩).lookup c =
        some ⟨pb.remoteChannelId, .opening, ⟨type, h.next⟩⟩ := AList.lookup_insert _
    rw [MultiplexHandler.notifyOpen]
    dsimp only
    rw [Keeps, callbacks_check]
    split
    · rw [call, callbacks_call]
      have hsame : ∀ ch', (h.channels.insert c ⟨pb.remoteChannelId, .opening, ⟨type, h.next⟩⟩).lookup c = some ch' →
          ch' = ⟨pb.remoteChannelId, .opening, ⟨type, h.next⟩⟩ := fun ch' hx =>
        Option.some.inj (hx.symm.trans hlookup)
      have hpush := hput.push (f := .opening c ⟨pb.remoteChannelId, .opening, ⟨type, h.next⟩⟩)
        (fun x ch' he ch'' hx => by cases he; rw [hsame ch'' hx])
        (fun x ch' he ch'' hx => by cases he; rw [hsame ch'' hx])
        (fun _ => hstack) (none_timedOut hstack) fun he => nomatch he
      exact hpush.event ⟨hput.alive hstack hlookup, fun he => (nomatch he), fun he => (nomatch he)⟩
        (Nat.lt_succ_self _) rfl fun he => nomatch he
    · exact hput.answerOpen hstack sent fun _ => ⟨_, hlookup, rfl, rfl⟩

theorem Lives.notifyChannel (hl : Lives h hs) (hstack : h.stack = []) (buf : FlexBuffer) {pb : ReadPacket}
    (hc : h.channels.lookup pb.localChannelId = some ch) : Keeps hs (h.notifyChannel ch buf pb) := by
  have hnone := none_timedOut hstack
  have hclose : ∀ reason, Keeps hs (h.closeAndRemove pb.localChannelId ch reason) := fun reason => by
    refine hl.closeAndRemove hc rfl ?_ hnone reason
    rw [hstack]
    exact fun f hf => nomatch hf
  unfold MultiplexHandler.notifyChannel
  split
  · exact hl.quiet rfl
  · exact hl.quiet rfl
  · split
    · exact hl.quiet rfl
    next hopening =>
      split
      · exact hl.opens hstack hc (not_not.mp hopening) (fun _ => rfl) (fun _ he => nomatch he) rfl
      · exact hclose _
  · split
    · exact hl.quiet rfl
    next hstatus =>
      have hopen : ch.status ≠ .opening := fun hs => hstatus (by rw [hs]; decide)
      split
      · next hcallbacks =>
        have hbefore := (hl.opened _ ch hc hcallbacks).mp hopen
        rw [Keeps, headCheck, callbacks_check, call, callbacks_call]
        have hpush := hl.push (f := .data pb.localChannelId ch)
          (fun x ch' he ch'' hx => by cases he; rw [Option.some.inj (hc.symm.trans hx)])
          (fun _ _ he => nomatch he) (fun _ => hstack) hnone fun he => nomatch he
        exact hpush.event ⟨hl.alive hstack hc, fun he => (nomatch he), fun _ => hbefore⟩
          (hl.number _ ch hc) rfl fun he => nomatch he
      · exact hl.quiet rfl
  · exact hl.quiet rfl
  · split
    · exact hl.quiet rfl
    next hopen =>
      have hstatus : ch.status ≠ .opening := fun hs => hopen (by rw [hs]; decide)
      exact hl.changes hstack hc hstatus (fun _ => rfl) (fun _ he => nomatch he) rfl
  · split
    · exact hl.quiet rfl
    next hpending =>
      have hstatus : ch.status ≠ .opening := fun hs => hpending (by rw [hs]; decide)
      exact hl.changes hstack hc hstatus (fun _ => rfl) (fun _ he => nomatch he) rfl
  · exact hclose _

theorem Lives.notifyPacket (hl : Lives h hs) (hstack : h.stack = []) (buf : FlexBuffer) {alloc : Alloc}
    (halloc : h.allocates alloc = true) (sent : Bool) : Keeps hs (h.notifyPacket buf alloc sent) := by
  unfold MultiplexHandler.notifyPacket
  rw [Keeps, callbacks_check]
  split
  · exact hl.quiet rfl
  next pb _ =>
    unfold notifyRead
    split
    · have hpush := hl.push (f := .streamData) (fun _ _ he => nomatch he) (fun _ _ he => nomatch he)
        (fun _ => hstack) (none_timedOut hstack) fun he => nomatch he
      exact hpush.quiet rfl
    dsimp only
    rw [callbacks_check]
    split
    · split
      · exact hl.quiet rfl
      split
      · exact hl.notifyOpen hstack _ pb halloc sent
      · exact hl.quiet rfl
    · split
      · exact hl.quiet rfl
      next hc => exact hl.notifyChannel hstack buf hc

/-- A frame that closes nothing comes off the stack. -/
theorem Lives.pop (hl : Lives h hs) (hstack : h.stack = f :: below) (hf : ∀ c, f.closes c = false) :
    Lives { h with stack := below } hs := by
  refine hl.fewer (fun _ _ hx => hx) rfl (fun c ch _ g hg hcloses => ?_) ⟨[f], hstack⟩ (.inr rfl)
  rw [hstack] at hg
  rcases List.mem_cons.mp hg with rfl | hg
  · rw [hf] at hcloses
    cases hcloses
  · exact ⟨g, hg, hcloses⟩

theorem Frame.not_closes_of_isLoop (hf : f.isLoop = true) (c : ChannelId) : f.closes c = false := by
  cases f with
  | checkpoint | closeChannels => rfl
  | _ => cases hf

/-- A loop starts. -/
theorem Lives.starts {g : Frame} (hl : Lives h hs) (hstack : h.stack = []) (hg : g.isLoop = true) :
    Lives { h with stack := [g] } hs := by
  have hpush : Lives { h with stack := g :: h.stack } hs := by
    refine hl.push ?_ ?_ (fun _ => hstack) (none_timedOut hstack) ?_
    · intro c ch he
      cases g with
      | checkpoint | closeChannels => cases he
      | _ => cases hg
    · rintro c ch rfl
      cases hg
    · intro he
      cases g with
      | timedOut => cases hg
      | _ => cases he
  rwa [hstack] at hpush

/-- A loop takes a step. -/
theorem Lives.loop {g : Frame} (hl : Lives h hs) (hstack : h.stack = [f]) (hf : f.isLoop = true)
    (hg : g.isLoop = true) : Lives { h with stack := [g] } hs := by
  have hpop := hl.pop hstack (Frame.not_closes_of_isLoop hf)
  exact hpop.starts rfl hg

/-- Below a callback there is no channel_close of the timer. -/
theorem Lives.below_timedOut (hl : Lives h hs) (hstack : h.stack = f :: below) :
    ∀ g ∈ below, g.isTimedOut = false := by
  intro g hg
  obtain ⟨above, rest, rfl⟩ := List.append_of_mem hg
  by_contra hne
  have hsplit : h.stack = (f :: above) ++ g :: rest := hstack
  obtain ⟨hnil, -⟩ := hl.due (f :: above) g rest hsplit (Bool.not_eq_false _ ▸ hne)
  cases hnil

theorem Lives.callbackReturns (hl : Lives h hs) {ok sent : Bool} (hcalm : Calm h (.callbackReturns ok sent) = true)
    {r : MultiplexHandler × List HandlerOutput} (hstep : h.callbackReturns ok sent = some r) : Keeps hs r := by
  cases callbackReturns_step hstep with
  | @opening c ch below hstack =>
    obtain rfl := hl.bottom [] _ below hstack rfl
    have hpop := hl.pop hstack fun _ => rfl
    refine hpop.answerOpen rfl sent fun hok => ?_
    rw [Calm, hstack, hok] at hcalm
    obtain ⟨ch₀, hc⟩ := Option.isSome_iff_exists.mp hcalm
    have hmem : Frame.opening c ch ∈ h.stack := by rw [hstack]; exact List.mem_cons_self
    exact ⟨ch₀, hc, hl.frames _ hmem c ch rfl ch₀ hc, hl.waiting c ch hmem ch₀ hc⟩
  | taken hstack hok => exact (hl.pop hstack fun _ => rfl).quiet rfl
  | @refused c ch below hstack hok =>
    obtain rfl := hl.bottom [] _ below hstack rfl
    have hpop := hl.pop hstack fun _ => rfl
    rw [Calm, hstack, hok] at hcalm
    obtain ⟨ch₀, hc⟩ := Option.isSome_iff_exists.mp hcalm
    have hmem : Frame.data c ch ∈ h.stack := by rw [hstack]; exact List.mem_cons_self
    exact hpop.closeAndRemove hc (hl.frames _ hmem c ch rfl ch₀ hc) (fun f hf => by cases hf)
      (fun f hf => by cases hf) _
  | @closing c ch below hstack =>
    have hbelow := hl.below_timedOut hstack
    refine Lives.quiet ?_ rfl
    refine hl.fewer (fewer_remove { h with stack := below } c) (remove_next _ c) (fun x ch' hx f hf hcloses => ?_)
      ⟨[.closing c ch], by rw [remove_stack]; exact hstack⟩ (.inl (by rw [remove_stack]; exact hbelow))
    rw [lookup_remove] at hx
    split at hx
    · cases hx
    · next hne =>
      rw [hstack] at hf
      rw [remove_stack]
      rcases List.mem_cons.mp hf with rfl | hf
      · exact (hne (of_decide_eq_true hcloses).symm).elim
      · exact ⟨f, hf, hcloses⟩
  | @timedOut c ch rest below hstack =>
    obtain ⟨-, rest', hbelow⟩ := hl.due [] _ _ hstack rfl
    obtain ⟨rfl, rfl⟩ : rest = rest' ∧ below = [] := by simpa using hbelow
    refine Lives.quiet ?_ rfl
    -- The iterator removes the channel, and the loop goes on with what it has seen.
    have hremoved : Lives { h.remove c with stack := [.checkpoint rest h.modified] } hs := by
      refine hl.fewer (fewer_remove h c) (remove_next h c) (fun x ch' hx f hf hcloses => ?_)
        ⟨[.timedOut c ch], hstack⟩ (.inl (fun f hf => by cases List.mem_singleton.mp hf; rfl))
      have hx' : (h.remove c).channels.lookup x = some ch' := hx
      rw [lookup_remove] at hx'
      split at hx'
      · cases hx'
      · next hne =>
        rw [hstack] at hf
        rcases List.mem_cons.mp hf with rfl | hf
        · exact (hne (of_decide_eq_true hcloses).symm).elim
        · exact ⟨f, hf, hcloses⟩
    exact hremoved.loop rfl rfl rfl
  | kept hstack hseen =>
    obtain ⟨-, rest', hbelow⟩ := hl.due [] _ _ hstack rfl
    simp only [List.cons.injEq, Frame.checkpoint.injEq] at hbelow
    exact absurd hbelow.1.2 hseen
  | told hstack | streamData hstack => exact (hl.pop hstack fun _ => rfl).quiet rfl

theorem Lives.openChannel (hl : Lives h hs) (type : ChannelType) {alloc : Alloc} (halloc : h.allocates alloc = true)
    (cookie : List UInt8) (sent : Bool) (hcalm : Calm h (.open type alloc cookie sent) = true) :
    Keeps hs (h.openChannel type alloc cookie sent) := by
  cases alloc with
  | outOfMemory | limitExceeded => exact hl.quiet rfl
  | id c =>
    obtain ⟨hfree, hunused⟩ := allocates_id halloc
    have hnone : ∀ f ∈ h.stack, f.isTimedOut = false := by
      simpa [Calm] using hcalm
    have hput := hl.put ⟨0, .opening, ⟨type, h.next⟩⟩ hfree hunused rfl rfl hnone
    cases sent with
    | true => exact hput.quiet rfl
    | false => exact (hput.remove hnone c).quiet rfl

theorem Lives.closeChannel (hl : Lives h hs) {sent : Bool} (hcalm : Calm h (.close c sent) = true) :
    Keeps hs (h.closeChannel c sent) := by
  unfold MultiplexHandler.closeChannel
  split
  · exact hl.quiet rfl
  next ch hc =>
    rw [Calm, hc] at hcalm
    have hfree : ∀ f ∈ h.stack, f.isTimedOut = false ∧ f.closes c = false := by
      simpa using hcalm
    have hclosed := hl.closeAndRemove hc rfl (fun f hf => (hfree f hf).2) (fun f hf => (hfree f hf).1) .normal
    dsimp only
    rw [Keeps, callbacks_append]
    split <;> exact hclosed

/-- In a loop a channel of the table is alive. -/
theorem Lives.alive_loop (hl : Lives h hs) (hstack : h.stack = [f]) (hf : f.isLoop = true)
    (hc : h.channels.lookup c = some ch) : ¬ Closed hs ch.tag := by
  intro hcl
  obtain ⟨g, hg, hcloses⟩ := hl.closing c ch hc hcl
  rw [hstack] at hg
  cases List.mem_singleton.mp hg
  rw [Frame.not_closes_of_isLoop hf] at hcloses
  cases hcloses

theorem none_timedOut_loop (hstack : h.stack = [f]) (hf : f.isLoop = true) : ∀ g ∈ h.stack, g.isTimedOut = false := by
  intro g hg
  rw [hstack] at hg
  cases List.mem_singleton.mp hg
  cases f with
  | checkpoint | closeChannels => rfl
  | _ => cases hf

theorem Lives.checkpointVisit {rest rest' : List ChannelId} {seen : Nat} (hl : Lives h hs)
    (hstack : h.stack = [.checkpoint rest seen]) (hc : h.channels.lookup c = some ch) (due : Due) :
    Keeps hs (h.checkpointVisit [] rest' c ch due) := by
  have hloop : Lives { h with stack := [.checkpoint rest' h.modified] } hs := hl.loop hstack rfl rfl
  cases due with
  | nothing => exact hloop.quiet rfl
  | keepAlive sent => exact hloop.quiet (by cases sent <;> rfl)
  | timeout =>
    unfold MultiplexHandler.checkpointVisit
    dsimp only
    split
    · rw [Keeps, call, callbacks_call]
      have hpush := hloop.push (f := .timedOut c ch)
        (fun x ch' he ch'' hx => by cases he; rw [Option.some.inj (hc.symm.trans hx)])
        (fun _ _ he => nomatch he) (fun he => nomatch he) (none_timedOut_loop rfl rfl) fun _ => ⟨_, rfl⟩
      refine hpush.event ⟨hl.alive_loop hstack rfl hc, fun he => (nomatch he), fun he => (nomatch he)⟩
        (hl.number c ch hc) rfl ?_
      intro _ x ch' hx he
      exact ⟨_, List.mem_cons_self, decide_eq_true (hl.unique x c ch' ch hx hc he).symm⟩
    · have hremoved := hl.remove (none_timedOut_loop hstack rfl) c
      exact (hremoved.loop (remove_stack.trans hstack) rfl rfl).quiet rfl

theorem Lives.closeVisit {reason : CloseReason} {rest rest' : List ChannelId} {seen : Nat} (hl : Lives h hs)
    (hstack : h.stack = [.closeChannels reason rest seen]) (hc : h.channels.lookup c = some ch) :
    Keeps hs (h.closeVisit [] reason rest' c ch) := by
  have hremoved := hl.remove (none_timedOut_loop hstack rfl) c
  have hloop : Lives { h.remove c with stack := [.closeChannels reason rest' (h.remove c).modified] } hs :=
    hremoved.loop (remove_stack.trans hstack) rfl rfl
  have hgone : ∀ x ch', (h.remove c).channels.lookup x = some ch' → ch'.tag ≠ ch.tag := by
    intro x ch' hx he
    have hsame := hl.unique x c ch' ch (fewer_remove h c x ch' hx) hc he
    rw [lookup_remove, if_pos hsame] at hx
    cases hx
  unfold MultiplexHandler.closeVisit
  dsimp only
  split
  · rw [Keeps, call, callbacks_call]
    have hpush := hloop.push (f := .told c ch)
      (fun x ch' he ch'' hx => by
        cases he
        have hx' : (h.remove c).channels.lookup c = some ch'' := hx
        rw [lookup_remove, if_pos rfl] at hx'
        cases hx')
      (fun _ _ he => nomatch he) (fun he => nomatch he) (none_timedOut_loop rfl rfl) fun he => nomatch he
    have hnumber : ch.tag.number < (h.remove c).next := remove_next h c ▸ hl.number c ch hc
    refine hpush.event ⟨hl.alive_loop hstack rfl hc, fun he => (nomatch he), fun he => (nomatch he)⟩ hnumber rfl ?_
    exact fun _ x ch' hx he => (hgone x ch' hx he).elim
  · exact hloop.quiet rfl

theorem Lives.visit (hl : Lives h hs) {due : Due} {r : MultiplexHandler × List HandlerOutput}
    (hstep : h.visit c due = some r) : Keeps hs r := by
  cases visit_step hstep with
  | checkpoint hstack hc =>
    obtain rfl := hl.bottom [] _ _ hstack rfl
    exact hl.checkpointVisit hstack hc due
  | closeChannels hstack hc =>
    obtain rfl := hl.bottom [] _ _ hstack rfl
    exact hl.closeVisit hstack hc

theorem Lives.rescan (hl : Lives h hs) {r : MultiplexHandler × List HandlerOutput} (hstep : h.rescan = some r) :
    Keeps hs r := by
  obtain ⟨f, g, below, hstack, hf, hg, rfl⟩ := rescan_step hstep
  obtain rfl := hl.bottom [] _ below hstack (Frame.isBase_of_isLoop hf)
  exact (hl.loop hstack hf hg).quiet rfl

theorem Lives.leave (hl : Lives h hs) {r : MultiplexHandler × List HandlerOutput} (hstep : h.leave = some r) :
    Keeps hs r := by
  obtain ⟨f, below, hstack, hf, rfl⟩ := leave_step hstep
  exact (hl.pop hstack (Frame.not_closes_of_isLoop hf)).quiet rfl

/-- The loop over a chunk leaves the channels to multiplex_handler_notify_packet. -/
theorem Lives.notifyDataTurn (hl : Lives h hs) (hstack : h.stack = []) (buf : FlexBuffer) {alloc : Alloc}
    (halloc : h.allocates alloc = true) (sent : Bool) : Keeps hs (h.notifyDataTurn buf alloc sent) := by
  have hchunk : ∀ incompleteBuf chunk, Lives { h with incompleteBuf := incompleteBuf, chunk := chunk } hs :=
    fun _ _ => ⟨hl.ordered, hl.known, hl.number, hl.unique, hl.closing, hl.opened, hl.frames, hl.waiting,
      hl.bottom, hl.due⟩
  have hchecks : callbacks (turn h.incompleteBuf buf).2 = [] := by
    have hfill : ∀ n (a b : FlexBuffer), callbacks (fillCheck n a b) = [] := by
      intro n a b
      unfold fillCheck
      split <;> rfl
    unfold turn
    split
    · rfl
    · dsimp only
      split
      · exact hfill _ _ _
      · rw [callbacks_append, hfill, hfill]
        rfl
  unfold MultiplexHandler.notifyDataTurn
  split
  · next hturn =>
    rw [hturn] at hchecks
    exact (hchunk _ _).quiet hchecks
  · next incomplete rest checks hturn =>
    rw [hturn] at hchecks
    have hnext := hchunk (incomplete.reset flexPaddingLen) (if rest.size = 0 then none else some rest)
    dsimp only at hchecks ⊢
    rw [Keeps, callbacks_append, hchecks, List.nil_append]
    exact hnext.notifyPacket hstack incomplete halloc sent

theorem lives_step {i : HandlerInput} {o : List HandlerOutput} (hl : Lives h hs) (hcalm : Calm h i = true)
    (hstep : handlerStep h i = some (t, o)) : Keeps hs (t, o) := by
  cases i with
  | chunk buf =>
    simp only [handlerStep, Option.ite_none_right_eq_some, Option.some.injEq] at hstep
    rw [← hstep.2]
    exact Lives.quiet ⟨hl.ordered, hl.known, hl.number, hl.unique, hl.closing, hl.opened, hl.frames, hl.waiting,
      hl.bottom, hl.due⟩ rfl
  | turn alloc sent =>
    simp only [handlerStep] at hstep
    split at hstep
    · cases hstep
    next buf _ =>
      simp only [Option.ite_none_right_eq_some, Bool.and_eq_true, List.isEmpty_iff, Option.some.injEq] at hstep
      rw [← hstep.2]
      exact hl.notifyDataTurn hstep.1.1 buf hstep.1.2 sent
  | datagram buf alloc sent =>
    simp only [handlerStep, idle, Option.ite_none_right_eq_some, Bool.and_eq_true, List.isEmpty_iff,
      Option.some.injEq] at hstep
    rw [← hstep.2]
    exact hl.notifyPacket hstep.1.1.2.1 buf.toFlexBuffer hstep.1.2 sent
  | callbackReturns ok sent => exact hl.callbackReturns hcalm hstep
  | «open» type alloc cookie sent =>
    simp only [handlerStep, Option.ite_none_right_eq_some, Bool.and_eq_true, Option.some.injEq] at hstep
    rw [← hstep.2]
    exact hl.openChannel type hstep.1.2 cookie sent hcalm
  | close c sent =>
    simp only [handlerStep, Option.ite_none_right_eq_some, Option.some.injEq] at hstep
    rw [← hstep.2]
    exact hl.closeChannel hcalm
  | write | pend | resume =>
    simp only [handlerStep, sends, Option.ite_none_right_eq_some, Option.some.injEq] at hstep
    rw [← hstep.2]
    exact hl.quiet (callbacks_sent _)
  | checkpoint =>
    simp only [handlerStep, idle, Option.ite_none_right_eq_some, Bool.and_eq_true, List.isEmpty_iff,
      Option.some.injEq] at hstep
    rw [← hstep.2]
    exact (hl.starts hstep.1.2.1 rfl).quiet rfl
  | stop reason =>
    simp only [handlerStep, idle, Option.ite_none_right_eq_some, Bool.and_eq_true, List.isEmpty_iff,
      Option.some.injEq] at hstep
    rw [← hstep.2]
    exact (hl.starts hstep.1.1 rfl).quiet rfl
  | visit c due => exact hl.visit hstep
  | rescan => exact hl.rescan hstep
  | leave => exact hl.leave hstep

end Lives

/-- The same for what has come out of a handler. -/
def LivesAfter (h : MultiplexHandler) (os : List HandlerOutput) : Prop := Lives h (callbacks os)

theorem lives_create (reliable worker : Bool) : Lives (create reliable worker) [] where
  ordered := Machine.EachAfter.nil
  known := fun _ hp => nomatch hp
  number := fun _ _ hc => nomatch hc
  unique := fun _ _ _ _ hc => nomatch hc
  closing := fun _ _ hc => nomatch hc
  opened := fun _ _ hc => nomatch hc
  frames := fun _ hf => nomatch hf
  waiting := fun _ _ hf => nomatch hf
  bottom := fun above _ _ hsplit => by cases above <;> cases hsplit
  due := fun above _ _ hsplit => by cases above <;> cases hsplit

/-- In a run in which the application stays calm the callbacks of every incarnation come in order. -/
theorem callbacks_in_order {reliable worker : Bool} {is : List HandlerInput} {os : List HandlerOutput}
    {u : MultiplexHandler}
    (hrun : Machine.Run handlerMachine (fun h i => Calm h i = true) (create reliable worker) is os u) :
    Machine.EachAfter InOrder (callbacks os) := by
  have hlives : LivesAfter u ([] ++ os) := by
    refine hrun.history (fun {s i t o os} hl hcalm hstep => ?_) (lives_create reliable worker)
    rw [LivesAfter, callbacks_append]
    exact lives_step hl hcalm hstep
  exact hlives.ordered

/-- A channel that the application opens, has data on and closes from inside channel_data. -/
def calmRun : List HandlerInput :=
  [.open .user (.id 1) [65, 0] true, .datagram (arrival [2, 0, 0, 1, 0, 5, 0, 0]) .outOfMemory true,
    .callbackReturns true true, .datagram (arrival [3, 0, 0, 1, 0, 5, 0, 1, 7]) .outOfMemory true,
    .close 1 true, .callbackReturns true true, .callbackReturns true true]

theorem callbacks_in_order_closed : ∃ u os, handlerMachine.exec (create false false) calmRun = some (u, os) ∧
    callbacks os = [(⟨.user, 0⟩, .channelOpened 1), (⟨.user, 0⟩, .channelData 1 [7]),
      (⟨.user, 0⟩, .channelClose 1 .normal)] ∧ Machine.EachAfter InOrder (callbacks os) := by
  obtain ⟨u, os, hexec, hcallbacks⟩ := Machine.exec_any handlerMachine (create false false) calmRun
    (fun r => decide (callbacks r.2 = [(⟨.user, 0⟩, .channelOpened 1), (⟨.user, 0⟩, .channelData 1 [7]),
      (⟨.user, 0⟩, .channelClose 1 .normal)])) (by decide +kernel)
  have hcalm := Machine.run_of_exec (g := Calm) (G := fun h i => Calm h i = true) (fun _ _ hg => hg) hexec
    (by decide +kernel)
  exact ⟨u, os, hexec, of_decide_eq_true hcallbacks, callbacks_in_order hcalm⟩

/-- The peer closes a channel, and the application closes it from inside channel_close. -/
def closedTwice : List HandlerInput :=
  [.open .user (.id 1) [65, 0] true, .datagram (arrival [2, 0, 0, 1, 0, 5, 0, 0]) .outOfMemory true,
    .callbackReturns true true, .datagram (arrival [7, 0, 0, 1, 0, 5, 0, 0]) .outOfMemory true, .close 1 true]

theorem closed_twice : ∃ os u,
    Machine.Run handlerMachine Machine.Free (create false false) closedTwice os u ∧
      callbacks os = [(⟨.user, 0⟩, .channelOpened 1), (⟨.user, 0⟩, .channelClose 1 .normal),
        (⟨.user, 0⟩, .channelClose 1 .normal)] ∧ ¬ Machine.EachAfter InOrder (callbacks os) := by
  obtain ⟨u, os, hexec, hcallbacks⟩ := Machine.exec_any handlerMachine (create false false) closedTwice
    (fun r => decide (callbacks r.2 = [(⟨.user, 0⟩, .channelOpened 1), (⟨.user, 0⟩, .channelClose 1 .normal),
      (⟨.user, 0⟩, .channelClose 1 .normal)])) (by decide +kernel)
  have hcallbacks := of_decide_eq_true hcallbacks
  refine ⟨os, u, Machine.free_run_of_exec hexec, hcallbacks, fun horder => ?_⟩
  have hlast := horder [(⟨.user, 0⟩, .channelOpened 1), (⟨.user, 0⟩, .channelClose 1 .normal)]
    (⟨.user, 0⟩, .channelClose 1 .normal) [] hcallbacks
  exact hlast.alive ⟨.channelClose 1 .normal, List.mem_cons_of_mem _ List.mem_cons_self, rfl⟩

end MultiplexHandler
end CarrierSdk.Mux
