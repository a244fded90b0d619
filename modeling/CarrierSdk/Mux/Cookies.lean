import CarrierSdk.Carrier.CString
import CarrierSdk.Mux.OpenAnswer
import CarrierSdk.Mux.ReceiveSafety
import CarrierSdk.Session.Session

/-! Opening channels with cookies of any length, over a byte stream. -/
namespace CarrierSdk.Mux

/-- The payload of an open packet: the cookie with its terminator. -/
def cookiePayload (cookie : Option CString) : List UInt8 := (cookie.map fun s => s.bytes ++ [0]).getD []

/-- multiplex_handler_open_channel: the result, and the buffer that the next handler writes. -/
def multiplexHandlerOpenChannel (type : ChannelType) (alloc : Alloc) (cookie : Option CString) (sent : Bool) :
    Except MuxError ChannelId × Option FlexBuffer :=
  match alloc with
  | .outOfMemory => (.error .outOfMemory, none)
  | .limitExceeded => (.error .limitExceeded, none)
  | .id c =>
    let buf := cookie.map fun s => flexBufferFrom (s.bytes ++ [0])
    if sent then (.ok c, some (multiplexHandlerSendPacket PacketType.channelOpen.code type.code c 0 buf))
    else (.error .write, none)

/-- ela_stream_open_channel for a stream of the session. The length of the cookie is not looked at. -/
def elaStreamOpenChannel (state : StreamState) (mux : Bool) (alloc : Alloc) (cookie : Option CString)
    (sent : Bool) : Except MuxError ChannelId × Option FlexBuffer :=
  if state ≠ .connected then (.error .wrongState, none)
  else if mux then multiplexHandlerOpenChannel .user alloc cookie sent
  else (.error .wrongState, none)

/-- A channel is opened on a connected stream, by the application or by port forwarding. -/
def opening (type : ChannelType) (alloc : Alloc) (cookie : Option CString) (sent : Bool) :
    Except MuxError ChannelId × Option FlexBuffer :=
  match type with
  | .user => elaStreamOpenChannel .connected true alloc cookie sent
  | _ => multiplexHandlerOpenChannel type alloc cookie sent

theorem opening_eq (type : ChannelType) (alloc : Alloc) (cookie : Option CString) (sent : Bool) :
    opening type alloc cookie sent = multiplexHandlerOpenChannel type alloc cookie sent := by
  cases type <;> rfl

/-- The cookie that the open callback is passed. -/
def ReadPacket.cookie (pb : ReadPacket) : Option CString :=
  if pb.payload = [] then none else CString.scan pb.payload

/-- What the peer's multiplexer reads, packets aside that it ignores. -/
def receivedPackets (os : List FramingOutput) : List (ReadPacket × Option CString) :=
  ((notifiedPackets os).filterMap readPacket).map fun pb => (pb, pb.cookie)

/-- A channel is opened, or another packet is sent. -/
inductive StreamSend
  | «open» (type : ChannelType) (alloc : Alloc) (cookie : Option CString) (sent : Bool)
  | packet (p : SentPacket)

namespace StreamSend

/-- The bytes that go out. -/
def written : StreamSend → Option (List UInt8)
  | .open type alloc cookie sent => (opening type alloc cookie sent).2.map FlexBuffer.data
  | .packet p => some p.bytes

/-- What the peer is to receive. Of an opening that fails it is nothing. -/
def received : StreamSend → Option (ReadPacket × Option CString)
  | .open type alloc cookie sent =>
    match (opening type alloc cookie sent).1 with
    | .ok c => some (⟨PacketType.channelOpen.code, type.code, 0, c, cookiePayload cookie⟩, cookie)
    | .error _ => none
  | .packet p => some (p.received, p.received.cookie)

/-- The payload of an opening that is not refused fits the peer's buffer. -/
def Fits : StreamSend → Prop
  | .open _ (.id _) cookie true =>
    protocolHeadLen + (cookiePayload cookie).length ≤ flexBufferMaxLen - flexPaddingLen
  | _ => True

end StreamSend

/-! What is sent. -/

theorem map_data_cookie (cookie : Option CString) :
    ((cookie.map fun s => flexBufferFrom (s.bytes ++ [0])).map FlexBuffer.data).getD [] = cookiePayload cookie := by
  cases cookie with
  | none => rfl
  | some s =>
    rw [Option.map_some, Option.map_some, Option.getD_some, data_flexBufferFrom]
    rfl

theorem data_opening (type : ChannelType) (c : ChannelId) (cookie : Option CString) :
    (opening type (.id c) cookie true).2.map FlexBuffer.data =
      some (protocolHead PacketType.channelOpen.code type.code 0 c (cookiePayload cookie).length ++
        cookiePayload cookie) := by
  have hroom : ∀ b ∈ cookie.map fun s => flexBufferFrom (s.bytes ++ [0]), b.Fits protocolHeadLen := by
    intro b hb
    obtain ⟨s, -, rfl⟩ := Option.map_eq_some_iff.mp hb
    exact (flexBufferFrom_fits _).mono (by decide)
  rw [opening_eq, multiplexHandlerOpenChannel, if_pos rfl, Option.map_some, data_multiplexHandlerSendPacket _ _ _ _ hroom, map_data_cookie]

/-- The handler sends the packet that is written. -/
theorem openChannel_written (h : MultiplexHandler) (type : ChannelType) (alloc : Alloc) (cookie : Option CString)
    (sent : Bool) :
    ((multiplexHandlerOpenChannel type alloc cookie sent).2.map FlexBuffer.data).toList =
      (h.openChannel type alloc (cookiePayload cookie) sent).2.filterMap fun
        | .sent pb => some pb.bytes
        | _ => none := by
  cases alloc with
  | outOfMemory | limitExceeded => rfl
  | id c =>
    cases sent with
    | false => rfl
    | true =>
      rw [← opening_eq, data_opening]
      rfl

/-- The peer is passed the cookie itself. -/
theorem cookie_cookiePayload (type option : UInt8) (l r : ChannelId) (cookie : Option CString) :
    (⟨type, option, l, r, cookiePayload cookie⟩ : ReadPacket).cookie = cookie := by
  cases cookie with
  | none => rfl
  | some s =>
    rw [ReadPacket.cookie, if_neg (by simp [cookiePayload])]
    exact CString.scan_terminated s []

theorem written_framed {s : StreamSend} (h : s.Fits) {q : List UInt8} (hq : s.written = some q) : Framed q := by
  cases s with
  | packet p =>
    cases hq
    exact p.whole.framed
  | «open» type alloc cookie sent =>
    cases alloc with
    | outOfMemory | limitExceeded =>
      rw [StreamSend.written, opening_eq] at hq
      cases hq
    | id c =>
      cases sent with
      | false =>
        rw [StreamSend.written, opening_eq] at hq
        cases hq
      | true =>
        rw [StreamSend.written, data_opening] at hq
        cases hq
        have hshort : protocolHeadLen + (cookiePayload cookie).length ≤ flexBufferMaxLen - flexPaddingLen := h
        have hlen : (cookiePayload cookie).length < 256 ^ 2 :=
          Nat.lt_of_le_of_lt (Nat.le_of_add_left_le hshort) (by decide)
        refine ⟨?_, ?_, ?_⟩
        · rw [List.length_append, length_protocolHead]
          exact Nat.le_add_right _ _
        · rwa [List.length_append, length_protocolHead]
        · rw [List.length_append, length_protocolHead, Nat.add_comm protocolHeadLen]
          change Bytes.number (Bytes.bigEndian 2 _) + _ = _
          rw [Bytes.number_bigEndian, Nat.mod_eq_of_lt hlen]

theorem read_written {s : StreamSend} (h : s.Fits) :
    (s.written.bind readPacket).map (fun pb => (pb, pb.cookie)) = s.received := by
  cases s with
  | packet p =>
    rw [StreamSend.written, Option.bind_some, readPacket_bytes]
    rfl
  | «open» type alloc cookie sent =>
    cases alloc with
    | outOfMemory | limitExceeded => rw [StreamSend.written, StreamSend.received, opening_eq]; rfl
    | id c =>
      cases sent with
      | false => rw [StreamSend.written, StreamSend.received, opening_eq]; rfl
      | true =>
        have hshort : protocolHeadLen + (cookiePayload cookie).length ≤ flexBufferMaxLen - flexPaddingLen := h
        have hlen : (cookiePayload cookie).length < 256 ^ 2 :=
          Nat.lt_of_le_of_lt (Nat.le_of_add_left_le hshort) (by decide)
        rw [StreamSend.written, data_opening, Option.bind_some, readPacket_head _ _ _ _ hlen, Option.map_some,
          cookie_cookiePayload, StreamSend.received, opening_eq]
        rfl

theorem fits_of_received {s : StreamSend}
    (h : ∀ r, s.received = some r → protocolHeadLen + r.1.payload.length ≤ flexBufferMaxLen - flexPaddingLen) :
    s.Fits := by
  cases s with
  | packet p => trivial
  | «open» type alloc cookie sent =>
    cases alloc with
    | outOfMemory | limitExceeded => trivial
    | id c =>
      cases sent with
      | false => trivial
      | true => exact h (_, cookie) (by rw [StreamSend.received, opening_eq]; rfl)

/-! What is received. -/

/-- No packet is longer than the buffer of the incomplete one. -/
theorem notifyData_short {turns : Nat} {b buf u : FlexBuffer} {os : List FramingOutput} (h : Receiving b)
    (hunfinished : Unfinished b) (hbuf : buf.Fits 0) (hrun : multiplexHandlerNotifyData turns b buf = some (u, os)) :
    Receiving u ∧ Unfinished u ∧ ∀ q ∈ notifiedPackets os, q.length ≤ flexBufferMaxLen - flexPaddingLen := by
  induction turns generalizing b buf os with
  | zero => cases hrun
  | succ turns ih =>
    by_cases hsize : buf.size = 0
    · rw [multiplexHandlerNotifyData, if_pos hsize] at hrun
      cases hrun
      exact ⟨h, hunfinished, fun q hq => by cases hq⟩
    rcases notifyData_turn hsize hrun with ⟨hturn, hnone⟩ | ⟨p, rest, os', hturn, hrest, hos⟩
    · obtain ⟨hu, hunfinished'⟩ := turn_kept h hbuf hturn
      rw [hnone]
      exact ⟨hu, hunfinished', fun q hq => by cases hq⟩
    · obtain ⟨hp, -, hrestFits, -⟩ := turn_packet h hunfinished hbuf hturn
      obtain ⟨hu, hunfinished', hshort⟩ := ih hp.reset.1 (empty_unfinished rfl) hrestFits hrest
      refine ⟨hu, hunfinished', ?_⟩
      rw [hos]
      intro q hq
      rcases List.mem_cons.mp hq with rfl | hq
      · exact hp.fits.length_data ▸ hp.size_le
      · exact hshort q hq

theorem exec_short {chunks : List FlexBuffer} {b u : FlexBuffer} {os : List FramingOutput} (h : Receiving b)
    (hunfinished : Unfinished b) (hfits : ∀ c ∈ chunks, c.Fits 0) (hrun : framingMachine.exec b chunks = some (u, os)) :
    ∀ q ∈ notifiedPackets os, q.length ≤ flexBufferMaxLen - flexPaddingLen := by
  induction chunks generalizing b os with
  | nil =>
    cases hrun
    exact fun q hq => (nomatch hq)
  | cons c chunks ih =>
    obtain ⟨t, o, rest, hstep, hrest, rfl⟩ := Machine.exec_cons hrun
    obtain ⟨ht, hunfinished', hshort⟩ := notifyData_short h hunfinished (hfits c List.mem_cons_self) hstep
    intro q hq
    rw [notifiedPackets_append] at hq
    rcases List.mem_append.mp hq with hq | hq
    · exact hshort q hq
    · exact ih ht hunfinished' (fun c hc => hfits c (List.mem_cons_of_mem _ hc)) hrest q hq

/-- What the peer reads is not longer than its buffer either. -/
theorem receivedPackets_short {chunks : List FlexBuffer} {u : FlexBuffer} {os : List FramingOutput}
    (hfits : ∀ c ∈ chunks, c.Fits 0) (hrun : framingMachine.exec incompleteBuf chunks = some (u, os))
    {r : ReadPacket × Option CString} (hr : r ∈ receivedPackets os) :
    protocolHeadLen + r.1.payload.length ≤ flexBufferMaxLen - flexPaddingLen := by
  obtain ⟨pb, hpb, rfl⟩ := List.mem_map.mp hr
  obtain ⟨q, hq, hread⟩ := List.mem_filterMap.mp hpb
  rw [readPacket_payload hread]
  exact exec_short receiving_incompleteBuf (empty_unfinished rfl) hfits hrun q hq

/-- Packets of which some open channels are sent over a byte stream that is cut into chunks anywhere. The peer
reads them all, and with the cookies that they were opened with, just when the payload of each opening that
returned a channel fits its buffer. -/
theorem openings_exact_iff (sends : List StreamSend) (chunks : List FlexBuffer) (hfits : ∀ c ∈ chunks, c.Fits 0)
    (hsplit : Pieces (flexBufferMaxLen - flexPaddingLen) (chunks.map FlexBuffer.data)
      (sends.filterMap StreamSend.written).flatten) :
    (∃ u os, framingMachine.exec incompleteBuf chunks = some (u, os) ∧
      receivedPackets os = sends.filterMap StreamSend.received) ↔ ∀ s ∈ sends, s.Fits := by
  constructor
  · rintro ⟨u, os, hrun, hreceived⟩ s hs
    refine fits_of_received fun r hr => receivedPackets_short hfits hrun ?_
    rw [hreceived]
    exact List.mem_filterMap.mpr ⟨s, hs, hr⟩
  · intro hall
    have hframed : ∀ q ∈ sends.filterMap StreamSend.written, Framed q := by
      intro q hq
      obtain ⟨s, hs, hwritten⟩ := List.mem_filterMap.mp hq
      exact written_framed (hall s hs) hwritten
    obtain ⟨u, os, hrun, -, hpackets, -⟩ := exec_whole receiving_incompleteBuf List.take_zero hfits hframed hsplit.flatten
    refine ⟨u, os, hrun, ?_⟩
    rw [receivedPackets, hpackets, List.filterMap_filterMap, List.map_filterMap]
    exact List.filterMap_congr fun s hs => read_written (hall s hs)

theorem abc_noNul : (0 : UInt8) ∉ [97, 98, 99] := by decide

/-- A channel is opened with a cookie of three bytes, and data is sent on the stream itself. -/
def cookieThenData : List StreamSend :=
  [.open .user (.id 1) (some ⟨[97, 98, 99], abc_noNul⟩) true,
    .packet ⟨3, 0, 0, 0, some (flexBufferFrom [7, 8, 9]), threeBytes_room, threeBytes_short⟩]

theorem openings_exact_short : ∃ u os,
    framingMachine.exec incompleteBuf
      (([[1, 0, 0, 0, 0], [1, 0, 4, 97, 98, 99, 0, 3, 0], [0, 0, 0, 0, 0, 3, 7, 8, 9]] : List (List UInt8)).map
        flexBufferFrom) = some (u, os) ∧ receivedPackets os = cookieThenData.filterMap StreamSend.received := by
  refine (openings_exact_iff cookieThenData _ (fun c hc => ?_) ⟨?_, ?_⟩).mpr ?_
  · obtain ⟨bytes, -, rfl⟩ := List.mem_map.mp hc
    exact (flexBufferFrom_fits bytes).mono (Nat.zero_le _)
  · decide +kernel
  · decide +kernel
  · intro s hs
    rcases List.mem_cons.mp hs with rfl | hs
    · exact (by decide : protocolHeadLen + 4 ≤ flexBufferMaxLen - flexPaddingLen)
    · rw [List.mem_singleton.mp hs]
      trivial

/-- A cookie of 2168 characters. -/
def longCookie : CString := ⟨List.replicate 2168 97, fun h => absurd (List.eq_of_mem_replicate h) (by decide)⟩

/-- The bytes that go out for it, as the transport may deliver them. -/
def longOpening : List UInt8 := protocolHead 1 0 0 1 2169 ++ cookiePayload (some longCookie)

/-- The opening succeeds, and the peer does not receive it. -/
theorem opening_lost :
    (elaStreamOpenChannel .connected true (.id 1) (some longCookie) true).1 = .ok 1 ∧
      Pieces (flexBufferMaxLen - flexPaddingLen)
        (([longOpening.take 2176, longOpening.drop 2176].map flexBufferFrom).map FlexBuffer.data)
        ([StreamSend.open .user (.id 1) (some longCookie) true].filterMap StreamSend.written).flatten ∧
      ¬ ∃ u os, framingMachine.exec incompleteBuf ([longOpening.take 2176, longOpening.drop 2176].map flexBufferFrom) =
          some (u, os) ∧
        receivedPackets os = [StreamSend.open .user (.id 1) (some longCookie) true].filterMap StreamSend.received := by
  have hcookie : (cookiePayload (some longCookie)).length = 2169 := by
    rw [cookiePayload, Option.map_some, Option.getD_some, longCookie, List.length_append, List.length_replicate]
    rfl
  have hwritten : (StreamSend.open .user (.id 1) (some longCookie) true).written = some longOpening := by
    rw [StreamSend.written, data_opening, hcookie]
    rfl
  have hlen : longOpening.length = 2177 := by
    rw [longOpening, List.length_append, length_protocolHead, hcookie]
    rfl
  refine ⟨rfl, ⟨?_, ?_⟩, ?_⟩
  · simp [hwritten]
  · intro p hp
    simp only [List.map_cons, List.map_nil, data_flexBufferFrom, List.mem_cons, List.not_mem_nil, or_false] at hp
    rcases hp with hp | hp
    · rw [hp, List.length_take, hlen]
      decide
    · rw [hp, List.length_drop, hlen]
      decide
  · rintro ⟨u, os, hrun, hreceived⟩
    have hexpected : (StreamSend.open .user (.id 1) (some longCookie) true).received =
        some (⟨1, 0, 0, 1, cookiePayload (some longCookie)⟩, some longCookie) := by
      rw [StreamSend.received, opening_eq]
      rfl
    have hmem : (⟨1, 0, 0, 1, cookiePayload (some longCookie)⟩, some longCookie) ∈ receivedPackets os := by
      rw [hreceived, List.filterMap_cons_some hexpected]
      exact List.mem_cons_self
    have hfits : ∀ c ∈ [longOpening.take 2176, longOpening.drop 2176].map flexBufferFrom, c.Fits 0 := by
      intro c hc
      obtain ⟨bytes, -, rfl⟩ := List.mem_map.mp hc
      exact (flexBufferFrom_fits bytes).mono (Nat.zero_le _)
    have hshort := receivedPackets_short hfits hrun hmem
    dsimp only at hshort
    rw [hcookie] at hshort
    exact absurd hshort (by decide)

end CarrierSdk.Mux
