import SdrAaronia.HttpStreaming.Chunking
import SdrAaronia.HttpStreaming.PacketStream

/-! # What the packet stream delivers

Of the items the chunks complete the stream yields what a queue that stops at bad
items delivers, so a good packet is lost exactly when a bad one arrives before it
is reached.
-/

namespace SdrAaronia.HttpStreaming

variable {Value Sample : Type}

/-- The packets among some items. -/
def packetsOf (items : List (ParsedItem Sample)) : List (StreamPacket Sample) :=
  items.filterMap ParsedItem.packet?

theorem packetsOf_append (left right : List (ParsedItem Sample)) :
    packetsOf (left ++ right) = packetsOf left ++ packetsOf right :=
  List.filterMap_append

theorem collectPackets_good {items : List (ParsedItem Sample)}
    (clean : ∀ item ∈ items, item.isBad = false) :
    collectPackets items = .ok (packetsOf items) := by
  induction items with
  | nil => rfl
  | cons item items ih =>
      have rest := ih fun item member => clean item (List.mem_cons_of_mem _ member)
      cases item with
      | packet parsed => rw [collectPackets, rest]; rfl
      | lost | skipped => cases clean _ List.mem_cons_self

theorem collectPackets_bad (front : List (ParsedItem Sample)) {stop : ParsedItem Sample}
    (isBad : stop.isBad = true) : ∃ error, collectPackets (front ++ [stop]) = .error error := by
  induction front with
  | nil =>
      cases stop with
      | packet => cases isBad
      | lost error | skipped _ error => exact ⟨error, rfl⟩
  | cons item front ih =>
      obtain ⟨error, rest⟩ := ih
      cases item with
      | packet parsed => exact ⟨error, by rw [List.cons_append, collectPackets, rest]; rfl⟩
      | lost error | skipped _ error => exact ⟨error, rfl⟩

theorem packetsOf_restore {items : List (ParsedItem Sample)}
    (clean : ∀ item ∈ items, item.isBad = false) :
    (packetsOf items).map ParsedItem.packet = items := by
  induction items with
  | nil => rfl
  | cons item items ih =>
      have rest := ih fun item member => clean item (List.mem_cons_of_mem _ member)
      cases item with
      | packet parsed => exact congrArg (.packet parsed :: ·) rest
      | lost | skipped => cases clean _ List.mem_cons_self

/-- Items that are all packets are told by their packets. -/
theorem packetsOf_inj {left right : List (ParsedItem Sample)}
    (cleanLeft : ∀ item ∈ left, item.isBad = false)
    (cleanRight : ∀ item ∈ right, item.isBad = false) :
    packetsOf left = packetsOf right ↔ left = right := by
  constructor
  · intro same
    rw [← packetsOf_restore cleanLeft, ← packetsOf_restore cleanRight, same]
  · exact congrArg packetsOf

theorem packetsOf_good (items : List (ParsedItem Sample)) :
    packetsOf (Backlog.good ParsedItem.isBad items) = packetsOf items := by
  induction items with
  | nil => rfl
  | cons item items ih =>
      cases item with
      | packet parsed => exact congrArg (parsed :: ·) ih
      | lost | skipped => exact ih

/-- **The stream delivers what the queue of items delivers.** -/
theorem packetStream_delivered {codec : WireCodec Value Sample} {queue : List (ParsedItem Sample)}
    {p r : StreamParser} (trails : StreamParser.Trails codec queue p r) {chunks : List Bytes}
    {batches : List (List (ParsedItem Sample))}
    (recovered : r.calls codec chunks = batches.map .ok) {first : Nat}
    (prompt : Backlog.Prompt ParsedItem.isBad ParsedItem.OverCap first
      (Backlog.stamp first queue ++ Backlog.stamped first batches)) :
    (p.packetStream codec (chunks.map .ok)).filterMap Except.toOption =
      packetsOf (Backlog.delivered ParsedItem.isBad queue batches) := by
  induction chunks generalizing queue p r batches first with
  | nil =>
      cases batches with
      | nil => rfl
      | cons => cases recovered
  | cons chunk chunks ih =>
      cases batches with
      | nil => cases recovered
      | cons items batches =>
          obtain ⟨here, rest⟩ := List.cons.inj recovered
          have faces := trails.faces (Prod.ext rfl here)
          have later : ∀ arrival ∈ Backlog.stamped (first + 1) batches, first + 1 ≤ arrival.1 :=
            fun arrival member => Backlog.le_stamped member
          rw [Backlog.stamped, ← List.append_assoc, ← Backlog.stamp_append] at prompt
          rw [List.map_cons]
          rcases Backlog.split_line (queue ++ items) with
            ⟨clear, clean⟩ | ⟨front, stop, behind, same, clean, isBad, dropped⟩
          · obtain ⟨p', parsed, onward⟩ := faces.good clean
            have prompt' := Backlog.prompt_clock later (Nat.le_succ first)
              (Backlog.prompt_after_good clean prompt)
            have processed := StreamParser.processData_parsed parsed
            rw [collectPackets_good clean] at processed
            rw [StreamParser.packetStream_ok processed, Backlog.delivered_clean clear,
              packetsOf_append (queue ++ items), List.filterMap_append, ih onward rest prompt']
            congr 1
            rw [List.filterMap_map]
            exact List.filterMap_some
          · rw [same] at faces prompt
            obtain ⟨small, prompt'⟩ := Backlog.prompt_after_bad clean isBad later prompt
            obtain ⟨p', parsed, onward⟩ := faces.bad clean isBad small
            obtain ⟨error, failed⟩ := collectPackets_bad front isBad
            have processed := StreamParser.processData_parsed parsed
            rw [failed] at processed
            rw [StreamParser.packetStream_error processed, Backlog.delivered_stop dropped,
              ← ih onward rest prompt']
            rfl

/-- **The stream yields every packet of the recovering parse exactly when each is reached
before the next bad packet arrives**, no header above the cap arriving behind a bad packet
still to be passed. -/
theorem startStream_delivers_iff (codec : WireCodec Value Sample) (format : StreamFormat)
    (scale : Option F64) (chunks : List Bytes) (batches : List (List (ParsedItem Sample)))
    (recovered : (StreamParser.new format scale).calls codec chunks = batches.map .ok)
    (prompt : Backlog.Prompt ParsedItem.isBad ParsedItem.OverCap 0 (Backlog.stamped 0 batches)) :
    (startStream codec format scale (chunks.map .ok)).filterMap Except.toOption =
        packetsOf batches.flatten ↔
      Backlog.InTime ParsedItem.isBad batches.length 0 (Backlog.stamped 0 batches) := by
  have fresh : StreamParser.Trails codec [] (.new format scale) (.new format scale) :=
    ⟨⟨_, .nil _, .refl _⟩, fun _ member => absurd member List.not_mem_nil, .inl rfl⟩
  have reads := packetStream_delivered fresh recovered prompt
  have clean : ∀ item ∈ Backlog.good ParsedItem.isBad batches.flatten, item.isBad = false :=
    fun item member => by simpa using (List.mem_filter.mp member).2
  rw [startStream, reads, ← packetsOf_good batches.flatten,
    packetsOf_inj (fun item member => Backlog.mem_delivered member) clean]
  exact Backlog.delivered_iff (Nat.zero_add batches.length).symm []

/-- Metadata of a compressed spectra packet, which carries no byte length. -/
def spectraMetadata : PacketMetadata :=
  { iqMetadata 1 with payload := .spectra, compression := some 1 }

def compressedError : Error :=
  .protocol "Spectra packet with compression factor 1 carries no byte length; skipped and resynchronised on the next header"

/-- A codec that knows the header text `{}` of an IQ packet and `{c}` of a spectra packet. -/
def mixedCodec : WireCodec Unit UInt8 where
  metadata := fun text =>
    if text = [123, 125] then some (iqMetadata 1)
    else if text = [123, 99, 125] then some spectraMetadata
    else none
  document := fun _ => .error "no document"
  jsonSamples := fun _ _ => .ok []
  binarySamples := fun _ _ _ payload => .ok payload

def iqPacketBytes : Bytes := [123, 125, 10, 30, 1, 2, 3, 4]

def spectraPacketBytes : Bytes := [123, 99, 125, 10, 30]

/-- An empty chunk behind a bad and a good packet gives the stream time to pass the bad one. -/
theorem startStream_delivers_iff_emptyChunk :
    ∃ batches : List (List (ParsedItem UInt8)), (StreamParser.new .int16 none).calls mixedCodec
        [spectraPacketBytes ++ iqPacketBytes, []] = batches.map .ok ∧
      packetsOf batches.flatten = [.new (iqMetadata 1) [1, 2, 3, 4]] ∧
      (startStream mixedCodec .int16 none
          ([spectraPacketBytes ++ iqPacketBytes, []].map .ok)).filterMap Except.toOption =
        packetsOf batches.flatten := by
  have called : (StreamParser.new .int16 none).calls mixedCodec
      [spectraPacketBytes ++ iqPacketBytes, []] =
      [[.skipped .spectra compressedError,
        .packet (.new (iqMetadata 1) [1, 2, 3, 4])], []].map .ok := by
    decide +kernel
  refine ⟨_, called, rfl, (startStream_delivers_iff mixedCodec .int16 none _ _ called ?_).mpr ?_⟩
  · refine ⟨fun _ => Nat.zero_le 0, ?_, trivial⟩
    rintro ⟨expected, -, same⟩
    cases same
  · decide

/-- A chunk with a good and a bad packet: the recovering parse has the good one, the stream
yields nothing but the error. -/
theorem good_packet_lost :
    ∃ batches : List (List (ParsedItem UInt8)), (StreamParser.new .int16 none).calls mixedCodec
        [iqPacketBytes ++ spectraPacketBytes] = batches.map .ok ∧
      (startStream mixedCodec .int16 none
          ([iqPacketBytes ++ spectraPacketBytes].map .ok)).filterMap Except.toOption ≠
        packetsOf batches.flatten := by
  have called : (StreamParser.new .int16 none).calls mixedCodec
      [iqPacketBytes ++ spectraPacketBytes] =
      [[.packet (.new (iqMetadata 1) [1, 2, 3, 4]),
        .skipped .spectra compressedError]].map .ok := by
    decide +kernel
  refine ⟨_, called, ?_⟩
  have nothing : (startStream mixedCodec .int16 none
      ([iqPacketBytes ++ spectraPacketBytes].map .ok)).filterMap Except.toOption = [] := by
    decide +kernel
  rw [nothing]
  exact (List.cons_ne_nil _ _).symm

end SdrAaronia.HttpStreaming
