import SdrAaronia.HttpSource.RateTrackers

/-! # What the packets of a sweep do to the check

The check is started afresh by a packet that clears the band against the packet before
it, and by no other.
-/

namespace SdrAaronia

open HttpStreaming HttpSource

/-! ## The packets of a sweep -/

/-- An IQ packet: its rate, and how many samples it brought. -/
def iqPacket {Sample : Type} : ParsedItem Sample → Option (F64 × Nat)
  | .packet packet =>
      if packet.metadata.payload = .iq then
        some (packet.sdrConfig.sampleRateHz, packet.samples.length)
      else none
  | .lost _ | .skipped _ _ => none

def iqPackets {Sample : Type} (items : List (ParsedItem Sample)) : List (F64 × Nat) :=
  items.filterMap iqPacket

/-- A packet clears the band against the packet before it. -/
def movesIn : Option F64 → List (F64 × Nat) → Bool
  | _, [] => false
  | previous, packet :: packets =>
      previous.any (rateMoved · packet.1) || movesIn (some packet.1) packets

/-- The rate that packets leave behind. -/
def lastRate (previous : Option F64) (packets : List (F64 × Nat)) : Option F64 :=
  (packets.getLast?.map Prod.fst).or previous

variable {Value Sample : Type}

theorem lastRate_cons (previous : Option F64) (packet : F64 × Nat) (packets : List (F64 × Nat)) :
    lastRate previous (packet :: packets) = lastRate (some packet.1) packets := by
  cases packets with
  | nil => rfl
  | cons next packets =>
      rw [lastRate, lastRate, List.getLast?_cons_cons]
      cases last : (next :: packets).getLast? with
      | none => exact absurd (List.getLast?_eq_none_iff.mp last) (List.cons_ne_nil _ _)
      | some packet' => rfl

theorem lastRate_append (previous : Option F64) (first second : List (F64 × Nat)) :
    lastRate previous (first ++ second) = lastRate (lastRate previous first) second := by
  induction first generalizing previous with
  | nil => rfl
  | cons packet first ih => rw [List.cons_append, lastRate_cons, ih, lastRate_cons]

theorem movesIn_append (previous : Option F64) (first second : List (F64 × Nat)) :
    movesIn previous (first ++ second) =
      (movesIn previous first || movesIn (lastRate previous first) second) := by
  induction first generalizing previous with
  | nil => rfl
  | cons packet first ih =>
      rw [List.cons_append, movesIn, movesIn, ih, lastRate_cons, Bool.or_assoc]

/-- The samples that a sweep adds are those of its IQ packets. -/
theorem iqSamples_eq (items : List (ParsedItem Sample)) :
    MeteredSource.iqSamples items = ((iqPackets items).map Prod.snd).sum := by
  induction items with
  | nil => rfl
  | cons item items ih =>
      have split : MeteredSource.iqSamples (item :: items) =
          addedSamples item + MeteredSource.iqSamples items := rfl
      rw [split, ih, iqPackets, iqPackets, List.filterMap_cons]
      cases item with
      | lost | skipped => exact Nat.zero_add _
      | packet packet =>
          by_cases iq : packet.metadata.payload = .iq
          · rw [addedSamples, iqPacket, if_pos iq, if_pos iq]
            rfl
          · rw [addedSamples, iqPacket, if_neg iq, if_neg iq]
            exact Nat.zero_add _

/-- The source's own copy of the device's rate goes with the check's. -/
theorem notePacket_linkDeviceRate (s : HttpSource Sample) {packet : StreamPacket Sample}
    (positive : packet.sdrConfig.sampleRateHz.Positive) :
    (s.notePacket packet).linkDeviceRate = some packet.sdrConfig.sampleRateHz := by
  have adopted : ((s.noteContinuity packet.metadata).adoptConfig packet.sdrConfig).linkDeviceRate =
      some packet.sdrConfig.sampleRateHz := by
    rw [adoptConfig]
    dsimp only
    rw [positive.1, decide_eq_true positive.2, Bool.and_self, if_pos rfl]
  rw [← adopted]
  unfold notePacket noteGeometry
  dsimp only
  split
  · rfl
  · split
    · rfl
    · split
      · split
        · rfl
        · exact (noteBreak_rates _ _).1
      · exact (noteBreak_rates _ _).1

theorem iqPackets_iq {packet : StreamPacket Sample} (iq : packet.metadata.payload = .iq) :
    iqPackets [.packet packet] = [(packet.sdrConfig.sampleRateHz, packet.samples.length)] := by
  rw [iqPackets, List.filterMap_cons, iqPacket, if_pos iq]
  rfl

theorem iqPackets_other {packet : StreamPacket Sample} (other : packet.metadata.payload ≠ .iq) :
    iqPackets [.packet packet] = [] := by
  rw [iqPackets, List.filterMap_cons, iqPacket, if_neg other]
  rfl

/-- What processing an item leaves of the device's rate, and the format. -/
theorem processItem_linkDeviceRate {s s' : HttpSource Sample} {item : ParsedItem Sample}
    (usable : ∀ packet ∈ iqPackets [item], packet.1.Positive)
    (processed : s.processItem item = some s') :
    s'.linkDeviceRate = lastRate s.linkDeviceRate (iqPackets [item]) ∧
      s'.streamFormat = s.streamFormat := by
  cases item with
  | lost error =>
      cases processed
      exact ⟨(noteBreak_rates _ .gap).1, (noteLostPacket_keeps s).streamFormat⟩
  | skipped payload reason =>
      cases processed
      exact ⟨rfl, rfl⟩
  | packet packet =>
      by_cases iq : packet.metadata.payload = .iq
      · rw [iqPackets_iq iq] at usable ⊢
        rw [processItem_iq iq] at processed
        have noted := notePacket_linkDeviceRate s (usable _ List.mem_cons_self)
        have format := (s.notePacket_keeps packet).streamFormat
        rcases appendSamples_cases processed with rfl | ⟨overflow, counted, -, -, rfl⟩
        · exact ⟨noted, format⟩
        · refine ⟨?_, (noteTrim_keeps _ _).streamFormat.trans format⟩
          refine Eq.trans ?_ noted
          unfold noteTrim
          split <;> rfl
      · rw [iqPackets_other iq]
        rw [processItem_other iq] at processed
        cases processed
        exact ⟨rfl, rfl⟩

namespace MeteredSource

variable {clock : Clock} {m mid next : MeteredSource Sample}

/-- What a stretch of packets does to the check: a packet that clears the band starts it
afresh, and nothing else does. -/
structure Heard (clock : Clock) (m : MeteredSource Sample) (packets : List (F64 × Nat))
    (next : MeteredSource Sample) : Prop where
  device : next.source.linkDeviceRate = lastRate m.source.linkDeviceRate packets
  format : next.source.streamFormat = m.source.streamFormat
  later : m.readings ≤ next.readings
  kept : movesIn m.source.linkDeviceRate packets = false →
    next.linkCheck = m.linkCheck ∧ next.readings = m.readings
  rearmed : movesIn m.source.linkDeviceRate packets = true →
    (m.linkCheck.rearms = false ∧ next.linkCheck = m.linkCheck) ∨
      ∃ reading, m.readings ≤ reading ∧ reading < next.readings ∧
        next.linkCheck = .armedAt (clock.reading reading)

theorem Heard.refl (m : MeteredSource Sample) : Heard clock m [] m where
  device := rfl
  format := rfl
  later := Nat.le_refl _
  kept := fun _ => ⟨rfl, rfl⟩
  rearmed := by
    intro moved
    cases moved

theorem Heard.trans {first second : List (F64 × Nat)} (heard : Heard clock m first mid)
    (heard' : Heard clock mid second next) : Heard clock m (first ++ second) next where
  device := by rw [heard'.device, heard.device, lastRate_append]
  format := heard'.format.trans heard.format
  later := heard.later.trans heard'.later
  kept := by
    intro unmoved
    rw [movesIn_append, Bool.or_eq_false_iff, ← heard.device] at unmoved
    obtain ⟨check, readings⟩ := heard.kept unmoved.1
    obtain ⟨check', readings'⟩ := heard'.kept unmoved.2
    exact ⟨check'.trans check, readings'.trans readings⟩
  rearmed := by
    intro moved
    rw [movesIn_append, ← heard.device] at moved
    cases again : movesIn mid.source.linkDeviceRate second with
    | true =>
        rcases heard'.rearmed again with ⟨never, check'⟩ | ⟨reading, late, early, check'⟩
        · cases before : movesIn m.source.linkDeviceRate first with
          | false =>
              obtain ⟨check, -⟩ := heard.kept before
              exact Or.inl ⟨check ▸ never, check'.trans check⟩
          | true =>
              rcases heard.rearmed before with ⟨never', check⟩ | ⟨reading, late, early, check⟩
              · exact Or.inl ⟨never', check'.trans check⟩
              · exact Or.inr ⟨reading, late, early.trans_le heard'.later, check'.trans check⟩
        · exact Or.inr ⟨reading, heard.later.trans late, early, check'⟩
    | false =>
        obtain ⟨check', readings'⟩ := heard'.kept again
        rw [again, Bool.or_false] at moved
        rcases heard.rearmed moved with ⟨never, check⟩ | ⟨reading, late, early, check⟩
        · exact Or.inl ⟨never, check'.trans check⟩
        · exact Or.inr ⟨reading, late, readings' ▸ early, check'.trans check⟩

/-- What does not touch the check, the device rate or the format. -/
theorem Heard.of_same (check : next.linkCheck = m.linkCheck) (readings : next.readings = m.readings)
    (device : next.source.linkDeviceRate = m.source.linkDeviceRate)
    (format : next.source.streamFormat = m.source.streamFormat) : Heard clock m [] next where
  device := device
  format := format
  later := Nat.le_of_eq readings.symm
  kept := fun _ => ⟨check, readings⟩
  rearmed := by
    intro moved
    cases moved

theorem noteDeviceRate_heard {packet : F64 × Nat} (positive : packet.1.Positive) :
    Heard clock m [packet] (m.noteDeviceRate clock packet.1) := by
  have usable : (!packet.1.isFinite || decide (packet.1 ≤ 0)) = false := by
    obtain ⟨value, above, rate⟩ := positive.value
    rw [rate]
    exact decide_eq_false fun small => absurd ((F64.finite_le _ _).mp small) (not_le.mpr above)
  have moves : movesIn m.source.linkDeviceRate [packet] =
      m.source.linkDeviceRate.any (rateMoved · packet.1) := Bool.or_false _
  rw [noteDeviceRate, usable]
  simp only [Bool.false_eq_true, if_false]
  cases moved : m.source.linkDeviceRate.any (rateMoved · packet.1) with
  | false =>
      simp only [Bool.false_and, Bool.false_eq_true, if_false]
      exact ⟨rfl, rfl, Nat.le_refl _, fun _ => ⟨rfl, rfl⟩,
        fun moved' => by rw [moves, moved] at moved'; cases moved'⟩
  | true =>
      cases rearms : m.linkCheck.rearms with
      | false =>
          simp only [Bool.true_and, Bool.false_eq_true, if_false]
          exact ⟨rfl, rfl, Nat.le_refl _, fun _ => ⟨rfl, rfl⟩, fun _ => Or.inl ⟨rearms, rfl⟩⟩
      | true =>
          simp only [Bool.true_and, if_true]
          refine ⟨rfl, rfl, Nat.le_succ _, fun unmoved => ?_, fun _ => ?_⟩
          · rw [moves, moved] at unmoved
            cases unmoved
          · exact Or.inr ⟨m.readings, Nat.le_refl _, Nat.lt_succ_self _, rfl⟩

theorem noteItem_heard {item : ParsedItem Sample}
    (usable : ∀ packet ∈ iqPackets [item], packet.1.Positive) :
    Heard clock m (iqPackets [item]) (m.noteItem clock item) := by
  cases item with
  | lost | skipped => exact .refl m
  | packet packet =>
      rw [noteItem]
      by_cases iq : packet.metadata.payload = .iq
      · rw [iqPackets_iq iq] at usable ⊢
        rw [if_pos iq]
        exact noteDeviceRate_heard (usable _ List.mem_cons_self)
      · rw [iqPackets_other iq, if_neg iq]
        exact .refl m

theorem processItem_heard {item : ParsedItem Sample}
    (usable : ∀ packet ∈ iqPackets [item], packet.1.Positive)
    (processed : m.processItem clock item = some next) :
    Heard clock m (iqPackets [item]) next := by
  obtain ⟨source, sourced, same⟩ := Option.map_eq_some_iff.mp processed
  cases same
  obtain ⟨device, format⟩ := processItem_linkDeviceRate usable sourced
  have heard : Heard clock m (iqPackets [item]) (m.noteItem clock item) := noteItem_heard usable
  exact ⟨device, format, heard.later, heard.kept, heard.rearmed⟩

theorem iqPackets_append (first second : List (ParsedItem Sample)) :
    iqPackets (first ++ second) = iqPackets first ++ iqPackets second :=
  List.filterMap_append

theorem processItems_heard {items : List (ParsedItem Sample)}
    (usable : ∀ packet ∈ iqPackets items, packet.1.Positive)
    (processed : m.processItems clock items = some next) :
    Heard clock m (iqPackets items) next := by
  induction items generalizing m with
  | nil =>
      cases processed
      exact .refl _
  | cons item items ih =>
      have split := iqPackets_append [item] items
      rw [List.singleton_append] at split
      rw [split] at usable ⊢
      obtain ⟨mid, first, rest⟩ := Option.bind_eq_some_iff.mp processed
      refine (processItem_heard (fun packet member => ?_) first).trans
        (ih (fun packet member => ?_) rest)
      · exact usable packet (List.mem_append_left _ member)
      · exact usable packet (List.mem_append_right _ member)

variable {codec : WireCodec Value Sample}

theorem processAdvancedStreamData_ok {data : Bytes} {items : List (ParsedItem Sample)}
    (usable : ∀ packet ∈ iqPackets items, packet.1.Positive)
    (processed : m.processAdvancedStreamData clock codec data = some (next, .ok items)) :
    Heard clock m (iqPackets items) next := by
  rw [processAdvancedStreamData] at processed
  dsimp only at processed
  split at processed
  · cases processed
  · obtain ⟨last, through, same⟩ := Option.map_eq_some_iff.mp processed
    cases same
    have parsed : Heard clock m [] { m with source := { m.source with
        streamParser := (m.source.streamParser.processDataRecovering codec data).1 } } :=
      .of_same rfl rfl rfl rfl
    exact parsed.trans (processItems_heard usable through)

theorem processAdvancedStreamData_error {data : Bytes} {e : Error}
    (processed : m.processAdvancedStreamData clock codec data = some (next, .error e)) :
    Heard clock m [] next := by
  rw [processAdvancedStreamData] at processed
  dsimp only at processed
  split at processed
  · cases processed
    exact .of_same rfl rfl rfl rfl
  · obtain ⟨last, through, same⟩ := Option.map_eq_some_iff.mp processed
    cases same

theorem parseChunks_heard {chunks : List Bytes} {parseError : Option Error}
    {items : List (ParsedItem Sample)}
    (usable : ∀ packet ∈ iqPackets items, packet.1.Positive)
    (parsed : m.parseChunks clock codec chunks = some (next, parseError, items)) :
    Heard clock m (iqPackets items) next := by
  induction chunks generalizing m next parseError items with
  | nil =>
      cases parsed
      exact .refl _
  | cons chunk chunks ih =>
      obtain ⟨⟨mid, outcome⟩, processed, rest⟩ := Option.bind_eq_some_iff.mp parsed
      cases outcome with
      | error e =>
          cases rest
          exact processAdvancedStreamData_error processed
      | ok first =>
          obtain ⟨⟨last, parseError', more⟩, onward, same⟩ := Option.map_eq_some_iff.mp rest
          cases same
          rw [iqPackets_append] at usable ⊢
          refine (processAdvancedStreamData_ok (fun packet member => ?_) processed).trans
            (ih (fun packet member => ?_) onward)
          · exact usable packet (List.mem_append_left _ member)
          · exact usable packet (List.mem_append_right _ member)

end MeteredSource

end SdrAaronia
