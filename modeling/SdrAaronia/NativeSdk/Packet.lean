import SdrAaronia.Error
import SdrAaronia.Lib.F64
import Mathlib.Data.List.Basic

/-! # SDK packets

What `AARTSAAPI_GetPacket` hands out, and what each of the two read paths makes of
it: samples, nothing, or a loss.  A packet is refused on its header alone; its
floats are only read when the header stands.
-/

namespace SdrAaronia.NativeSdk

/-- One IQ packet's frequency mapping. -/
structure IqGeometry where
  sampleRateHz : F64
  bandwidthHz : Option F64
  centerFrequencyHz : Option F64
  deriving DecidableEq, Repr

/-- Unknown or malformed fields stay unknown; a negative start is valid near zero Hz. -/
def IqGeometry.fromPacket (start rate span : F64) : Option IqGeometry :=
  if ¬rate.isFinite ∨ rate ≤ 0 then none
  else
    let bandwidthHz := if span.isFinite ∧ 0 < span ∧ span ≤ rate then some span else none
    let centerFrequencyHz := bandwidthHz.bind fun width =>
      let center := start + width / 2
      if center.isFinite ∧ 0 ≤ center then some center else none
    some ⟨rate, bandwidthHz, centerFrequencyHz⟩

namespace TxFlags

def warnOverflow : BitVec 64 := 0x00000100
def warnDropped : BitVec 64 := 0x00000200
def warnInaccurate : BitVec 64 := 0x00000400
def timeDiscontinuity : BitVec 64 := 0x00010000

end TxFlags

variable {Real Item : Type}

/-- The fields of `AARTSAAPI_Packet` the reads look at; `fp32` is `none` for a null pointer. -/
structure Packet (Real : Type) where
  flags : BitVec 64
  endTime : F64
  startFrequency : F64
  stepFrequency : F64
  spanFrequency : F64
  num : Int
  stride : Int
  fp32 : Option (Nat → Real)

namespace Packet

def geometry (p : Packet Real) : Option IqGeometry :=
  IqGeometry.fromPacket p.startFrequency p.stepFrequency p.spanFrequency

def HasData (p : Packet Real) : Prop := p.fp32.isSome ∧ 0 < p.num

instance (p : Packet Real) : Decidable p.HasData := inferInstanceAs (Decidable (_ ∧ _))

/-- The device's warnings among a packet's flags. -/
def warned (p : Packet Real) : BitVec 64 :=
  p.flags &&& (TxFlags.warnOverflow ||| TxFlags.warnDropped ||| TxFlags.warnInaccurate |||
    TxFlags.timeDiscontinuity)

def flagsDrop (p : Packet Real) : Bool :=
  p.warned &&& (TxFlags.warnDropped ||| TxFlags.timeDiscontinuity) != 0

def flagsOverrun (p : Packet Real) : Bool :=
  p.warned &&& (TxFlags.warnOverflow ||| TxFlags.warnDropped ||| TxFlags.timeDiscontinuity) != 0

end Packet

structure Complex32 (Real : Type) where
  re : Real
  im : Real
  deriving DecidableEq, Repr

/-- A sample and the geometry of the packet it came in, of which the code keeps no record. -/
structure PacketSample (Real : Type) extends Complex32 Real where
  geometry : Option IqGeometry
  deriving DecidableEq, Repr

/-- A raw slice: where its floats are and how many of them it has. -/
structure Slice (Real : Type) where
  floats : Nat → Real
  len : Nat

/-- Deinterleave one dual-channel IQ packet into per-channel sample pairs. -/
def deinterleaveDualIq (floats : Slice Real) (numSamples stride : Nat) :
    Except Error (List (Complex32 Real × Complex32 Real)) :=
  let needed := (numSamples - 1) * stride + 4
  if stride < 4 then
    .error (.sdk s!"packet stride {stride} cannot carry two interleaved IQ channels (need >= 4); is device/receiverchannel set to Rx12?")
  else if 0 < numSamples ∧ 2 ^ 64 ≤ needed then
    .error (.sdk s!"dual-channel packet dimensions overflow: {numSamples} samples x stride {stride}")
  else if 0 < numSamples ∧ floats.len < needed then
    .error (.sdk s!"dual-channel packet too short: {floats.len} floats for {numSamples} samples at stride {stride} (need {needed})")
  else
    .ok ((List.range numSamples).map fun i =>
      let base := i * stride
      (⟨floats.floats base, floats.floats (base + 1)⟩,
        ⟨floats.floats (base + 2), floats.floats (base + 3)⟩))

/-- What a read does with the packet at the head of the queue. -/
inductive Handling (Item : Type) where
  /-- It carries no data and is consumed. -/
  | skip
  /-- It is consumed as a loss, and the read goes on. -/
  | lose
  /-- It is consumed as a loss, and the read returns what it has. -/
  | stop
  /-- It is consumed as a loss, and the read fails. -/
  | fail (error : Error)
  /-- It is copied out whole and consumed. -/
  | take (items : List Item)

/-- Whether a packet so handled is consumed without delivering its data. -/
def Handling.loses : Handling Item → Bool
  | .skip | .take _ => false
  | .lose | .stop | .fail _ => true

/-- The outcome of a read that ends with a packet so handled. -/
def Handling.ends (handling : Handling Item) (samplesRead : Nat) : Option (Except Error Nat) :=
  match handling with
  | .skip | .lose | .take _ => none
  | .stop => some (.ok samplesRead)
  | .fail error => some (.error error)

def Handling.items : Handling Item → List Item
  | .take items => items
  | .skip | .lose | .stop | .fail _ => []

theorem Handling.items_of_loses {handling : Handling Item} (loses : handling.loses = true) :
    handling.items = [] := by
  cases handling with
  | skip | take => cases loses
  | lose | stop | fail => rfl

def maxIqStride : Int := 4096
def maxSamples : Nat := 2 ^ 24
def maxPacketFloats : Nat := 2 ^ 26

namespace Packet

/-- What `read_samples_within` does with a packet. -/
def monoHandling (p : Packet Real) : Handling (PacketSample Real) :=
  match p.fp32 with
  | none => .skip
  | some floats =>
      if p.num ≤ 0 then .skip
      else if ¬(2 ≤ p.stride ∧ p.stride ≤ maxIqStride) then .lose
      else if maxSamples / 2 < p.num.toNat then
        .fail (.sdk s!"Packet sample count {min (p.num * 2) (2 ^ 63 - 1)} exceeds maximum allowed {maxSamples}")
      else
        let stride := p.stride.toNat
        .take ((List.range p.num.toNat).map fun i =>
          ⟨⟨floats (i * stride), floats (i * stride + 1)⟩, p.geometry⟩)

/-- What `read_samples_dual_within` does with a packet. -/
def dualHandling (p : Packet Real) : Handling (PacketSample Real × PacketSample Real) :=
  match p.fp32 with
  | none => .skip
  | some floats =>
      if p.num ≤ 0 then .skip
      else if maxIqStride < p.stride then .stop
      else if maxSamples / 4 < p.num.toNat then
        .fail (.sdk s!"Packet sample count {p.num} exceeds maximum allowed {maxSamples / 4}")
      else
        let packetSamples := p.num.toNat
        let stride := p.stride.toNat
        let floatCount := (packetSamples - 1) * stride + 4
        if 4 ≤ stride ∧ maxPacketFloats < floatCount then
          .fail (.sdk s!"dual-channel packet describes {floatCount} floats ({packetSamples} samples x stride {stride}), exceeding the {maxPacketFloats} backstop (corrupt packet header?)")
        else
          -- A stride too narrow for two channels gets the helper's diagnostic, with no floats.
          let slice : Slice Real := ⟨floats, if 4 ≤ stride then floatCount else 0⟩
          match deinterleaveDualIq slice packetSamples stride with
          | .error error => .fail error
          | .ok pairs => .take (pairs.map fun (a, b) => (⟨a, p.geometry⟩, ⟨b, p.geometry⟩))

/-! ## What a well-formed packet yields -/

/-- A packet the mono reads take. -/
def MonoWellFormed (p : Packet Real) : Prop :=
  p.HasData ∧ 2 ≤ p.stride ∧ p.stride ≤ maxIqStride ∧ p.num.toNat ≤ maxSamples / 2

/-- A packet the dual reads take. -/
def DualWellFormed (p : Packet Real) : Prop :=
  p.HasData ∧ 4 ≤ p.stride ∧ p.stride ≤ maxIqStride ∧ p.num.toNat ≤ maxSamples / 4 ∧
    (p.num.toNat - 1) * p.stride.toNat + 4 ≤ maxPacketFloats

instance (p : Packet Real) : Decidable p.MonoWellFormed := inferInstanceAs (Decidable (_ ∧ _))
instance (p : Packet Real) : Decidable p.DualWellFormed := inferInstanceAs (Decidable (_ ∧ _))

/-- The sample at a float offset. -/
def sampleAt (p : Packet Real) (floats : Nat → Real) (offset : Nat) : PacketSample Real :=
  ⟨⟨floats offset, floats (offset + 1)⟩, p.geometry⟩

/-- Floats `i * stride` and `i * stride + 1` of each of the packet's samples. -/
def monoSamples (p : Packet Real) : List (PacketSample Real) :=
  p.fp32.elim [] fun floats =>
    (List.range p.num.toNat).map fun i => p.sampleAt floats (i * p.stride.toNat)

/-- Floats `i * stride` to `i * stride + 3` of each of the packet's samples, as two channels. -/
def dualSamples (p : Packet Real) : List (PacketSample Real × PacketSample Real) :=
  p.fp32.elim [] fun floats =>
    (List.range p.num.toNat).map fun i =>
      (p.sampleAt floats (i * p.stride.toNat), p.sampleAt floats (i * p.stride.toNat + 2))

theorem not_hasData {p : Packet Real} (empty : ¬p.HasData) :
    p.fp32 = none ∨ ∃ floats, p.fp32 = some floats ∧ p.num ≤ 0 := by
  cases data : p.fp32 with
  | none => exact .inl rfl
  | some floats =>
      simp only [HasData, data, Option.isSome_some, true_and, not_lt] at empty
      exact .inr ⟨floats, rfl, empty⟩

theorem monoHandling_skip {p : Packet Real} (empty : ¬p.HasData) : p.monoHandling = .skip := by
  rcases not_hasData empty with none | ⟨floats, data, none⟩
  · simp only [monoHandling, none]
  · simp only [monoHandling, data, if_pos none]

theorem dualHandling_skip {p : Packet Real} (empty : ¬p.HasData) : p.dualHandling = .skip := by
  rcases not_hasData empty with none | ⟨floats, data, none⟩
  · simp only [dualHandling, none]
  · simp only [dualHandling, data, if_pos none]

theorem deinterleaveDualIq_narrow (floats : Slice Real) (numSamples : Nat) {stride : Nat}
    (narrow : stride < 4) :
    ∃ error, deinterleaveDualIq floats numSamples stride = .error error := by
  simp only [deinterleaveDualIq, if_pos narrow]
  exact ⟨_, rfl⟩

/-- A slice that reaches the last sample's four floats is deinterleaved whole. -/
theorem deinterleaveDualIq_ok (floats : Slice Real) {numSamples stride : Nat} (wide : 4 ≤ stride)
    (fits : (numSamples - 1) * stride + 4 < 2 ^ 64)
    (reaches : (numSamples - 1) * stride + 4 ≤ floats.len) :
    deinterleaveDualIq floats numSamples stride =
      .ok ((List.range numSamples).map fun i =>
        (⟨floats.floats (i * stride), floats.floats (i * stride + 1)⟩,
          ⟨floats.floats (i * stride + 2), floats.floats (i * stride + 3)⟩)) := by
  have large : ¬(0 < numSamples ∧ 2 ^ 64 ≤ (numSamples - 1) * stride + 4) := by omega
  have short : ¬(0 < numSamples ∧ floats.len < (numSamples - 1) * stride + 4) := by omega
  simp only [deinterleaveDualIq, if_neg (not_lt.mpr wide), if_neg large, if_neg short]

theorem monoHandling_take {p : Packet Real} (wellFormed : p.MonoWellFormed) :
    p.monoHandling = .take p.monoSamples := by
  obtain ⟨⟨pointer, some⟩, narrow, wide, count⟩ := wellFormed
  obtain ⟨floats, data⟩ := Option.isSome_iff_exists.mp pointer
  simp only [monoHandling, data, if_neg (not_le.mpr some), narrow, wide, and_self,
    not_true_eq_false,
    if_false, if_neg (not_lt.mpr count), monoSamples, Option.elim, sampleAt]

/-- Data in a packet that is not well-formed is lost. -/
theorem monoHandling_loses {p : Packet Real} (data : p.HasData) (malformed : ¬p.MonoWellFormed) :
    p.monoHandling.loses = true := by
  obtain ⟨floats, pointer⟩ := Option.isSome_iff_exists.mp data.1
  by_cases stride : 2 ≤ p.stride ∧ p.stride ≤ maxIqStride
  · have count : maxSamples / 2 < p.num.toNat := by
      by_contra few
      exact malformed ⟨data, stride.1, stride.2, not_lt.mp few⟩
    simp only [monoHandling, pointer, if_neg (not_le.mpr data.2), stride, and_self,
      not_true_eq_false,
      if_false, if_pos count, Handling.loses]
  · simp only [monoHandling, pointer, if_neg (not_le.mpr data.2), if_pos stride, Handling.loses]

theorem dualHandling_take {p : Packet Real} (wellFormed : p.DualWellFormed) :
    p.dualHandling = .take p.dualSamples := by
  obtain ⟨⟨pointer, some⟩, narrow, wide, count, bounded⟩ := wellFormed
  obtain ⟨floats, data⟩ := Option.isSome_iff_exists.mp pointer
  have stride : 4 ≤ p.stride.toNat := by omega
  have within : ¬(4 ≤ p.stride.toNat ∧
      maxPacketFloats < (p.num.toNat - 1) * p.stride.toNat + 4) :=
    fun tooMany => absurd bounded (not_le.mpr tooMany.2)
  have fits : (p.num.toNat - 1) * p.stride.toNat + 4 < 2 ^ 64 :=
    lt_of_le_of_lt bounded (by decide)
  simp only [dualHandling, data, if_neg (not_le.mpr some), if_neg (not_lt.mpr wide),
    if_neg (not_lt.mpr count), if_neg within, if_pos stride,
    deinterleaveDualIq_ok ⟨floats, _⟩ stride fits (le_refl _), dualSamples, Option.elim,
    sampleAt, List.map_map, Function.comp_def]

/-- Data in a packet that is not well-formed is lost. -/
theorem dualHandling_loses {p : Packet Real} (data : p.HasData) (malformed : ¬p.DualWellFormed) :
    p.dualHandling.loses = true := by
  obtain ⟨floats, pointer⟩ := Option.isSome_iff_exists.mp data.1
  by_cases wide : maxIqStride < p.stride
  · simp only [dualHandling, pointer, if_neg (not_le.mpr data.2), if_pos wide, Handling.loses]
  by_cases count : maxSamples / 4 < p.num.toNat
  · simp only [dualHandling, pointer, if_neg (not_le.mpr data.2), if_neg wide, if_pos count,
      Handling.loses]
  by_cases large : 4 ≤ p.stride.toNat ∧ maxPacketFloats < (p.num.toNat - 1) * p.stride.toNat + 4
  · simp only [dualHandling, pointer, if_neg (not_le.mpr data.2), if_neg wide, if_neg count,
      if_pos large, Handling.loses]
  · have narrow : p.stride.toNat < 4 := by
      by_contra stride
      refine malformed ⟨data, ?_, not_lt.mp wide, not_lt.mp count, ?_⟩
      · omega
      · by_contra many
        exact large ⟨not_lt.mp stride, not_le.mp many⟩
    obtain ⟨error, refused⟩ :=
      deinterleaveDualIq_narrow ⟨floats, 0⟩ p.num.toNat narrow
    simp only [dualHandling, pointer, if_neg (not_le.mpr data.2), if_neg wide, if_neg count,
      if_neg large, if_neg (not_le.mpr narrow), refused, Handling.loses]

/-! ## Taken whole or not at all -/

/-- A handling skips the packets without data, takes the well-formed ones whole and loses the
others. -/
structure Sorts {Item : Type} (handling : Packet Real → Handling Item)
    (wellFormed : Packet Real → Prop) (samples : Packet Real → List Item) : Prop where
  skips : ∀ {p}, ¬p.HasData → handling p = .skip
  takes : ∀ {p}, wellFormed p → handling p = .take (samples p)
  loses : ∀ {p}, p.HasData → ¬wellFormed p → (handling p).loses = true
  some : ∀ {p}, p.HasData → samples p ≠ []

namespace Sorts

variable {Item : Type} {handling : Packet Real → Handling Item} {wellFormed : Packet Real → Prop}
  {samples : Packet Real → List Item}

theorem items (sorts : Sorts handling wellFormed samples) (p : Packet Real)
    [Decidable (wellFormed p)] :
    (handling p).items = if wellFormed p then samples p else [] := by
  by_cases sound : wellFormed p
  · rw [if_pos sound, sorts.takes sound, Handling.items]
  · rw [if_neg sound]
    by_cases data : p.HasData
    · exact Handling.items_of_loses (sorts.loses data sound)
    · rw [sorts.skips data, Handling.items]

/-- A packet is taken only when it is well-formed, and then some samples are. -/
theorem taken {items : List Item} {p : Packet Real} (sorts : Sorts handling wellFormed samples)
    (taken : handling p = .take items) : wellFormed p ∧ items ≠ [] := by
  by_cases data : p.HasData
  · by_cases sound : wellFormed p
    · rw [sorts.takes sound, Handling.take.injEq] at taken
      rw [← taken]
      exact ⟨sound, sorts.some data⟩
    · have loses := sorts.loses data sound
      rw [taken] at loses
      cases loses
  · cases (sorts.skips data).symm.trans taken

end Sorts

section Samples

variable {Item : Type} {p : Packet Real} {sample : (Nat → Real) → Nat → Item}

theorem samples_ne_nil (data : p.HasData) :
    (p.fp32.elim [] fun floats => (List.range p.num.toNat).map (sample floats)) ≠ [] := by
  obtain ⟨floats, pointer⟩ := Option.isSome_iff_exists.mp data.1
  have some : p.num.toNat ≠ 0 := by
    have positive := data.2
    omega
  rw [pointer]
  simp only [Option.elim, ne_eq, List.map_eq_nil_iff, List.range_eq_nil, some, not_false_eq_true]

theorem mem_samples {item : Item}
    (member : item ∈ p.fp32.elim [] fun floats => (List.range p.num.toNat).map (sample floats)) :
    ∃ floats i, item = sample floats i := by
  cases data : p.fp32 with
  | none =>
      rw [data] at member
      cases member
  | some floats =>
      rw [data] at member
      obtain ⟨i, -, rfl⟩ := List.mem_map.mp member
      exact ⟨floats, i, rfl⟩

end Samples

theorem mono_sorts : Sorts (fun p : Packet Real => p.monoHandling) MonoWellFormed monoSamples where
  skips := monoHandling_skip
  takes := monoHandling_take
  loses := monoHandling_loses
  some := samples_ne_nil

theorem dual_sorts : Sorts (fun p : Packet Real => p.dualHandling) DualWellFormed dualSamples where
  skips := dualHandling_skip
  takes := dualHandling_take
  loses := dualHandling_loses
  some := samples_ne_nil

theorem monoHandling_items (p : Packet Real) :
    p.monoHandling.items = if p.MonoWellFormed then p.monoSamples else [] :=
  mono_sorts.items p

theorem dualHandling_items (p : Packet Real) :
    p.dualHandling.items = if p.DualWellFormed then p.dualSamples else [] :=
  dual_sorts.items p

theorem monoSamples_geometry {p : Packet Real} {item : PacketSample Real}
    (member : item ∈ p.monoSamples) : item.geometry = p.geometry := by
  obtain ⟨floats, i, rfl⟩ := mem_samples member
  rfl

theorem dualSamples_geometry {p : Packet Real} {item : PacketSample Real × PacketSample Real}
    (member : item ∈ p.dualSamples) :
    item.1.geometry = p.geometry ∧ item.2.geometry = p.geometry := by
  obtain ⟨floats, i, rfl⟩ := mem_samples member
  exact ⟨rfl, rfl⟩

end Packet

end SdrAaronia.NativeSdk
