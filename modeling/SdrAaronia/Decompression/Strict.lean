import SdrAaronia.Decompression.Decompress
import SdrAaronia.Lib.Checked

/-! # Decompression without a panic

The decoder once more, with every operation that could stop the program: an overflow,
a shift by the whole width, a division by zero, an index outside its array, a loop
without an end.  None of them happens, and no pair of a pass is left out.
-/

namespace SdrAaronia

/-- A slice in the memory of a process: no address space holds `2 ^ 60` bytes. -/
structure ByteSlice where
  bytes : List UInt8
  addressable : bytes.length < 2 ^ 60

namespace Strict

open Checked Decompressor

/-! ## The bit reader -/

def fillLoop : Nat → BitReader → Option BitReader
  | 0, _ => none
  | rounds + 1, r =>
      if r.bitsInReservoir ≤ 56 ∧ r.bytePos < r.bytes.length then do
        let byte ← r.bytes[r.bytePos]?
        let shifted ← shiftLeft r.reservoir 8
        let bits ← add 64 r.bitsInReservoir 8
        let bytePos ← add 64 r.bytePos 1
        fillLoop rounds
          { r with
            reservoir := shifted ||| byte.toBitVec.setWidth 64
            bitsInReservoir := bits
            bytePos := bytePos }
      else some r

def fill (r : BitReader) : Option BitReader := fillLoop 9 r

def pos (r : BitReader) : Option Nat := do
  let bits ← mul 64 r.bytePos 8
  sub bits r.bitsInReservoir

def readBit (r : BitReader) : Option (Except Error Nat × BitReader) := do
  let r ← (if r.bitsInReservoir = 0 then fill r else some r)
  if r.bitsInReservoir = 0 then some (.error BitReader.notEnoughBits, r)
  else do
    let bits ← sub r.bitsInReservoir 1
    let shifted ← shiftRight r.reservoir bits
    some (.ok (shifted &&& 1#64).toNat, { r with bitsInReservoir := bits })

def readBits (r : BitReader) (n : Nat) : Option (Except Error Nat × BitReader) :=
  if n = 0 then some (.ok 0, r)
  else do
    let r ← (if r.bitsInReservoir < n then fill r else some r)
    if r.bitsInReservoir < n then some (.error BitReader.notEnoughBits, r)
    else do
      let bits ← sub r.bitsInReservoir n
      let shifted ← shiftRight r.reservoir bits
      let above ← shiftLeft 1#64 n
      let mask ← sub above.toNat 1
      some (.ok ((shifted &&& BitVec.ofNat 64 mask).toNat % 2 ^ 32),
        { r with bitsInReservoir := bits })

/-- A reader of a slice, in a state its operations leave it in. -/
structure Sound (r : BitReader) : Prop extends r.Valid where
  addressable : r.bytes.length < 2 ^ 60

theorem fillLoop_eq {rounds : Nat} {r : BitReader} (sound : Sound r)
    (enough : 56 < r.bitsInReservoir + 8 * rounds) :
    fillLoop (rounds + 1) r = some (r.fillLoop rounds) := by
  induction rounds generalizing r with
  | zero => rw [fillLoop, if_neg (by omega), BitReader.fillLoop]
  | succ rounds ih =>
      have addressable := sound.addressable
      rw [fillLoop, BitReader.fillLoop]
      cases next : r.bytes[r.bytePos]? with
      | none =>
          have past := List.getElem?_eq_none_iff.mp next
          rw [if_neg (by omega)]
      | some byte =>
          obtain ⟨inside, -⟩ := List.getElem?_eq_some_iff.mp next
          simp only [inside, and_true]
          split
          · rename_i space
            have shifted : shiftLeft r.reservoir 8 = some (r.reservoir <<< 8) :=
              shiftLeft_eq (by omega)
            have bits : add 64 r.bitsInReservoir 8 = some (r.bitsInReservoir + 8) :=
              add_eq (by omega)
            have moved : add 64 r.bytePos 1 = some (r.bytePos + 1) := add_eq (by omega)
            have pulled : Sound (r.pull byte) :=
              ⟨(BitReader.pull_spec sound.toValid next space).1, addressable⟩
            have more : 56 < (r.pull byte).bitsInReservoir + 8 * rounds := by
              simp only [BitReader.pull]
              omega
            simp only [shifted, bits, moved, Option.bind_eq_bind, Option.bind_some]
            exact ih pulled more
          · rfl

theorem fill_eq {r : BitReader} (sound : Sound r) : fill r = some r.fill :=
  fillLoop_eq sound (by omega)

theorem pos_eq {r : BitReader} (sound : Sound r) : pos r = some r.pos := by
  have addressable := sound.addressable
  have within := sound.within
  have bits : mul 64 r.bytePos 8 = some (r.bytePos * 8) := mul_eq (by omega)
  rw [pos, bits]
  exact sub_eq sound.taken

/-- The reader before a read, filled where it holds too few bits. -/
theorem refill_eq {r : BitReader} (sound : Sound r) (short : Prop) [Decidable short] :
    (if short then fill r else some r) = some (if short then r.fill else r) ∧
      Sound (if short then r.fill else r) := by
  split
  · obtain ⟨valid, -, bytes, -⟩ := BitReader.fill_spec sound.toValid
    exact ⟨fill_eq sound, valid, bytes.symm ▸ sound.addressable⟩
  · exact ⟨rfl, sound⟩

theorem readBit_eq {r : BitReader} (sound : Sound r) : readBit r = some r.readBit := by
  obtain ⟨filled, sound'⟩ := refill_eq sound (r.bitsInReservoir = 0)
  rw [readBit, filled, BitReader.readBit]
  generalize (if r.bitsInReservoir = 0 then r.fill else r) = r' at sound' ⊢
  simp only [Option.bind_eq_bind, Option.bind_some]
  split
  · rfl
  · have room := sound'.room
    have fewer : sub r'.bitsInReservoir 1 = some (r'.bitsInReservoir - 1) := sub_eq (by omega)
    have shifted : shiftRight r'.reservoir (r'.bitsInReservoir - 1) =
        some (r'.reservoir >>> (r'.bitsInReservoir - 1)) := shiftRight_eq (by omega)
    simp only [fewer, shifted, Option.bind_some]

theorem readBits_eq {r : BitReader} (sound : Sound r) {n : Nat} (few : n ≤ 32) :
    readBits r n = some (r.readBits n) := by
  obtain ⟨filled, sound'⟩ := refill_eq sound (r.bitsInReservoir < n)
  rw [readBits, BitReader.readBits]
  split
  · rfl
  · rename_i positive
    rw [filled]
    generalize (if r.bitsInReservoir < n then r.fill else r) = r' at sound' ⊢
    simp only [Option.bind_eq_bind, Option.bind_some]
    split
    · rfl
    · have room := sound'.room
      have fewer : sub r'.bitsInReservoir n = some (r'.bitsInReservoir - n) :=
        sub_eq (by omega)
      have shifted : shiftRight r'.reservoir (r'.bitsInReservoir - n) =
          some (r'.reservoir >>> (r'.bitsInReservoir - n)) := shiftRight_eq (by omega)
      have above : shiftLeft 1#64 n = some (1#64 <<< n) := shiftLeft_eq (by omega)
      have power : (1#64 <<< n).toNat = 2 ^ n := by
        have small : 2 ^ n ≤ 2 ^ 32 := Nat.pow_le_pow_right (by omega) few
        rw [BitVec.toNat_shiftLeft, show (1#64).toNat = 1 from rfl, Nat.one_shiftLeft]
        exact Nat.mod_eq_of_lt (by omega)
      have large : 0 < 2 ^ n := Nat.two_pow_pos n
      have mask : sub (1#64 <<< n).toNat 1 = some ((1#64 <<< n).toNat - 1) :=
        sub_eq (by omega)
      have same : BitVec.ofNat 64 ((1#64 <<< n).toNat - 1) = 1#64 <<< n - 1#64 := by
        apply BitVec.eq_of_toNat_eq
        rw [BitVec.toNat_ofNat, BitVec.toNat_sub, show (1#64).toNat = 1 from rfl]
        omega
      simp only [fewer, shifted, above, mask, same, Option.bind_some]

/-! ## Unpacking -/

/-- The zero bits so far and the further ones up to a one or the end of the data. -/
def leadingZeros : Nat → Nat → BitReader → Option (Nat × BitReader)
  | 0, _, _ => none
  | rounds + 1, zeros, r => do
      let (bit, r) ← readBit r
      match bit with
      | .error _ => some (zeros, r)
      | .ok bit =>
          if bit = 0 then do
            let zeros ← add 64 zeros 1
            leadingZeros rounds zeros r
          else some (zeros, r)

/-- The count of the magnitudes in tier `k`. -/
def tierCount (k : Nat) : Option Int := do
  let tripled ← mul 64 3 k
  let amount ← add 64 tripled 2
  let count ← shiftLeft 1#64 amount
  some count.toInt

def addTier (magnitude : Int) (k : Nat) : Option Int := do
  let count ← tierCount k
  addSigned 64 magnitude count

/-- The offset of the residual on top of the magnitudes in the tiers below. -/
def magnitude (tier residual : Nat) : Option Int :=
  (List.range tier).foldlM addTier (residual >>> 1 : Nat)

def coefficient (tier residual : Nat) : Option Int := do
  let sign := residual &&& 1
  let magnitude ← magnitude tier residual
  let value := (BitVec.ofInt 32 magnitude).toInt
  if sign = 1 then negSigned 32 value else some value

def unpackLoop : Nat → BitReader → List Int → Option (Except Error (List Int))
  | 0, _, _ => none
  | rounds + 1, r, coefficients => do
      let position ← pos r
      let bits ← mul 64 r.bytes.length 8
      if position < bits then
        if maxDecompressedSamples ≤ coefficients.length then
          some (.error (.fileFormat 0 "Decompression output exceeded limit"))
        else do
          let (zeros, r) ← leadingZeros (r.bytes.length * 8 + 1) 0 r
          if maxTier < zeros then some (.ok coefficients)
          else do
            let stopped ← add 64 zeros 1
            let residualBits ← mul 64 3 stopped
            let position ← pos r
            let last ← add 64 position residualBits
            if bits < last then some (.ok coefficients)
            else do
              let (residual, r) ← readBits r residualBits
              match residual with
              | .error e => some (.error e)
              | .ok residual => do
                  let value ← coefficient zeros residual
                  unpackLoop rounds r (coefficients ++ [value])
      else some (.ok coefficients)

def unpackCoefficients (data : List UInt8) : Option (Except Error (List Int)) :=
  unpackLoop (data.length * 8 + 1) (.new data) []

theorem leadingZeros_eq (rounds zeros : Nat) {r : BitReader} (sound : Sound r)
    (enough : r.contents.length < rounds) (fits : zeros + r.contents.length < 2 ^ 64) :
    leadingZeros rounds zeros r = some (zeros + (Decompressor.leadingZeros rounds r).1,
      (Decompressor.leadingZeros rounds r).2) := by
  induction rounds generalizing zeros r with
  | zero => exact absurd enough (Nat.not_lt_zero _)
  | succ rounds ih =>
      rw [leadingZeros, readBit_eq sound, Decompressor.leadingZeros]
      cases next : r.contents with
      | nil =>
          obtain ⟨r', read, -⟩ := BitReader.readBit_nil sound.toValid next
          rw [read]
          rfl
      | cons bit rest =>
          obtain ⟨r', read, valid', rest', bytes⟩ := BitReader.readBit_cons sound.toValid next
          have sound' : Sound r' := ⟨valid', bytes.symm ▸ sound.addressable⟩
          rw [next, List.length_cons] at enough fits
          rw [← rest'] at enough fits
          have counted : add 64 zeros 1 = some (zeros + 1) := add_eq (by omega)
          have later := ih (zeros + 1) sound' (by omega) (by omega)
          rw [read]
          cases bit with
          | true => rfl
          | false =>
              simp only [Bool.toNat_false, if_true, counted, later, Option.bind_eq_bind,
                Option.bind_some]
              rw [Nat.add_assoc, Nat.add_comm 1]

/-- Reading zeros keeps the reader sound and takes at least a bit where there is one. -/
theorem leadingZeros_takes (rounds : Nat) {r : BitReader} (sound : Sound r) :
    Sound (Decompressor.leadingZeros rounds r).2 ∧
      (Decompressor.leadingZeros rounds r).2.bytes = r.bytes ∧
      (Decompressor.leadingZeros rounds r).2.contents.length + min rounds 1 ≤
        max r.contents.length (min rounds 1) := by
  induction rounds generalizing r with
  | zero => exact ⟨sound, rfl, by simp only [Decompressor.leadingZeros]; omega⟩
  | succ rounds ih =>
      rw [Decompressor.leadingZeros]
      cases next : r.contents with
      | nil =>
          obtain ⟨r', read, valid', rest', bytes⟩ := BitReader.readBit_nil sound.toValid next
          rw [read]
          refine ⟨⟨valid', bytes.symm ▸ sound.addressable⟩, bytes, ?_⟩
          rw [rest', List.length_nil]
          omega
      | cons bit rest =>
          obtain ⟨r', read, valid', rest', bytes⟩ := BitReader.readBit_cons sound.toValid next
          have sound' : Sound r' := ⟨valid', bytes.symm ▸ sound.addressable⟩
          rw [read, List.length_cons]
          cases bit with
          | true =>
              refine ⟨sound', bytes, ?_⟩
              simp only [Bool.toNat_true, Nat.one_ne_zero, if_false, rest']
              omega
          | false =>
              obtain ⟨sound'', bytes', fewer⟩ := ih sound'
              simp only [Bool.toNat_false, if_true]
              refine ⟨sound'', bytes'.trans bytes, ?_⟩
              rw [rest'] at fewer
              omega

theorem tierCount_eq {k : Nat} (bounded : k < maxTier) :
    tierCount k = some ((2 ^ (3 * k + 2) : Nat) : Int) := by
  rw [maxTier] at bounded
  have tripled : mul 64 3 k = some (3 * k) := mul_eq (by omega)
  have amount : add 64 (3 * k) 2 = some (3 * k + 2) := add_eq (by omega)
  have shifted : shiftLeft 1#64 (3 * k + 2) = some (1#64 <<< (3 * k + 2)) :=
    shiftLeft_eq (by omega)
  have bound : 2 ^ (3 * k + 2) ≤ 2 ^ 29 := Nat.pow_le_pow_right (by omega) (by omega)
  have value : (1#64 <<< (3 * k + 2)).toNat = 2 ^ (3 * k + 2) := by
    rw [BitVec.toNat_shiftLeft, show (1#64).toNat = 1 from rfl, Nat.one_shiftLeft]
    exact Nat.mod_eq_of_lt (by omega)
  have count : (1#64 <<< (3 * k + 2)).toInt = (2 ^ (3 * k + 2) : Nat) := by
    rw [BitVec.toInt_eq_toNat_of_lt (by rw [value]; omega), value]
  simp only [tierCount, tripled, amount, shifted, count, Option.bind_eq_bind, Option.bind_some]

theorem addTier_eq {magnitude k : Nat} (bounded : k < maxTier)
    (small : magnitude + 2 ^ (3 * k + 2) < 2 ^ 63) :
    addTier magnitude k = some ((magnitude + 2 ^ (3 * k + 2) : Nat) : Int) := by
  rw [addTier, tierCount_eq bounded, Option.bind_eq_bind, Option.bind_some]
  exact addSigned_eq small

theorem magnitude_eq {tier residual : Nat} (bounded : tier ≤ maxTier)
    (small : residual < 2 ^ 30) :
    magnitude tier residual = some ((residual >>> 1 + tierStart tier : Nat) : Int) := by
  have half : residual >>> 1 < 2 ^ 30 := by
    rw [Nat.shiftRight_one]
    omega
  have top : tierStart maxTier < 2 ^ 31 := by decide
  rw [magnitude]
  induction tier with
  | zero => rfl
  | succ k ih =>
      have start : tierStart (k + 1) ≤ tierStart maxTier := tierStart_mono bounded
      rw [tierStart] at start
      have added : addTier (residual >>> 1 + tierStart k : Nat) k =
          some ((residual >>> 1 + tierStart k + 2 ^ (3 * k + 2) : Nat) : Int) :=
        addTier_eq bounded (by omega)
      rw [List.range_succ, List.foldlM_append, ih (by omega), Option.bind_eq_bind,
        Option.bind_some, List.foldlM_cons, added, tierStart, ← Nat.add_assoc]
      rfl

theorem coefficient_eq {tier residual : Nat} (bounded : tier ≤ maxTier)
    (small : residual < 2 ^ 30) :
    coefficient tier residual = some (Decompressor.coefficient tier residual) := by
  have half : residual >>> 1 < 2 ^ 29 := by
    rw [Nat.shiftRight_one]
    omega
  have start : tierStart tier ≤ tierStart 9 := tierStart_mono bounded
  have top : tierStart 9 < 2 ^ 29 := by decide
  have value : (BitVec.ofNat 32 (residual >>> 1 + tierStart tier)).toInt =
      (residual >>> 1 + tierStart tier : Nat) := by
    rw [BitVec.toInt_ofNat', Int.bmod_eq_of_le (by omega) (by omega)]
  rw [coefficient, magnitude_eq bounded small, Decompressor.coefficient]
  simp only [Option.bind_eq_bind, Option.bind_some, BitVec.ofInt_natCast, Nat.and_one_is_mod]
  rw [value]
  split
  · exact negSigned_eq (by omega)
  · rfl

/-- A read that the data has room for takes its bits and gives a number of that size. -/
theorem readBits_takes {r : BitReader} (sound : Sound r) {n : Nat} (few : n ≤ 32)
    (room : n ≤ r.contents.length) :
    ∃ value r', r.readBits n = (.ok value, r') ∧ value < 2 ^ n ∧ Sound r' ∧
      r'.bytes = r.bytes ∧ r'.contents.length + n = r.contents.length := by
  have parts : r.contents = r.contents.take n ++ r.contents.drop n :=
    (List.take_append_drop n r.contents).symm
  have width : (r.contents.take n).length = n := List.length_take_of_le room
  obtain ⟨r', read, valid', rest, bytes⟩ :=
    BitReader.readBits_append sound.toValid (width.le.trans few) parts
  have value := Bits.toNat_lt (r.contents.take n)
  rw [width] at read value
  refine ⟨_, r', read, value, ⟨valid', bytes.symm ▸ sound.addressable⟩, bytes, ?_⟩
  rw [rest, List.length_drop]
  omega

theorem unpackLoop_eq {rounds : Nat} {r : BitReader} (sound : Sound r)
    (enough : r.contents.length < rounds) (coefficients : List Int) :
    unpackLoop rounds r coefficients = some (Decompressor.unpackLoop rounds r coefficients) := by
  induction rounds generalizing r coefficients with
  | zero => exact absurd enough (Nat.not_lt_zero _)
  | succ rounds ih =>
      have addressable := sound.addressable
      have placed := BitReader.pos_eq sound.toValid
      have bits : mul 64 r.bytes.length 8 = some (r.bytes.length * 8) := mul_eq (by omega)
      rw [unpackLoop, Decompressor.unpackLoop, pos_eq sound, next, bits, next]
      split
      · split
        · rfl
        · have zeros := leadingZeros_eq (r.bytes.length * 8 + 1) 0 sound
            (by omega) (by omega)
          obtain ⟨sound', bytes, fewer⟩ :=
            leadingZeros_takes (r.bytes.length * 8 + 1) sound
          rw [zeros, next, Nat.zero_add]
          generalize Decompressor.leadingZeros (r.bytes.length * 8 + 1) r = run
            at sound' bytes fewer ⊢
          dsimp only
          split
          · rfl
          · rename_i bounded
            have placed' := BitReader.pos_eq sound'.toValid
            rw [bytes] at placed'
            rw [maxTier] at bounded
            have stopped : add 64 run.1 1 = some (run.1 + 1) := add_eq (by omega)
            have residualBits : mul 64 3 (run.1 + 1) = some (3 * (run.1 + 1)) :=
              mul_eq (by omega)
            have last : add 64 run.2.pos (3 * (run.1 + 1)) =
                some (run.2.pos + 3 * (run.1 + 1)) := add_eq (by omega)
            rw [stopped, next, residualBits, next, pos_eq sound', next, last, next, bytes]
            split
            · rfl
            · obtain ⟨residual, r', read, small, sound'', bytes', taken⟩ :=
                readBits_takes sound' (n := 3 * (run.1 + 1)) (by omega) (by omega)
              have narrow : residual < 2 ^ 30 :=
                small.trans_le (Nat.pow_le_pow_right (by omega) (by omega))
              rw [readBits_eq sound' (by omega), next, read]
              have bounded' : run.1 ≤ maxTier := by
                rw [maxTier]
                omega
              dsimp only
              rw [coefficient_eq bounded' narrow, next]
              exact ih sound'' (by omega) _
      · rfl

/-- Unpacking neither panics nor runs on, whatever the bytes. -/
theorem unpackCoefficients_eq (data : ByteSlice) :
    unpackCoefficients data.bytes = some (Decompressor.unpackCoefficients data.bytes) := by
  have length : (BitReader.new data.bytes).contents.length = 8 * data.bytes.length := by
    rw [BitReader.contents_new, Bits.length_ofBytes]
  exact unpackLoop_eq ⟨BitReader.valid_new data.bytes, data.addressable⟩ (by omega) []

end Strict

end SdrAaronia
