import SdrAaronia.Error
import SdrAaronia.Lib.Bits

/-! # The bit reader

Bytes go through a 64-bit reservoir.  Whatever the reservoir holds, the reader
gives out the bits of its bytes in order.
-/

namespace SdrAaronia

structure BitReader where
  bytes : List UInt8
  bytePos : Nat
  reservoir : BitVec 64
  bitsInReservoir : Nat
  deriving DecidableEq, Repr

namespace BitReader

def new (bytes : List UInt8) : BitReader := ⟨bytes, 0, 0, 0⟩

/-- A byte goes in at the low end of the reservoir. -/
def pull (r : BitReader) (byte : UInt8) : BitReader :=
  { r with
    reservoir := (r.reservoir <<< 8) ||| byte.toBitVec.setWidth 64
    bitsInReservoir := r.bitsInReservoir + 8
    bytePos := r.bytePos + 1 }

/-- The loop of `fill`, for at most as many rounds. -/
def fillLoop : Nat → BitReader → BitReader
  | 0, r => r
  | rounds + 1, r =>
      match r.bytes[r.bytePos]? with
      | none => r
      | some byte => if r.bitsInReservoir ≤ 56 then fillLoop rounds (r.pull byte) else r

/-- Eight bytes fill the reservoir. -/
def fill (r : BitReader) : BitReader := r.fillLoop 8

/-- Current bit position in the stream. -/
def pos (r : BitReader) : Nat := r.bytePos * 8 - r.bitsInReservoir

def notEnoughBits : Error := .fileFormat 0 "Not enough bits"

def readBit (r : BitReader) : Except Error Nat × BitReader :=
  let r := if r.bitsInReservoir = 0 then r.fill else r
  if r.bitsInReservoir = 0 then (.error notEnoughBits, r)
  else
    let bits := r.bitsInReservoir - 1
    (.ok ((r.reservoir >>> bits) &&& 1#64).toNat, { r with bitsInReservoir := bits })

/-- Reads a specified number of bits (at most 32). -/
def readBits (r : BitReader) (n : Nat) : Except Error Nat × BitReader :=
  if n = 0 then (.ok 0, r)
  else
    let r := if r.bitsInReservoir < n then r.fill else r
    if r.bitsInReservoir < n then (.error notEnoughBits, r)
    else
      let bits := r.bitsInReservoir - n
      (.ok (((r.reservoir >>> bits) &&& ((1#64 <<< n) - 1#64)).toNat % 2 ^ 32),
        { r with bitsInReservoir := bits })

/-! ## The bits to come -/

/-- The bits the reader has not given out. -/
def contents (r : BitReader) : List Bool :=
  Bits.ofNat r.bitsInReservoir r.reservoir.toNat ++ Bits.ofBytes (r.bytes.drop r.bytePos)

/-- The reservoir holds bits of the bytes taken, as many as it has room for. -/
structure Valid (r : BitReader) : Prop where
  room : r.bitsInReservoir ≤ 64
  taken : r.bitsInReservoir ≤ r.bytePos * 8
  within : r.bytePos ≤ r.bytes.length

theorem valid_new (bytes : List UInt8) : (new bytes).Valid := by
  constructor <;> simp [new]

theorem contents_new (bytes : List UInt8) : (new bytes).contents = Bits.ofBytes bytes := by
  simp [new, contents, Bits.ofNat]

theorem length_contents (r : BitReader) :
    r.contents.length = r.bitsInReservoir + 8 * (r.bytes.length - r.bytePos) := by
  rw [contents, List.length_append, Bits.length_ofNat, Bits.length_ofBytes, List.length_drop]

theorem pos_eq {r : BitReader} (valid : r.Valid) :
    r.pos + r.contents.length = 8 * r.bytes.length := by
  have taken := valid.taken
  have within := valid.within
  rw [pos, length_contents]
  omega

theorem pull_spec {r : BitReader} (valid : r.Valid) {byte : UInt8}
    (next : r.bytes[r.bytePos]? = some byte) (space : r.bitsInReservoir ≤ 56) :
    (r.pull byte).Valid ∧ (r.pull byte).contents = r.contents := by
  obtain ⟨inside, rfl⟩ := List.getElem?_eq_some_iff.mp next
  have taken := valid.taken
  constructor
  · constructor <;> simp only [pull] <;> omega
  · have narrow : r.bytes[r.bytePos].toNat < 2 ^ 8 := r.bytes[r.bytePos].toNat_lt
    have shifted : (r.pull r.bytes[r.bytePos]).reservoir.toNat =
        (r.reservoir.toNat <<< 8 ||| r.bytes[r.bytePos].toNat) % 2 ^ 64 := by
      simp only [pull, BitVec.toNat_or, BitVec.toNat_shiftLeft, BitVec.toNat_setWidth,
        UInt8.toNat_toBitVec]
      rw [Nat.or_mod_two_pow]
    rw [contents, shifted]
    simp only [pull, contents]
    rw [Bits.ofNat_mod (by omega), Bits.ofNat_shift_or narrow, Bits.ofBytes_drop inside,
      List.append_assoc]

/-- Filling moves bytes over to the reservoir, until it is full or they run out. -/
theorem fillLoop_spec {rounds : Nat} {r : BitReader} (valid : r.Valid)
    (enough : 56 < r.bitsInReservoir + 8 * rounds) :
    (r.fillLoop rounds).Valid ∧ (r.fillLoop rounds).contents = r.contents ∧
      (r.fillLoop rounds).bytes = r.bytes ∧
      (56 < (r.fillLoop rounds).bitsInReservoir ∨
        (r.fillLoop rounds).bytePos = r.bytes.length) := by
  induction rounds generalizing r with
  | zero => exact ⟨valid, rfl, rfl, Or.inl (by simp only [fillLoop]; omega)⟩
  | succ rounds ih =>
      rw [fillLoop]
      cases next : r.bytes[r.bytePos]? with
      | none =>
          have past := List.getElem?_eq_none_iff.mp next
          have within := valid.within
          exact ⟨valid, rfl, rfl, Or.inr (by simp only; omega)⟩
      | some byte =>
          simp only
          split
          · rename_i space
            obtain ⟨valid', contents'⟩ := pull_spec valid next space
            obtain ⟨filled, same, bytes, full⟩ := ih valid' (by simp only [pull]; omega)
            exact ⟨filled, same.trans contents', bytes, full⟩
          · exact ⟨valid, rfl, rfl, Or.inl (by omega)⟩

theorem fill_spec {r : BitReader} (valid : r.Valid) :
    r.fill.Valid ∧ r.fill.contents = r.contents ∧ r.fill.bytes = r.bytes ∧
      (56 < r.fill.bitsInReservoir ∨ r.fill.bytePos = r.bytes.length) :=
  fillLoop_spec valid (by omega)

/-- After a fill that left too few bits there are no more. -/
theorem contents_short {r : BitReader} (n : Nat) (few : n ≤ 57)
    (filled : 56 < r.bitsInReservoir ∨ r.bytePos = r.bytes.length)
    (short : r.bitsInReservoir < n) : r.contents.length < n := by
  rw [length_contents]
  omega

/-- The reader before a read of `n` bits. -/
theorem refill_spec {r : BitReader} (valid : r.Valid) {n : Nat} (few : n ≤ 57) :
    ∃ r', (if r.bitsInReservoir < n then r.fill else r) = r' ∧ r'.Valid ∧
      r'.contents = r.contents ∧ r'.bytes = r.bytes ∧
      (r'.bitsInReservoir < n → r.contents.length < n) := by
  split
  · obtain ⟨filled, same, bytes, full⟩ := fill_spec valid
    refine ⟨r.fill, rfl, filled, same, bytes, fun short => ?_⟩
    rw [← same]
    exact contents_short n few (by rw [bytes]; exact full) short
  · exact ⟨r, rfl, valid, rfl, rfl, fun short => absurd short ‹_›⟩

/-- What a reader with `n` more bits in its reservoir gives out. -/
theorem contents_split {r : BitReader} {n : Nat} (enough : n ≤ r.bitsInReservoir) :
    r.contents = Bits.ofNat n (r.reservoir.toNat >>> (r.bitsInReservoir - n)) ++
      { r with bitsInReservoir := r.bitsInReservoir - n }.contents := by
  have parts : r.bitsInReservoir = n + (r.bitsInReservoir - n) := by omega
  rw [contents, parts, Bits.ofNat_add, List.append_assoc, ← parts, contents]

/-- Masking the shifted reservoir with one takes the bit it was shifted to. -/
theorem low_bit (reservoir : BitVec 64) (bits : Nat) :
    ((reservoir >>> bits) &&& 1#64).toNat = (reservoir.toNat.testBit bits).toNat := by
  rw [BitVec.toNat_and, BitVec.toNat_ushiftRight, Nat.toNat_testBit, ← Nat.shiftRight_eq_div_pow]
  exact Nat.and_one_is_mod _

theorem low_bits {n : Nat} (few : n ≤ 32) (reservoir : BitVec 64) (bits : Nat) :
    ((reservoir >>> bits) &&& ((1#64 <<< n) - 1#64)).toNat % 2 ^ 32 =
      (reservoir.toNat >>> bits) % 2 ^ n := by
  have small : 2 ^ n ≤ 2 ^ 32 := Nat.pow_le_pow_right (by omega) few
  have positive : 0 < 2 ^ n := Nat.two_pow_pos n
  have mask : ((1#64 <<< n) - 1#64).toNat = 2 ^ n - 1 := by
    have shifted : (1#64 <<< n).toNat = 2 ^ n := by
      rw [BitVec.toNat_shiftLeft, show (1#64).toNat = 1 from rfl, Nat.one_shiftLeft]
      exact Nat.mod_eq_of_lt (by omega)
    rw [BitVec.toNat_sub, shifted, show (1#64).toNat = 1 from rfl]
    omega
  rw [BitVec.toNat_and, BitVec.toNat_ushiftRight, mask, Nat.and_two_pow_sub_one_eq_mod]
  exact Nat.mod_eq_of_lt ((Nat.mod_lt _ positive).trans_le small)

theorem readBit_nil {r : BitReader} (valid : r.Valid) (empty : r.contents = []) :
    ∃ r', r.readBit = (.error notEnoughBits, r') ∧ r'.Valid ∧ r'.contents = [] ∧
      r'.bytes = r.bytes := by
  obtain ⟨r', refilled, valid', same, bytes, -⟩ := refill_spec valid (n := 1) (by omega)
  have none : r'.bitsInReservoir = 0 := by
    have length := length_contents r'
    rw [same, empty, List.length_nil] at length
    omega
  simp only [Nat.lt_one_iff] at refilled
  refine ⟨r', ?_, valid', same.trans empty, bytes⟩
  rw [readBit]
  simp only [refilled, none, if_true]

theorem readBit_cons {r : BitReader} (valid : r.Valid) {bit : Bool} {rest : List Bool}
    (next : r.contents = bit :: rest) :
    ∃ r', r.readBit = (.ok bit.toNat, r') ∧ r'.Valid ∧ r'.contents = rest ∧
      r'.bytes = r.bytes := by
  obtain ⟨r', refilled, valid', same, bytes, enough⟩ := refill_spec valid (n := 1) (by omega)
  have some : 1 ≤ r'.bitsInReservoir := by
    by_contra none
    have length := enough (by omega)
    rw [next, List.length_cons] at length
    omega
  simp only [Nat.lt_one_iff] at refilled
  have room := valid'.room
  have taken := valid'.taken
  have parts := contents_split some
  rw [same, next, Bits.ofNat, Bits.ofNat, List.cons_append, List.nil_append,
    Nat.testBit_shiftRight, Nat.add_zero] at parts
  obtain ⟨rfl, rfl⟩ := List.cons.inj parts
  refine ⟨{ r' with bitsInReservoir := r'.bitsInReservoir - 1 }, ?_, ?_, rfl, bytes⟩
  · have none : ¬r'.bitsInReservoir = 0 := by omega
    rw [readBit]
    simp only [refilled, none, if_false]
    rw [low_bit]
  · exact ⟨by simp only; omega, by simp only; omega, valid'.within⟩

/-- A read of `n` bits that are there gives the number they spell. -/
theorem readBits_append {r : BitReader} (valid : r.Valid) {bits rest : List Bool}
    (few : bits.length ≤ 32) (next : r.contents = bits ++ rest) :
    ∃ r', r.readBits bits.length = (.ok (Bits.toNat bits), r') ∧ r'.Valid ∧
      r'.contents = rest ∧ r'.bytes = r.bytes := by
  cases empty : bits with
  | nil =>
      rw [empty, List.nil_append] at next
      exact ⟨r, rfl, valid, next, rfl⟩
  | cons first others =>
      rw [← empty]
      have positive : bits.length ≠ 0 := by rw [empty]; exact Nat.succ_ne_zero _
      obtain ⟨r', refilled, valid', same, bytes, enough⟩ :=
        refill_spec valid (n := bits.length) (by omega)
      have some : bits.length ≤ r'.bitsInReservoir := by
        by_contra short
        have length := enough (by omega)
        rw [next, List.length_append] at length
        omega
      have room := valid'.room
      have taken := valid'.taken
      have parts := contents_split some
      rw [same, next] at parts
      obtain ⟨spelled, rest'⟩ := List.append_inj parts (Bits.length_ofNat _ _).symm
      refine ⟨{ r' with bitsInReservoir := r'.bitsInReservoir - bits.length }, ?_, ?_,
        rest'.symm, bytes⟩
      · have held : ¬r'.bitsInReservoir < bits.length := by omega
        have value : Bits.toNat bits =
            (r'.reservoir.toNat >>> (r'.bitsInReservoir - bits.length)) % 2 ^ bits.length :=
          (congrArg Bits.toNat spelled).trans (Bits.toNat_ofNat _ _)
        rw [readBits, if_neg positive]
        simp only [refilled, held, if_false]
        rw [low_bits few, value]
      · exact ⟨by simp only; omega, by simp only; omega, valid'.within⟩

end BitReader

end SdrAaronia
