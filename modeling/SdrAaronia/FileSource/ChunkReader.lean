import SdrAaronia.FileSource.Scan
import SdrAaronia.Lib.LittleEndian
import SdrAaronia.Lib.Utf8

/-! # Reading chunks

The numbers of a capture file are little-endian and read one after the other; a
chunk starts with sixteen bytes of header.
-/

namespace SdrAaronia

open HttpStreaming

/-- A read that may fail part of the way through. -/
def Reading (Value : Type) := FileReader → Except Error Value × FileReader

instance : Monad Reading where
  pure value := fun f => (.ok value, f)
  bind first next := fun f =>
    match first f with
    | (.ok value, f) => next value f
    | (.error e, f) => (.error e, f)

namespace Reading

def fail {Value : Type} (e : Error) : Reading Value := fun f => (.error e, f)

def exact (count : Nat) : Reading Bytes := fun f => f.readExact count

def number (width : Nat) : Reading Nat := do
  return LittleEndian.decode (← exact width)

def u8 : Reading UInt8 := return UInt8.ofNat (← number 1)
def u16 : Reading UInt16 := return UInt16.ofNat (← number 2)
def u32 : Reading UInt32 := return UInt32.ofNat (← number 4)
def u64 : Reading UInt64 := return UInt64.ofNat (← number 8)

/-- An eight-byte two's complement number. -/
def i64 : Reading Int := return (BitVec.ofNat 64 (← number 8)).toInt

/-- A one-byte two's complement number. -/
def i8 : Reading Int := return (BitVec.ofNat 8 (← number 1)).toInt

def seekStart (position : Nat) : Reading Unit := fun f =>
  match f.seekStart position with
  | .ok f => (.ok (), f)
  | .error e => (.error e, f)

def seekCurrent (offset : Int) : Reading Unit := fun f =>
  if 0 ≤ (f.position : Int) + offset then seekStart ((f.position : Int) + offset).toNat f
  else (.error .invalidSeek, f)

variable {Value Result : Type}

theorem bind_apply (first : Reading Value) (next : Value → Reading Result) (f : FileReader) :
    (first >>= next) f =
      match first f with
      | (.ok value, f') => next value f'
      | (.error e, f') => (.error e, f') := rfl

theorem pure_apply (value : Value) (f : FileReader) :
    (pure value : Reading Value) f = (.ok value, f) := rfl

theorem pure_ok_iff {value value' : Value} {f f' : FileReader} :
    (pure value : Reading Value) f = (.ok value', f') ↔ value' = value ∧ f' = f := by
  rw [pure_apply, Prod.mk.injEq, Except.ok.injEq, eq_comm, eq_comm (a := f)]

theorem fail_ok_iff {e : Error} {value : Value} {f f' : FileReader} :
    (fail e : Reading Value) f = (.ok value, f') ↔ False := by
  simp [fail]

theorem bind_ok_iff {first : Reading Value} {next : Value → Reading Result} {f f'' : FileReader}
    {result : Result} :
    (first >>= next) f = (.ok result, f'') ↔
      ∃ value f', first f = (.ok value, f') ∧ next value f' = (.ok result, f'') := by
  rw [bind_apply]
  constructor
  · intro ended
    split at ended
    · exact ⟨_, _, ‹_›, ended⟩
    · simp at ended
  · rintro ⟨value, f', read, ended⟩
    rw [read]
    exact ended

/-- `width` bytes of a byte string. -/
def window (bytes : Bytes) (start width : Nat) : Bytes := (bytes.drop start).take width

theorem exact_ok_iff {width : Nat} (positive : 0 < width) {f f' : FileReader} {bytes : Bytes} :
    exact width f = (.ok bytes, f') ↔
      f.position + width ≤ f.bytes.length ∧ bytes = window f.bytes f.position width ∧
        f' = f.advanced width := by
  rw [exact, FileReader.readExact]
  split
  · rename_i fits
    have inside : f.position + width ≤ f.bytes.length := fits.resolve_left (Nat.ne_of_gt positive)
    simp only [Prod.mk.injEq, Except.ok.injEq, inside, true_and]
    rw [eq_comm, eq_comm (b := f')]
    rfl
  · rename_i short
    have outside : ¬f.position + width ≤ f.bytes.length := fun inside => short (.inr inside)
    simp [outside]

theorem number_ok_iff {width : Nat} (positive : 0 < width) {f f' : FileReader} {n : Nat} :
    number width f = (.ok n, f') ↔
      f.position + width ≤ f.bytes.length ∧
        n = LittleEndian.decode (window f.bytes f.position width) ∧ f' = f.advanced width := by
  simp only [number, bind_ok_iff, exact_ok_iff positive, pure_ok_iff]
  constructor
  · rintro ⟨bytes, f₁, ⟨fits, rfl, rfl⟩, rfl, rfl⟩
    exact ⟨fits, rfl, rfl⟩
  · rintro ⟨fits, rfl, rfl⟩
    exact ⟨_, _, ⟨fits, rfl, rfl⟩, rfl, rfl⟩

@[simp] theorem advanced_position (f : FileReader) (count : Nat) :
    (f.advanced count).position = f.position + count := rfl

@[simp] theorem advanced_bytes (f : FileReader) (count : Nat) :
    (f.advanced count).bytes = f.bytes := rfl

/-- A number in another type. -/
theorem map_number_ok_iff {width : Nat} (positive : 0 < width) (convert : Nat → Value)
    {f f' : FileReader} {value : Value} :
    (number width >>= fun n => pure (convert n)) f = (.ok value, f') ↔
      f.position + width ≤ f.bytes.length ∧
        value = convert (LittleEndian.decode (window f.bytes f.position width)) ∧
        f' = f.advanced width := by
  simp only [bind_ok_iff, number_ok_iff positive, pure_ok_iff]
  constructor
  · rintro ⟨n, f₁, ⟨fits, rfl, rfl⟩, rfl, rfl⟩
    exact ⟨fits, rfl, rfl⟩
  · rintro ⟨fits, rfl, rfl⟩
    exact ⟨_, _, ⟨fits, rfl, rfl⟩, rfl, rfl⟩

variable {f f' : FileReader}

theorem u8_ok_iff {n : UInt8} :
    u8 f = (.ok n, f') ↔ f.position + 1 ≤ f.bytes.length ∧
      n = UInt8.ofNat (LittleEndian.decode (window f.bytes f.position 1)) ∧ f' = f.advanced 1 :=
  map_number_ok_iff Nat.one_pos UInt8.ofNat

theorem u16_ok_iff {n : UInt16} :
    u16 f = (.ok n, f') ↔ f.position + 2 ≤ f.bytes.length ∧
      n = UInt16.ofNat (LittleEndian.decode (window f.bytes f.position 2)) ∧ f' = f.advanced 2 :=
  map_number_ok_iff Nat.two_pos UInt16.ofNat

theorem u32_ok_iff {n : UInt32} :
    u32 f = (.ok n, f') ↔ f.position + 4 ≤ f.bytes.length ∧
      n = UInt32.ofNat (LittleEndian.decode (window f.bytes f.position 4)) ∧ f' = f.advanced 4 :=
  map_number_ok_iff (Nat.succ_pos 3) UInt32.ofNat

theorem u64_ok_iff {n : UInt64} :
    u64 f = (.ok n, f') ↔ f.position + 8 ≤ f.bytes.length ∧
      n = UInt64.ofNat (LittleEndian.decode (window f.bytes f.position 8)) ∧ f' = f.advanced 8 :=
  map_number_ok_iff (Nat.succ_pos 7) UInt64.ofNat

theorem i8_ok_iff {n : Int} :
    i8 f = (.ok n, f') ↔ f.position + 1 ≤ f.bytes.length ∧
      n = (BitVec.ofNat 8 (LittleEndian.decode (window f.bytes f.position 1))).toInt ∧
        f' = f.advanced 1 :=
  map_number_ok_iff Nat.one_pos fun n => (BitVec.ofNat 8 n).toInt

theorem seekStart_ok_iff {position : Nat} {u : Unit} :
    seekStart position f = (.ok u, f') ↔ position < 2 ^ 63 ∧ f' = { f with position } := by
  rw [seekStart]
  rcases f.seekStart_cases position with ⟨near, moved⟩ | ⟨far, refused⟩
  · simp only [moved, Prod.mk.injEq, near, true_and]
    rw [eq_comm]
  · simp only [refused, Prod.mk.injEq, reduceCtorEq, false_and, false_iff]
    omega

theorem seekCurrent_ok_iff {offset : Nat} {u : Unit} :
    seekCurrent (offset : Int) f = (.ok u, f') ↔
      f.position + offset < 2 ^ 63 ∧ f' = { f with position := f.position + offset } := by
  have forward : (0 : Int) ≤ (f.position : Int) + offset := by omega
  have target : ((f.position : Int) + offset).toNat = f.position + offset := by omega
  rw [seekCurrent, if_pos forward, target]
  exact seekStart_ok_iff

/-- A reading leaves the file as it is. -/
def Keeps (reading : Reading Value) : Prop := ∀ f, (reading f).2.bytes = f.bytes

theorem keeps_pure (value : Value) : Keeps (pure value : Reading Value) := fun _ => rfl

theorem keeps_fail (e : Error) : Keeps (fail e : Reading Value) := fun _ => rfl

theorem Keeps.bind {first : Reading Value} {next : Value → Reading Result} (kept : Keeps first)
    (keeps : ∀ value, Keeps (next value)) : Keeps (first >>= next) := by
  intro f
  have before := kept f
  rw [bind_apply]
  split
  · rename_i value f' read
    rw [read] at before
    exact (keeps value f').trans before
  · rename_i e f' failed
    rw [failed] at before
    exact before

theorem keeps_exact (width : Nat) : Keeps (exact width) := by
  intro f
  rw [exact, FileReader.readExact]
  split <;> rfl

theorem keeps_number (width : Nat) : Keeps (number width) :=
  (keeps_exact width).bind fun _ => keeps_pure _

theorem keeps_u8 : Keeps u8 := (keeps_number 1).bind fun _ => keeps_pure _
theorem keeps_u16 : Keeps u16 := (keeps_number 2).bind fun _ => keeps_pure _
theorem keeps_u32 : Keeps u32 := (keeps_number 4).bind fun _ => keeps_pure _
theorem keeps_u64 : Keeps u64 := (keeps_number 8).bind fun _ => keeps_pure _
theorem keeps_i64 : Keeps i64 := (keeps_number 8).bind fun _ => keeps_pure _

theorem keeps_seekStart (position : Nat) : Keeps (seekStart position) := by
  intro f
  rw [seekStart]
  rcases f.seekStart_cases position with ⟨-, moved⟩ | ⟨-, refused⟩
  · rw [moved]
  · rw [refused]

theorem keeps_seekCurrent (offset : Int) : Keeps (seekCurrent offset) := by
  intro f
  rw [seekCurrent]
  split
  · exact keeps_seekStart _ f
  · rfl

end Reading

end SdrAaronia
