import SdrAaronia.FileSource.ChunkReader

/-! # Reading what was written

A reading gives back what was written where the reader stands, or refuses it.  Both
are put together from the readings of the parts.
-/

namespace SdrAaronia

open HttpStreaming

/-- The bytes from the reader on. -/
def FileReader.remaining (f : FileReader) : Bytes := f.bytes.drop f.position

namespace Reading

variable {Value Result : Type}

/-- Where `written` comes next the reading gives `value` and stops right behind. -/
def Reads (reading : Reading Value) (written : Bytes) (value : Value) : Prop :=
  ∀ (f : FileReader) rest, f.remaining = written ++ rest →
    ∃ f', reading f = (.ok value, f') ∧ f'.bytes = f.bytes ∧
      f'.position = f.position + written.length

/-- Where `written` comes next the reading fails. -/
def Refuses (reading : Reading Value) (written : Bytes) : Prop :=
  ∀ (f : FileReader) rest, f.remaining = written ++ rest → ∃ e f', reading f = (.error e, f')

theorem remaining_behind {f f' : FileReader} {written rest : Bytes}
    (ahead : f.remaining = written ++ rest) (kept : f'.bytes = f.bytes)
    (moved : f'.position = f.position + written.length) : f'.remaining = rest := by
  rw [FileReader.remaining, kept, moved, ← List.drop_drop, ← FileReader.remaining, ahead,
    List.drop_left]

theorem reads_pure (value : Value) : Reads (pure value) [] value := by
  intro f rest _
  exact ⟨f, rfl, rfl, rfl⟩

theorem Reads.bind {first : Reading Value} {next : Value → Reading Result}
    {written written' : Bytes} {value : Value} {result : Result}
    (reads : Reads first written value) (reads' : Reads (next value) written' result) :
    Reads (first >>= next) (written ++ written') result := by
  intro f rest ahead
  rw [List.append_assoc] at ahead
  obtain ⟨f', read, kept, moved⟩ := reads f _ ahead
  obtain ⟨f'', read', kept', moved'⟩ := reads' f' rest (remaining_behind ahead kept moved)
  refine ⟨f'', ?_, kept'.trans kept, ?_⟩
  · rw [bind_apply, read]
    exact read'
  · rw [moved', moved, List.length_append, Nat.add_assoc]

/-- A last step that reads nothing more. -/
theorem Reads.last {first : Reading Value} {next : Value → Reading Result} {written : Bytes}
    {value : Value} {result : Result} (reads : Reads first written value)
    (ends : Reads (next value) [] result) : Reads (first >>= next) written result := by
  have whole := reads.bind ends
  rwa [List.append_nil] at whole

theorem Reads.map {first : Reading Value} {written : Bytes} {value : Value}
    (reads : Reads first written value) (convert : Value → Result) :
    Reads (first >>= fun value => pure (convert value)) written (convert value) :=
  reads.last (reads_pure (convert value))

theorem Refuses.behind {first : Reading Value} {written : Bytes}
    (refuses : Refuses first written) (next : Value → Reading Result) :
    Refuses (first >>= next) written := by
  intro f rest ahead
  obtain ⟨e, f', failed⟩ := refuses f rest ahead
  exact ⟨e, f', by rw [bind_apply, failed]⟩

theorem Refuses.first {first : Reading Value} {written : Bytes} (refuses : Refuses first written)
    (next : Value → Reading Result) (more : Bytes) :
    Refuses (first >>= next) (written ++ more) := by
  intro f rest ahead
  rw [List.append_assoc] at ahead
  exact (refuses.behind next) f _ ahead

theorem Reads.then_refuses {first : Reading Value} {next : Value → Reading Result}
    {written written' : Bytes} {value : Value} (reads : Reads first written value)
    (refuses : Refuses (next value) written') : Refuses (first >>= next) (written ++ written') := by
  intro f rest ahead
  rw [List.append_assoc] at ahead
  obtain ⟨f', read, kept, moved⟩ := reads f _ ahead
  obtain ⟨e, f'', failed⟩ := refuses f' rest (remaining_behind ahead kept moved)
  exact ⟨e, f'', by rw [bind_apply, read]; exact failed⟩

theorem refuses_fail (e : Error) (written : Bytes) :
    Refuses (fail e : Reading Value) written := fun f _ _ => ⟨e, f, rfl⟩

theorem reads_exact (written : Bytes) : Reads (exact written.length) written written := by
  intro f rest ahead
  have length := congrArg List.length ahead
  rw [FileReader.remaining, List.length_drop, List.length_append] at length
  have inside : written.length = 0 ∨ f.position + written.length ≤ f.bytes.length := by omega
  have taken : (f.bytes.drop f.position).take written.length = written := by
    rw [← FileReader.remaining, ahead, List.take_left]
  refine ⟨f.advanced written.length, ?_, rfl, rfl⟩
  rw [exact, FileReader.readExact, if_pos inside, taken]
  rfl

theorem reads_number (width : Nat) {n : Nat} (fits : n < 256 ^ width) :
    Reads (number width) (LittleEndian.encode width n) n := by
  have bytes := reads_exact (LittleEndian.encode width n)
  have reads := bytes.map LittleEndian.decode
  rwa [LittleEndian.encode_length, LittleEndian.decode_encode fits] at reads

theorem reads_u8 (n : UInt8) : Reads u8 (LittleEndian.encode 1 n.toNat) n := by
  have reads := (reads_number 1 n.toNat_lt).map UInt8.ofNat
  rwa [UInt8.ofNat_toNat] at reads

theorem reads_u32 (n : UInt32) : Reads u32 (LittleEndian.encode 4 n.toNat) n := by
  have reads := (reads_number 4 n.toNat_lt).map UInt32.ofNat
  rwa [UInt32.ofNat_toNat] at reads

theorem reads_u64 (n : UInt64) : Reads u64 (LittleEndian.encode 8 n.toNat) n := by
  have reads := (reads_number 8 n.toNat_lt).map UInt64.ofNat
  rwa [UInt64.ofNat_toNat] at reads

theorem reads_i64 (n : BitVec 64) : Reads i64 (LittleEndian.encode 8 n.toNat) n.toInt := by
  have reads := (reads_number 8 n.isLt).map fun n => (BitVec.ofNat 64 n).toInt
  rwa [BitVec.ofNat_toNat, BitVec.setWidth_eq] at reads

end Reading

end SdrAaronia
