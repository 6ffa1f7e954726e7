import SdrAaronia.FileSource.MetaType

/-! # Metadata types on the wire

What the layout makes of a definition, and what the reader makes of that.
-/

namespace SdrAaronia

open HttpStreaming Reading

namespace MetaTypeElement

def name : MetaTypeElement → String
  | .mk name _ _ => name

end MetaTypeElement

namespace MetaTypeDefinition

def metaType : MetaTypeDefinition → MetaType
  | .mk _ metaType _ _ _ => metaType

def flags : MetaTypeDefinition → MetaTypeFlags
  | .mk _ _ flags _ _ => flags

def count : MetaTypeDefinition → UInt32
  | .mk _ _ _ count _ => count

def elements : MetaTypeDefinition → List MetaTypeElement
  | .mk _ _ _ _ elements => elements

end MetaTypeDefinition

/-- A name, filled up to its 128 bytes with NULs. -/
def encodeName (name : String) : Bytes :=
  Utf8.encode name.toList ++ List.replicate (128 - (Utf8.encode name.toList).length) 0

mutual

def MetaTypeDefinition.encode : MetaTypeDefinition → Bytes
  | .mk id metaType flags count elements =>
      LittleEndian.encode 8 id.toNat ++ (LittleEndian.encode 1 metaType.toByte.toNat ++
        (LittleEndian.encode 4 flags.bits.toNat ++ (LittleEndian.encode 4 count.toNat ++
          encodeElements elements)))

def encodeElements : List MetaTypeElement → Bytes
  | [] => []
  | .mk name flags definition :: elements =>
      (encodeName name ++ (LittleEndian.encode 4 flags.toNat ++ definition.encode)) ++
        encodeElements elements

end

mutual

/-- The levels below the root. -/
def MetaTypeDefinition.depth : MetaTypeDefinition → Nat
  | .mk _ _ _ _ elements => depthBelow elements

def depthBelow : List MetaTypeElement → Nat
  | [] => 0
  | .mk _ _ definition :: elements => max (definition.depth + 1) (depthBelow elements)

end

mutual

/-- Every definition in the tree has the property. -/
def MetaTypeDefinition.Everywhere (P : MetaTypeDefinition → Prop) : MetaTypeDefinition → Prop
  | .mk id metaType flags count elements =>
      P (.mk id metaType flags count elements) ∧ EverywhereBelow P elements

def EverywhereBelow (P : MetaTypeDefinition → Prop) : List MetaTypeElement → Prop
  | [] => True
  | .mk _ _ definition :: elements => definition.Everywhere P ∧ EverywhereBelow P elements

end

/-- The elements that a definition of the type and count has on the wire. -/
def wireElements (metaType : MetaType) (count : UInt32) : Nat :=
  match metaType with
  | .object => count.toNat
  | .array | .vector => 1
  | _ => 0

namespace MetaTypeDefinition

/-- As many elements as the reader will look for. -/
def Counted (definition : MetaTypeDefinition) : Prop :=
  definition.elements.length = wireElements definition.metaType definition.count

/-- Names that the layout has room for. -/
def Named (definition : MetaTypeDefinition) : Prop :=
  ∀ element ∈ definition.elements, (Utf8.encode element.name.toList).length ≤ 128

/-- Names that do not end in NUL. -/
def Trimmed (definition : MetaTypeDefinition) : Prop :=
  ∀ element ∈ definition.elements, element.name.toList.getLast? ≠ some '\x00'

def Flagged (definition : MetaTypeDefinition) : Prop := definition.flags.Defined

/-- An object with no more fields than a reader takes. -/
def Capped (definition : MetaTypeDefinition) : Prop :=
  definition.metaType = .object → definition.count ≤ MdttChunk.maxMetaTypeElements

/-- A definition that the layout can write. -/
def LaidOut (definition : MetaTypeDefinition) : Prop := definition.Counted ∧ definition.Named

/-- What the reader makes sure of. -/
def Checked (definition : MetaTypeDefinition) : Prop :=
  definition.Counted ∧ definition.Capped ∧ definition.Flagged

/-- A definition that its bytes tell all about. -/
def Plain (definition : MetaTypeDefinition) : Prop := definition.Flagged ∧ definition.Trimmed

end MetaTypeDefinition

namespace MdttChunk

open MetaTypeDefinition

/-! ## Names -/

theorem encode_nuls (count : Nat) :
    Utf8.encode (List.replicate count '\x00') = List.replicate count 0 := by
  induction count with
  | zero => rfl
  | succ count ih =>
      have nul : String.utf8EncodeChar '\x00' = [0] := by decide
      rw [List.replicate_succ, List.replicate_succ, ← ih, Utf8.encode, List.flatMap_cons, nul]
      rfl

theorem rdropWhile_nuls (chars : List Char) (count : Nat)
    (trimmed : chars.getLast? ≠ some '\x00') :
    (chars ++ List.replicate count '\x00').rdropWhile (· == '\x00') = chars := by
  induction count with
  | zero =>
      rw [List.replicate_zero, List.append_nil, List.rdropWhile_eq_self_iff]
      intro nonempty last
      rw [List.getLast?_eq_some_getLast nonempty] at trimmed
      exact trimmed (congrArg some (beq_iff_eq.mp last))
  | succ count ih =>
      rw [List.replicate_succ', ← List.append_assoc, List.rdropWhile_concat_pos _ _ _ (by rfl), ih]

/-- A name is read as it was written. -/
theorem trimNuls_encodeName {name : String} (trimmed : name.toList.getLast? ≠ some '\x00') :
    trimNuls (Utf8.fromUtf8Lossy (encodeName name)) = name := by
  have padded : encodeName name = Utf8.encode (name.toList ++
      List.replicate (128 - (Utf8.encode name.toList).length) '\x00') := by
    rw [encodeName, Utf8.encode, Utf8.encode, List.flatMap_append, ← Utf8.encode, ← Utf8.encode,
      encode_nuls]
  rw [padded, Utf8.fromUtf8Lossy, Utf8.lossyChars_encode, trimNuls, String.toList_ofList,
    rdropWhile_nuls _ _ trimmed, String.ofList_toList]

theorem encodeName_length {name : String} (fits : (Utf8.encode name.toList).length ≤ 128) :
    (encodeName name).length = 128 := by
  rw [encodeName, List.length_append, List.length_replicate]
  omega

/-! ## What the reader makes of a tree -/

theorem reads_orFail {Value : Type} (value : Value) : Reads (orFail (.ok value)) [] value :=
  reads_pure value

theorem refuses_orFail {Value Result : Type} {next : Value → Reading Result} {value : Value}
    {written : Bytes} (refuses : Refuses (next value) written) :
    Refuses (orFail (.ok value) >>= next) written :=
  (reads_orFail value).then_refuses refuses

theorem numElementsToRead_ok {metaType : MetaType} {count : UInt32}
    (capped : metaType = .object → count ≤ maxMetaTypeElements) :
    numElementsToRead metaType count = .ok (wireElements metaType count) := by
  cases metaType with
  | object =>
      have small : ¬maxMetaTypeElements < count := UInt32.not_lt.mpr (capped rfl)
      rw [numElementsToRead, if_neg small]
      rfl
  | _ => rfl

theorem numElementsToRead_error {metaType : MetaType} {count : UInt32}
    (uncapped : ¬(metaType = .object → count ≤ maxMetaTypeElements)) :
    numElementsToRead metaType count = .error (tooManyFields count) := by
  obtain ⟨rfl, large⟩ := Classical.not_imp.mp uncapped
  rw [numElementsToRead, if_pos (UInt32.not_le.mp large)]

theorem reads_element (flags : UInt32) {definition : Reading MetaTypeDefinition} {name : String}
    {written : Bytes} {value : MetaTypeDefinition} (reads : Reads definition written value)
    (named : (Utf8.encode name.toList).length ≤ 128) :
    Reads (readElement definition)
      (encodeName name ++ (LittleEndian.encode 4 flags.toNat ++ written))
      (.mk (trimNuls (Utf8.fromUtf8Lossy (encodeName name))) flags value) := by
  have nameBytes := reads_exact (encodeName name)
  rw [encodeName_length named] at nameBytes
  exact nameBytes.bind ((reads_u32 flags).bind (reads.map _))

theorem refuses_element {definition : Reading MetaTypeDefinition} {name : String}
    {flags : UInt32} {written : Bytes} (refuses : Refuses definition written)
    (named : (Utf8.encode name.toList).length ≤ 128) :
    Refuses (readElement definition)
      (encodeName name ++ (LittleEndian.encode 4 flags.toNat ++ written)) := by
  have nameBytes := reads_exact (encodeName name)
  rw [encodeName_length named] at nameBytes
  exact nameBytes.then_refuses ((reads_u32 flags).then_refuses (refuses.behind _))

/-- A definition with its elements, at a level that is not too deep. -/
theorem reads_node {depth : Nat} (shallow : depth ≤ maxMetaTypeDepth) (id : UInt64)
    {metaType : MetaType} (flags : MetaTypeFlags) {count : UInt32}
    (capped : metaType = .object → count ≤ maxMetaTypeElements) {written : Bytes}
    {elements : List MetaTypeElement}
    (reads : Reads (readElements (readMetaTypeDefinitionAtDepth (depth + 1))
      (wireElements metaType count)) written elements) :
    Reads (readMetaTypeDefinitionAtDepth depth)
      (LittleEndian.encode 8 id.toNat ++ (LittleEndian.encode 1 metaType.toByte.toNat ++
        (LittleEndian.encode 4 flags.bits.toNat ++ (LittleEndian.encode 4 count.toNat ++
          written))))
      (.mk id metaType (MetaTypeFlags.fromBitsTruncate flags.bits) count elements) := by
  have typed := reads_orFail metaType
  have numbered := reads_orFail (wireElements metaType count)
  rw [← MetaType.tryFrom_toByte] at typed
  rw [← numElementsToRead_ok capped] at numbered
  rw [readMetaTypeDefinitionAtDepth, if_neg (Nat.not_lt.mpr shallow)]
  exact (reads_u64 id).bind ((reads_u8 metaType.toByte).bind (typed.bind
    ((reads_u32 flags.bits).bind ((reads_u32 count).bind (numbered.bind (reads.map _))))))

theorem refuses_node {depth : Nat} (id : UInt64) {metaType : MetaType} (flags : MetaTypeFlags)
    {count : UInt32} {written : Bytes}
    (refuses : depth ≤ maxMetaTypeDepth → (metaType = .object → count ≤ maxMetaTypeElements) →
      Refuses (readElements (readMetaTypeDefinitionAtDepth (depth + 1))
        (wireElements metaType count)) written) :
    Refuses (readMetaTypeDefinitionAtDepth depth)
      (LittleEndian.encode 8 id.toNat ++ (LittleEndian.encode 1 metaType.toByte.toNat ++
        (LittleEndian.encode 4 flags.bits.toNat ++ (LittleEndian.encode 4 count.toNat ++
          written)))) := by
  rw [readMetaTypeDefinitionAtDepth]
  split
  · exact refuses_fail _ _
  · rename_i shallow
    apply (reads_u64 id).then_refuses
    apply (reads_u8 metaType.toByte).then_refuses
    rw [MetaType.tryFrom_toByte]
    apply refuses_orFail
    apply (reads_u32 flags.bits).then_refuses
    apply (reads_u32 count).then_refuses
    by_cases capped : metaType = .object → count ≤ maxMetaTypeElements
    · rw [numElementsToRead_ok capped]
      apply refuses_orFail
      exact (refuses (Nat.not_lt.mp shallow) capped).behind _
    · rw [numElementsToRead_error capped]
      exact (refuses_fail _ written).behind _

mutual

/-- A tree inside the caps is read, and as it was where its bytes tell all about it; any
other tree is refused. -/
theorem reads_definition : ∀ (definition : MetaTypeDefinition) (depth : Nat),
    definition.Everywhere LaidOut →
      (depth + definition.depth ≤ maxMetaTypeDepth ∧ definition.Everywhere Capped →
        ∃ read, Reads (readMetaTypeDefinitionAtDepth depth) definition.encode read ∧
          (definition.Everywhere Plain → read = definition)) ∧
      (¬(depth + definition.depth ≤ maxMetaTypeDepth ∧ definition.Everywhere Capped) →
        Refuses (readMetaTypeDefinitionAtDepth depth) definition.encode)
  | .mk id metaType flags count elements, depth, ⟨⟨counted, named⟩, below⟩ => by
      have counted : elements.length = wireElements metaType count := counted
      rw [MetaTypeDefinition.encode]
      constructor
      · rintro ⟨shallow, capped, cappedBelow⟩
        rw [MetaTypeDefinition.depth] at shallow
        have inside : depth ≤ maxMetaTypeDepth := by omega
        obtain ⟨read, reads, plainly⟩ :=
          (reads_elements elements depth inside named below).1 ⟨shallow, cappedBelow⟩
        rw [counted] at reads
        have fields : metaType = .object → count ≤ maxMetaTypeElements := capped
        have node := reads_node inside id flags fields reads
        refine ⟨_, node, ?_⟩
        rintro ⟨⟨flagged, trimmed⟩, plainBelow⟩
        have defined : flags.bits &&& MetaTypeFlags.all = flags.bits := flagged
        rw [plainly trimmed plainBelow, MetaTypeFlags.fromBitsTruncate, defined]
      · intro beyond
        apply refuses_node id flags
        intro inside capped
        rw [← counted]
        apply (reads_elements elements depth inside named below).2
        rintro ⟨shallow, cappedBelow⟩
        exact beyond ⟨shallow, capped, cappedBelow⟩

theorem reads_elements : ∀ (elements : List MetaTypeElement) (depth : Nat),
    depth ≤ maxMetaTypeDepth →
    (∀ element ∈ elements, (Utf8.encode element.name.toList).length ≤ 128) →
    EverywhereBelow LaidOut elements →
      (depth + depthBelow elements ≤ maxMetaTypeDepth ∧ EverywhereBelow Capped elements →
        ∃ read, Reads (readElements (readMetaTypeDefinitionAtDepth (depth + 1)) elements.length)
          (encodeElements elements) read ∧
          ((∀ element ∈ elements, element.name.toList.getLast? ≠ some '\x00') →
            EverywhereBelow Plain elements → read = elements)) ∧
      (¬(depth + depthBelow elements ≤ maxMetaTypeDepth ∧ EverywhereBelow Capped elements) →
        Refuses (readElements (readMetaTypeDefinitionAtDepth (depth + 1)) elements.length)
          (encodeElements elements))
  | [], depth, inside, _, _ => by
      constructor
      · intro _
        exact ⟨[], reads_pure [], fun _ _ => rfl⟩
      · intro beyond
        exact absurd ⟨inside, trivial⟩ beyond
  | .mk name flags definition :: elements, depth, inside, named, ⟨laid, laidBelow⟩ => by
      have fits := named _ List.mem_cons_self
      rw [MetaTypeElement.name] at fits
      obtain ⟨accepted, refused⟩ := reads_definition definition (depth + 1) laid
      obtain ⟨acceptedRest, refusedRest⟩ := reads_elements elements depth inside
        (fun element member => named element (List.mem_cons_of_mem _ member)) laidBelow
      rw [encodeElements, List.length_cons, readElements]
      by_cases first : depth + 1 + definition.depth ≤ maxMetaTypeDepth ∧
          definition.Everywhere Capped
      · obtain ⟨read, reads, plainly⟩ := accepted first
        have element := reads_element flags reads fits
        constructor
        · rintro ⟨shallow, capped, cappedBelow⟩
          rw [depthBelow] at shallow
          obtain ⟨readRest, readsRest, plainlyRest⟩ := acceptedRest ⟨by omega, cappedBelow⟩
          refine ⟨_, element.bind (readsRest.map _), ?_⟩
          rintro trimmed ⟨plain, plainBelow⟩
          have first := trimmed _ List.mem_cons_self
          rw [MetaTypeElement.name] at first
          rw [plainly plain, trimNuls_encodeName first, plainlyRest (fun element member =>
            trimmed element (List.mem_cons_of_mem _ member)) plainBelow]
        · intro beyond
          have rest := refusedRest fun ⟨shallow, cappedBelow⟩ =>
            beyond ⟨by rw [depthBelow]; omega, first.2, cappedBelow⟩
          exact element.then_refuses (rest.behind _)
      · constructor
        · rintro ⟨shallow, capped, cappedBelow⟩
          rw [depthBelow] at shallow
          exact absurd ⟨by omega, capped⟩ first
        · intro _
          exact (refuses_element (refused first) fits).first _ _

end

/-! ## What the reader accepts -/

theorem numElementsToRead_ok_iff {metaType : MetaType} {count : UInt32} {elements : Nat}
    (taken : numElementsToRead metaType count = .ok elements) :
    elements = wireElements metaType count ∧
      (metaType = .object → count ≤ maxMetaTypeElements) := by
  by_cases capped : metaType = .object → count ≤ maxMetaTypeElements
  · rw [numElementsToRead_ok capped] at taken
    exact ⟨(Except.ok.inj taken).symm, capped⟩
  · rw [numElementsToRead_error capped] at taken
    cases taken

theorem orFail_ok_iff {Value : Type} {result : Except Error Value} {f f' : FileReader}
    {value : Value} : orFail result f = (.ok value, f') ↔ result = .ok value ∧ f' = f := by
  cases result with
  | error e => simp [orFail, fail]
  | ok value' => rw [orFail, pure_ok_iff, Except.ok.injEq, eq_comm (a := value)]

theorem readElements_accepted {P : MetaTypeDefinition → Prop} (levels : Nat)
    {definition : Reading MetaTypeDefinition}
    (accepted : ∀ f d f', definition f = (.ok d, f') → d.Everywhere P ∧ d.depth + 1 ≤ levels)
    {count : Nat} {f f' : FileReader} {elements : List MetaTypeElement}
    (read : readElements definition count f = (.ok elements, f')) :
    elements.length = count ∧ EverywhereBelow P elements ∧ depthBelow elements ≤ levels := by
  induction count generalizing f elements with
  | zero =>
      obtain ⟨rfl, -⟩ := pure_ok_iff.mp read
      exact ⟨rfl, trivial, Nat.zero_le _⟩
  | succ count ih =>
      simp only [readElements, readElement, bind_ok_iff, pure_ok_iff] at read
      obtain ⟨element, f₁, ⟨nameBytes, f₂, -, flags, f₃, -, d, f₄, inner, rfl, rfl⟩, rest, f₅,
        more, rfl, rfl⟩ := read
      obtain ⟨holds, levels⟩ := accepted _ _ _ inner
      obtain ⟨length, holdsRest, levelsRest⟩ := ih more
      exact ⟨congrArg (· + 1) length, ⟨holds, holdsRest⟩, Nat.max_le.mpr ⟨levels, levelsRest⟩⟩

/-- A definition that the reader accepts is checked all through and not too deep. -/
theorem accepted_checked {depth : Nat} {f f' : FileReader} {definition : MetaTypeDefinition}
    (read : readMetaTypeDefinitionAtDepth depth f = (.ok definition, f')) :
    definition.Everywhere Checked ∧ depth + definition.depth ≤ maxMetaTypeDepth := by
  rw [readMetaTypeDefinitionAtDepth] at read
  split at read
  · exact absurd read fail_ok_iff.mp
  · rename_i shallow
    simp only [bind_ok_iff, pure_ok_iff, orFail_ok_iff] at read
    obtain ⟨id, f₁, -, typeByte, f₂, -, metaType, f₃, ⟨-, rfl⟩, flagsRaw, f₄, -, count, f₅, -,
      numElements, f₆, ⟨taken, rfl⟩, elements, f₇, inner, rfl, rfl⟩ := read
    obtain ⟨rfl, capped⟩ := numElementsToRead_ok_iff taken
    obtain ⟨counted, below, levels⟩ := readElements_accepted (maxMetaTypeDepth - depth)
      (fun f d f' inner => by
        obtain ⟨holds, deep⟩ := accepted_checked inner
        exact ⟨holds, by omega⟩) inner
    have flagged : (MetaTypeFlags.fromBitsTruncate flagsRaw).Defined := by
      rw [MetaTypeFlags.Defined, MetaTypeFlags.fromBitsTruncate, UInt32.and_assoc,
        UInt32.and_self]
    constructor
    · rw [MetaTypeDefinition.Everywhere]
      exact ⟨⟨counted, capped, flagged⟩, below⟩
    · rw [MetaTypeDefinition.depth]
      omega
termination_by maxMetaTypeDepth + 1 - depth

/-- Metadata type definitions round trip.  A tree inside the caps that its bytes tell all
about is read as it was written, up to exactly where it ends; every reading ends, and what
it accepts is inside the caps; a tree outside them is refused. -/
theorem metaTypeDefinition_roundTrip :
    (∀ definition : MetaTypeDefinition, definition.Everywhere LaidOut →
      definition.Everywhere Plain → definition.depth ≤ maxMetaTypeDepth →
      definition.Everywhere Capped →
      ∀ (f : FileReader) rest, f.remaining = definition.encode ++ rest →
        ∃ f', readMetaTypeDefinitionAtDepth 0 f = (.ok definition, f') ∧ f'.bytes = f.bytes ∧
          f'.position = f.position + definition.encode.length) ∧
    (∀ f : FileReader, (∃ e f', readMetaTypeDefinitionAtDepth 0 f = (.error e, f')) ∨
      ∃ definition f', readMetaTypeDefinitionAtDepth 0 f = (.ok definition, f') ∧
        definition.depth ≤ maxMetaTypeDepth ∧ definition.Everywhere Checked) ∧
    ∀ definition : MetaTypeDefinition, definition.Everywhere LaidOut →
      (maxMetaTypeDepth < definition.depth ∨ ¬definition.Everywhere Capped) →
      ∀ (f : FileReader) rest, f.remaining = definition.encode ++ rest →
        ∃ e f', readMetaTypeDefinitionAtDepth 0 f = (.error e, f') := by
  refine ⟨?_, ?_, ?_⟩
  · intro definition laid plain shallow capped
    have inside : 0 + definition.depth ≤ maxMetaTypeDepth := by omega
    obtain ⟨read, reads, plainly⟩ := (reads_definition definition 0 laid).1 ⟨inside, capped⟩
    rw [plainly plain] at reads
    exact reads
  · intro f
    cases ended : readMetaTypeDefinitionAtDepth 0 f with
    | mk result f' =>
        cases result with
        | error e => exact Or.inl ⟨e, f', rfl⟩
        | ok definition =>
            obtain ⟨checked, shallow⟩ := accepted_checked ended
            exact Or.inr ⟨definition, f', rfl, by omega, checked⟩
  · intro definition laid beyond
    apply (reads_definition definition 0 laid).2
    rintro ⟨shallow, capped⟩
    cases beyond with
    | inl deep => omega
    | inr fields => exact fields capped

/-- A vector of seven signed integers whose element has a name that is not ASCII, and a byte
that belongs to something else. -/
theorem metaTypeDefinition_roundTrip_vector :
    let definition := MetaTypeDefinition.mk 1 .vector ⟨0x20⟩ 7
      [.mk "Höhe" 3 (.mk 2 .integer ⟨0x12⟩ 0 [])]
    ∃ f', readMetaTypeDefinitionAtDepth 0 ⟨definition.encode ++ [9], 0, []⟩ =
        (.ok definition, f') ∧
      f'.bytes = definition.encode ++ [9] ∧ f'.position = 0 + definition.encode.length := by
  intro definition
  have laid : definition.Everywhere LaidOut := by
    simp only [definition, Everywhere, EverywhereBelow, LaidOut, Counted, Named, and_true]
    decide
  have plain : definition.Everywhere Plain := by
    simp only [definition, Everywhere, EverywhereBelow, Plain, Flagged, Trimmed,
      MetaTypeFlags.Defined, and_true]
    decide
  have capped : definition.Everywhere Capped := by
    simp only [definition, Everywhere, EverywhereBelow, Capped, and_true]
    decide
  exact metaTypeDefinition_roundTrip.1 definition laid plain (by decide) capped
    ⟨definition.encode ++ [9], 0, []⟩ [9] rfl

end MdttChunk

end SdrAaronia
