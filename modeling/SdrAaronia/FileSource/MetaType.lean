import Mathlib.Data.List.DropRight
import SdrAaronia.FileSource.ChunkScan
import SdrAaronia.FileSource.Written

/-! # Metadata types

A chunk can hold the definition of a structured type: a tree whose objects have
named fields and whose arrays and vectors have one element definition.
-/

namespace SdrAaronia

open HttpStreaming Reading

/-- The base types for structured data. -/
inductive MetaType where
  | none
  | bool
  | integer
  | float
  | string
  /-- Fixed-size array. -/
  | vector
  /-- Variable-size array. -/
  | array
  /-- Structure with named child elements. -/
  | object
  deriving DecidableEq, Repr

namespace MetaType

def all : List MetaType := [none, bool, integer, float, string, vector, array, object]

def toByte : MetaType → UInt8
  | none => 0
  | bool => 1
  | integer => 2
  | float => 3
  | string => 4
  | vector => 5
  | array => 6
  | object => 7

def tryFrom (value : UInt8) : Except Error MetaType :=
  match value with
  | 0 => .ok none
  | 1 => .ok bool
  | 2 => .ok integer
  | 3 => .ok float
  | 4 => .ok string
  | 5 => .ok vector
  | 6 => .ok array
  | 7 => .ok object
  | _ => .error (.fileFormat 0 s!"Invalid MetaType value: {value}")

theorem tryFrom_toByte (metaType : MetaType) : tryFrom metaType.toByte = .ok metaType := by
  cases metaType <;> rfl

end MetaType

/-- Flags of a type definition. -/
structure MetaTypeFlags where
  bits : UInt32
  deriving DecidableEq, Repr

namespace MetaTypeFlags

/-- 8, 16, 32 and 64 bits, signed, recursive. -/
def all : UInt32 := 0x01 ||| 0x02 ||| 0x04 ||| 0x08 ||| 0x10 ||| 0x20

def fromBitsTruncate (bits : UInt32) : MetaTypeFlags := ⟨bits &&& all⟩

/-- No bit outside the defined ones. -/
def Defined (flags : MetaTypeFlags) : Prop := flags.bits &&& all = flags.bits

end MetaTypeFlags

mutual

/-- A single element of a definition, such as a field of an object. -/
inductive MetaTypeElement where
  | mk (name : String) (flags : UInt32) (definition : MetaTypeDefinition)

/-- The full definition of a structured type. -/
inductive MetaTypeDefinition where
  | mk (id : UInt64) (metaType : MetaType) (flags : MetaTypeFlags) (count : UInt32)
      (elements : List MetaTypeElement)

end

/-! ## The reader -/

namespace MdttChunk

/-- Real definitions are a handful of levels deep. -/
def maxMetaTypeDepth : Nat := 32

def maxMetaTypeElements : UInt32 := 4096

def maxMdttPayload : Int := 16 * 1024 * 1024

def tooDeep : Error :=
  .fileFormat 0 (s!"MDTT type definition exceeds maximum nesting depth {maxMetaTypeDepth} " ++
    "(corrupt or malicious file)")

def tooManyFields (count : UInt32) : Error :=
  .fileFormat 0 (s!"MDTT object declares {count} fields, exceeding the {maxMetaTypeElements} cap " ++
    "(corrupt or malicious file)")

def payloadTooLarge (payloadSize : Int) : Error :=
  .fileFormat 0 (s!"MDTT chunk declares a {payloadSize} byte type-definition payload, exceeding " ++
    s!"the {maxMdttPayload} cap (corrupt or malicious file)")

/-- `trim_end_matches('\0')`. -/
def trimNuls (text : String) : String := String.ofList (text.toList.rdropWhile (· == '\x00'))

def readElement (definition : Reading MetaTypeDefinition) : Reading MetaTypeElement := do
  let nameBytes ← exact 128
  let elementFlags ← u32
  let elementDefinition ← definition
  return .mk (trimNuls (Utf8.fromUtf8Lossy nameBytes)) elementFlags elementDefinition

def readElements (definition : Reading MetaTypeDefinition) : Nat → Reading (List MetaTypeElement)
  | 0 => pure []
  | remaining + 1 => do
      let element ← readElement definition
      let elements ← readElements definition remaining
      return element :: elements

/-- How many elements follow, or why there are too many. -/
def numElementsToRead (metaType : MetaType) (count : UInt32) : Except Error Nat :=
  match metaType with
  | .object => if maxMetaTypeElements < count then .error (tooManyFields count) else .ok count.toNat
  | .array | .vector => .ok 1
  | _ => .ok 0

def orFail {Value : Type} : Except Error Value → Reading Value
  | .ok value => pure value
  | .error e => fail e

def readMetaTypeDefinitionAtDepth (depth : Nat) : Reading MetaTypeDefinition :=
  if maxMetaTypeDepth < depth then fail tooDeep
  else do
    let id ← u64
    let metaTypeByte ← u8
    let metaType ← orFail (MetaType.tryFrom metaTypeByte)
    let flagsRaw ← u32
    let count ← u32
    let numElements ← orFail (numElementsToRead metaType count)
    let elements ← readElements (readMetaTypeDefinitionAtDepth (depth + 1)) numElements
    return .mk id metaType (MetaTypeFlags.fromBitsTruncate flagsRaw) count elements
termination_by maxMetaTypeDepth + 1 - depth

def readMetaTypeDefinition : Reading MetaTypeDefinition := readMetaTypeDefinitionAtDepth 0

end MdttChunk

/-- A chunk of metadata type. -/
structure MdttChunk where
  header : RtsaChunkHeader
  metadataId : UInt64
  metadataOffset : Int
  definition : Option MetaTypeDefinition

namespace MdttChunk

/-- A reader of its own over bytes in memory. -/
def cursor (bytes : Bytes) : FileReader := ⟨bytes, 0, []⟩

def readFrom (size : UInt32) : Reading MdttChunk := do
  let metadataId ← u64
  let metadataOffset ← i64
  let payloadSize : Int := (size.toNat : Int) - 16 - 16
  if maxMdttPayload < payloadSize then fail (payloadTooLarge payloadSize)
  else if 0 < payloadSize then do
    let payloadBuffer ← exact payloadSize.toNat
    let definition ← orFail (readMetaTypeDefinition (cursor payloadBuffer)).1
    return ⟨⟨chunkId "MDTT", size, 0, 1, 16⟩, metadataId, metadataOffset, some definition⟩
  else return ⟨⟨chunkId "MDTT", size, 0, 1, 16⟩, metadataId, metadataOffset, none⟩

end MdttChunk

end SdrAaronia
