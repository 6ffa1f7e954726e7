import Mathlib.Data.List.AList
import SdrAaronia.FileSource.Locate

/-! # Chains of linked chunks

Sub-streams, antennas and metadata types stand in chains: every chunk tells where the
one before it is.  A chain ends where no chunk of its kind can be read or where it was
before.
-/

namespace SdrAaronia

open HttpStreaming Reading

/-- `HashMap`: a value for each key, in no order that a reader may rely on. -/
abbrev Table (Key Value : Type) := AList fun _ : Key => Value

/-- Of values under one key the last is kept. -/
theorem lookup_insertAll {Key Value : Type} [DecidableEq Key] (key : Value → Key)
    (values : List (Nat × Value)) (table : Table Key Value) (k : Key) :
    (values.foldl (fun t value => t.insert (key value.2) value.2) table).lookup k =
      ((values.map Prod.snd).reverse.find? fun value => key value == k).or (table.lookup k) := by
  induction values generalizing table with
  | nil => rfl
  | cons value values ih =>
      rw [List.foldl_cons, ih, List.map_cons, List.reverse_cons, List.find?_append, Option.or_assoc]
      congr 1
      by_cases same : key value.2 = k
      · subst same
        simp
      · have other : (key value.2 == k) = false := beq_eq_false_iff_ne.mpr same
        rw [AList.lookup_insert_ne (Ne.symm same)]
        simp [other]

/-- Chunks that are linked to each other. -/
structure ChunkKind (Chunk : Type) where
  name : String
  readFrom : UInt32 → Reading Chunk
  /-- Where the chain goes on, zero for nowhere. -/
  next : Chunk → Nat
  steady : ∀ size, Steady (readFrom size)

namespace ChunkKind

variable {Chunk Collected : Type} (kind : ChunkKind Chunk)
  (insert : Collected → Nat → Chunk → Collected)

/-- Whatever fails here ends the chain, and no error of it is kept. -/
def endOfChain : Error := .fileFormat 0 "treating as end of chain"

def readAt (offset : Nat) : Reading Chunk := do
  seekStart offset
  let header ← RtsaChunkHeader.readFrom
  if header.id = chunkId kind.name then kind.readFrom header.size else fail endOfChain

/-- The loop, unless more rounds are needed. -/
def loop : Nat → List Nat → Nat → Collected → FileReader → Option (Collected × FileReader)
  | 0, _, _, _, _ => none
  | rounds + 1, visited, chainOffset, collected, reader =>
      if 0 < chainOffset ∧ chainOffset ∉ visited then
        match kind.readAt chainOffset reader with
        | (.error _, reader) => some (collected, reader)
        | (.ok chunk, reader) =>
            loop rounds (chainOffset :: visited) (kind.next chunk)
              (insert collected chainOffset chunk) reader
      else some (collected, reader)

/-! ## The chain of a file -/

/-- The chunk at a place. -/
def chunkAt (bytes : Bytes) (offset : Nat) : Option Chunk :=
  SdrAaronia.chunkAt kind.name kind.readFrom bytes offset

/-- Where the chain goes on from a place that has a chunk of its kind. -/
def step (bytes : Bytes) (offset : Nat) : Option Nat :=
  if 0 < offset then (kind.chunkAt bytes offset).map kind.next else none

variable {kind insert} {bytes : Bytes} {f f' : FileReader}

theorem chunkAt_inside {offset : Nat} {chunk : Chunk}
    (found : kind.chunkAt bytes offset = some chunk) :
    offset + 16 ≤ bytes.length := by
  obtain ⟨header, headed, -⟩ := Option.bind_eq_some_iff.mp found
  exact (SampScan.headerAt_size headed).1

theorem step_some {offset next : Nat} (steps : kind.step bytes offset = some next) :
    0 < offset ∧ ∃ chunk, kind.chunkAt bytes offset = some chunk ∧ kind.next chunk = next := by
  obtain ⟨positive, mapped⟩ := Option.ite_none_right_eq_some.mp steps
  exact ⟨positive, Option.map_eq_some_iff.mp mapped⟩

theorem step_within {offset next : Nat} (steps : kind.step bytes offset = some next) :
    offset ∈ List.range bytes.length := by
  obtain ⟨-, chunk, found, -⟩ := step_some steps
  have inside := chunkAt_inside found
  exact List.mem_range.mpr (by omega)

variable (kind) in
theorem follows (bytes : Bytes) (offset : Nat) :
    ∃ trail, Trail.follow (kind.step bytes) (bytes.length + 1) [] offset = some trail :=
  Trail.follow_ends (fun _ _ => step_within) List.nodup_nil
    (fun _ member => absurd member List.not_mem_nil)
    (by rw [List.length_range, List.length_nil]; exact Nat.lt_succ_self _) offset

variable (kind) in
/-- The places of the chain, in the order in which it passes them. -/
def trail (bytes : Bytes) (offset : Nat) : List Nat :=
  (Trail.follow (kind.step bytes) (bytes.length + 1) [] offset).getD []

variable (kind) in
/-- The chunks at places of a file. -/
def placed (bytes : Bytes) (places : List Nat) : List (Nat × Chunk) :=
  places.filterMap fun place => (kind.chunkAt bytes place).map (place, ·)

variable (kind) in
/-- The chunks of the chain and where they are. -/
def chunksFrom (bytes : Bytes) (offset : Nat) : List (Nat × Chunk) :=
  kind.placed bytes (kind.trail bytes offset)

theorem follow_trail (offset : Nat) :
    Trail.follow (kind.step bytes) (bytes.length + 1) [] offset =
      some (kind.trail bytes offset) := by
  obtain ⟨trail, followed⟩ := kind.follows bytes offset
  rw [ChunkKind.trail, followed]
  rfl

/-! ## The loop follows it -/

variable (kind) in
theorem finds_readAt (short : bytes.length < 2 ^ 63) (same : f.bytes = bytes) (offset : Nat) :
    (kind.readAt offset).Finds f (kind.chunkAt bytes offset) :=
  finds_chunkAt kind.steady (fun _ => finds_fail endOfChain) short same offset

variable (kind) in
theorem keeps_readAt (offset : Nat) : Keeps (kind.readAt offset) := by
  refine (keeps_seekStart offset).bind fun _ => keeps_readHeader.bind fun header => ?_
  split
  · exact (kind.steady header.size).keeps
  · exact keeps_fail _

theorem readAt_inside {offset : Nat} {chunk : Chunk}
    (read : kind.readAt offset f = (.ok chunk, f')) : offset + 16 ≤ f.bytes.length := by
  obtain ⟨u, f₁, sought, rest⟩ := bind_ok_iff.mp read
  obtain ⟨-, rfl⟩ := seekStart_ok_iff.mp sought
  obtain ⟨header, f₂, headed, -⟩ := bind_ok_iff.mp rest
  exact (SampScan.headerAt_size (readHeader_ok_iff.mp headed).1).1

theorem loop_isSome {rounds : Nat} {visited : List Nat} (once : visited.Nodup)
    (inside : ∀ place ∈ visited, place ∈ List.range f.bytes.length)
    (enough : f.bytes.length < rounds + visited.length) (offset : Nat) (collected : Collected) :
    (kind.loop insert rounds visited offset collected f).isSome = true := by
  induction rounds generalizing visited offset collected f with
  | zero =>
      have few := (List.subperm_of_subset once inside).length_le
      rw [List.length_range] at few
      omega
  | succ rounds ih =>
      rw [loop]
      split
      · rename_i fresh
        cases read : kind.readAt offset f with
        | mk result f' =>
            cases result with
            | error e => rfl
            | ok chunk =>
                have kept := keeps_readAt kind offset f
                rw [read] at kept
                simp only at kept
                have within := readAt_inside read
                apply ih (List.nodup_cons.mpr ⟨fresh.2, once⟩)
                · intro place member
                  rw [kept]
                  cases List.mem_cons.mp member with
                  | inl same => exact List.mem_range.mpr (by omega)
                  | inr member => exact inside place member
                · rw [kept, List.length_cons]
                  omega
      · rfl

variable (kind insert) in
/-- The rounds that are enough for a file: no place is visited twice. -/
theorem loop_ends (offset : Nat) (collected : Collected) (f : FileReader) :
    (kind.loop insert (f.bytes.length + 1) [] offset collected f).isSome = true :=
  loop_isSome List.nodup_nil (fun _ member => absurd member List.not_mem_nil)
    (by rw [List.length_nil]; exact Nat.lt_succ_self _) offset collected

variable (kind insert) in
def parseChain (offset : Nat) (collected : Collected) : Reading Collected := fun f =>
  let ended := (kind.loop insert (f.bytes.length + 1) [] offset collected f).get
    (kind.loop_ends insert offset collected f)
  (.ok ended.1, ended.2)

theorem loop_follow {rounds offset : Nat} {visited trail : List Nat} {collected : Collected}
    (short : bytes.length < 2 ^ 63) (same : f.bytes = bytes)
    (followed : Trail.follow (kind.step bytes) rounds visited offset = some trail) :
    ∃ reader, kind.loop insert rounds visited offset collected f =
        some ((kind.placed bytes trail).foldl (fun c chunk => insert c chunk.1 chunk.2) collected,
          reader) ∧
      reader.bytes = bytes := by
  induction rounds generalizing visited offset trail collected f with
  | zero => cases followed
  | succ rounds ih =>
      have found := finds_readAt kind short same offset
      have value := found.value
      have kept := found.bytes.trans same
      rw [Trail.follow] at followed
      rw [loop]
      split at followed
      · rename_i old
        cases followed
        rw [if_neg fun fresh => fresh.2 old]
        exact ⟨f, rfl, same⟩
      · rename_i fresh
        cases steps : kind.step bytes offset with
        | none =>
            rw [steps] at followed
            cases followed
            by_cases positive : 0 < offset
            · rw [step, if_pos positive, Option.map_eq_none_iff] at steps
              rw [if_pos ⟨positive, fresh⟩]
              cases read : kind.readAt offset f with
              | mk result f' =>
                  rw [read] at value kept
                  cases result with
                  | error e => exact ⟨f', rfl, kept⟩
                  | ok chunk =>
                      rw [steps] at value
                      cases value
            · rw [if_neg fun more => positive more.1]
              exact ⟨f, rfl, same⟩
        | some next =>
            rw [steps] at followed
            obtain ⟨rest, onward, rfl⟩ := Option.map_eq_some_iff.mp followed
            obtain ⟨positive, chunk, held, rfl⟩ := step_some steps
            rw [if_pos ⟨positive, fresh⟩]
            cases read : kind.readAt offset f with
            | mk result f' =>
                rw [read, held] at value
                rw [read] at kept
                cases result with
                | error e => cases value
                | ok chunk' =>
                    cases value
                    obtain ⟨reader, looped, kept'⟩ :=
                      @ih f' (kind.next chunk) (offset :: visited) rest
                        (insert collected offset chunk) kept onward
                    refine ⟨reader, ?_, kept'⟩
                    simp only [looped, placed, List.filterMap_cons, held, Option.map_some,
                      List.foldl_cons]

/-- The parser collects the chunks of the chain. -/
theorem finds_parseChain (short : bytes.length < 2 ^ 63) (same : f.bytes = bytes) (offset : Nat)
    (collected : Collected) :
    (kind.parseChain insert offset collected).Finds f
      (some ((kind.chunksFrom bytes offset).foldl (fun c chunk => insert c chunk.1 chunk.2)
        collected)) := by
  subst same
  obtain ⟨reader, looped, kept⟩ := loop_follow short rfl (follow_trail offset)
  have ended : (kind.loop insert (f.bytes.length + 1) [] offset collected f).get
      (kind.loop_ends insert offset collected f) = (_, reader) := Option.get_of_eq_some _ looped
  refine ⟨?_, ?_⟩
  · rw [parseChain, ended]
    rfl
  · rw [parseChain, ended]
    exact kept

end ChunkKind

/-! ## The chains of a capture -/

def sstrKind : ChunkKind SstrChunk where
  name := "SSTR"
  readFrom := SstrChunk.readFrom
  next := fun sstr => sstr.subStreamOffset.toNat
  steady := steady_readSstr

def antaKind : ChunkKind AntaChunk where
  name := "ANTA"
  readFrom := AntaChunk.readFrom
  next := fun anta => anta.antennaOffset.toNat
  steady := steady_readAnta

def mdttKind : ChunkKind MdttChunk where
  name := "MDTT"
  readFrom := MdttChunk.readFrom
  next := fun mdtt => mdtt.metadataOffset.toNat
  steady := steady_readMdtt

theorem steady_readSprv (size : UInt32) : Steady (SprvChunk.readFrom size) := by
  refine steady_u8.bind fun _ => steady_u8.bind fun _ => (steady_seekCurrent _).bind fun _ =>
    (steady_times steady_i64 16).bind fun _ => (steady_times steady_u64 16).bind fun _ =>
      (steady_times steady_u64 16).bind fun _ => ?_
  split
  · exact (steady_seekCurrent _).bind fun _ => steady_pure _
  · exact steady_pure _

def sprvKind : ChunkKind SprvChunk where
  name := "SPRV"
  readFrom := SprvChunk.readFrom
  next := SprvChunk.treeOffset
  steady := steady_readSprv

def insertSstr (chunks : Table UInt32 SstrChunk) (_offset : Nat) (sstr : SstrChunk) :
    Table UInt32 SstrChunk := chunks.insert sstr.subStreamId sstr

def insertAnta (chunks : Table UInt64 AntaChunk) (_offset : Nat) (anta : AntaChunk) :
    Table UInt64 AntaChunk := chunks.insert anta.antennaId anta

def insertMdtt (chunks : Table UInt64 MdttChunk) (_offset : Nat) (mdtt : MdttChunk) :
    Table UInt64 MdttChunk := chunks.insert mdtt.metadataId mdtt

def pushSprv (chunks : List (Nat × SprvChunk)) (offset : Nat) (sprv : SprvChunk) :
    List (Nat × SprvChunk) := chunks ++ [(offset, sprv)]

def parseSstrChain : Nat → Table UInt32 SstrChunk → Reading (Table UInt32 SstrChunk) :=
  sstrKind.parseChain insertSstr

def parseAntaChain : Nat → Table UInt64 AntaChunk → Reading (Table UInt64 AntaChunk) :=
  antaKind.parseChain insertAnta

def parseMdttChain : Nat → Table UInt64 MdttChunk → Reading (Table UInt64 MdttChunk) :=
  mdttKind.parseChain insertMdtt

/-- The preview tree is parsed as such a chain. -/
theorem sprvScan_loop (rounds : Nat) (visited : List Nat) (offset : Nat) (s : SprvScan) :
    s.loop rounds visited offset =
      (sprvKind.loop pushSprv rounds visited offset s.sprvChunks s.reader).map
        fun ended => ⟨ended.2, ended.1⟩ := by
  induction rounds generalizing visited offset s with
  | zero => rfl
  | succ rounds ih =>
      rw [SprvScan.loop, ChunkKind.loop]
      split
      · rw [ChunkKind.readAt, bind_apply]
        cases seekStart offset s.reader with
        | mk result reader =>
            cases result with
            | error e => rfl
            | ok u =>
                simp only [bind_apply]
                cases RtsaChunkHeader.readFrom reader with
                | mk result reader =>
                    cases result with
                    | error e => rfl
                    | ok header =>
                        simp only
                        by_cases named : header.id = chunkId "SPRV"
                        · have named' : header.id = chunkId sprvKind.name := named
                          rw [if_neg (not_not.mpr named), if_pos named']
                          have body : sprvKind.readFrom header.size reader =
                              SprvChunk.readFrom header.size reader := rfl
                          rw [body]
                          cases SprvChunk.readFrom header.size reader with
                          | mk result reader =>
                              cases result with
                              | error e => rfl
                              | ok sprv => exact ih _ _ _
                        · have named' : ¬header.id = chunkId sprvKind.name := named
                          rw [if_pos named, if_neg named']
                          rfl
      · rfl

theorem parseSprvTree_isSome (offset : Nat) (s : SprvScan) :
    (parseSprvTree offset s).isSome = true := by
  rw [parseSprvTree, sprvScan_loop, Option.isSome_map]
  exact sprvKind.loop_ends pushSprv offset s.sprvChunks s.reader

def readSprvTree (offset : Nat) (chunks : List (Nat × SprvChunk)) :
    Reading (List (Nat × SprvChunk)) := fun f =>
  let ended := (parseSprvTree offset ⟨f, chunks⟩).get (parseSprvTree_isSome offset ⟨f, chunks⟩)
  (.ok ended.sprvChunks, ended.reader)

theorem readSprvTree_eq (offset : Nat) (chunks : List (Nat × SprvChunk)) :
    readSprvTree offset chunks = sprvKind.parseChain pushSprv offset chunks := by
  funext f
  have parsed := sprvScan_loop (f.bytes.length + 1) [] offset ⟨f, chunks⟩
  simp only [readSprvTree, parseSprvTree, parsed, Option.get_map]
  rfl

end SdrAaronia
