import Mathlib.Order.Nat
import SdrAaronia.FileSource.Layout
import SdrAaronia.FileSource.Opened

/-! # What a capture file is

The places of a file's chunks, and of the chunks these lead to, as the bytes alone tell
them: first and last places of an id in a part of the file, links at fixed offsets, and
the walk over the chunks in between.  The parser finds exactly this.
-/

namespace SdrAaronia

open HttpStreaming Reading

variable {Chunk Key : Type}

section Places

variable (bytes : Bytes)

/-- The places where a chunk's id stands between two places. -/
def idsBetween (name : String) (low high : Nat) : Set Nat :=
  {place | low ≤ place ∧ place + 4 ≤ high ∧ place + 4 ≤ bytes.length ∧
    window bytes place 4 = chunkId name}

/-- The size that a header at the place tells. -/
def sizeAt (place : Nat) : Nat := numberAt bytes (place + 4) 4

/-- The least place of the first set that has any. -/
inductive FirstOf : List (Set Nat) → Nat → Prop where
  | here {places : Set Nat} {later : List (Set Nat)} {place : Nat} (least : IsLeast places place) :
      FirstOf (places :: later) place
  | later {places : Set Nat} {later : List (Set Nat)} {place : Nat} (nowhere : places = ∅)
      (found : FirstOf later place) : FirstOf (places :: later) place

/-- Where the file's head is looked for: near the stream area, if it is small there, at the
file's start, around the stream area, and in stretches of 9999997 bytes that start in the part
of the file twice as long as what is in front of the stream area. -/
def headSearches (area : Nat) : List (Set Nat) :=
  [{place | IsLeast (idsBetween bytes "DSFH" (area - 1024) (area - 1024 + 4096)) place ∧
      place + 8 ≤ area - 1024 + 4096 ∧ place + 8 ≤ bytes.length ∧ sizeAt bytes place < 1000},
    idsBetween bytes "DSFH" 0 (min 1000000 (2 * area)),
    idsBetween bytes "DSFH" (area - 1024) (min (area + 1000000) (2 * area)),
    {place | place ∈ idsBetween bytes "DSFH" 0 bytes.length ∧
      place / 9999997 * 9999997 < 2 * area}]

/-! ## The chunks -/

/-- The file's tail is the last one in its last 1024 bytes. -/
def TailAt (dsft : DsftChunk) : Prop :=
  ∃ place, IsGreatest (idsBetween bytes "DSFT" (bytes.length - 1024) bytes.length) place ∧
    namedAt bytes "DSFT" (dsftFields bytes) place = some dsft

def HeadAt (area : Nat) (dsfh : DsfhChunk) : Prop :=
  ∃ place, FirstOf (headSearches bytes area) place ∧
    namedAt bytes "DSFH" (dsfhFields bytes) place = some dsfh

/-- The stream's tail is the first one near the stream area. -/
def StreamTailAt (area : Nat) (strt : StrtChunk) : Prop :=
  ∃ place, IsLeast (idsBetween bytes "STRT" (area - 1024) (area - 1024 + 4096)) place ∧
    namedAt bytes "STRT" (strtFields bytes) place = some strt

/-- A stream's head near the stream area, of a size that it may have. -/
def StreamNear (area : Nat) (strm : StrmChunk) : Prop :=
  ∃ place, IsLeast (idsBetween bytes "STRM" (area - 4096) (area - 4096 + 8192)) place ∧
    place + 8 ≤ area - 4096 + 8192 ∧ 20 ≤ sizeAt bytes place ∧ sizeAt bytes place < 1000 ∧
    namedAt bytes "STRM" (strmFields bytes) place = some strm

/-- The stream whose head is at the place, none if another chunk is there. -/
inductive StreamAt (place : Nat) : Option StrmChunk → Prop where
  | strm {strm : StrmChunk} (found : namedAt bytes "STRM" (strmFields bytes) place = some strm) :
      StreamAt place (some strm)
  | other {header : RtsaChunkHeader} (headed : headerAt bytes place = some header)
      (foreign : header.id ≠ chunkId "STRM") : StreamAt place none

/-! ## Chains -/

/-- A place above zero with a chunk leads on to where the chunk's link points. -/
def linkStep (chunkAt : Nat → Option Chunk) (link : Nat → Nat) (place : Nat) : Option Nat :=
  if 0 < place then (chunkAt place).map fun _ => link place else none

/-- The chunks that links lead to from a place, up to where there is none or one was before. -/
structure Chained (chunkAt : Nat → Option Chunk) (link : Nat → Nat) (start : Nat)
    (chunks : List (Nat × Chunk)) : Prop where
  passes : Trail.Passes (linkStep chunkAt link) [] start (chunks.map Prod.fst)
  held : ∀ chunk ∈ chunks, chunkAt chunk.1 = some chunk.2

def sstrAt : Nat → Option SstrChunk := namedAt bytes "SSTR" (sstrFields bytes)

def antaAt : Nat → Option AntaChunk := namedAt bytes "ANTA" (antaFields bytes)

def mdttAt : Nat → Option MdttChunk := namedAt bytes "MDTT" (mdttFields bytes)

def previewAt : Nat → Option SprvChunk := namedAt bytes "SPRV" (previewFields bytes)

/-- A link of eight bytes at an offset from the chunk's start; a negative one leads nowhere. -/
def linkAt (offset place : Nat) : Nat := (i64At bytes (place + offset)).toNat

/-- The first of a preview chunk's sixteen links that leads anywhere. -/
def previewLink (place : Nat) : Nat :=
  (((List.range 16).map fun i => i64At bytes (place + 24 + 8 * i)).find? (0 < ·)).getD 0 |>.toNat

/-- Chunks under their keys; of those with one key the last is kept. -/
def tableOf [DecidableEq Key] (key : Chunk → Key) (chunks : List Chunk) : Table Key Chunk :=
  chunks.foldl (fun table chunk => table.insert (key chunk) chunk) ∅

/-- A table of the chunks that links lead to: each place is passed once, and of chunks with one
key the one passed last is kept. -/
def Linked [DecidableEq Key] (chunkAt : Nat → Option Chunk) (link : Nat → Nat) (start : Nat)
    (key : Chunk → Key) (table : Table Key Chunk) : Prop :=
  ∃ chunks : List (Nat × Chunk), (chunks.map Prod.fst).Nodup ∧
    (∀ place, place ∈ chunks.map Prod.fst ↔ Trail.LeadsTo (linkStep chunkAt link) start place) ∧
    (∀ chunk ∈ chunks, chunkAt chunk.1 = some chunk.2) ∧
    ∀ k, table.lookup k = (chunks.map Prod.snd).reverse.find? fun chunk => key chunk == k

/-- The tables are those of the chains that the stream's tail names. -/
structure Tabled (strt : StrtChunk) (state : RtsaParseState) : Prop where
  sstr : Linked (sstrAt bytes) (linkAt bytes 32) strt.subStreamOffset.toNat SstrChunk.subStreamId
    state.sstrChunks
  anta : Linked (antaAt bytes) (linkAt bytes 24) strt.antennaOffset.toNat AntaChunk.antennaId
    state.antaChunks
  mdtt : Linked (mdttAt bytes) (linkAt bytes 24) strt.metadataOffset.toNat MdttChunk.metadataId
    state.mdttChunks

/-! ## The file -/

/-- What the chunks of a stream come to. -/
def RtsaParseState.holding (dsfh : DsfhChunk) (strt : Option StrtChunk) (strm : Option StrmChunk)
    (sstrs : List (Nat × SstrChunk)) (antas : List (Nat × AntaChunk))
    (mdtts : List (Nat × MdttChunk)) (sprvs : List (Nat × SprvChunk))
    (samps : List (Nat × SampChunk)) : RtsaParseState where
  dsfhChunk := some dsfh
  strmChunks := tableOf StrmChunk.streamId strm.toList
  sstrChunks := tableOf SstrChunk.subStreamId (sstrs.map Prod.snd)
  strtChunk := strt
  antaChunks := tableOf AntaChunk.antennaId (antas.map Prod.snd)
  mdttChunks := tableOf MdttChunk.metadataId (mdtts.map Prod.snd)
  sprvChunks := sprvs
  sampChunkOffsets := samps
  iqStreamId := strm.map StrmChunk.streamId

/-- What is found of a file's stream: by its tail, which tells where its head and the chains of
its chunks are, or else by its head near the stream area. -/
inductive Streams (dsfh : DsfhChunk) (area : Nat) : RtsaParseState → Prop where
  | told {strt : StrtChunk} {strm : Option StrmChunk} {sstrs : List (Nat × SstrChunk)}
      {antas : List (Nat × AntaChunk)} {mdtts : List (Nat × MdttChunk)}
      {sprvs : List (Nat × SprvChunk)} {samps : List (Nat × SampChunk)}
      (tail : StreamTailAt bytes area strt) (named : 0 ≤ strt.streamOffset)
      (stream : StreamAt bytes strt.streamOffset.toNat strm)
      (sstr : Chained (sstrAt bytes) (linkAt bytes 32) strt.subStreamOffset.toNat sstrs)
      (anta : Chained (antaAt bytes) (linkAt bytes 24) strt.antennaOffset.toNat antas)
      (mdtt : Chained (mdttAt bytes) (linkAt bytes 24) strt.metadataOffset.toNat mdtts)
      (sprv : Chained (previewAt bytes) (previewLink bytes) strt.previewOffset.toNat sprvs)
      (walked : referenceWalk bytes (min area bytes.length) strt.streamOffset.toNat =
        (true, samps)) :
      Streams dsfh area (.holding dsfh (some strt) strm sstrs antas mdtts sprvs samps)
  | near {strm : StrmChunk} {samps : List (Nat × SampChunk)}
      (untold : ∀ strt, ¬StreamTailAt bytes area strt) (stream : StreamNear bytes area strm)
      (walked : referenceWalk bytes (min (area + 100000000) bytes.length) area = (true, samps)) :
      Streams dsfh area (.holding dsfh none (some strm) [] [] [] [] samps)

/-- A capture file: its tail names a stream area, which leads to its head and its stream.  The
area is told of as raw samples if there are no SAMP chunks. -/
def IsCapture (state : RtsaParseState) (streamOffset : Option Nat) : Prop :=
  ∃ dsft dsfh, TailAt bytes dsft ∧ HeadAt bytes dsft.streamOffset dsfh ∧
    0 < dsft.streamOffset ∧ Streams bytes dsfh dsft.streamOffset state ∧
    streamOffset = if state.sampChunkOffsets = [] then some dsft.streamOffset else none

end Places

/-! ## The searches find these places -/

variable {bytes : Bytes} {name : String} {start width place : Nat}

theorem mem_idsBetween_iff {i : Nat} :
    start + i ∈ idsBetween bytes name start (start + width) ↔
      Search.MatchAt 4 (· == chunkId name) (window bytes start width) i := by
  rw [matchAt_iff]
  constructor
  · rintro ⟨-, within, inside, named⟩
    exact ⟨by omega, inside, named⟩
  · rintro ⟨within, inside, named⟩
    exact ⟨by omega, by omega, inside, named⟩

theorem idIn_window_iff :
    (idIn name (window bytes start width)).map (start + ·) = some place ↔
      IsLeast (idsBetween bytes name start (start + width)) place := by
  rw [Option.map_eq_some_iff]
  constructor
  · rintro ⟨i, found, rfl⟩
    obtain ⟨here, first⟩ := Search.first_some_iff.mp found
    refine ⟨mem_idsBetween_iff.mpr here, fun other member => ?_⟩
    obtain ⟨j, rfl⟩ := Nat.exists_eq_add_of_le member.1
    by_contra before
    have missed := first j (by omega)
    rw [(mem_idsBetween_iff.mp member).matched] at missed
    cases missed
  · rintro ⟨member, least⟩
    obtain ⟨i, rfl⟩ := Nat.exists_eq_add_of_le member.1
    have here := mem_idsBetween_iff.mp member
    refine ⟨i, Search.first_some_iff.mpr ⟨here, fun earlier before => ?_⟩, rfl⟩
    refine Bool.eq_false_iff.mpr fun matched => ?_
    have inside := here.inside
    have further := least (mem_idsBetween_iff.mpr ⟨by omega, matched⟩)
    omega

theorem lastIdIn_window_iff :
    (lastIdIn name (window bytes start width)).map (start + ·) = some place ↔
      IsGreatest (idsBetween bytes name start (start + width)) place := by
  rw [Option.map_eq_some_iff]
  constructor
  · rintro ⟨i, found, rfl⟩
    obtain ⟨here, last⟩ := Search.last_some_iff.mp found
    refine ⟨mem_idsBetween_iff.mpr here, fun other member => ?_⟩
    obtain ⟨j, rfl⟩ := Nat.exists_eq_add_of_le member.1
    by_contra behind
    exact last j (by omega) (mem_idsBetween_iff.mp member)
  · rintro ⟨member, greatest⟩
    obtain ⟨i, rfl⟩ := Nat.exists_eq_add_of_le member.1
    refine ⟨i, Search.last_some_iff.mpr ⟨mem_idsBetween_iff.mp member, fun later behind here => ?_⟩,
      rfl⟩
    have nearer := greatest (mem_idsBetween_iff.mpr here)
    omega

/-- An id that is found first, if its size is in bounds too. -/
theorem sizedIdIn_window_iff {low high : Nat} :
    (sizedIdIn name low high (window bytes start width)).map (start + ·) = some place ↔
      IsLeast (idsBetween bytes name start (start + width)) place ∧
        place + 8 ≤ start + width ∧ place + 8 ≤ bytes.length ∧
        low ≤ sizeAt bytes place ∧ sizeAt bytes place < high := by
  have length : (window bytes start width).length = min width (bytes.length - start) := by
    rw [window, List.length_take, List.length_drop]
  have size : ∀ i, i + 8 ≤ width →
      numberAt (window bytes start width) (i + 4) 4 = sizeAt bytes (start + i) := by
    intro i within
    rw [numberAt, window_window (by omega), sizeAt, numberAt, Nat.add_assoc]
  rw [← idIn_window_iff, sizedIdIn]
  simp only [Option.map_eq_some_iff, Option.filter_eq_some_iff, decide_eq_true_eq, length]
  constructor
  · rintro ⟨i, ⟨found, fits, lower, upper⟩, rfl⟩
    rw [size i (by omega)] at lower upper
    exact ⟨⟨i, found, rfl⟩, by omega, by omega, lower, upper⟩
  · rintro ⟨⟨i, found, rfl⟩, within, inside, lower, upper⟩
    refine ⟨i, ⟨found, by omega, ?_⟩, rfl⟩
    rw [size i (by omega)]
    exact ⟨lower, upper⟩

/-- Where a set has a least place whenever one is told, it is empty if none is. -/
theorem none_iff_empty {told : Option Nat} {places : Set Nat}
    (least : ∀ place, told = some place ↔ IsLeast places place) : told = none ↔ places = ∅ := by
  constructor
  · intro none
    refine Set.eq_empty_of_forall_notMem fun place member => ?_
    classical
    have first := (least _).mpr (Nat.isLeast_find ⟨place, member⟩)
    rw [none] at first
    cases first
  · intro empty
    cases told with
    | none => rfl
    | some place =>
        have member := ((least place).mp rfl).1
        rw [empty] at member
        cases member

theorem or_firstOf {told rest : Option Nat} {places : Set Nat} {later : List (Set Nat)}
    (least : ∀ place, told = some place ↔ IsLeast places place)
    (further : ∀ place, rest = some place ↔ FirstOf later place) (place : Nat) :
    told.or rest = some place ↔ FirstOf (places :: later) place := by
  cases found : told with
  | some here =>
      rw [Option.some_or, ← found, least]
      constructor
      · exact .here
      · intro first
        cases first with
        | here first => exact first
        | later nowhere _ =>
            rw [(none_iff_empty least).mpr nowhere] at found
            cases found
  | none =>
      rw [Option.none_or, further]
      have nowhere := (none_iff_empty least).mp found
      constructor
      · exact .later nowhere
      · intro first
        cases first with
        | here first => exact absurd first.1 (nowhere ▸ Set.notMem_empty place)
        | later _ first => exact first

theorem last_firstOf {told : Option Nat} {places : Set Nat}
    (least : ∀ place, told = some place ↔ IsLeast places place) (place : Nat) :
    told = some place ↔ FirstOf [places] place := by
  rw [least]
  constructor
  · exact .here
  · intro first
    cases first with
    | here first => exact first
    | later _ none => cases none

theorem doubled_eq {area : Nat} (near : area < 2 ^ 63) : doubled area = 2 * area := by
  rw [doubled]
  omega

theorem headAround_iff {area pos : Nat} (close : pos ≤ area) (place : Nat) :
    headAround bytes (2 * area) pos = some place ↔
      IsLeast (idsBetween bytes "DSFH" (pos - 1024) (min (pos + 1000000) (2 * area))) place := by
  have start : searchStart pos = pos - 1024 := saturatingSub_eq pos 1024
  rw [headAround, start, searchEnd]
  split
  · refine iff_of_false (by simp) fun least => ?_
    have within := least.1.2.1
    omega
  · have ends : pos - 1024 + (min (pos + 1000000) (2 * area) - (pos - 1024)) =
        min (pos + 1000000) (2 * area) := by omega
    rw [idIn_window_iff, ends]

/-- A place is in front of where stretches reach if its own starts in front of the distance. -/
theorem lt_reach_iff {stride : Nat} (positive : 0 < stride) (distance : Nat) :
    place < Search.reach stride distance ↔ place / stride * stride < distance := by
  rw [Search.reach, ← Nat.div_lt_iff_lt_mul positive, ← Nat.succ_le_iff,
    Nat.le_div_iff_mul_le positive, Nat.succ_mul]
  omega

theorem headAnywhere_iff (area : Nat) (place : Nat) :
    idIn "DSFH" (window bytes 0 (Search.reach searchStride (2 * area) + 3)) = some place ↔
      IsLeast {place | place ∈ idsBetween bytes "DSFH" 0 bytes.length ∧
        place / 9999997 * 9999997 < 2 * area} place := by
  have found := @idIn_window_iff bytes "DSFH" 0 (Search.reach searchStride (2 * area) + 3) place
  have same : idsBetween bytes "DSFH" 0 (0 + (Search.reach searchStride (2 * area) + 3)) =
      {place | place ∈ idsBetween bytes "DSFH" 0 bytes.length ∧
        place / 9999997 * 9999997 < 2 * area} := by
    ext other
    have reached := @lt_reach_iff other searchStride (by decide) (2 * area)
    rw [searchStride] at reached
    rw [searchStride, Set.mem_ofPred_eq, ← reached]
    constructor
    · rintro ⟨after, within, inside, named⟩
      exact ⟨⟨after, inside, inside, named⟩, by omega⟩
    · rintro ⟨⟨after, -, inside, named⟩, within⟩
      exact ⟨after, by omega, inside, named⟩
  have shift : (0 + · : Nat → Nat) = id := funext Nat.zero_add
  rwa [same, shift, Option.map_id_fun, id_eq] at found

theorem headNear_iff {area : Nat} (near : area < 2 ^ 63) (place : Nat) :
    headNear bytes area = some place ↔ FirstOf (headSearches bytes area) place := by
  have start : searchStart area = area - 1024 := saturatingSub_eq area 1024
  have half : 2 * area / 2 = area := by omega
  rw [headNear, headPlace, doubled_eq near, half, start]
  apply or_firstOf
  · intro place
    rw [sizedIdIn_window_iff]
    constructor
    · rintro ⟨least, within, inside, -, small⟩
      exact ⟨⟨least, within, inside, small⟩, fun other member => (least.unique member.1).le⟩
    · rintro ⟨⟨least, within, inside, small⟩, -⟩
      exact ⟨least, within, inside, Nat.zero_le _, small⟩
  · apply or_firstOf (headAround_iff (Nat.zero_le area))
    apply or_firstOf (headAround_iff (Nat.le_refl area))
    exact last_firstOf (headAnywhere_iff area)

/-! ## The chunks found are these -/

section Found

variable (room : bytes.length + 2 ^ 32 ≤ 2 ^ 63)

include room

theorem tailOf_iff {dsft : DsftChunk} : tailOf bytes = some dsft ↔ TailAt bytes dsft := by
  have start : bytes.length - min 1024 bytes.length = bytes.length - 1024 := by omega
  have ends : bytes.length - 1024 + min 1024 bytes.length = bytes.length := by omega
  rw [tailOf, start, Option.bind_eq_some_iff]
  refine exists_congr fun place => ?_
  rw [lastIdIn_window_iff, ends, chunkAt_eq_namedAt room fun _ => reads_dsft]

theorem streamTailOf_iff {area : Nat} {strt : StrtChunk} :
    streamTailOf bytes area = some strt ↔ StreamTailAt bytes area strt := by
  have start : searchStart area = area - 1024 := saturatingSub_eq area 1024
  rw [streamTailOf, start, Option.bind_eq_some_iff]
  refine exists_congr fun place => ?_
  rw [idIn_window_iff, chunkAt_eq_namedAt room fun near size => reads_strt size near]

theorem head_iff {area : Nat} (near : area < 2 ^ 63) {dsfh : DsfhChunk} :
    (headNear bytes area).bind (chunkAt "DSFH" DsfhChunk.readFrom bytes) = some dsfh ↔
      HeadAt bytes area dsfh := by
  rw [Option.bind_eq_some_iff]
  refine exists_congr fun place => ?_
  rw [headNear_iff near, chunkAt_eq_namedAt room fun _ => reads_dsfh]

/-- The stream's head at a place changes what is found only if it is one. -/
theorem streamAt_iff {place : Nat} {state state' : RtsaParseState} :
    streamAt bytes place state = some state' ↔
      ∃ strm, StreamAt bytes place strm ∧ state' = strm.elim state state.insertStrm := by
  have near : ∀ {header}, headerAt bytes place = some header → place + 2 ^ 32 ≤ 2 ^ 63 := by
    intro header headed
    have inside := (SampScan.headerAt_size headed).1
    omega
  constructor
  · intro found
    obtain ⟨header, headed, rest⟩ := Option.bind_eq_some_iff.mp found
    split at rest
    · rename_i named
      obtain ⟨strm, read, rfl⟩ := Option.map_eq_some_iff.mp rest
      rw [reads_strm header.size (near headed)] at read
      exact ⟨some strm, .strm (by rw [namedAt, headed, Option.bind_some, if_pos named, read]), rfl⟩
    · rename_i foreign
      cases rest
      exact ⟨none, .other headed foreign, rfl⟩
  · rintro ⟨strm, stream, rfl⟩
    cases stream with
    | @strm strm found =>
        obtain ⟨header, headed, rest⟩ := Option.bind_eq_some_iff.mp found
        obtain ⟨named, told⟩ := Option.ite_none_right_eq_some.mp rest
        rw [streamAt, headed, Option.bind_some, if_pos named, reads_strm header.size (near headed),
          told]
        rfl
    | other headed foreign =>
        rw [streamAt, headed, Option.bind_some, if_neg foreign]
        rfl

end Found

/-! ## The chains collected are these -/

theorem Chained.unique {chunkAt : Nat → Option Chunk} {link : Nat → Nat} {start : Nat}
    {chunks chunks' : List (Nat × Chunk)} (chained : Chained chunkAt link start chunks)
    (chained' : Chained chunkAt link start chunks') : chunks = chunks' := by
  have told : ∀ {chunks : List (Nat × Chunk)}, (∀ chunk ∈ chunks, chunkAt chunk.1 = some chunk.2) →
      (chunks.map Prod.fst).filterMap (fun place => (chunkAt place).map (place, ·)) = chunks := by
    intro chunks held
    induction chunks with
    | nil => rfl
    | cons chunk chunks ih =>
        rw [List.map_cons, List.filterMap_cons, held chunk List.mem_cons_self,
          ih fun later member => held later (List.mem_cons_of_mem _ member)]
        rfl
  rw [← told chained.held, ← told chained'.held, chained.passes.unique chained'.passes]

/-- What a kind's readings collect from a place is chained there, if its links are those. -/
theorem ChunkKind.chained (kind : ChunkKind Chunk) {chunkAt : Nat → Option Chunk} {link : Nat → Nat}
    (found : ∀ place, kind.chunkAt bytes place = chunkAt place)
    (linked : ∀ place chunk, chunkAt place = some chunk → kind.next chunk = link place)
    (start : Nat) : Chained chunkAt link start (kind.chunksFrom bytes start) := by
  have steps : kind.step bytes = linkStep chunkAt link := by
    funext place
    rw [ChunkKind.step, linkStep, found]
    split
    · cases here : chunkAt place with
      | none => rfl
      | some chunk => rw [Option.map_some, Option.map_some, linked place chunk here]
    · rfl
  have passes := Trail.follow_passes (@ChunkKind.follow_trail Chunk kind bytes start)
  rw [steps] at passes
  have places : (kind.chunksFrom bytes start).map Prod.fst = kind.trail bytes start := by
    have present : ∀ place ∈ kind.trail bytes start,
        ∃ chunk, kind.chunkAt bytes place = some chunk := by
      intro place member
      obtain ⟨next, leads⟩ := passes.steps member
      obtain ⟨chunk, here, -⟩ :=
        Option.map_eq_some_iff.mp (Option.ite_none_right_eq_some.mp leads).2
      exact ⟨chunk, (found place).trans here⟩
    rw [ChunkKind.chunksFrom, ChunkKind.placed]
    generalize kind.trail bytes start = trail at present
    induction trail with
    | nil => rfl
    | cons place trail ih =>
        obtain ⟨chunk, here⟩ := present place List.mem_cons_self
        rw [List.filterMap_cons, here, Option.map_some, List.map_cons,
          ih fun later member => present later (List.mem_cons_of_mem _ member)]
  refine ⟨places ▸ passes, fun chunk member => ?_⟩
  obtain ⟨place, -, here⟩ := List.mem_filterMap.mp member
  obtain ⟨chunk', held, rfl⟩ := Option.map_eq_some_iff.mp here
  exact (found place).symm.trans held

theorem namedAt_some {name : String} {fields : Nat → UInt32 → Option Chunk} {chunk : Chunk}
    (found : namedAt bytes name fields place = some chunk) :
    ∃ size, fields place size = some chunk := by
  obtain ⟨header, -, rest⟩ := Option.bind_eq_some_iff.mp found
  exact ⟨header.size, (Option.ite_none_right_eq_some.mp rest).2⟩

theorem ifWhole_some {length : Nat} {value chunk : Chunk}
    (whole : ifWhole bytes place length value = some chunk) : value = chunk :=
  Option.some.inj (Option.ite_none_right_eq_some.mp whole).2

section Kinds

variable (room : bytes.length + 2 ^ 32 ≤ 2 ^ 63) (start : Nat)

include room

theorem sstrs_chained :
    Chained (sstrAt bytes) (linkAt bytes 32) start (sstrKind.chunksFrom bytes start) := by
  apply sstrKind.chained
  · exact fun place => chunkAt_eq_namedAt room fun near size => reads_sstr size near
  · intro place chunk found
    obtain ⟨size, told⟩ := namedAt_some found
    rw [← ifWhole_some told]
    rfl

theorem antas_chained :
    Chained (antaAt bytes) (linkAt bytes 24) start (antaKind.chunksFrom bytes start) := by
  apply antaKind.chained
  · exact fun place => chunkAt_eq_namedAt room fun near size => reads_anta size near
  · intro place chunk found
    obtain ⟨size, told⟩ := namedAt_some found
    rw [← ifWhole_some told]
    rfl

theorem mdtts_chained :
    Chained (mdttAt bytes) (linkAt bytes 24) start (mdttKind.chunksFrom bytes start) := by
  apply mdttKind.chained
  · exact fun place => chunkAt_eq_namedAt room fun _ => reads_mdtt
  · intro place chunk found
    obtain ⟨size, told⟩ := namedAt_some found
    obtain ⟨-, -, rest⟩ := Option.bind_eq_some_iff.mp told
    obtain ⟨definition, -, rfl⟩ := Option.map_eq_some_iff.mp rest
    rfl

theorem previews_chained :
    Chained (previewAt bytes) (previewLink bytes) start (sprvKind.chunksFrom bytes start) := by
  apply sprvKind.chained
  · exact fun place => chunkAt_eq_namedAt room fun near size => reads_sprv size near
  · intro place chunk found
    obtain ⟨size, told⟩ := namedAt_some found
    rw [← ifWhole_some told]
    rfl

end Kinds

/-! ## The parser finds the capture -/

theorem i64At_range (offset : Nat) :
    -(2 : Int) ^ 63 ≤ i64At bytes offset ∧ i64At bytes offset < (2 : Int) ^ 63 :=
  ⟨BitVec.le_toInt _, BitVec.toInt_lt⟩

theorem StreamTailAt.streamOffset_range {area : Nat} {strt : StrtChunk}
    (tail : StreamTailAt bytes area strt) :
    -(2 : Int) ^ 63 ≤ strt.streamOffset ∧ strt.streamOffset < (2 : Int) ^ 63 := by
  obtain ⟨place, -, found⟩ := tail
  obtain ⟨size, told⟩ := namedAt_some found
  rw [← ifWhole_some told]
  exact i64At_range (place + 16)

theorem StreamAt.inside {strm : Option StrmChunk} (stream : StreamAt bytes place strm) :
    place + 16 ≤ bytes.length := by
  cases stream with
  | strm found =>
      obtain ⟨header, headed, -⟩ := Option.bind_eq_some_iff.mp found
      exact (SampScan.headerAt_size headed).1
  | other headed foreign => exact (SampScan.headerAt_size headed).1

theorem sampsBetween_iff {startPos endPos : Nat} {state state' : RtsaParseState}
    (fresh : state.sampChunkOffsets = []) :
    sampsBetween bytes startPos endPos state = some state' ↔
      ∃ samps, referenceWalk bytes (min endPos bytes.length) startPos = (true, samps) ∧
        state' = { state with sampChunkOffsets := samps } := by
  rw [sampsBetween, fresh, List.nil_append, Option.ite_none_right_eq_some]
  constructor
  · rintro ⟨whole, same⟩
    exact ⟨_, Prod.ext whole rfl, (Option.some.inj same).symm⟩
  · rintro ⟨samps, walked, rfl⟩
    rw [walked]
    exact ⟨rfl, rfl⟩

theorem tableOf_chunks [DecidableEq Key] (key : Chunk → Key) (chunks : List (Nat × Chunk)) :
    tableOf key (chunks.map Prod.snd) =
      chunks.foldl (fun table chunk => table.insert (key chunk.2) chunk.2) ∅ := by
  rw [tableOf, List.foldl_map]

/-- What the chains of a stream's tail and the chunk at the place it names come to. -/
theorem holding_eq (dsfh : DsfhChunk) (strt : StrtChunk) (strm : Option StrmChunk)
    (samps : List (Nat × SampChunk)) {state : RtsaParseState}
    (chains : state = { RtsaParseState.initial dsfh with
      sstrChunks := sstrTable bytes strt.subStreamOffset
      antaChunks := antaTable bytes strt.antennaOffset
      mdttChunks := mdttTable bytes strt.metadataOffset
      sprvChunks := sprvKind.chunksFrom bytes strt.previewOffset.toNat }) :
    { strm.elim state state.insertStrm with
      sampChunkOffsets := samps, strtChunk := some strt } =
      RtsaParseState.holding dsfh (some strt) strm
        (sstrKind.chunksFrom bytes strt.subStreamOffset.toNat)
        (antaKind.chunksFrom bytes strt.antennaOffset.toNat)
        (mdttKind.chunksFrom bytes strt.metadataOffset.toNat)
        (sprvKind.chunksFrom bytes strt.previewOffset.toNat) samps := by
  rw [RtsaParseState.holding, tableOf_chunks, tableOf_chunks, tableOf_chunks, chains]
  cases strm with
  | none => rfl
  | some strm => rfl

theorem fresh_stream {state : RtsaParseState} (strm : Option StrmChunk)
    (fresh : state.sampChunkOffsets = []) :
    (strm.elim state state.insertStrm).sampChunkOffsets = [] := by
  cases strm with
  | none => exact fresh
  | some strm => exact fresh

section Capture

variable (room : bytes.length + 2 ^ 32 ≤ 2 ^ 63)

include room

theorem described_iff {dsft : DsftChunk} {dsfh : DsfhChunk} {strt : StrtChunk}
    {state : RtsaParseState} (tail : StreamTailAt bytes dsft.streamOffset strt) :
    described bytes dsft dsfh strt = some state ↔
      0 ≤ strt.streamOffset ∧ ∃ strm samps, StreamAt bytes strt.streamOffset.toNat strm ∧
        referenceWalk bytes (min dsft.streamOffset bytes.length) strt.streamOffset.toNat =
          (true, samps) ∧
        state = .holding dsfh (some strt) strm
          (sstrKind.chunksFrom bytes strt.subStreamOffset.toNat)
          (antaKind.chunksFrom bytes strt.antennaOffset.toNat)
          (mdttKind.chunksFrom bytes strt.metadataOffset.toNat)
          (sprvKind.chunksFrom bytes strt.previewOffset.toNat) samps := by
  have range := tail.streamOffset_range
  have place : asU64 strt.streamOffset < 2 ^ 63 →
      0 ≤ strt.streamOffset ∧ asU64 strt.streamOffset = strt.streamOffset.toNat := by
    intro near
    rw [asU64] at near ⊢
    omega
  rw [described, Option.map_eq_some_iff]
  constructor
  · rintro ⟨state₁, scanned, rfl⟩
    obtain ⟨state₀, begun, chunks⟩ := Option.bind_eq_some_iff.mp scanned
    obtain ⟨strm, stream, rfl⟩ := (streamAt_iff room).mp begun
    obtain ⟨samps, walked, rfl⟩ := (sampsBetween_iff (fresh_stream strm rfl)).mp chunks
    have inside := stream.inside
    obtain ⟨named, same⟩ := place (by omega)
    rw [same] at stream walked
    exact ⟨named, strm, samps, stream, walked, holding_eq dsfh strt strm samps rfl⟩
  · rintro ⟨named, strm, samps, stream, walked, rfl⟩
    have same : asU64 strt.streamOffset = strt.streamOffset.toNat := by
      rw [asU64]
      omega
    rw [← same] at stream walked
    exact ⟨_, Option.bind_eq_some_iff.mpr ⟨_, (streamAt_iff room).mpr ⟨strm, stream, rfl⟩,
      (sampsBetween_iff (fresh_stream strm rfl)).mpr ⟨samps, walked, rfl⟩⟩,
      holding_eq dsfh strt strm samps rfl⟩

omit room in
theorem headerAt_id {header : RtsaChunkHeader} (headed : headerAt bytes place = some header) :
    header.id = window bytes place 4 := by
  obtain ⟨-, same⟩ := Option.ite_none_right_eq_some.mp headed
  rw [← Option.some.inj same]

/-- Without a tail the stream is the one whose head is found near by. -/
theorem nearby_iff {dsft : DsftChunk} {dsfh : DsfhChunk} {state : RtsaParseState}
    (near : dsft.streamOffset < 2 ^ 63) :
    nearby bytes dsft dsfh = some state ↔
      ∃ strm samps, StreamNear bytes dsft.streamOffset strm ∧
        referenceWalk bytes (min (dsft.streamOffset + 100000000) bytes.length)
          dsft.streamOffset = (true, samps) ∧
        state = .holding dsfh none (some strm) [] [] [] [] samps := by
  have start : strmSearchStart dsft.streamOffset = dsft.streamOffset - 4096 :=
    saturatingSub_eq _ 4096
  have ends : min (scanEnd dsft.streamOffset) bytes.length =
      min (dsft.streamOffset + 100000000) bytes.length := by
    rw [scanEnd]
    omega
  have found : ∀ place, strmNear bytes dsft.streamOffset = some place ↔
      IsLeast (idsBetween bytes "STRM" (dsft.streamOffset - 4096)
        (dsft.streamOffset - 4096 + 8192)) place ∧
        place + 8 ≤ dsft.streamOffset - 4096 + 8192 ∧ place + 8 ≤ bytes.length ∧
        20 ≤ sizeAt bytes place ∧ sizeAt bytes place < 1000 := by
    intro place
    rw [strmNear, start, sizedIdIn_window_iff]
  rw [nearby, Option.bind_eq_some_iff]
  constructor
  · rintro ⟨state₁, held, rest⟩
    obtain ⟨place, here, begun⟩ := Option.bind_eq_some_iff.mp held
    obtain ⟨least, within, inside, large, small⟩ := (found place).mp here
    obtain ⟨strm, stream, rfl⟩ := (streamAt_iff room).mp begun
    cases stream with
    | @strm strm told =>
        obtain ⟨-, rest⟩ := Option.ite_none_left_eq_some.mp rest
        obtain ⟨samps, walked, rfl⟩ := (sampsBetween_iff (fresh_stream (some strm) rfl)).mp rest
        rw [ends] at walked
        exact ⟨strm, samps, ⟨place, least, within, large, small, told⟩, walked, rfl⟩
    | other headed foreign => exact absurd ((headerAt_id headed).trans least.1.2.2.2) foreign
  · rintro ⟨strm, samps, ⟨place, least, within, large, small, told⟩, walked, rfl⟩
    have inside := (StreamAt.strm told).inside
    refine ⟨_, Option.bind_eq_some_iff.mpr ⟨place, (found place).mpr ⟨least, within, by omega,
      large, small⟩, (streamAt_iff room).mpr ⟨some strm, .strm told, rfl⟩⟩, ?_⟩
    rw [← ends] at walked
    exact Option.ite_none_left_eq_some.mpr ⟨List.cons_ne_nil _ _,
      (sampsBetween_iff (fresh_stream (some strm) rfl)).mpr ⟨samps, walked, rfl⟩⟩

theorem streams_iff {dsft : DsftChunk} {dsfh : DsfhChunk} {state : RtsaParseState}
    (near : dsft.streamOffset < 2 ^ 63) :
    (streamTailOf bytes dsft.streamOffset).elim (nearby bytes dsft dsfh)
        (described bytes dsft dsfh) = some state ↔
      Streams bytes dsfh dsft.streamOffset state := by
  cases tailed : streamTailOf bytes dsft.streamOffset with
  | some strt =>
      have tail := (streamTailOf_iff room).mp tailed
      rw [Option.elim_some, described_iff room tail]
      constructor
      · rintro ⟨named, strm, samps, stream, walked, rfl⟩
        exact .told tail named stream (sstrs_chained room _) (antas_chained room _)
          (mdtts_chained room _) (previews_chained room _) walked
      · intro streams
        cases streams with
        | @told strt' strm sstrs antas mdtts sprvs samps tail' named stream sstr anta mdtt sprv
            walked =>
            have same := tailed.symm.trans ((streamTailOf_iff room).mpr tail')
            cases same
            refine ⟨named, strm, samps, stream, walked, ?_⟩
            rw [sstr.unique (sstrs_chained room _), anta.unique (antas_chained room _),
              mdtt.unique (mdtts_chained room _), sprv.unique (previews_chained room _)]
        | near untold => exact absurd tail (untold strt)
  | none =>
      have untold : ∀ strt, ¬StreamTailAt bytes dsft.streamOffset strt := by
        intro strt tail
        rw [(streamTailOf_iff room).mpr tail] at tailed
        cases tailed
      rw [Option.elim_none, nearby_iff room near]
      constructor
      · rintro ⟨strm, samps, stream, walked, rfl⟩
        exact .near untold stream walked
      · intro streams
        cases streams with
        | told tail => exact absurd tail (untold _)
        | near _ stream walked => exact ⟨_, _, stream, walked, rfl⟩

theorem captureOf_iff {state : RtsaParseState} {streamOffset : Option Nat} :
    captureOf bytes = some (state, streamOffset) ↔ IsCapture bytes state streamOffset := by
  have told : ∀ dsft : DsftChunk, 0 < dsft.streamOffset → rawOffset dsft state =
      if state.sampChunkOffsets = [] then some dsft.streamOffset else none := by
    intro dsft area
    rw [rawOffset]
    simp only [List.isEmpty_iff, area, and_true]
  rw [captureOf, Option.bind_eq_some_iff]
  refine exists_congr fun dsft => ?_
  rw [tailOf_iff room, Option.bind_eq_some_iff]
  constructor
  · rintro ⟨tail, dsfh, head, rest⟩
    have near := tail_near ((tailOf_iff room).mpr tail)
    obtain ⟨somewhere, rest⟩ := Option.ite_none_left_eq_some.mp rest
    obtain ⟨state', streams, same⟩ := Option.map_eq_some_iff.mp rest
    cases same
    have area : 0 < dsft.streamOffset := Nat.pos_of_ne_zero somewhere
    exact ⟨dsfh, tail, (head_iff room near).mp head, area, (streams_iff room near).mp streams,
      told dsft area⟩
  · rintro ⟨dsfh, tail, head, area, streams, rfl⟩
    have near := tail_near ((tailOf_iff room).mpr tail)
    refine ⟨tail, dsfh, (head_iff room near).mpr head, ?_⟩
    rw [if_neg (by omega), (streams_iff room near).mpr streams, Option.map_some, told dsft area]

end Capture

theorem Chained.linked [DecidableEq Key] {chunkAt : Nat → Option Chunk} {link : Nat → Nat}
    {start : Nat} {chunks : List (Nat × Chunk)} (chained : Chained chunkAt link start chunks)
    (key : Chunk → Key) :
    Linked chunkAt link start key (tableOf key (chunks.map Prod.snd)) := by
  obtain ⟨rounds, followed⟩ := chained.passes.follows
  refine ⟨chunks, (Trail.follow_leads followed).1, fun _ => Trail.mem_follow_iff followed,
    chained.held, fun k => ?_⟩
  rw [tableOf_chunks, lookup_insertAll, AList.lookup_empty, Option.or_none]

theorem Streams.tabled {dsfh : DsfhChunk} {area : Nat} {state : RtsaParseState} {strt : StrtChunk}
    (streams : Streams bytes dsfh area state) (tailed : state.strtChunk = some strt) :
    Tabled bytes strt state := by
  cases streams with
  | told tail named stream sstr anta mdtt =>
      cases tailed
      exact ⟨sstr.linked _, anta.linked _, mdtt.linked _⟩
  | near => cases tailed

/-- **The parser finds what the bytes hold.**  With its windows, its blocks of ten megabytes, its
visited sets and its resynchronisation it succeeds on exactly the capture files, and with exactly
what such a file holds.  The index is in file order and inside the file, an offset is told only of
a file without SAMP chunks, and where the stream has a tail each table holds what the tail's
chain leads to. -/
theorem parseRtsaWithTail_reads (file : DiskFile) :
    (∀ state streamOffset,
      (parseRtsaWithTail file.bytes.length ⟨file.bytes, 0, []⟩).1 = .ok (state, streamOffset) ↔
        IsCapture file.bytes state streamOffset) ∧
      ∀ state streamOffset, IsCapture file.bytes state streamOffset →
        Indexes file.bytes state.sampChunkOffsets ∧
        (streamOffset.isSome = true ↔ state.sampChunkOffsets = []) ∧
        ∀ strt, state.strtChunk = some strt → Tabled file.bytes strt state := by
  constructor
  · intro state streamOffset
    rw [← captureOf_iff file.bytes_lt, ← parse_gives]
    cases (parseRtsaWithTail file.bytes.length ⟨file.bytes, 0, []⟩).1 with
    | error e => exact iff_of_false (by simp) (by simp [Except.toOption])
    | ok parsed =>
        constructor
        · intro ended
          cases ended
          rfl
        · intro ended
          cases ended
          rfl
  · intro state streamOffset capture
    have indexes := capture_indexes ((captureOf_iff file.bytes_lt).mpr capture)
    obtain ⟨dsft, dsfh, -, -, -, streams, told⟩ := capture
    refine ⟨indexes, ?_, fun strt => streams.tabled⟩
    rw [told]
    split
    · rename_i raw
      exact iff_of_true rfl raw
    · rename_i indexed
      exact iff_of_false Bool.false_ne_true indexed

end SdrAaronia
