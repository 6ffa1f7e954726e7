import SdrAaronia.FileSource.ChunkChain
import SdrAaronia.FileSource.Preview

/-! # Trees of preview chunks

The chunks that a root leads to through any of their offsets, and which of them the
parser appends.
-/

namespace SdrAaronia

open HttpStreaming Reading

/-- The positive offsets among those that a chunk counts, as far as they lead to preview
chunks. -/
def childOffsets (bytes : Bytes) (sprv : SprvChunk) : List Nat :=
  (((sprv.previewOffsets.take sprv.previewCount.toNat).filter (0 < ·)).map Int.toNat).filter
    fun offset => (sprvAt bytes offset).isSome

/-- Preview chunks by their places, each with its children in order. -/
inductive PreviewTree where
  | node (offset : Nat) (children : List PreviewTree)

namespace PreviewTree

def offset : PreviewTree → Nat
  | node offset _ => offset

mutual

def offsets : PreviewTree → List Nat
  | node offset children => offset :: offsetsAll children

def offsetsAll : List PreviewTree → List Nat
  | [] => []
  | tree :: trees => tree.offsets ++ offsetsAll trees

end

mutual

/-- Every node is a chunk of the file, and its children are the chunk's. -/
def Held (bytes : Bytes) : PreviewTree → Prop
  | node offset children =>
      (∃ sprv, sprvAt bytes offset = some sprv ∧
        childOffsets bytes sprv = children.map PreviewTree.offset) ∧ HeldAll bytes children

def HeldAll (bytes : Bytes) : List PreviewTree → Prop
  | [] => True
  | tree :: trees => tree.Held bytes ∧ HeldAll bytes trees

end

/-- The chunks that the root leads to are this tree: no chunk is in it twice. -/
structure FormedIn (bytes : Bytes) (tree : PreviewTree) : Prop where
  positive : 0 < tree.offset
  held : tree.Held bytes
  distinct : tree.offsets.Nodup

/-- No chunk of the tree has a positive offset behind those it counts. -/
def Tidy (bytes : Bytes) (tree : PreviewTree) : Prop :=
  ∀ offset ∈ tree.offsets, ∀ sprv, sprvAt bytes offset = some sprv →
    ∀ further ∈ sprv.previewOffsets.drop sprv.previewCount.toNat, further ≤ 0

instance (bytes : Bytes) (tree : PreviewTree) : Decidable (tree.Tidy bytes) :=
  decidable_of_iff
    (∀ offset ∈ tree.offsets, ∀ sprv ∈ sprvAt bytes offset,
      ∀ further ∈ sprv.previewOffsets.drop sprv.previewCount.toNat, further ≤ 0) Iff.rfl

/-- No chunk has a second child, and the only child is at the first positive offset. -/
inductive Chain (bytes : Bytes) : PreviewTree → Prop where
  | leaf {offset : Nat} : Chain bytes (node offset [])
  | link {offset : Nat} {sprv : SprvChunk} {child : PreviewTree}
      (found : sprvAt bytes offset = some sprv) (first : sprv.treeOffset = child.offset)
      (chain : Chain bytes child) : Chain bytes (node offset [child])

variable {bytes : Bytes}

theorem childOffsets_pos {sprv : SprvChunk} {offset : Nat}
    (listed : offset ∈ childOffsets bytes sprv) : 0 < offset := by
  rw [childOffsets, List.mem_filter, List.mem_map] at listed
  obtain ⟨⟨target, counted, same⟩, -⟩ := listed
  have large := of_decide_eq_true (List.mem_filter.mp counted).2
  omega

theorem offset_mem (tree : PreviewTree) : tree.offset ∈ tree.offsets := by
  cases tree with
  | node offset children =>
      rw [offsets]
      exact List.mem_cons_self

theorem mem_offsetsAll {tree : PreviewTree} {trees : List PreviewTree} (member : tree ∈ trees)
    {offset : Nat} (inside : offset ∈ tree.offsets) : offset ∈ offsetsAll trees := by
  induction trees with
  | nil => exact absurd member List.not_mem_nil
  | cons first trees ih =>
      rw [offsetsAll, List.mem_append]
      cases List.mem_cons.mp member with
      | inl same => exact Or.inl (same ▸ inside)
      | inr member => exact Or.inr (ih member)

theorem held_of_mem {trees : List PreviewTree} (held : HeldAll bytes trees)
    {tree : PreviewTree} (member : tree ∈ trees) : tree.Held bytes := by
  induction trees with
  | nil => exact absurd member List.not_mem_nil
  | cons first trees ih =>
      rw [HeldAll] at held
      cases List.mem_cons.mp member with
      | inl same => exact same ▸ held.1
      | inr member => exact ih held.2 member

mutual

/-- Every node of a tree is a chunk, and the tree has its children too. -/
theorem node_held : ∀ (tree : PreviewTree), tree.Held bytes → ∀ offset ∈ tree.offsets,
    ∃ sprv, sprvAt bytes offset = some sprv ∧
      ∀ child ∈ childOffsets bytes sprv, child ∈ tree.offsets
  | node place children, held, offset, inside => by
      rw [Held] at held
      obtain ⟨⟨sprv, found, below⟩, heldAll⟩ := held
      rw [offsets] at inside ⊢
      cases List.mem_cons.mp inside with
      | inl same =>
          refine ⟨sprv, same ▸ found, fun child member => List.mem_cons_of_mem _ ?_⟩
          rw [below] at member
          obtain ⟨tree, listed, rfl⟩ := List.mem_map.mp member
          exact mem_offsetsAll listed (offset_mem tree)
      | inr deeper =>
          obtain ⟨sprv, found, closed⟩ := nodes_held children heldAll offset deeper
          exact ⟨sprv, found, fun child member => List.mem_cons_of_mem _ (closed child member)⟩

theorem nodes_held : ∀ (trees : List PreviewTree), HeldAll bytes trees →
    ∀ offset ∈ offsetsAll trees, ∃ sprv, sprvAt bytes offset = some sprv ∧
      ∀ child ∈ childOffsets bytes sprv, child ∈ offsetsAll trees
  | [], _, offset, inside => by
      rw [offsetsAll] at inside
      exact absurd inside List.not_mem_nil
  | tree :: trees, held, offset, inside => by
      rw [HeldAll] at held
      rw [offsetsAll] at inside ⊢
      cases List.mem_append.mp inside with
      | inl here =>
          obtain ⟨sprv, found, closed⟩ := node_held tree held.1 offset here
          exact ⟨sprv, found, fun child member =>
            List.mem_append.mpr (Or.inl (closed child member))⟩
      | inr later =>
          obtain ⟨sprv, found, closed⟩ := nodes_held trees held.2 offset later
          exact ⟨sprv, found, fun child member =>
            List.mem_append.mpr (Or.inr (closed child member))⟩

end

/-! ## Where the parser's steps lead -/

theorem previewStep_some {offset next : Nat} (steps : previewStep bytes offset = some next) :
    0 < offset ∧ ∃ sprv, sprvAt bytes offset = some sprv ∧ sprv.treeOffset = next := by
  obtain ⟨positive, mapped⟩ := Option.ite_none_right_eq_some.mp steps
  exact ⟨positive, Option.map_eq_some_iff.mp mapped⟩

theorem previewStep_eq {offset : Nat} {sprv : SprvChunk} (positive : 0 < offset)
    (found : sprvAt bytes offset = some sprv) :
    previewStep bytes offset = some sprv.treeOffset := by
  rw [previewStep, if_pos positive, found]
  rfl

/-- Where no offset behind the counted ones is positive, the parser goes on at a child. -/
theorem treeOffset_child {sprv : SprvChunk}
    (tidy : ∀ further ∈ sprv.previewOffsets.drop sprv.previewCount.toNat, further ≤ 0)
    {next : Nat} (steps : previewStep bytes sprv.treeOffset = some next) :
    sprv.treeOffset ∈ childOffsets bytes sprv := by
  obtain ⟨positive, sprv', found', -⟩ := previewStep_some steps
  rw [SprvChunk.treeOffset] at positive found' ⊢
  cases first : sprv.previewOffsets.find? (0 < ·) with
  | none =>
      rw [first] at positive
      exact absurd positive (Nat.lt_irrefl 0)
  | some target =>
      rw [first, Option.getD_some] at positive found'
      rw [Option.getD_some]
      have large : 0 < target := of_decide_eq_true (List.find?_some first :)
      have member := List.mem_of_find?_eq_some first
      rw [← List.take_append_drop sprv.previewCount.toNat sprv.previewOffsets,
        List.mem_append] at member
      have counted : target ∈ sprv.previewOffsets.take sprv.previewCount.toNat := by
        cases member with
        | inl counted => exact counted
        | inr further => exact absurd (tidy target further) (Int.not_le.mpr large)
      rw [childOffsets, List.mem_filter]
      refine ⟨List.mem_map_of_mem (List.mem_filter.mpr ⟨counted, decide_eq_true large⟩), ?_⟩
      rw [found']
      rfl

/-- In a tidy tree the parser's steps stay inside. -/
theorem leadsTo_inside {tree : PreviewTree} (held : tree.Held bytes) (tidy : tree.Tidy bytes)
    {offset : Nat} (leads : Trail.LeadsTo (previewStep bytes) tree.offset offset) :
    offset ∈ tree.offsets := by
  induction leads with
  | here steps => exact offset_mem tree
  | step leads steps steps' ih =>
      obtain ⟨-, sprv, found, rfl⟩ := previewStep_some steps
      obtain ⟨sprv', found', closed⟩ := node_held tree held _ ih
      cases found.symm.trans found'
      exact closed _ (treeOffset_child (tidy _ ih sprv found) steps')

/-- Along a chain the parser's steps lead to every chunk. -/
theorem Chain.leadsTo {tree : PreviewTree} (chain : tree.Chain bytes) (held : tree.Held bytes)
    (positive : 0 < tree.offset) :
    ∀ offset ∈ tree.offsets, Trail.LeadsTo (previewStep bytes) tree.offset offset := by
  induction chain with
  | @leaf place =>
      intro offset inside
      rw [Held] at held
      obtain ⟨⟨sprv, found, -⟩, -⟩ := held
      rw [offsets, offsetsAll] at inside
      rw [List.mem_singleton.mp inside]
      exact .here (previewStep_eq positive found)
  | @link place sprv child found first chain ih =>
      intro offset inside
      rw [Held] at held
      obtain ⟨⟨sprv', found', below⟩, heldAll⟩ := held
      have heldChild := held_of_mem heldAll List.mem_cons_self
      have steps : previewStep bytes place = some child.offset :=
        (previewStep_eq positive found).trans (congrArg some first)
      have positiveChild : 0 < child.offset := by
        have listed : child.offset ∈ childOffsets bytes sprv' := by
          rw [below]
          exact List.mem_cons_self
        exact childOffsets_pos listed
      have further := ih heldChild positiveChild
      rw [offsets, offsetsAll, offsetsAll, List.append_nil] at inside
      cases List.mem_cons.mp inside with
      | inl same =>
          rw [same]
          exact .here steps
      | inr deeper => exact (further offset deeper).head steps

theorem FormedIn.child {place : Nat} {child : PreviewTree} {others : List PreviewTree}
    (formed : (node place (child :: others)).FormedIn bytes) : child.FormedIn bytes := by
  obtain ⟨-, held, distinct⟩ := formed
  rw [Held, HeldAll] at held
  obtain ⟨⟨sprv, found, below⟩, heldChild, -⟩ := held
  rw [offsets, offsetsAll] at distinct
  have listed : child.offset ∈ childOffsets bytes sprv := by
    rw [below]
    exact List.mem_cons_self
  exact ⟨childOffsets_pos listed, heldChild,
    (List.nodup_append.mp (List.nodup_cons.mp distinct).2).1⟩

/-- Trees without a common chunk are told apart by any of their chunks. -/
theorem eq_of_mem_offsets {trees : List PreviewTree} (distinct : (offsetsAll trees).Nodup)
    {tree tree' : PreviewTree} (member : tree ∈ trees) (member' : tree' ∈ trees) {offset : Nat}
    (inside : offset ∈ tree.offsets) (inside' : offset ∈ tree'.offsets) : tree = tree' := by
  induction trees with
  | nil => exact absurd member List.not_mem_nil
  | cons first trees ih =>
      rw [offsetsAll] at distinct
      obtain ⟨-, distinctRest, apart⟩ := List.nodup_append.mp distinct
      cases List.mem_cons.mp member with
      | inl same =>
          cases List.mem_cons.mp member' with
          | inl same' => exact same.trans same'.symm
          | inr later' =>
              subst same
              exact absurd rfl (apart offset inside offset (mem_offsetsAll later' inside'))
      | inr later =>
          cases List.mem_cons.mp member' with
          | inl same' =>
              subst same'
              exact absurd rfl (apart offset inside' offset (mem_offsetsAll later inside))
          | inr later' => exact ih distinctRest later later'

/-- A tidy tree that the parser's steps lead all through is a chain. -/
theorem chain_of_leadsTo : ∀ (tree : PreviewTree), tree.FormedIn bytes → tree.Tidy bytes →
    (∀ offset ∈ tree.offsets, Trail.LeadsTo (previewStep bytes) tree.offset offset) →
    tree.Chain bytes
  | node place [], _, _, _ => .leaf
  | node place (child :: others), formed, tidy, leads => by
      have formedChild := formed.child
      obtain ⟨positive, held, distinct⟩ := formed
      rw [Held] at held
      obtain ⟨⟨sprv, found, below⟩, heldAll⟩ := held
      rw [offsets] at distinct
      obtain ⟨fresh, distinctAll⟩ := List.nodup_cons.mp distinct
      have deeper : ∀ offset ∈ offsetsAll (child :: others),
          offset ∈ (node place (child :: others)).offsets := by
        intro offset inside
        rw [offsets]
        exact List.mem_cons_of_mem _ inside
      -- Past the root the steps lead on from the chunk at the first positive offset.
      have onward : ∀ offset ∈ offsetsAll (child :: others),
          Trail.LeadsTo (previewStep bytes) sprv.treeOffset offset := by
        intro offset inside
        cases (leads offset (deeper offset inside)).start_or_next with
        | inl same =>
            rw [same] at inside
            exact absurd inside fresh
        | inr further =>
            obtain ⟨next, steps, leads⟩ := further
            have begins : previewStep bytes place = some sprv.treeOffset :=
              previewStep_eq positive found
            rw [PreviewTree.offset, begins] at steps
            exact Option.some.inj steps ▸ leads
      have goesOn : sprv.treeOffset ∈ childOffsets bytes sprv := by
        obtain ⟨next, steps⟩ :=
          (onward _ (mem_offsetsAll List.mem_cons_self (offset_mem child))).start_steps
        exact treeOffset_child (tidy _ (offset_mem _) sprv found) steps
      rw [below] at goesOn
      obtain ⟨taken, listed, same⟩ := List.mem_map.mp goesOn
      -- That chunk is in one of the trees below only, and the steps never leave it.
      have taken_only : ∀ tree ∈ child :: others, tree = taken := by
        intro tree member
        have inside := onward _ (mem_offsetsAll member (offset_mem tree))
        rw [← same] at inside
        exact eq_of_mem_offsets distinctAll member listed (offset_mem tree)
          (leadsTo_inside (held_of_mem heldAll listed) (fun offset inside =>
            tidy offset (deeper offset (mem_offsetsAll listed inside))) inside)
      have child_taken := taken_only child List.mem_cons_self
      have alone : others = [] := by
        cases others with
        | nil => rfl
        | cons second others =>
            have second_taken := taken_only second (List.mem_cons_of_mem _ List.mem_cons_self)
            rw [offsetsAll, offsetsAll] at distinctAll
            refine absurd rfl ((List.nodup_append.mp distinctAll).2.2 child.offset
              (offset_mem child) child.offset ?_)
            rw [child_taken, ← second_taken]
            exact List.mem_append_left _ (offset_mem second)
      subst alone
      rw [← child_taken] at same
      refine .link found same.symm (chain_of_leadsTo child formedChild ?_ ?_)
      · intro offset inside
        exact tidy offset (deeper offset (mem_offsetsAll List.mem_cons_self inside))
      · intro offset inside
        rw [same]
        exact onward offset (mem_offsetsAll List.mem_cons_self inside)

/-! ## What the parser appends -/

/-- The chunk at every place of the tree is appended once. -/
def Collected (bytes : Bytes) (tree : PreviewTree) (appended : List (Nat × SprvChunk)) : Prop :=
  ∀ offset ∈ tree.offsets, ∃ sprv, sprvAt bytes offset = some sprv ∧
    appended.count (offset, sprv) = 1

end PreviewTree

/-- A parse about to begin, wherever the reader is and whatever was appended before. -/
def CaptureFile.previewing (file : CaptureFile) (position : Nat) (served : List (Nat × Nat))
    (sprvChunks : List (Nat × SprvChunk)) : SprvScan :=
  ⟨⟨file.bytes, position, served⟩, sprvChunks⟩

/-- The parse from this root ends and has appended these chunks. -/
def CaptureFile.Appends (file : CaptureFile) (root : Nat) (appended : List (Nat × SprvChunk)) :
    Prop :=
  ∀ position served found, ∃ reader,
    parseSprvTree root (file.previewing position served found) = some ⟨reader, found ++ appended⟩

theorem mem_sprvChunksAt {bytes : Bytes} {trail : List Nat} {offset : Nat} {sprv : SprvChunk} :
    (offset, sprv) ∈ sprvChunksAt bytes trail ↔
      offset ∈ trail ∧ sprvAt bytes offset = some sprv := by
  rw [sprvChunksAt, List.mem_filterMap]
  constructor
  · rintro ⟨place, member, mapped⟩
    obtain ⟨sprv', found, same⟩ := Option.map_eq_some_iff.mp mapped
    cases same
    exact ⟨member, found⟩
  · rintro ⟨member, found⟩
    exact ⟨offset, member, by rw [found]; rfl⟩

theorem sprvChunksAt_places (bytes : Bytes) (trail : List Nat) :
    (sprvChunksAt bytes trail).map Prod.fst =
      trail.filter fun offset => (sprvAt bytes offset).isSome := by
  induction trail with
  | nil => rfl
  | cons offset trail ih =>
      rw [sprvChunksAt, List.filterMap_cons, List.filter_cons]
      cases sprvAt bytes offset with
      | none => exact ih
      | some sprv => exact congrArg (offset :: ·) ih

/-- A tree is collected where the trail passes all its places. -/
theorem collected_iff {bytes : Bytes} {tree : PreviewTree} {trail : List Nat}
    (held : tree.Held bytes) (once : trail.Nodup) :
    tree.Collected bytes (sprvChunksAt bytes trail) ↔ ∀ offset ∈ tree.offsets, offset ∈ trail := by
  have distinct : (sprvChunksAt bytes trail).Nodup := by
    refine List.Nodup.of_map Prod.fst ?_
    rw [sprvChunksAt_places]
    exact once.filter _
  constructor
  · intro collected offset inside
    obtain ⟨sprv, -, counted⟩ := collected offset inside
    have member : (offset, sprv) ∈ sprvChunksAt bytes trail :=
      List.count_pos_iff.mp (by omega)
    exact (mem_sprvChunksAt.mp member).1
  · intro passed offset inside
    obtain ⟨sprv, found, -⟩ := PreviewTree.node_held tree held offset inside
    exact ⟨sprv, found, List.count_eq_one_of_mem distinct
      (mem_sprvChunksAt.mpr ⟨passed offset inside, found⟩)⟩

/-- **Only one branch is collected.**  On every file the parse ends and appends no chunk
twice.  It collects a tree exactly where going from chunk to chunk through the first
positive of the sixteen offsets leads all through the tree; where no chunk has a positive
offset behind those it counts, that is, where no chunk has a second child and the first
positive offset is the child's. -/
theorem parseSprvTree_collects_iff (file : CaptureFile) (root : Nat) :
    ∃ appended, file.Appends root appended ∧ (appended.map Prod.fst).Nodup ∧
      (∀ offset sprv, (offset, sprv) ∈ appended → sprvAt file.bytes offset = some sprv) ∧
      ∀ tree : PreviewTree, tree.FormedIn file.bytes → tree.offset = root →
        (tree.Collected file.bytes appended ↔ ∀ offset ∈ tree.offsets,
          Trail.LeadsTo (previewStep file.bytes) root offset) ∧
        (tree.Tidy file.bytes → (tree.Collected file.bytes appended ↔ tree.Chain file.bytes)) := by
  obtain ⟨trail, once, passes, parses⟩ := parseSprvTree_follow file.length_lt root
  refine ⟨sprvChunksAt file.bytes trail, fun position served found => parses _ rfl, ?_,
    fun offset sprv member => (mem_sprvChunksAt.mp member).2, fun tree formed atRoot => ?_⟩
  · rw [sprvChunksAt_places]
    exact once.filter _
  · have reached : tree.Collected file.bytes (sprvChunksAt file.bytes trail) ↔
        ∀ offset ∈ tree.offsets, Trail.LeadsTo (previewStep file.bytes) root offset := by
      rw [collected_iff formed.held once]
      simp only [passes]
    refine ⟨reached, fun tidy => reached.trans ?_⟩
    rw [← atRoot]
    exact ⟨tree.chain_of_leadsTo formed tidy,
      fun chain => chain.leadsTo formed.held formed.positive⟩

/-- A preview chunk that counts these offsets. -/
def sprvBytes (offsets : List Nat) : Bytes :=
  [chunkId "SPRV", LittleEndian.encode 4 408, LittleEndian.encode 4 0, LittleEndian.encode 2 1,
    LittleEndian.encode 2 392, [0, UInt8.ofNat offsets.length], List.replicate 6 0,
    offsets.flatMap (LittleEndian.encode 8),
    List.replicate (8 * (16 - offsets.length) + 256) 0].flatten

/-- Three preview chunks behind sixteen bytes. -/
def threePreviews (first second third : List Nat) : Bytes :=
  [List.replicate 16 0, sprvBytes first, sprvBytes second, sprvBytes third].flatten

/-- The root counts the next chunk, and that the last. -/
def linkedPreviews : CaptureFile := ⟨threePreviews [424] [832] [], by decide +kernel⟩

/-- The root counts both other chunks. -/
def forkedPreviews : CaptureFile := ⟨threePreviews [424, 832] [] [], by decide +kernel⟩

theorem sprvAt_of_headed {bytes : Bytes} {place : Nat}
    (headed : headerAt bytes place = some ⟨chunkId "SPRV", 408, 0, 1, 392⟩)
    (fits : place + 408 ≤ bytes.length) :
    sprvAt bytes place = some (sprvFields bytes place 408) := by
  rw [sprvAt, headed]
  exact if_pos ⟨rfl, fits, fun large => absurd large (Nat.lt_irrefl 408)⟩

theorem held_of_headed {bytes : Bytes} {place : Nat} {children : List PreviewTree}
    (headed : headerAt bytes place = some ⟨chunkId "SPRV", 408, 0, 1, 392⟩)
    (fits : place + 408 ≤ bytes.length)
    (below : childOffsets bytes (sprvFields bytes place 408) = children.map PreviewTree.offset)
    (held : PreviewTree.HeldAll bytes children) :
    (PreviewTree.node place children).Held bytes := by
  rw [PreviewTree.Held]
  exact ⟨⟨_, sprvAt_of_headed headed fits, below⟩, held⟩

theorem chain_of_headed {bytes : Bytes} {place : Nat} {child : PreviewTree}
    (headed : headerAt bytes place = some ⟨chunkId "SPRV", 408, 0, 1, 392⟩)
    (fits : place + 408 ≤ bytes.length)
    (first : (sprvFields bytes place 408).treeOffset = child.offset)
    (chain : child.Chain bytes) : (PreviewTree.node place [child]).Chain bytes :=
  .link (sprvAt_of_headed headed fits) first chain

theorem parseSprvTree_collects_iff_linked :
    ∃ appended, linkedPreviews.Appends 16 appended ∧
      (PreviewTree.node 16 [.node 424 [.node 832 []]]).Collected linkedPreviews.bytes appended := by
  obtain ⟨appended, appends, -, -, collects⟩ := parseSprvTree_collects_iff linkedPreviews 16
  have last : (PreviewTree.node 832 []).Held linkedPreviews.bytes :=
    held_of_headed (by decide +kernel) (by decide +kernel) (by decide +kernel) trivial
  have second : (PreviewTree.node 424 [.node 832 []]).Held linkedPreviews.bytes :=
    held_of_headed (by decide +kernel) (by decide +kernel) (by decide +kernel) ⟨last, trivial⟩
  have whole : (PreviewTree.node 16 [.node 424 [.node 832 []]]).Held linkedPreviews.bytes :=
    held_of_headed (by decide +kernel) (by decide +kernel) (by decide +kernel) ⟨second, trivial⟩
  have chain : (PreviewTree.node 16 [.node 424 [.node 832 []]]).Chain linkedPreviews.bytes :=
    chain_of_headed (by decide +kernel) (by decide +kernel) (by decide +kernel)
      (chain_of_headed (by decide +kernel) (by decide +kernel) (by decide +kernel) .leaf)
  have exact := collects _ ⟨by decide, whole, by decide⟩ rfl
  exact ⟨appended, appends, (exact.2 (by decide +kernel)).mpr chain⟩

/-- Of a root with two children the parser appends the first child only. -/
theorem parseSprvTree_misses_sibling :
    ¬ ∀ (file : CaptureFile) (tree : PreviewTree), tree.FormedIn file.bytes →
      ∃ appended, file.Appends tree.offset appended ∧ tree.Collected file.bytes appended := by
  intro collects
  have first : (PreviewTree.node 424 []).Held forkedPreviews.bytes :=
    held_of_headed (by decide +kernel) (by decide +kernel) (by decide +kernel) trivial
  have second : (PreviewTree.node 832 []).Held forkedPreviews.bytes :=
    held_of_headed (by decide +kernel) (by decide +kernel) (by decide +kernel) trivial
  have whole : (PreviewTree.node 16 [.node 424 [], .node 832 []]).Held forkedPreviews.bytes :=
    held_of_headed (by decide +kernel) (by decide +kernel) (by decide +kernel)
      ⟨first, second, trivial⟩
  obtain ⟨appended, appends, collected⟩ :=
    collects forkedPreviews (.node 16 [.node 424 [], .node 832 []]) ⟨by decide, whole, by decide⟩
  obtain ⟨reader, parsed⟩ := appends 0 [] []
  obtain ⟨sprv, -, counted⟩ := collected 832 (by decide)
  have member : (832, sprv) ∈ appended := List.count_pos_iff.mp (by omega)
  have places : (parseSprvTree 16 (forkedPreviews.previewing 0 [] [])).map
      (fun s => s.sprvChunks.map Prod.fst) = some [16, 424] := by decide +kernel
  rw [PreviewTree.offset, List.nil_append] at parsed
  rw [parsed] at places
  have listed := List.mem_map_of_mem (f := Prod.fst) member
  have exact : appended.map Prod.fst = [16, 424] := Option.some.inj places
  rw [exact] at listed
  have other : 832 ∉ [16, 424] := by decide
  exact other listed

end SdrAaronia
