import SdrAaronia.HttpSource.State

/-! # What publishing reports

The records of one `publishBreaks`: where they lie, in which order, and what they
say about the breaks that were pending.
-/

namespace SdrAaronia.HttpSource

open Marks

/-- The causes pending at the place of the first break. -/
def causesAt (offset : Nat) (cause : StreamDiscontinuity) (rest : List PendingBreak) :
    List StreamDiscontinuity :=
  cause :: (rest.takeWhile fun mark => mark.1 == offset).map Prod.snd

/-- The breaks behind that place. -/
def behind (offset : Nat) (rest : List PendingBreak) : List PendingBreak :=
  rest.dropWhile fun mark => mark.1 == offset

/-- The geometry a boundary announces. -/
def announced (causes : List StreamDiscontinuity) : Option (F64 × F64) :=
  (causes.foldl mergeGeometry none).bind StreamDiscontinuity.geometry

variable {produced count : Nat} {published : Option (F64 × F64)}

theorem publishLoop_nil : publishLoop produced count published [] = ([], [], published) := by
  rw [publishLoop]

theorem publishLoop_held {offset : Nat} {cause : StreamDiscontinuity} {rest : List PendingBreak}
    (later : count ≤ offset) :
    publishLoop produced count published ((offset, cause) :: rest) =
      ([], (offset, cause) :: rest, published) := by
  rw [publishLoop, if_pos later]

theorem publishLoop_due {offset : Nat} {cause : StreamDiscontinuity} {rest : List PendingBreak}
    (due : offset < count) :
    publishLoop produced count published ((offset, cause) :: rest) =
      (boundaryRecords (produced + offset) (causesAt offset cause rest) ++
          (publishLoop produced count ((announced (causesAt offset cause rest)).or published)
            (behind offset rest)).1,
        (publishLoop produced count ((announced (causesAt offset cause rest)).or published)
          (behind offset rest)).2) := by
  rw [publishLoop, if_neg (by omega)]
  rfl

/-- Induction over the boundaries a publication reports. -/
theorem boundary_induction (count : Nat) {motive : List PendingBreak → Prop} (nil : motive [])
    (held : ∀ offset cause rest, count ≤ offset → motive ((offset, cause) :: rest))
    (due : ∀ offset cause rest, offset < count → motive (behind offset rest) →
      motive ((offset, cause) :: rest)) (pending : List PendingBreak) : motive pending := by
  induction size : pending.length using Nat.strong_induction_on generalizing pending with
  | _ n ih =>
      cases pending with
      | nil => exact nil
      | cons mark rest =>
          obtain ⟨offset, cause⟩ := mark
          by_cases later : count ≤ offset
          · exact held offset cause rest later
          · have shorter : (behind offset rest).length ≤ rest.length :=
              (List.dropWhile_sublist _).length_le
            rw [List.length_cons] at size
            exact due offset cause rest (by omega)
              (ih _ (Nat.lt_of_le_of_lt shorter (by omega)) _ rfl)

/-- The first boundary's marks and the rest make up the queue. -/
theorem mem_pending {offset : Nat} {cause : StreamDiscontinuity} {rest : List PendingBreak}
    (sorted : Sorted ((offset, cause) :: rest)) {o : Nat} {c : StreamDiscontinuity} :
    (o, c) ∈ (offset, cause) :: rest ↔
      (o = offset ∧ c ∈ causesAt offset cause rest) ∨ (o, c) ∈ behind offset rest := by
  have split : rest = (rest.takeWhile fun m => m.1 == offset) ++ behind offset rest :=
    List.takeWhile_append_dropWhile.symm
  constructor
  · intro member
    rcases List.mem_cons.mp member with first | later
    · obtain ⟨rfl, rfl⟩ := Prod.mk.inj first
      exact .inl ⟨rfl, List.mem_cons_self⟩
    · rw [split] at later
      rcases List.mem_append.mp later with here | beyond
      · refine .inl ⟨mem_takeWhile_place here, List.mem_cons_of_mem _ ?_⟩
        exact List.mem_map.mpr ⟨_, here, rfl⟩
      · exact .inr beyond
  · rintro (⟨rfl, here⟩ | beyond)
    · rcases List.mem_cons.mp here with rfl | later
      · exact List.mem_cons_self
      · obtain ⟨⟨o', c'⟩, inside, rfl⟩ := List.mem_map.mp later
        have place := mem_takeWhile_place inside
        dsimp only at place
        subst place
        exact List.mem_cons_of_mem _ (List.takeWhile_sublist _ |>.subset inside)
    · exact List.mem_cons_of_mem _ (List.dropWhile_sublist _ |>.subset beyond)

theorem sorted_behind {offset : Nat} {cause : StreamDiscontinuity} {rest : List PendingBreak}
    (sorted : Sorted ((offset, cause) :: rest)) : Sorted (behind offset rest) :=
  sorted_dropWhile (List.pairwise_cons.mp sorted).2

theorem behind_beyond {offset : Nat} {cause : StreamDiscontinuity} {rest : List PendingBreak}
    (sorted : Sorted ((offset, cause) :: rest)) {o : Nat} {c : StreamDiscontinuity}
    (member : (o, c) ∈ behind offset rest) : offset < o :=
  later_beyond sorted _ member

/-! ## Where the records lie -/

theorem mem_boundaryRecords {index : Nat} {causes : List StreamDiscontinuity} {b : StreamBreak}
    (member : b ∈ boundaryRecords index causes) : b.index = index := by
  rcases List.mem_append.mp member with gap | geometry
  · split at gap
    · rw [List.mem_singleton] at gap
      rw [gap]
    · simp at gap
  · rw [Option.mem_toList, Option.map_eq_some_iff] at geometry
    obtain ⟨cause, -, rfl⟩ := geometry
    rfl

/-- A record is about a break that was pending. -/
theorem publishLoop_place (pending : List PendingBreak) (published : Option (F64 × F64))
    {b : StreamBreak} (member : b ∈ (publishLoop produced count published pending).1) :
    ∃ o c, (o, c) ∈ pending ∧ o < count ∧ b.index = produced + o := by
  induction pending using boundary_induction count generalizing published with
  | nil => simp [publishLoop_nil] at member
  | held offset cause rest later => simp [publishLoop_held later] at member
  | due offset cause rest due ih =>
      rw [publishLoop_due due] at member
      rcases List.mem_append.mp member with here | later
      · exact ⟨offset, cause, List.mem_cons_self, due, mem_boundaryRecords here⟩
      · obtain ⟨o, c, inside, below, place⟩ := ih _ later
        exact ⟨o, c, List.mem_cons_of_mem _ ((List.dropWhile_sublist _).subset inside), below,
          place⟩

/-- What is held back is what lies behind the published samples. -/
theorem mem_publishLoop_held {pending : List PendingBreak} (sorted : Sorted pending)
    (published : Option (F64 × F64)) {o : Nat} {c : StreamDiscontinuity} :
    (o, c) ∈ (publishLoop produced count published pending).2.1 ↔
      (o, c) ∈ pending ∧ count ≤ o := by
  induction pending using boundary_induction count generalizing published with
  | nil => simp [publishLoop_nil]
  | held offset cause rest later =>
      rw [publishLoop_held later]
      exact ⟨fun member => ⟨member, sorted.beyond later _ member⟩, fun both => both.1⟩
  | due offset cause rest due ih =>
      rw [publishLoop_due due]
      dsimp only
      rw [ih (sorted_behind sorted), mem_pending sorted]
      constructor
      · rintro ⟨member, later⟩
        exact ⟨.inr member, later⟩
      · rintro ⟨⟨rfl, -⟩ | member, later⟩
        · omega
        · exact ⟨member, later⟩

theorem sorted_publishLoop_held {pending : List PendingBreak} (sorted : Sorted pending)
    (published : Option (F64 × F64)) :
    Sorted (publishLoop produced count published pending).2.1 := by
  induction pending using boundary_induction count generalizing published with
  | nil => simpa [publishLoop_nil] using sorted
  | held offset cause rest later => simpa [publishLoop_held later] using sorted
  | due offset cause rest due ih =>
      rw [publishLoop_due due]
      exact ih (sorted_behind sorted) _

/-! ## Gaps -/

theorem mergeGeometry_ne_gap {geometry : Option StreamDiscontinuity} {cause : StreamDiscontinuity}
    (clear : geometry ≠ some .gap) : mergeGeometry geometry cause ≠ some .gap := by
  unfold mergeGeometry
  split <;> simp_all

theorem foldl_mergeGeometry_ne_gap (causes : List StreamDiscontinuity)
    {geometry : Option StreamDiscontinuity} (clear : geometry ≠ some .gap) :
    causes.foldl mergeGeometry geometry ≠ some .gap := by
  induction causes generalizing geometry with
  | nil => exact clear
  | cons cause causes ih => exact ih (mergeGeometry_ne_gap clear)

theorem gap_mem_boundaryRecords {index : Nat} {causes : List StreamDiscontinuity} :
    ⟨index, .gap⟩ ∈ boundaryRecords index causes ↔ .gap ∈ causes ∧ index ≠ 0 := by
  have noGeometry : ⟨index, .gap⟩ ∉
      ((causes.foldl mergeGeometry none).map (StreamBreak.mk index)).toList := by
    intro member
    rw [Option.mem_toList, Option.map_eq_some_iff] at member
    obtain ⟨cause, merged, same⟩ := member
    rw [(StreamBreak.mk.inj same).2] at merged
    exact foldl_mergeGeometry_ne_gap causes (by simp) merged
  rw [boundaryRecords, List.mem_append, or_iff_left noGeometry]
  split
  · rename_i both
    simpa using both
  · rename_i other
    simpa using other

/-- A gap is reported just where one was pending, and never at the very start. -/
theorem gap_mem_publishLoop {pending : List PendingBreak} (sorted : Sorted pending)
    (published : Option (F64 × F64)) {o : Nat} (inside : o < count) :
    ⟨produced + o, .gap⟩ ∈ (publishLoop produced count published pending).1 ↔
      (o, .gap) ∈ pending ∧ produced + o ≠ 0 := by
  induction pending using boundary_induction count generalizing published with
  | nil => simp [publishLoop_nil]
  | held offset cause rest later =>
      rw [publishLoop_held later]
      refine ⟨fun member => by simp at member, fun both => ?_⟩
      have past := sorted.beyond later _ both.1
      exact absurd past (Nat.not_le_of_lt inside)
  | due offset cause rest due ih =>
      rw [publishLoop_due due, List.mem_append, ih (sorted_behind sorted), mem_pending sorted]
      by_cases here : o = offset
      · subst here
        rw [gap_mem_boundaryRecords]
        have notLater : (o, StreamDiscontinuity.gap) ∉ behind o rest :=
          fun member => Nat.lt_irrefl _ (behind_beyond sorted member)
        simp [notLater]
      · have notHere : ⟨produced + o, .gap⟩ ∉
            boundaryRecords (produced + offset) (causesAt offset cause rest) := by
          intro member
          have place := mem_boundaryRecords member
          dsimp only at place
          omega
        simp [notHere, here]

theorem publishLoop_gap_index {pending : List PendingBreak} (published : Option (F64 × F64))
    {b : StreamBreak} (member : b ∈ (publishLoop produced count published pending).1)
    (gap : b.cause = .gap) : b.index ≠ 0 := by
  induction pending using boundary_induction count generalizing published with
  | nil => simp [publishLoop_nil] at member
  | held offset cause rest later => simp [publishLoop_held later] at member
  | due offset cause rest due ih =>
      rw [publishLoop_due due] at member
      rcases List.mem_append.mp member with here | behind'
      · obtain ⟨index, cause'⟩ := b
        dsimp only at gap
        subst gap
        obtain rfl : index = produced + offset := mem_boundaryRecords here
        exact (gap_mem_boundaryRecords.mp here).2
      · exact ih _ behind'

/-! ## Order -/

/-- Records come in index order; one index has at most a gap and then a geometry. -/
def InOrder (a b : StreamBreak) : Prop :=
  a.index < b.index ∨ (a.index = b.index ∧ a.cause = .gap ∧ b.cause ≠ .gap)

theorem boundaryRecords_inOrder (index : Nat) (causes : List StreamDiscontinuity) :
    (boundaryRecords index causes).Pairwise InOrder := by
  have fresh : (none : Option StreamDiscontinuity) ≠ some .gap := by simp
  have clear := foldl_mergeGeometry_ne_gap causes fresh
  unfold boundaryRecords
  cases merged : causes.foldl mergeGeometry none with
  | none => split <;> simp
  | some cause =>
      have other : cause ≠ .gap := fun same => clear (same ▸ merged)
      split
      · have ordered : InOrder ⟨index, .gap⟩ ⟨index, cause⟩ := .inr ⟨rfl, rfl, other⟩
        simpa using ordered
      · simp

variable (produced count) in
theorem publishLoop_inOrder {pending : List PendingBreak} (sorted : Sorted pending)
    (published : Option (F64 × F64)) :
    (publishLoop produced count published pending).1.Pairwise InOrder := by
  induction pending using boundary_induction count generalizing published with
  | nil => simp [publishLoop_nil]
  | held offset cause rest later => simp [publishLoop_held later]
  | due offset cause rest due ih =>
      rw [publishLoop_due due, List.pairwise_append]
      refine ⟨boundaryRecords_inOrder _ _, ih (sorted_behind sorted) _, ?_⟩
      intro a here b later
      obtain ⟨o, c, inside, -, place⟩ := publishLoop_place _ _ later
      have beyond := behind_beyond sorted inside
      have first := mem_boundaryRecords here
      exact .inl (by omega)

/-! ## Geometry -/

/-- A record as a mark on the output. -/
def mark (b : StreamBreak) : Nat × StreamDiscontinuity := (b.index, b.cause)

theorem mergeGeometry_geometry (geometry : Option StreamDiscontinuity)
    (cause : StreamDiscontinuity) :
    (mergeGeometry geometry cause).bind StreamDiscontinuity.geometry =
      cause.geometry.or (geometry.bind StreamDiscontinuity.geometry) := by
  cases geometry with
  | none => cases cause <;> rfl
  | some geometry => cases cause <;> cases geometry <;> rfl

/-- A boundary announces the last geometry among its causes. -/
theorem foldl_mergeGeometry {n : Nat} {marks : List PendingBreak}
    (below : ∀ m ∈ marks, m.1 < n) (geometry : Option StreamDiscontinuity) :
    ((marks.map Prod.snd).foldl mergeGeometry geometry).bind StreamDiscontinuity.geometry =
      (latest StreamDiscontinuity.geometry n marks).or
        (geometry.bind StreamDiscontinuity.geometry) := by
  induction marks generalizing geometry with
  | nil => rfl
  | cons m marks ih =>
      rw [List.map_cons, List.foldl_cons,
        ih fun m member => below m (List.mem_cons_of_mem _ member),
        mergeGeometry_geometry, latest, if_pos (below m List.mem_cons_self), Option.or_assoc]

/-- Past a boundary, what was last said is what the marks behind it say, or it. -/
theorem latest_due {n offset : Nat} (cause : StreamDiscontinuity) (rest : List PendingBreak)
    (due : offset < n) :
    latest StreamDiscontinuity.geometry n ((offset, cause) :: rest) =
      (latest StreamDiscontinuity.geometry n (behind offset rest)).or
        (announced (causesAt offset cause rest)) := by
  have split : (offset, cause) :: rest =
      ((offset, cause) :: rest.takeWhile fun m => m.1 == offset) ++ behind offset rest :=
    congrArg _ List.takeWhile_append_dropWhile.symm
  have below : ∀ m ∈ (offset, cause) :: rest.takeWhile (fun m => m.1 == offset), m.1 < n := by
    intro m member
    rcases List.mem_cons.mp member with rfl | inside
    · exact due
    · exact (mem_takeWhile_place inside).trans_lt due
  have merged := foldl_mergeGeometry below none
  rw [Option.bind_none, Option.or_none] at merged
  rw [split, latest_append, ← merged]
  rfl

theorem latest_boundaryRecords (n index : Nat) (causes : List StreamDiscontinuity) :
    latest StreamDiscontinuity.geometry n ((boundaryRecords index causes).map mark) =
      if index < n then announced causes else none := by
  have gap : latest StreamDiscontinuity.geometry n
      ((if StreamDiscontinuity.gap ∈ causes ∧ index ≠ 0 then
        [(⟨index, .gap⟩ : StreamBreak)] else []).map mark) = none := by
    split <;> simp [latest, mark, StreamDiscontinuity.geometry]
  rw [boundaryRecords, List.map_append, latest_append, gap, Option.or_none, announced]
  cases causes.foldl mergeGeometry none <;> simp [latest, mark]

/-- What a publication has said by one of its samples is what was pending there. -/
theorem latest_publishLoop {pending : List PendingBreak} (sorted : Sorted pending)
    (published : Option (F64 × F64)) {j : Nat} (inside : j < count) :
    (latest StreamDiscontinuity.geometry (produced + j + 1)
        ((publishLoop produced count published pending).1.map mark)).or published =
      (latest StreamDiscontinuity.geometry (j + 1) pending).or published := by
  induction pending using boundary_induction count generalizing published with
  | nil => rw [publishLoop_nil]; rfl
  | held offset cause rest later =>
      have beyond := sorted.beyond (n := j + 1) (by omega)
      rw [publishLoop_held later, latest_beyond _ beyond]
      rfl
  | due offset cause rest due ih =>
      rw [publishLoop_due due, List.map_append, latest_append, latest_boundaryRecords,
        Option.or_assoc]
      by_cases reached : offset ≤ j
      · rw [if_pos (by omega), ih (sorted_behind sorted), latest_due cause rest (by omega),
          Option.or_assoc]
      · have beyond := sorted.beyond (n := j + 1) (by omega)
        have late : latest StreamDiscontinuity.geometry (produced + j + 1)
            ((publishLoop produced count ((announced (causesAt offset cause rest)).or published)
              (behind offset rest)).1.map mark) = none := by
          apply latest_beyond
          intro m member
          obtain ⟨b, record, rfl⟩ := List.mem_map.mp member
          obtain ⟨o, c, pending, -, place⟩ := publishLoop_place _ _ record
          have past := behind_beyond sorted pending
          dsimp only [mark]
          omega
        rw [late, if_neg (by omega), latest_beyond _ beyond]
        rfl

/-- The geometry last reported. -/
theorem publishLoop_published (pending : List PendingBreak) (published : Option (F64 × F64)) :
    (publishLoop produced count published pending).2.2 =
      (latest StreamDiscontinuity.geometry (produced + count)
        ((publishLoop produced count published pending).1.map mark)).or published := by
  induction pending using boundary_induction count generalizing published with
  | nil => rw [publishLoop_nil]; rfl
  | held offset cause rest later => rw [publishLoop_held later]; rfl
  | due offset cause rest due ih =>
      rw [publishLoop_due due, List.map_append, latest_append, latest_boundaryRecords,
        if_pos (by omega), Option.or_assoc]
      exact ih _

variable (produced) in
/-- Behind a publication, what was pending still says the same. -/
theorem latest_held {pending : List PendingBreak} (sorted : Sorted pending)
    (published : Option (F64 × F64)) {n : Nat} (behind : count ≤ n) :
    (latest StreamDiscontinuity.geometry n (publishLoop produced count published pending).2.1).or
        (publishLoop produced count published pending).2.2 =
      (latest StreamDiscontinuity.geometry n pending).or published := by
  induction pending using boundary_induction count generalizing published with
  | nil => rw [publishLoop_nil]
  | held offset cause rest later => rw [publishLoop_held later]
  | due offset cause rest due ih =>
      rw [publishLoop_due due]
      dsimp only
      rw [ih (sorted_behind sorted), latest_due cause rest (by omega), Option.or_assoc]

theorem publishLoop_heard {pending : List PendingBreak} (sorted : Sorted pending)
    (published : Option (F64 × F64)) :
    (publishLoop produced count published pending).2.2 =
      (latest StreamDiscontinuity.geometry count pending).or published := by
  have late : ∀ m ∈ (publishLoop produced count published pending).2.1, count ≤ m.1 :=
    fun m member => ((mem_publishLoop_held sorted published).mp member).2
  have held := latest_held produced sorted published (Nat.le_refl count)
  rw [latest_beyond _ late, Option.none_or] at held
  exact held

/-! ## Kinds -/

/-- Among these causes one `initial` opens a stream not opened yet, and then only
retunes follow. -/
def Opens : Bool → List StreamDiscontinuity → Prop
  | _, [] => True
  | opened, .gap :: causes => Opens opened causes
  | opened, .initial _ _ :: causes => opened = false ∧ Opens true causes
  | opened, .retune _ _ :: causes => opened = true ∧ Opens true causes

/-- Whether the stream is open behind these causes. -/
def opened (before : Bool) (causes : List StreamDiscontinuity) : Bool :=
  before || causes.any fun cause => cause.geometry.isSome

@[simp] theorem opened_nil (before : Bool) : opened before [] = before :=
  Bool.or_false before

theorem opened_cons (before : Bool) (cause : StreamDiscontinuity)
    (causes : List StreamDiscontinuity) :
    opened before (cause :: causes) = opened (before || cause.geometry.isSome) causes := by
  simp only [opened, List.any_cons, Bool.or_assoc]

theorem opened_append (before : Bool) (left right : List StreamDiscontinuity) :
    opened before (left ++ right) = opened (opened before left) right := by
  simp only [opened, List.any_append, Bool.or_assoc]

theorem opens_append (before : Bool) (left right : List StreamDiscontinuity) :
    Opens before (left ++ right) ↔ Opens before left ∧ Opens (opened before left) right := by
  induction left generalizing before with
  | nil => simp [Opens]
  | cons cause left ih =>
      rw [List.cons_append, opened_cons]
      cases cause with
      | gap =>
          simp only [Opens, ih, StreamDiscontinuity.geometry, Option.isSome_none, Bool.or_false]
      | initial | retune =>
          simp only [Opens, ih, StreamDiscontinuity.geometry, Option.isSome_some, Bool.or_true,
            and_assoc]

theorem opens_open {causes : List StreamDiscontinuity} (opens : Opens true causes) :
    ∀ cause ∈ causes, cause.isInitial = false := by
  induction causes with
  | nil => exact fun _ member => absurd member List.not_mem_nil
  | cons cause causes ih =>
      intro c member
      cases cause with
      | gap =>
          rcases List.mem_cons.mp member with rfl | inside
          · rfl
          · exact ih opens c inside
      | initial => exact absurd opens.1 (by simp)
      | retune =>
          rcases List.mem_cons.mp member with rfl | inside
          · rfl
          · exact ih opens.2 c inside

/-- The first announcement of a stream is `initial`, and no other is. -/
theorem opens_first {β : Type} {f : β → StreamDiscontinuity} {l : List β}
    (opens : Opens false (l.map f)) :
    l.filter (fun b => (f b).geometry.isSome) = [] ∨
      ∃ first rest, l.filter (fun b => (f b).geometry.isSome) = first :: rest ∧
        (f first).isInitial = true ∧ ∀ b ∈ rest, (f b).isInitial = false := by
  induction l with
  | nil => exact .inl rfl
  | cons b l ih =>
      rw [List.map_cons] at opens
      cases kind : f b with
      | gap =>
          rw [kind] at opens
          rw [List.filter_cons_of_neg (by simp [kind, StreamDiscontinuity.geometry])]
          exact ih opens
      | initial centerHz rateHz =>
          rw [kind] at opens
          refine .inr ⟨b, _, List.filter_cons_of_pos
            (by simp [kind, StreamDiscontinuity.geometry]), ?_, ?_⟩
          · rw [kind]
            rfl
          · intro later member
            exact opens_open opens.2 _ (List.mem_map_of_mem (List.mem_of_mem_filter member))
      | retune =>
          rw [kind] at opens
          exact absurd opens.1 (by simp)

/-- Gaps open nothing. -/
theorem opens_filter {marks : List PendingBreak} {p : PendingBreak → Bool}
    (gaps : ∀ m ∈ marks, p m = false → m.2 = .gap) (before : Bool) :
    Opens before ((marks.filter p).map Prod.snd) ↔ Opens before (marks.map Prod.snd) := by
  induction marks generalizing before with
  | nil => exact Iff.rfl
  | cons m marks ih =>
      have later := fun b => ih (fun m member => gaps m (List.mem_cons_of_mem _ member)) b
      cases kept : p m with
      | true =>
          rw [List.filter_cons_of_pos kept, List.map_cons, List.map_cons]
          cases m.2 <;> simp only [Opens, later]
      | false =>
          rw [List.filter_cons_of_neg (by simp [kept]), List.map_cons,
            gaps m List.mem_cons_self kept]
          exact later before

/-- Merging two neighbours keeps the stream's kinds. -/
theorem opens_mergeGeometry {before : Bool} {geometry : Option StreamDiscontinuity}
    {cause : StreamDiscontinuity} (clear : geometry ≠ some .gap)
    (opens : Opens before (geometry.toList ++ [cause])) :
    Opens before (mergeGeometry geometry cause).toList ∧
      opened before (mergeGeometry geometry cause).toList =
        opened before (geometry.toList ++ [cause]) := by
  cases geometry with
  | none =>
      cases cause <;>
        simp_all [mergeGeometry, Opens, opened_cons, StreamDiscontinuity.geometry]
  | some geometry =>
      cases geometry <;> cases cause <;>
        simp_all [mergeGeometry, Opens, opened_cons, StreamDiscontinuity.geometry]

theorem opens_foldl {before : Bool} (causes : List StreamDiscontinuity)
    {geometry : Option StreamDiscontinuity} (clear : geometry ≠ some .gap)
    (opens : Opens before (geometry.toList ++ causes)) :
    Opens before (causes.foldl mergeGeometry geometry).toList ∧
      opened before (causes.foldl mergeGeometry geometry).toList =
        opened before (geometry.toList ++ causes) := by
  induction causes generalizing geometry with
  | nil => simpa using opens
  | cons cause causes ih =>
      rw [List.append_cons, opens_append] at opens
      obtain ⟨merged, same⟩ := opens_mergeGeometry clear opens.1
      have rest : Opens before ((mergeGeometry geometry cause).toList ++ causes) := by
        rw [opens_append, same]
        exact ⟨merged, opens.2⟩
      obtain ⟨all, whole⟩ := ih (mergeGeometry_ne_gap clear) rest
      refine ⟨all, whole.trans ?_⟩
      rw [List.append_cons, opened_append, opened_append, same]

/-- One boundary's records open the stream as its causes do. -/
theorem opens_boundaryRecords {before : Bool} (index : Nat) {causes : List StreamDiscontinuity}
    (opens : Opens before causes) :
    Opens before ((boundaryRecords index causes).map StreamBreak.cause) ∧
      opened before ((boundaryRecords index causes).map StreamBreak.cause) =
        opened before causes := by
  have fresh : (none : Option StreamDiscontinuity) ≠ some .gap := by simp
  obtain ⟨merged, same⟩ := opens_foldl causes fresh opens
  have gapless : ∀ (p : Prop) [Decidable p] (later : List StreamDiscontinuity),
      (Opens before ((if p then [StreamDiscontinuity.gap] else []) ++ later) ↔
        Opens before later) ∧
      opened before ((if p then [StreamDiscontinuity.gap] else []) ++ later) =
        opened before later := by
    intro p _ later
    split
    · refine ⟨Iff.rfl, ?_⟩
      rw [List.singleton_append, opened_cons]
      exact congrArg (opened · later) (Bool.or_false before)
    · exact ⟨Iff.rfl, rfl⟩
  have shape : (boundaryRecords index causes).map StreamBreak.cause =
      (if StreamDiscontinuity.gap ∈ causes ∧ index ≠ 0 then [StreamDiscontinuity.gap] else []) ++
        (causes.foldl mergeGeometry none).toList := by
    rw [boundaryRecords, List.map_append]
    congr 1
    · split <;> rfl
    · cases causes.foldl mergeGeometry none <;> rfl
  rw [shape, (gapless _ _).1, (gapless _ _).2]
  exact ⟨merged, same⟩

theorem announced_isSome {published : Option (F64 × F64)} {causes : List StreamDiscontinuity}
    (opens : Opens published.isSome causes) :
    ((announced causes).or published).isSome = opened published.isSome causes := by
  have fresh : (none : Option StreamDiscontinuity) ≠ some .gap := by simp
  have same := (opens_foldl causes fresh opens).2
  rw [Option.toList_none, List.nil_append] at same
  rw [announced, ← same]
  cases causes.foldl mergeGeometry none <;>
    simp [opened_cons, Option.isSome_or, Bool.or_comm]

variable (produced count) in
/-- A publication opens the stream as what was pending would have. -/
theorem opens_publishLoop {pending : List PendingBreak} {published : Option (F64 × F64)}
    (opens : Opens published.isSome (pending.map Prod.snd)) :
    let out := publishLoop produced count published pending
    Opens published.isSome (out.1.map StreamBreak.cause) ∧
      opened published.isSome (out.1.map StreamBreak.cause) = out.2.2.isSome ∧
      Opens out.2.2.isSome (out.2.1.map Prod.snd) ∧
      opened out.2.2.isSome (out.2.1.map Prod.snd) =
        opened published.isSome (pending.map Prod.snd) := by
  intro out
  induction pending using boundary_induction count generalizing published with
  | nil => simpa [out, publishLoop_nil] using opens
  | held offset cause rest later =>
      simp only [out, publishLoop_held later]
      exact ⟨trivial, opened_nil _, opens, trivial⟩
  | due offset cause rest due ih =>
      have split : ((offset, cause) :: rest).map Prod.snd =
          causesAt offset cause rest ++ (behind offset rest).map Prod.snd := by
        rw [causesAt, behind, List.cons_append, ← List.map_append,
          List.takeWhile_append_dropWhile, List.map_cons]
      rw [split, opens_append] at opens
      obtain ⟨records, same⟩ := opens_boundaryRecords (produced + offset) opens.1
      have announced := announced_isSome opens.1
      rw [← announced] at opens same
      obtain ⟨all, told, held, whole⟩ := ih opens.2
      simp only [out, publishLoop_due due, List.map_append, opens_append, opened_append, same]
      refine ⟨⟨records, all⟩, told, held, ?_⟩
      rw [whole, split, opened_append, announced]

end SdrAaronia.HttpSource
