import SdrAaronia.Lib.Delimited

/-! # Frames: a delimited header and a payload of declared size

A frame is a good text, a separator of one symbol (or of two, where a terminator
and its follower pair up), and as many payload symbols as the header declares.
`frames` is the list of frames a whole sequence holds; `remainder` is what is
left waiting.  The results here say that reading a sequence in pieces, carrying
the remainder over, finds exactly the frames of the whole sequence.
-/

namespace Framing

open Delimited

/-- A header grammar with the separator, the payload size and the reading of a frame. -/
structure Format (β μ ι : Type) extends Grammar β μ where
  /-- The follower belongs to the separator its terminator began. -/
  pairs : β → β → Bool
  size : μ → Nat
  item : μ → List β → List β → ι
  pairs_shut : ∀ stop follower, pairs stop follower = true → opens follower = false

/-- A frame as it was read: the header's value and what the frame meant. -/
structure Frame (μ ι : Type) where
  header : μ
  item : ι
  deriving DecidableEq

namespace Format

variable {β μ ι : Type} (f : Format β μ ι)

/-- Length of the separator at the head of `rest`, which starts at a terminator. -/
def separator : List β → Nat
  | stop :: follower :: _ => if f.pairs stop follower then 2 else 1
  | _ => 1

/-- The frame at the front of the buffer, if it is complete, and what follows it. -/
def next (buffer : List β) : Option (Frame μ ι × List β) :=
  match f.firstMatch buffer with
  | none => none
  | some m =>
      let body := m.rest.drop (f.separator m.rest)
      if f.size m.value ≤ body.length then
        some (⟨m.value, f.item m.value m.text (body.take (f.size m.value))⟩,
          body.drop (f.size m.value))
      else none

theorem next_eq_some {buffer : List β} {m : Match β μ} (found : f.firstMatch buffer = some m)
    (complete : f.size m.value ≤ (m.rest.drop (f.separator m.rest)).length) :
    f.next buffer =
      some (⟨m.value, f.item m.value m.text
          ((m.rest.drop (f.separator m.rest)).take (f.size m.value))⟩,
        (m.rest.drop (f.separator m.rest)).drop (f.size m.value)) := by
  simp only [next, found, if_pos complete]

/-- Everything a frame at the front says about the buffer. -/
theorem next_cases {buffer rest : List β} {frame : Frame μ ι}
    (here : f.next buffer = some (frame, rest)) :
    ∃ m, f.firstMatch buffer = some m ∧ frame.header = m.value ∧
      f.size m.value ≤ (m.rest.drop (f.separator m.rest)).length ∧
      frame.item = f.item m.value m.text
        ((m.rest.drop (f.separator m.rest)).take (f.size m.value)) ∧
      rest = (m.rest.drop (f.separator m.rest)).drop (f.size m.value) := by
  simp only [next] at here
  split at here
  · simp at here
  · rename_i m found
    split at here
    · rename_i complete
      simp only [Option.some.injEq, Prod.mk.injEq] at here
      obtain ⟨rfl, rfl⟩ := here
      exact ⟨m, found, rfl, complete, rfl, rfl⟩
    · simp at here

theorem separator_pos (rest : List β) : 0 < f.separator rest := by
  unfold separator
  split
  · split <;> omega
  · omega

/-- A frame uses up its payload and at least its separator. -/
theorem next_length {buffer rest : List β} {frame : Frame μ ι}
    (here : f.next buffer = some (frame, rest)) :
    rest.length + f.size frame.header < buffer.length := by
  obtain ⟨m, found, header, complete, -, rfl⟩ := f.next_cases here
  obtain ⟨-, size, ⟨stop, after, shape, -⟩, -, -⟩ := f.firstMatch_layout found
  have separated := f.separator_pos m.rest
  simp only [List.length_drop] at complete ⊢
  rw [header]
  have : 0 < m.rest.length := by simp [shape]
  omega

/-- Every frame in the buffer, in order. -/
def frames (buffer : List β) : List (Frame μ ι) :=
  match _h : f.next buffer with
  | none => []
  | some (frame, rest) => frame :: frames rest
termination_by buffer.length
decreasing_by
  have := f.next_length _h
  omega

/-- What is left once every complete frame has been read. -/
def remainder (buffer : List β) : List β :=
  match _h : f.next buffer with
  | none => buffer
  | some (_, rest) => remainder rest
termination_by buffer.length
decreasing_by
  have := f.next_length _h
  omega

/-- The header waiting for its payload, if one is. -/
def waiting (buffer : List β) : Option μ := (f.firstMatch (f.remainder buffer)).map Match.value

/-- Every header found in the buffer, the one still waiting included. -/
def headers (buffer : List β) : List μ :=
  (f.frames buffer).map Frame.header ++ (f.waiting buffer).toList

/-- No complete frame is at the front. -/
def Settled (buffer : List β) : Prop := f.next buffer = none

theorem frames_settled {buffer : List β} (settled : f.Settled buffer) : f.frames buffer = [] := by
  rw [frames]
  split
  · rfl
  · rename_i here
    exact absurd (settled.symm.trans here) (by simp)

theorem remainder_of_settled {buffer : List β} (settled : f.Settled buffer) :
    f.remainder buffer = buffer := by
  rw [remainder]
  split
  · rfl
  · rename_i here
    exact absurd (settled.symm.trans here) (by simp)

theorem frames_next {buffer rest : List β} {frame : Frame μ ι}
    (here : f.next buffer = some (frame, rest)) :
    f.frames buffer = frame :: f.frames rest := by
  rw [frames]
  split
  · rename_i none'
    exact absurd (none'.symm.trans here) (by simp)
  · rename_i frame' rest' here'
    have same := Option.some.inj (here'.symm.trans here)
    obtain ⟨rfl, rfl⟩ := Prod.mk.inj same
    rfl

theorem remainder_next {buffer rest : List β} {frame : Frame μ ι}
    (here : f.next buffer = some (frame, rest)) : f.remainder buffer = f.remainder rest := by
  rw [remainder]
  split
  · rename_i none'
    exact absurd (none'.symm.trans here) (by simp)
  · rename_i rest' here'
    have same := Option.some.inj (here'.symm.trans here)
    obtain ⟨-, rfl⟩ := Prod.mk.inj same
    rfl

/-- Induction over the frames at the front of a buffer. -/
theorem frame_induction {motive : List β → Prop}
    (settled : ∀ buffer, f.Settled buffer → motive buffer)
    (frame : ∀ buffer frame rest, f.next buffer = some (frame, rest) → motive rest →
      motive buffer) (buffer : List β) : motive buffer := by
  induction size : buffer.length using Nat.strong_induction_on generalizing buffer with
  | _ n ih =>
      cases here : f.next buffer with
      | none => exact settled buffer here
      | some read =>
          have shorter := f.next_length here
          exact frame buffer read.1 read.2 here (ih _ (by omega) _ rfl)

theorem settled_nil : f.Settled [] := rfl

theorem remainder_settled (buffer : List β) : f.Settled (f.remainder buffer) := by
  induction buffer using f.frame_induction with
  | settled buffer settled => rwa [f.remainder_of_settled settled]
  | frame buffer frame rest here ih => rwa [f.remainder_next here]

/-- The first header found is among the headers. -/
theorem firstMatch_header {buffer : List β} {m : Match β μ}
    (found : f.firstMatch buffer = some m) : m.value ∈ f.headers buffer := by
  cases here : f.next buffer with
  | none =>
      refine List.mem_append_right _ ?_
      simp [waiting, f.remainder_of_settled here, found]
  | some read =>
      obtain ⟨m', found', header, -, -, -⟩ := f.next_cases here
      obtain rfl : m' = m := Option.some.inj (found'.symm.trans found)
      simp [headers, f.frames_next here, header]

/-! ## Buffers that read alike -/

/-- Two buffers whose first match stays the same, its place apart, whatever
arrives behind them. -/
def Same (left right : List β) : Prop :=
  ∀ more, (f.firstMatch (left ++ more)).map Match.unplaced =
    (f.firstMatch (right ++ more)).map Match.unplaced

theorem Same.refl (buffer : List β) : f.Same buffer buffer := fun _ => rfl

variable {f} in
theorem Same.trans {left middle right : List β} (first : f.Same left middle)
    (second : f.Same middle right) : f.Same left right :=
  fun more => (first more).trans (second more)

/-- What a search that found no text may discard does not show. -/
theorem same_drop_spent {buffer : List β} (missing : f.firstMatch buffer = none) :
    f.Same (buffer.drop (f.spent buffer)) buffer := by
  intro more
  rw [f.firstMatch_drop_spent missing more, Option.map_map]
  rfl

/-- A symbol that opens nothing is invisible at the front. -/
theorem same_shut {b : β} (shut : f.opens b = false) (buffer : List β) :
    f.Same (b :: buffer) buffer := by
  intro more
  rw [List.cons_append, f.firstMatch_shut shut, Option.map_map]
  rfl

variable {f}

theorem Same.append {left right : List β} (same : f.Same left right) (more : List β) :
    f.Same (left ++ more) (right ++ more) := by
  intro later
  rw [List.append_assoc, List.append_assoc]
  exact same (more ++ later)

theorem Same.firstMatch {left right : List β} (same : f.Same left right) :
    (f.firstMatch left).map Match.unplaced = (f.firstMatch right).map Match.unplaced := by
  simpa using same []

theorem Same.next {left right : List β} (same : f.Same left right) :
    f.next left = f.next right := by
  have matched := same.firstMatch
  simp only [Format.next]
  cases leftMatch : f.firstMatch left <;> cases rightMatch : f.firstMatch right <;>
    simp_all [Match.unplaced]

theorem Same.frames {left right : List β} (same : f.Same left right) :
    f.frames left = f.frames right := by
  cases here : f.next right with
  | none => rw [f.frames_settled here, f.frames_settled (same.next.trans here)]
  | some read => rw [f.frames_next here, f.frames_next (same.next.trans here)]

theorem Same.waiting {left right : List β} (same : f.Same left right) :
    f.waiting left = f.waiting right := by
  cases here : f.next right with
  | none =>
      have matched := congrArg (Option.map Match.value) same.firstMatch
      rw [Option.map_map, Option.map_map] at matched
      rw [Format.waiting, Format.waiting, f.remainder_of_settled here,
        f.remainder_of_settled (same.next.trans here)]
      exact matched
  | some read =>
      rw [Format.waiting, Format.waiting, f.remainder_next here,
        f.remainder_next (same.next.trans here)]

theorem Same.headers {left right : List β} (same : f.Same left right) :
    f.headers left = f.headers right := by
  rw [Format.headers, Format.headers, same.frames, same.waiting]

theorem Same.symm {left right : List β} (same : f.Same left right) : f.Same right left :=
  fun more => (same more).symm

variable (f) in
/-- Two buffers that keep the same unfinished end, whatever arrives behind them. -/
def SameEnd (left right : List β) : Prop :=
  ∀ more, f.leftover (left ++ more) = f.leftover (right ++ more)

theorem SameEnd.append {left right : List β} (same : f.SameEnd left right) (more : List β) :
    f.SameEnd (left ++ more) (right ++ more) := by
  intro later
  rw [List.append_assoc, List.append_assoc]
  exact same (more ++ later)

theorem SameEnd.leftover {left right : List β} (same : f.SameEnd left right) :
    f.leftover left = f.leftover right := by
  simpa using same []

variable (f)

/-! ## Reading in pieces -/

/-- A frame stays as it is when more arrives.  Only an empty payload behind half
a separator sees a difference: the other half is then consumed with it. -/
theorem next_append {buffer rest : List β} {frame : Frame μ ι}
    (here : f.next buffer = some (frame, rest)) (more : List β) :
    f.next (buffer ++ more) = some (frame, rest ++ more) ∨
      ∃ follower tail, more = follower :: tail ∧ rest = [] ∧ f.opens follower = false ∧
        f.next (buffer ++ more) = some (frame, tail) := by
  obtain ⟨m, found, header, complete, item, rfl⟩ := f.next_cases here
  obtain ⟨frameHeader, frameItem⟩ := frame
  obtain rfl : frameHeader = m.value := header
  obtain rfl : frameItem = _ := item
  have extended := f.firstMatch_append found more
  obtain ⟨-, -, ⟨stop, after, shape, -⟩, -, -⟩ := f.firstMatch_layout found
  cases after with
  | cons follower after =>
      -- the separator is already decided
      left
      have same : f.separator (m.rest ++ more) = f.separator m.rest := by
        simp only [shape, List.cons_append, separator]
      have long : f.separator m.rest ≤ m.rest.length := by
        simp only [shape, separator]
        split <;> simp
      have body : (m.rest ++ more).drop (f.separator m.rest) =
          m.rest.drop (f.separator m.rest) ++ more := List.drop_append_of_le_length long
      rw [f.next_eq_some extended (by
        simp only [Match.extend_value, Match.extend_rest, same, body, List.length_append]
        omega)]
      simp only [Match.extend_value, Match.extend_rest, Match.extend_text, same, body,
        List.take_append_of_le_length complete, List.drop_append_of_le_length complete]
  | nil =>
      have one : f.separator m.rest = 1 := by simp only [shape, separator]
      have none' : m.rest.drop (f.separator m.rest) = [] := by rw [one, shape]; rfl
      have zero : f.size m.value = 0 := by simpa [none'] using complete
      have empty : ∀ x, f.separator (stop :: more) = x →
          f.next (buffer ++ more) = some (⟨m.value, f.item m.value m.text []⟩,
            (stop :: more).drop x) := by
        rintro x rfl
        rw [f.next_eq_some extended (by simp [zero])]
        simp [zero, shape]
      simp only [none', zero, List.take_nil, List.drop_nil, List.nil_append]
      cases more with
      | nil => exact .inl (by simpa [separator] using empty 1 rfl)
      | cons follower tail =>
          by_cases paired : f.pairs stop follower = true
          · refine .inr ⟨follower, tail, rfl, trivial, f.pairs_shut _ _ paired, ?_⟩
            simpa using empty 2 (by simp [separator, paired])
          · exact .inl (by simpa using empty 1 (by simp [separator, paired]))

/-- **Reading on from the remainder finds the rest of the frames.** -/
theorem frames_append (buffer more : List β) :
    f.frames (buffer ++ more) = f.frames buffer ++ f.frames (f.remainder buffer ++ more) := by
  induction buffer using f.frame_induction with
  | settled buffer settled =>
      rw [f.frames_settled settled, f.remainder_of_settled settled, List.nil_append]
  | frame buffer frame rest here ih =>
      rw [f.frames_next here, f.remainder_next here, List.cons_append, ← ih]
      rcases f.next_append here more with same | ⟨follower, tail, rfl, rfl, shut, same⟩
      · rw [f.frames_next same]
      · rw [f.frames_next same, List.nil_append, (f.same_shut shut tail).frames]

theorem waiting_append (buffer more : List β) :
    f.waiting (buffer ++ more) = f.waiting (f.remainder buffer ++ more) := by
  induction buffer using f.frame_induction with
  | settled buffer settled => rw [f.remainder_of_settled settled]
  | frame buffer frame rest here ih =>
      rw [f.remainder_next here, ← ih]
      rcases f.next_append here more with same | ⟨follower, tail, rfl, rfl, shut, same⟩
      · rw [waiting, waiting, f.remainder_next same]
      · rw [waiting, f.remainder_next same, List.nil_append, (f.same_shut shut tail).waiting,
          waiting]

theorem headers_append (buffer more : List β) :
    f.headers (buffer ++ more) =
      (f.frames buffer).map Frame.header ++ f.headers (f.remainder buffer ++ more) := by
  simp only [headers, f.frames_append buffer more, f.waiting_append buffer more, List.map_append,
    List.append_assoc]

/-- A header found in a prefix is found in the whole. -/
theorem headers_prefix {buffer : List β} {header : μ} (found : header ∈ f.headers buffer)
    (more : List β) : header ∈ f.headers (buffer ++ more) := by
  rw [headers_append]
  rcases List.mem_append.mp found with framed | waits
  · exact List.mem_append_left _ framed
  · refine List.mem_append_right _ ?_
    simp only [waiting, Option.mem_toList, Option.map_eq_some_iff] at waits
    obtain ⟨m, matched, rfl⟩ := waits
    have extended := f.firstMatch_header (f.firstMatch_append matched more)
    rwa [Match.extend_value] at extended

variable {f} in
theorem Same.remainder {left right : List β} (same : f.Same left right) :
    f.Same (f.remainder left) (f.remainder right) := by
  cases here : f.next right with
  | none =>
      rwa [f.remainder_of_settled here, f.remainder_of_settled (same.next.trans here)]
  | some read =>
      rw [f.remainder_next here, f.remainder_next (same.next.trans here)]
      exact Same.refl f _

theorem same_remainder_append (buffer more : List β) :
    f.Same (f.remainder (f.remainder buffer ++ more)) (f.remainder (buffer ++ more)) := by
  induction buffer using f.frame_induction with
  | settled buffer settled =>
      rw [f.remainder_of_settled settled]
      exact Same.refl f _
  | frame buffer frame rest here ih =>
      rw [f.remainder_next here]
      rcases f.next_append here more with same | ⟨follower, tail, rfl, rfl, shut, same⟩
      · rw [f.remainder_next same]
        exact ih
      · rw [f.remainder_next same]
        exact ih.trans (f.same_shut shut tail).remainder

/-! ## Frames that were incomplete -/

/-- A frame that was incomplete ends among the symbols that complete it. -/
theorem next_late {buffer more rest : List β} {frame : Frame μ ι} (settled : f.Settled buffer)
    (here : f.next (buffer ++ more) = some (frame, rest)) : rest.length ≤ more.length := by
  obtain ⟨m, found, -, complete, -, rfl⟩ := f.next_cases here
  obtain ⟨-, total, ⟨stop, after, shape, -⟩, -, -⟩ := f.firstMatch_layout found
  have separated := f.separator_pos m.rest
  have nonempty : 0 < m.rest.length := by simp [shape]
  simp only [List.length_append] at total
  cases before : f.firstMatch buffer with
  | none =>
      have late := f.firstMatch_late before found
      simp only [List.length_drop]
      omega
  | some early =>
      have extended := f.firstMatch_append before more
      obtain rfl : m = early.extend more := Option.some.inj (found.symm.trans extended)
      obtain ⟨-, size, -, -, -⟩ := f.firstMatch_layout before
      simp only [Settled, next, before, ite_eq_right_iff, reduceCtorEq, imp_false,
        not_le] at settled
      simp only [Match.extend_value, Match.extend_rest, Match.extend_before, Match.extend_text,
        List.length_drop, List.length_append] at settled complete total ⊢
      have grows : f.separator early.rest ≤ f.separator (early.rest ++ more) := by
        cases early.rest with
        | nil => exact f.separator_pos more
        | cons stop rest =>
            cases rest with
            | nil => exact f.separator_pos (stop :: more)
            | cons follower rest => exact le_refl _
      omega

/-! ## Texts that fail -/

/-- How many terminated texts fail ahead of a frame or of the end. -/
def rejected (buffer : List β) : Nat :=
  match _h : f.next buffer with
  | none => f.rejections buffer
  | some (_, rest) => f.rejections buffer + rejected rest
termination_by buffer.length
decreasing_by
  have := f.next_length _h
  omega

theorem rejected_settled {buffer : List β} (settled : f.Settled buffer) :
    f.rejected buffer = f.rejections buffer := by
  rw [rejected]
  split
  · rfl
  · rename_i here
    cases settled.symm.trans here

theorem rejected_next {buffer rest : List β} {frame : Frame μ ι}
    (here : f.next buffer = some (frame, rest)) :
    f.rejected buffer = f.rejections buffer + f.rejected rest := by
  rw [rejected]
  split
  · rename_i none'
    cases none'.symm.trans here
  · rename_i rest' here'
    have same := Option.some.inj (here'.symm.trans here)
    obtain ⟨-, rfl⟩ := Prod.mk.inj same
    rfl

/-- Buffers with one next frame differ by what fails ahead of it. -/
theorem rejected_same_next {left right : List β} (same : f.next left = f.next right) :
    f.rejected left + f.rejections right = f.rejections left + f.rejected right := by
  cases here : f.next right with
  | none =>
      rw [f.rejected_settled here, f.rejected_settled (same.trans here)]
  | some read =>
      rw [f.rejected_next here, f.rejected_next (same.trans here)]
      omega

theorem rejected_shut {b : β} (shut : f.opens b = false) (buffer : List β) :
    f.rejected (b :: buffer) = f.rejected buffer := by
  have shutOne : ∀ c ∈ [b], f.opens c = false := by
    intro c member
    rw [List.mem_singleton.mp member]
    exact shut
  have quiet : f.rejections (b :: buffer) = f.rejections buffer :=
    f.rejections_quiet shutOne buffer
  have count := f.rejected_same_next (f.same_shut shut buffer).next
  omega

/-- **Reading on from the remainder rejects the rest.**  What failed in the remainder fails
again. -/
theorem rejected_append (buffer more : List β) :
    f.rejected (buffer ++ more) + f.rejections (f.remainder buffer) =
      f.rejected buffer + f.rejected (f.remainder buffer ++ more) := by
  induction buffer using f.frame_induction with
  | settled buffer settled =>
      rw [f.remainder_of_settled settled, f.rejected_settled settled, Nat.add_comm]
  | frame buffer frame rest here ih =>
      obtain ⟨m, found, -⟩ := f.next_cases here
      have ahead := f.rejections_append found more
      rw [f.remainder_next here, f.rejected_next here]
      rcases f.next_append here more with same | ⟨follower, tail, rfl, rfl, shut, same⟩
      · rw [f.rejected_next same, ahead]
        omega
      · rw [List.nil_append, f.rejected_shut shut tail] at ih
        rw [f.rejected_next same, ahead]
        omega

/-- What of a buffer without a frame is worth keeping: all of it behind a header that waits
for its payload, else what is not spent. -/
def kept (buffer : List β) : List β :=
  if (f.firstMatch buffer).isSome then buffer else buffer.drop (f.spent buffer)

theorem same_kept (buffer : List β) : f.Same (f.kept buffer) buffer := by
  rw [kept]
  split
  · exact Same.refl f buffer
  · rename_i missing
    exact f.same_drop_spent (Option.not_isSome_iff_eq_none.mp missing)

theorem kept_settled {buffer : List β} (settled : f.Settled buffer) :
    f.Settled (f.kept buffer) :=
  (f.same_kept buffer).next.trans settled

/-- What fails behind a buffer without a frame is what failed in it and is not kept, and
what fails behind what is kept. -/
theorem rejected_kept {buffer : List β} (settled : f.Settled buffer) (more : List β) :
    f.rejected (buffer ++ more) + f.rejected (f.kept buffer) =
      f.rejections buffer + f.rejected (f.kept buffer ++ more) := by
  rw [f.rejected_settled (f.kept_settled settled)]
  rw [kept]
  split
  · exact Nat.add_comm _ _
  · rename_i found
    have missing := Option.not_isSome_iff_eq_none.mp found
    obtain ⟨-, none'⟩ := f.drop_spent_counts missing []
    obtain ⟨-, count⟩ := f.drop_spent_counts missing more
    have same := f.rejected_same_next ((f.same_drop_spent missing).append more).next
    rw [List.append_nil, List.append_nil] at none'
    omega

/-! ## Writing frames -/

/-- **A well-delimited frame is read back, and reading goes on right behind it.**
The symbols ahead of it may be anything no good text starts in. -/
theorem next_written {dead quiet body rest : List β} {first : β} {stop : β}
    {value : μ} {separators : List β}
    (failed : ∀ k < dead.length,
      f.candidate (dead.drop k ++ ((first :: quiet) ++ stop :: (separators ++ body ++ rest))) =
        none)
    (opened : f.opens first = true) (clear : ∀ b ∈ first :: quiet, f.stops b = false)
    (isStop : f.stops stop = true) (parses : f.parse (first :: quiet) = some value)
    (separated : f.separator (stop :: (separators ++ body ++ rest)) = separators.length + 1)
    (size : body.length = f.size value) :
    f.next (dead ++ ((first :: quiet) ++ stop :: (separators ++ body ++ rest))) =
      some (⟨value, f.item value (first :: quiet) body⟩, rest) := by
  have matched := f.firstMatch_dead _ failed
  rw [f.firstMatch_written opened clear isStop parses, Option.map_some] at matched
  have payload : ((stop :: (separators ++ body ++ rest)).drop (separators.length + 1)) =
      body ++ rest := by
    rw [List.drop_succ_cons, List.append_assoc, List.drop_left]
  have here := f.next_eq_some matched (by
    simp only [Match.shift_value, Match.shift_rest, separated, payload, List.length_append]
    omega)
  simpa only [Match.shift_value, Match.shift_rest, Match.shift_text, separated, payload, ← size,
    List.take_left, List.drop_left] using here

end Format
end Framing
