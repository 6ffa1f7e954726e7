import SdrAaronia.Lib.Framing
import SdrAaronia.HttpStreaming.Metadata

/-! # The header scan

`scanPacketHeader` is the one framing implementation of the crate: it walks the
buffer terminator by terminator and tries every brace of a region against the
terminator they share.  `scanPacketHeader_eq` says that this finds what the
naive search of `Delimited` finds.
-/

namespace SdrAaronia.HttpStreaming

open Delimited

def asciiRecordSeparator : UInt8 := 30
def asciiLineFeed : UInt8 := 10
def openBrace : UInt8 := 123

def isBrace (b : UInt8) : Bool := b == openBrace
def isTerminator (b : UInt8) : Bool := b == asciiRecordSeparator || b == asciiLineFeed

/-- Outcome of the scan: a complete header, or how much of the buffer is spent
while waiting for more data. -/
inductive HeaderScan where
  | header (metadata : PacketMetadata) (json : Nat × Nat) (payloadStart rejected : Nat)
  | incomplete (skippable rejected : Nat)
  deriving DecidableEq, Repr

/-- `bytes[start..stop]`. -/
def slice (bytes : Bytes) (start stop : Nat) : Bytes := (bytes.take stop).drop start

/-- `iter().position(..)`. -/
def position (p : UInt8 → Bool) (bytes : Bytes) : Option Nat := bytes.findIdx? p

theorem position_lt {p bytes k} (found : position p bytes = some k) : k < bytes.length := by
  obtain ⟨inside, -⟩ := List.findIdx?_eq_some_iff_getElem.mp found
  exact inside

/-- Every brace of the region is a candidate ending at `stop`. -/
def tryCandidates (deserialize : Bytes → Option PacketMetadata) (buf : Bytes)
    (stop candidate rejected : Nat) : Option (PacketMetadata × Nat) × Nat :=
  match deserialize (slice buf candidate stop) with
  | some metadata => (some (metadata, candidate), rejected)
  | none =>
      match _h : position isBrace (slice buf (candidate + 1) stop) with
      | some next => tryCandidates deserialize buf stop (candidate + 1 + next) (rejected + 1)
      | none => (none, rejected + 1)
termination_by stop - candidate
decreasing_by
  have := position_lt _h
  simp only [slice, List.length_drop, List.length_take] at this
  omega

/-- Past the terminator, and past the record separator that follows a line feed. -/
def payloadStartAt (buf : Bytes) (stop : Nat) : Nat :=
  if buf[stop]? = some asciiLineFeed ∧ buf[stop + 1]? = some asciiRecordSeparator then stop + 2
  else stop + 1

def scanFrom (deserialize : Bytes → Option PacketMetadata) (buf : Bytes) (pos rejected : Nat) :
    HeaderScan :=
  match _brace : position isBrace (buf.drop pos) with
  | none => .incomplete buf.length rejected
  | some start =>
      match _stop : position isTerminator (buf.drop (pos + start)) with
      | none => .incomplete (pos + start) rejected
      | some stop =>
          match tryCandidates deserialize buf (pos + start + stop) (pos + start) rejected with
          | (some (metadata, candidate), rejected) =>
              .header metadata (candidate, pos + start + stop)
                (payloadStartAt buf (pos + start + stop)) rejected
          -- nothing in this region was a header; the terminator is spent with it
          | (none, rejected) => scanFrom deserialize buf (pos + start + stop + 1) rejected
termination_by buf.length - pos
decreasing_by
  have := position_lt _stop
  rw [List.length_drop] at this
  omega

def scanPacketHeader (deserialize : Bytes → Option PacketMetadata) (buf : Bytes) : HeaderScan :=
  scanFrom deserialize buf 0 0

/-- Headers as delimited texts. -/
def headerGrammar (deserialize : Bytes → Option PacketMetadata) : Grammar UInt8 PacketMetadata where
  opens := isBrace
  stops := isTerminator
  parse := deserialize

/-- A line feed takes the record separator behind it along. -/
def separatorPairs (stop follower : UInt8) : Bool :=
  stop == asciiLineFeed && follower == asciiRecordSeparator

theorem separatorPairs_shut (stop follower : UInt8) (paired : separatorPairs stop follower = true) :
    isBrace follower = false := by
  obtain ⟨-, isSeparator⟩ := (Bool.and_eq_true _ _).mp paired
  rw [beq_iff_eq.mp isSeparator]
  rfl

theorem brace_not_terminator {b : UInt8} (brace : isBrace b = true) : isTerminator b = false := by
  rw [beq_iff_eq.mp brace]
  rfl

theorem terminator_not_brace {b : UInt8} (stop : isTerminator b = true) : isBrace b = false := by
  cases brace : isBrace b with
  | false => rfl
  | true => exact absurd stop (by simp [brace_not_terminator brace])

/-! ## Positions and slices -/

theorem position_some {p bytes k} (found : position p bytes = some k) :
    ∃ quiet b rest, bytes = quiet ++ b :: rest ∧ quiet.length = k ∧
      (∀ c ∈ quiet, p c = false) ∧ p b = true := by
  obtain ⟨inside, here, before⟩ := List.findIdx?_eq_some_iff_getElem.mp found
  refine ⟨bytes.take k, bytes[k], bytes.drop (k + 1), ?_, ?_, ?_, here⟩
  · rw [← List.drop_eq_getElem_cons inside, List.take_append_drop]
  · rw [List.length_take, Nat.min_eq_left inside.le]
  · intro c member
    obtain ⟨j, small, rfl⟩ := List.mem_iff_getElem.mp member
    rw [List.getElem_take]
    simpa using before j (by simp at small; omega)

theorem position_none {p bytes} (missing : position p bytes = none) : ∀ c ∈ bytes, p c = false :=
  List.findIdx?_eq_none_iff.mp missing

theorem slice_length {bytes : Bytes} {start stop : Nat} (inside : stop ≤ bytes.length) :
    (slice bytes start stop).length = stop - start := by
  rw [slice, List.length_drop, List.length_take, Nat.min_eq_left inside]

theorem slice_append_drop {bytes : Bytes} {start stop : Nat} (ordered : start ≤ stop) :
    slice bytes start stop ++ bytes.drop stop = bytes.drop start := by
  rcases Nat.le_total stop bytes.length with inside | outside
  · rw [slice, ← List.drop_append_of_le_length (by simpa using ⟨ordered, by omega⟩),
      List.take_append_drop]
  · rw [slice, List.take_of_length_le outside, List.drop_of_length_le outside, List.append_nil]

theorem slice_drop {bytes : Bytes} {start stop : Nat} (n : Nat) :
    (slice bytes start stop).drop n = slice bytes (start + n) stop := by
  rw [slice, slice, List.drop_drop]

variable (deserialize : Bytes → Option PacketMetadata)

/-- The region between two indices, as the search sees it: clear of terminators
and followed by one. -/
structure Region (buf : Bytes) (start stop : Nat) : Prop where
  inside : stop < buf.length
  ordered : start ≤ stop
  clear : ∀ b ∈ slice buf start stop, isTerminator b = false
  ends : isTerminator buf[stop] = true

namespace Region

variable {buf : Bytes} {start stop : Nat}

theorem drop_eq (region : Region buf start stop) :
    buf.drop start =
      slice buf start stop ++ buf.get ⟨stop, region.inside⟩ :: buf.drop (stop + 1) := by
  rw [List.get_eq_getElem]
  rw [← List.drop_eq_getElem_cons, slice_append_drop region.ordered]

theorem of_position {k : Nat} (found : position isTerminator (buf.drop start) = some k) :
    Region buf start (start + k) := by
  have within := position_lt found
  rw [List.length_drop] at within
  obtain ⟨quiet, stopByte, rest, split, count, clear, ends⟩ := position_some found
  have body : slice buf start (start + k) = quiet := by
    rw [slice, List.drop_take, split, ← count]
    simp
  have last : buf[start + k] = stopByte := by
    have bound : k < (buf.drop start).length := by
      rw [List.length_drop]
      exact within
    have here : (buf.drop start)[k] = buf[start + k] := List.getElem_drop
    rw [← here]
    simp only [split, ← count]
    simp
  exact ⟨by omega, by omega, body ▸ clear, last ▸ ends⟩

theorem later (region : Region buf start stop) {n : Nat} (fits : start + n ≤ stop) :
    Region buf (start + n) stop where
  inside := region.inside
  ordered := fits
  clear := fun b member => region.clear b (by
    rw [← slice_drop] at member
    exact List.mem_of_mem_drop member)
  ends := region.ends

theorem text_eq (region : Region buf start stop) :
    (headerGrammar deserialize).text (buf.drop start) = slice buf start stop := by
  rw [region.drop_eq]
  exact (headerGrammar deserialize).text_before_stop region.clear region.ends

theorem stopped (region : Region buf start stop) :
    (buf.drop start).any isTerminator = true := by
  rw [region.drop_eq, List.any_append, List.any_cons, List.get_eq_getElem, region.ends,
    Bool.true_or, Bool.or_true]

theorem candidate_eq (region : Region buf start stop) {rest : Bytes}
    (opened : buf.drop start = openBrace :: rest) :
    (headerGrammar deserialize).candidate (buf.drop start) =
      deserialize (slice buf start stop) := by
  have stopped := region.stopped
  have text := region.text_eq deserialize
  rw [opened] at stopped text ⊢
  have both : (isBrace openBrace && (openBrace :: rest).any isTerminator) = true := by
    rw [stopped]
    rfl
  exact (if_pos both).trans (congrArg deserialize text)

/-- A brace at the head of the region that does not parse costs one rejection. -/
theorem rejections_eq (region : Region buf start stop) {rest : Bytes}
    (opened : buf.drop start = openBrace :: rest)
    (failed : deserialize (slice buf start stop) = none) :
    (headerGrammar deserialize).rejections (buf.drop start) =
      1 + (headerGrammar deserialize).rejections rest := by
  have stopped := region.stopped
  have here := (region.candidate_eq deserialize opened).trans failed
  rw [opened] at stopped here ⊢
  have terminated : (headerGrammar deserialize).terminated (openBrace :: rest) = true := by
    simp only [Grammar.terminated]
    exact (Bool.and_eq_true _ _).mpr ⟨rfl, stopped⟩
  simp only [Grammar.rejections, here, terminated, Bool.toNat_true]

theorem spent_eq (region : Region buf start stop) {rest : Bytes}
    (opened : buf.drop start = openBrace :: rest) :
    (headerGrammar deserialize).spent (buf.drop start) =
      (headerGrammar deserialize).spent rest + 1 := by
  have stopped := region.stopped
  rw [opened] at stopped ⊢
  have settled : ((headerGrammar deserialize).opens openBrace &&
      !(openBrace :: rest).any (headerGrammar deserialize).stops) = false := by
    change (isBrace openBrace && !(openBrace :: rest).any isTerminator) = false
    rw [stopped]
    rfl
  rw [Grammar.spent, if_neg (by rw [settled]; simp)]

/-- A brace takes up the region's first place: the terminator is none. -/
theorem opens_before_end (region : Region buf start stop) {rest : Bytes}
    (opened : buf.drop start = openBrace :: rest) : start + 1 ≤ stop := by
  rcases Nat.lt_or_ge start stop with small | large
  · exact small
  · obtain rfl : start = stop := le_antisymm region.ordered large
    have head := List.drop_eq_getElem_cons region.inside
    rw [opened, List.cons.injEq] at head
    exact absurd region.ends (by rw [← head.1]; decide)

end Region

/-! ## The scan is the naive search -/

/-- The naive search from `start` on is the one from `next` on, with so many candidates rejected
in between. -/
structure Leads (buf : Bytes) (start next rejected : Nat) : Prop where
  ordered : start ≤ next
  firstMatch : (headerGrammar deserialize).firstMatch (buf.drop start) =
    ((headerGrammar deserialize).firstMatch (buf.drop next)).map (Match.shift (next - start))
  rejections : (headerGrammar deserialize).rejections (buf.drop start) =
    rejected + (headerGrammar deserialize).rejections (buf.drop next)
  spent : (headerGrammar deserialize).spent (buf.drop start) =
    next - start + (headerGrammar deserialize).spent (buf.drop next)

variable {deserialize} in
theorem Leads.trans {buf : Bytes} {start middle stop first second : Nat}
    (here : Leads deserialize buf start middle first)
    (later : Leads deserialize buf middle stop second) :
    Leads deserialize buf start stop (first + second) where
  ordered := here.ordered.trans later.ordered
  firstMatch := by
    have lower := here.ordered
    have upper := later.ordered
    rw [here.firstMatch, later.firstMatch, Option.map_map]
    congr 1
    funext m
    rw [Function.comp_apply, Match.shift_shift]
    congr 1
    omega
  rejections := by
    rw [here.rejections, later.rejections, Nat.add_assoc]
  spent := by
    have lower := here.ordered
    have upper := later.ordered
    rw [here.spent, later.spent]
    omega

/-- A brace that does not parse is rejected, and the bytes behind it that open nothing are
passed. -/
theorem Region.leads {buf : Bytes} {start stop next : Nat} (region : Region buf start stop)
    {rest quiet : Bytes} (opened : buf.drop start = openBrace :: rest)
    (failed : deserialize (slice buf start stop) = none)
    (cut : buf.drop (start + 1) = quiet ++ buf.drop next) (reach : start + 1 + quiet.length = next)
    (shut : ∀ b ∈ quiet, isBrace b = false) : Leads deserialize buf start next 1 := by
  have behind : rest = quiet ++ buf.drop next := by
    rw [← cut, ← List.drop_drop, opened, List.drop_one, List.tail_cons]
  have here := (region.candidate_eq deserialize opened).trans failed
  refine ⟨by omega, ?_, ?_, ?_⟩
  · rw [opened] at here ⊢
    rw [Grammar.firstMatch_cons_none _ here, behind, Grammar.firstMatch_quiet _ shut,
      Option.map_map]
    congr 1
    funext m
    rw [Function.comp_apply, Match.shift_shift]
    congr 1
    omega
  · rw [region.rejections_eq deserialize opened failed, behind, Grammar.rejections_quiet _ shut]
  · rw [region.spent_eq deserialize opened, behind, Grammar.spent_quiet _ shut]
    omega

/-- The brace that the rest of the region offers next. -/
theorem Region.next_candidate {buf : Bytes} {start stop k : Nat} (region : Region buf start stop)
    (more : position isBrace (slice buf start stop) = some k) :
    start + k < stop ∧ ∃ quiet rest, buf.drop start = quiet ++ buf.drop (start + k) ∧
      quiet.length = k ∧ (∀ b ∈ quiet, isBrace b = false) ∧
        buf.drop (start + k) = openBrace :: rest := by
  obtain ⟨quiet, b, after, split, count, shut, brace⟩ := position_some more
  have within := position_lt more
  rw [slice_length region.inside.le] at within
  have behind : buf.drop (start + k) = b :: after ++ buf.drop stop := by
    rw [← List.drop_drop, ← slice_append_drop region.ordered, split, List.append_assoc, ← count,
      List.drop_left]
  refine ⟨by omega, quiet, after ++ buf.drop stop, ?_, count, shut, ?_⟩
  · rw [behind, ← slice_append_drop region.ordered, split, List.append_assoc]
  · rw [behind, List.cons_append, beq_iff_eq.mp brace]

/-- A region without a brace is passed, and its terminator too. -/
theorem Region.no_candidate {buf : Bytes} {start stop : Nat} (region : Region buf start stop)
    (none : position isBrace (slice buf start stop) = none) :
    ∃ quiet, buf.drop start = quiet ++ buf.drop (stop + 1) ∧ start + quiet.length = stop + 1 ∧
      ∀ b ∈ quiet, isBrace b = false := by
  refine ⟨slice buf start stop ++ [buf.get ⟨stop, region.inside⟩], ?_, ?_, ?_⟩
  · rw [region.drop_eq, List.append_assoc, List.singleton_append]
  · have ordered := region.ordered
    rw [List.length_append, slice_length region.inside.le, List.length_singleton]
    omega
  · intro b member
    rcases List.mem_append.mp member with before | last
    · exact position_none none b before
    · rw [List.mem_singleton.mp last]
      exact terminator_not_brace region.ends

/-- What trying the candidates of a region settles about the naive search from
`candidate` on. -/
theorem tryCandidates_spec {buf : Bytes} {stop candidate : Nat} (rejected : Nat)
    (region : Region buf candidate stop)
    (opened : ∃ rest, buf.drop candidate = openBrace :: rest) :
    (∃ m, tryCandidates deserialize buf stop candidate rejected =
          (some (m.value, candidate + m.before),
            rejected + (headerGrammar deserialize).rejections (buf.drop candidate)) ∧
        (headerGrammar deserialize).firstMatch (buf.drop candidate) = some m ∧
        candidate + m.before + m.text.length = stop) ∨
      (∃ more, tryCandidates deserialize buf stop candidate rejected = (none, rejected + more) ∧
        Leads deserialize buf candidate (stop + 1) more) := by
  induction size : stop - candidate using Nat.strong_induction_on
    generalizing candidate rejected with
  | _ n ih =>
  obtain ⟨rest, opened⟩ := opened
  rw [tryCandidates]
  cases parsed : deserialize (slice buf candidate stop) with
  | some metadata =>
      left
      have found := (region.candidate_eq deserialize opened).trans parsed
      rw [opened] at found
      have matched := Grammar.firstMatch_cons_some _ found
      have unrejected : (headerGrammar deserialize).rejections (openBrace :: rest) = 0 := by
        simp only [Grammar.rejections, found]
      rw [← opened] at matched
      refine ⟨_, ?_, matched, ?_⟩
      · simp only [Nat.add_zero, opened, unrejected]
      · have ordered := region.ordered
        simp only [region.text_eq deserialize, slice_length region.inside.le]
        omega
  | none =>
      have tail := region.later (region.opens_before_end opened)
      cases more : position isBrace (slice buf (candidate + 1) stop) with
      | some next =>
          simp only
          obtain ⟨inside, quiet, after, cut, count, shut, nextOpened⟩ := tail.next_candidate more
          have here := region.leads deserialize opened parsed cut (by rw [count]) shut
          rcases ih (stop - (candidate + 1 + next)) (by omega) (rejected + 1)
              (tail.later inside.le) ⟨after, nextOpened⟩ rfl with
            ⟨m, tried, found, ends⟩ | ⟨later, tried, leads⟩
          · left
            refine ⟨m.shift (candidate + 1 + next - candidate), ?_, ?_, ?_⟩
            · rw [tried, here.rejections]
              simp only [Match.shift_value, Match.shift_before, Prod.mk.injEq, Option.some.injEq,
                true_and]
              omega
            · rw [here.firstMatch, found]
              rfl
            · simp only [Match.shift_before, Match.shift_text]
              omega
          · right
            exact ⟨1 + later, by rw [tried, Nat.add_assoc], here.trans leads⟩
      | none =>
          simp only
          obtain ⟨quiet, cut, reach, shut⟩ := tail.no_candidate more
          exact .inr ⟨1, rfl, region.leads deserialize opened parsed cut reach shut⟩

/-- The scan's result as the naive search gives it, for a buffer starting `pos`
bytes into the scanned one. -/
def scanResult (buf : Bytes) (pos rejected : Nat) : HeaderScan :=
  match (headerGrammar deserialize).firstMatch (buf.drop pos) with
  | some m =>
      .header m.value (pos + m.before, pos + m.before + m.text.length)
        (payloadStartAt buf (pos + m.before + m.text.length))
        (rejected + (headerGrammar deserialize).rejections (buf.drop pos))
  | none =>
      .incomplete (pos + (headerGrammar deserialize).spent (buf.drop pos))
        (rejected + (headerGrammar deserialize).rejections (buf.drop pos))

/-- Skipping bytes that open nothing. -/
theorem scanResult_quiet {buf quiet tail : Bytes} {pos : Nat} (rejected : Nat)
    (whole : buf.drop pos = quiet ++ tail) (shut : ∀ b ∈ quiet, isBrace b = false) :
    scanResult deserialize buf pos rejected =
      scanResult deserialize buf (pos + quiet.length) rejected := by
  have later : buf.drop (pos + quiet.length) = tail := by
    rw [← List.drop_drop, whole, List.drop_left]
  have push := (headerGrammar deserialize).firstMatch_quiet shut tail
  have pushRejections := (headerGrammar deserialize).rejections_quiet shut tail
  have pushSpent := (headerGrammar deserialize).spent_quiet shut tail
  simp only [scanResult, whole, later, push, pushRejections, pushSpent]
  cases (headerGrammar deserialize).firstMatch tail <;>
    simp only [Option.map_some, Option.map_none, Match.shift_value, Match.shift_before,
      Match.shift_text, Nat.add_assoc]

/-- A brace whose terminator has not arrived keeps everything from it on. -/
theorem scanResult_unterminated {buf rest : Bytes} {pos : Nat} (rejected : Nat)
    (opened : buf.drop pos = openBrace :: rest)
    (open' : ∀ b ∈ buf.drop pos, isTerminator b = false) :
    scanResult deserialize buf pos rejected = .incomplete pos rejected := by
  have unstopped : (buf.drop pos).any isTerminator = false := by
    refine List.any_eq_false.mpr fun b member => ?_
    rw [open' b member]
    exact Bool.false_ne_true
  have missing := (headerGrammar deserialize).firstMatch_unstopped unstopped
  have rejections := (headerGrammar deserialize).rejections_unstopped unstopped
  have spent := (headerGrammar deserialize).spent_opened unstopped (by
    rw [opened]
    intro b head
    cases head
    rfl)
  simp only [scanResult, missing, rejections, spent, Nat.add_zero]

theorem scanFrom_eq (buf : Bytes) (pos rejected : Nat) (inside : pos ≤ buf.length) :
    scanFrom deserialize buf pos rejected = scanResult deserialize buf pos rejected := by
  induction size : buf.length - pos using Nat.strong_induction_on generalizing pos rejected with
  | _ n ih =>
  rw [scanFrom]
  cases brace : position isBrace (buf.drop pos) with
  | none =>
      have whole : buf.drop pos = buf.drop pos ++ [] := (List.append_nil _).symm
      have push := scanResult_quiet deserialize rejected whole (position_none brace)
      have ended : pos + (buf.drop pos).length = buf.length := by
        rw [List.length_drop]
        omega
      rw [push, ended, scanResult, List.drop_length]
      rfl
  | some start =>
      obtain ⟨quiet, b, rest, split, count, shut, isOpen⟩ := position_some brace
      have opened : buf.drop (pos + start) = openBrace :: rest := by
        rw [← List.drop_drop, split, ← count, List.drop_left, beq_iff_eq.mp isOpen]
      rw [scanResult_quiet deserialize rejected split shut, count]
      simp only
      cases terminator : position isTerminator (buf.drop (pos + start)) with
      | none =>
          exact (scanResult_unterminated deserialize rejected opened
            (position_none terminator)).symm
      | some stop =>
          have within := position_lt terminator
          rw [List.length_drop] at within
          have region : Region buf (pos + start) (pos + start + stop) := .of_position terminator
          simp only
          rcases tryCandidates_spec deserialize rejected region ⟨rest, opened⟩ with
            ⟨m, tried, found, placed⟩ | ⟨more, tried, leads⟩
          · simp only [tried, scanResult, found, placed]
          · simp only [tried]
            rw [ih _ (by omega) _ _ (by omega) rfl]
            simp only [scanResult, leads.firstMatch, leads.rejections, leads.spent]
            cases (headerGrammar deserialize).firstMatch (buf.drop (pos + start + stop + 1)) with
            | none =>
                simp only [Option.map_none, HeaderScan.incomplete.injEq]
                omega
            | some m =>
                have shifted : pos + start + (pos + start + stop + 1 - (pos + start) + m.before) =
                    pos + start + stop + 1 + m.before := by omega
                simp only [Option.map_some, Match.shift_value, Match.shift_before,
                  Match.shift_text, shifted, HeaderScan.header.injEq, true_and]
                omega

/-- **The scan finds the first header the naive search finds**, counts the
candidates rejected on the way, and otherwise spends what can begin none. -/
theorem scanPacketHeader_eq (buf : Bytes) :
    scanPacketHeader deserialize buf = scanResult deserialize buf 0 0 :=
  scanFrom_eq deserialize buf 0 0 (Nat.zero_le _)

end SdrAaronia.HttpStreaming
