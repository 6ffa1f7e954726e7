import Mathlib.Data.List.Basic
import Mathlib.Data.List.TakeWhile

/-! # Texts found by trial inside a stream of symbols

A text starts at an opener and runs up to the first terminator after it.  An
opener need not start a text: only the parser can tell, and a text that fails to
parse costs one symbol, not the region up to its terminator.  `firstMatch` is
that search written naively, one symbol at a time; `spent` is how much of an
unsuccessful buffer no later symbol can bring back.
-/

namespace Delimited

/-- What opens a text, what ends it, and which texts are good. -/
structure Grammar (β μ : Type) where
  opens : β → Bool
  stops : β → Bool
  parse : List β → Option μ

/-- A good text, with the symbols ahead of it counted and everything from its
terminator on kept. -/
structure Match (β μ : Type) where
  before : Nat
  text : List β
  value : μ
  rest : List β
  deriving DecidableEq

namespace Match

variable {β μ : Type}

def shift (n : Nat) (m : Match β μ) : Match β μ := { m with before := n + m.before }

def extend (more : List β) (m : Match β μ) : Match β μ := { m with rest := m.rest ++ more }

/-- The match without its place. -/
def unplaced (m : Match β μ) : Match β μ := { m with before := 0 }

@[simp] theorem shift_before (n : Nat) (m : Match β μ) : (m.shift n).before = n + m.before := rfl
@[simp] theorem shift_text (n : Nat) (m : Match β μ) : (m.shift n).text = m.text := rfl
@[simp] theorem shift_value (n : Nat) (m : Match β μ) : (m.shift n).value = m.value := rfl
@[simp] theorem shift_rest (n : Nat) (m : Match β μ) : (m.shift n).rest = m.rest := rfl
@[simp] theorem extend_before (more : List β) (m : Match β μ) :
    (m.extend more).before = m.before := rfl
@[simp] theorem extend_text (more : List β) (m : Match β μ) : (m.extend more).text = m.text := rfl
@[simp] theorem extend_value (more : List β) (m : Match β μ) :
    (m.extend more).value = m.value := rfl
@[simp] theorem extend_rest (more : List β) (m : Match β μ) :
    (m.extend more).rest = m.rest ++ more := rfl

@[simp] theorem unplaced_text (m : Match β μ) : m.unplaced.text = m.text := rfl
@[simp] theorem unplaced_value (m : Match β μ) : m.unplaced.value = m.value := rfl
@[simp] theorem unplaced_rest (m : Match β μ) : m.unplaced.rest = m.rest := rfl

theorem shift_zero (m : Match β μ) : m.shift 0 = m := by
  simp only [shift, Nat.zero_add]

theorem shift_shift (a b : Nat) (m : Match β μ) : (m.shift a).shift b = m.shift (b + a) := by
  simp only [shift, Nat.add_assoc]

end Match

namespace Grammar

variable {β μ : Type} (g : Grammar β μ)

/-- The symbols up to the first terminator. -/
def text (symbols : List β) : List β := symbols.takeWhile fun b => !g.stops b

/-- The symbols from the first terminator on. -/
def fromStop (symbols : List β) : List β := symbols.dropWhile fun b => !g.stops b

/-- What the text starting at the head of `symbols` parses to, if it is
terminated and good. -/
def candidate : List β → Option μ
  | [] => none
  | b :: rest => if g.opens b && (b :: rest).any g.stops then g.parse (g.text (b :: rest)) else none

/-- Whether a text starts at the head and its terminator is present. -/
def terminated : List β → Bool
  | [] => false
  | b :: rest => g.opens b && (b :: rest).any g.stops

/-- The first position whose text is good. -/
def firstMatch : List β → Option (Match β μ)
  | [] => none
  | b :: rest =>
      match g.candidate (b :: rest) with
      | some value => some ⟨0, g.text (b :: rest), value, g.fromStop (b :: rest)⟩
      | none => (firstMatch rest).map (Match.shift 1)

/-- How many terminated texts fail ahead of the first match. -/
def rejections : List β → Nat
  | [] => 0
  | b :: rest =>
      match g.candidate (b :: rest) with
      | some _ => 0
      | none => (g.terminated (b :: rest)).toNat + rejections rest

/-- The symbols ahead of the first text still waiting for its terminator. -/
def spent : List β → Nat
  | [] => 0
  | b :: rest => if g.opens b && !(b :: rest).any g.stops then 0 else spent rest + 1

theorem text_fromStop (symbols : List β) : g.text symbols ++ g.fromStop symbols = symbols :=
  List.takeWhile_append_dropWhile

theorem text_no_stop {symbols : List β} {b : β} (member : b ∈ g.text symbols) :
    g.stops b = false := by
  simpa using List.mem_takeWhile_imp member

/-- A terminator ends the text ahead of it, whatever follows. -/
theorem text_before_stop {quiet rest : List β} {stop : β}
    (clear : ∀ b ∈ quiet, g.stops b = false) (isStop : g.stops stop = true) :
    g.text (quiet ++ stop :: rest) = quiet := by
  rw [text, List.takeWhile_append_of_pos (by simpa using clear)]
  simp [isStop]

theorem fromStop_before_stop {quiet rest : List β} {stop : β}
    (clear : ∀ b ∈ quiet, g.stops b = false) (isStop : g.stops stop = true) :
    g.fromStop (quiet ++ stop :: rest) = stop :: rest := by
  rw [fromStop, List.dropWhile_append_of_pos (by simpa using clear)]
  simp [isStop]

/-- A sequence with a terminator is a text, the terminator, and the rest. -/
theorem split_at_stop {symbols : List β} (stopped : symbols.any g.stops = true) :
    ∃ stop rest, symbols = g.text symbols ++ stop :: rest ∧ g.stops stop = true ∧
      g.fromStop symbols = stop :: rest := by
  induction symbols with
  | nil => simp at stopped
  | cons b rest ih =>
      by_cases isStop : g.stops b = true
      · exact ⟨b, rest, by simp [text, isStop], isStop, by simp [fromStop, isStop]⟩
      · have clear : g.stops b = false := by simpa using isStop
        have stoppedRest : rest.any g.stops = true := by simpa [clear] using stopped
        obtain ⟨stop, after, same, here, dropped⟩ := ih stoppedRest
        refine ⟨stop, after, ?_, here, ?_⟩
        · conv_lhs => rw [same]
          simp [text, clear]
        · simpa [fromStop, clear] using dropped

theorem text_append {symbols : List β} (stopped : symbols.any g.stops = true) (more : List β) :
    g.text (symbols ++ more) = g.text symbols := by
  obtain ⟨stop, rest, same, here, -⟩ := g.split_at_stop stopped
  conv_lhs => rw [same, List.append_assoc, List.cons_append]
  exact g.text_before_stop (fun _ => g.text_no_stop) here

theorem fromStop_append {symbols : List β} (stopped : symbols.any g.stops = true)
    (more : List β) : g.fromStop (symbols ++ more) = g.fromStop symbols ++ more := by
  obtain ⟨stop, rest, same, here, dropped⟩ := g.split_at_stop stopped
  rw [dropped]
  conv_lhs => rw [same, List.append_assoc, List.cons_append]
  exact g.fromStop_before_stop (fun _ => g.text_no_stop) here

/-- Once its terminator has arrived, a candidate is settled. -/
theorem candidate_append {symbols : List β} (stopped : symbols.any g.stops = true)
    (more : List β) : g.candidate (symbols ++ more) = g.candidate symbols := by
  cases symbols with
  | nil => simp at stopped
  | cons b rest =>
      have same := g.text_append stopped more
      rw [List.cons_append] at same
      have any : (b :: (rest ++ more)).any g.stops = true := by
        rw [← List.cons_append, List.any_append, stopped, Bool.true_or]
      simp only [List.cons_append, candidate, any, stopped, same]

theorem candidate_stopped {symbols : List β} {value : μ}
    (found : g.candidate symbols = some value) : symbols.any g.stops = true := by
  cases symbols with
  | nil => simp [candidate] at found
  | cons b rest =>
      simp only [candidate] at found
      split at found
      · rename_i both
        exact ((Bool.and_eq_true _ _).mp both).2
      · simp at found

theorem candidate_unstopped {symbols : List β} (unstopped : symbols.any g.stops = false) :
    g.candidate symbols = none := by
  cases symbols with
  | nil => rfl
  | cons b rest => simp only [candidate, unstopped, Bool.and_false, Bool.false_eq_true, if_false]

theorem terminated_append {symbols : List β} (stopped : symbols.any g.stops = true)
    (more : List β) : g.terminated (symbols ++ more) = g.terminated symbols := by
  cases symbols with
  | nil => simp at stopped
  | cons b rest =>
      have any : (b :: (rest ++ more)).any g.stops = true := by
        rw [← List.cons_append, List.any_append, stopped, Bool.true_or]
      simp only [List.cons_append, terminated, any, stopped]

/-! ## The first match -/

theorem firstMatch_cons_some {b : β} {rest : List β} {value : μ}
    (found : g.candidate (b :: rest) = some value) :
    g.firstMatch (b :: rest) = some ⟨0, g.text (b :: rest), value, g.fromStop (b :: rest)⟩ := by
  simp only [firstMatch, found]

theorem firstMatch_cons_none {b : β} {rest : List β} (failed : g.candidate (b :: rest) = none) :
    g.firstMatch (b :: rest) = (g.firstMatch rest).map (Match.shift 1) := by
  simp only [firstMatch, failed]

/-- A good text at the front, terminated, is the first match. -/
theorem firstMatch_written {first stop : β} {quiet rest : List β} {value : μ}
    (opened : g.opens first = true) (clear : ∀ b ∈ first :: quiet, g.stops b = false)
    (isStop : g.stops stop = true) (parses : g.parse (first :: quiet) = some value) :
    g.firstMatch ((first :: quiet) ++ stop :: rest) =
      some ⟨0, first :: quiet, value, stop :: rest⟩ := by
  have text : g.text ((first :: quiet) ++ stop :: rest) = first :: quiet :=
    g.text_before_stop clear isStop
  have fromStop : g.fromStop ((first :: quiet) ++ stop :: rest) = stop :: rest :=
    g.fromStop_before_stop clear isStop
  have stopped : ((first :: quiet) ++ stop :: rest).any g.stops = true := by simp [isStop]
  rw [List.cons_append] at text fromStop stopped ⊢
  have good : g.candidate (first :: (quiet ++ stop :: rest)) = some value := by
    rw [candidate, opened, stopped, text]
    exact parses
  rw [g.firstMatch_cons_some good, text, fromStop]

/-- Where a match sits: the symbols before it, its text, and a terminator. -/
theorem firstMatch_layout {symbols : List β} {m : Match β μ}
    (found : g.firstMatch symbols = some m) :
    symbols.drop m.before = m.text ++ m.rest ∧ m.before + m.text.length + m.rest.length =
      symbols.length ∧ (∃ stop rest, m.rest = stop :: rest ∧ g.stops stop = true) ∧
      m.text = g.text (symbols.drop m.before) ∧ g.parse m.text = some m.value := by
  induction symbols generalizing m with
  | nil => simp [firstMatch] at found
  | cons b rest ih =>
      cases here : g.candidate (b :: rest) with
      | some value =>
          rw [g.firstMatch_cons_some here, Option.some.injEq] at found
          subst found
          have stopped := g.candidate_stopped here
          obtain ⟨stop, after, -, isStop, dropped⟩ := g.split_at_stop stopped
          have parts := congrArg List.length (g.text_fromStop (b :: rest))
          refine ⟨(g.text_fromStop _).symm, ?_, ⟨stop, after, dropped, isStop⟩, rfl, ?_⟩
          · simpa using parts
          · simp only [candidate] at here
            split at here
            · exact here
            · simp at here
      | none =>
          rw [g.firstMatch_cons_none here, Option.map_eq_some_iff] at found
          obtain ⟨inner, foundInner, rfl⟩ := found
          obtain ⟨layout, size, stops, isText, parses⟩ := ih foundInner
          have dropped : (b :: rest).drop (inner.shift 1).before = rest.drop inner.before := by
            rw [Match.shift_before, Nat.add_comm, List.drop_succ_cons]
          refine ⟨dropped ▸ layout, ?_, stops, dropped ▸ isText, parses⟩
          simp only [Match.shift_before, Match.shift_text, Match.shift_rest, List.length_cons]
          omega

theorem firstMatch_unstopped {symbols : List β} (unstopped : symbols.any g.stops = false) :
    g.firstMatch symbols = none := by
  induction symbols with
  | nil => rfl
  | cons b rest ih =>
      have later : rest.any g.stops = false := ((Bool.or_eq_false_iff).mp unstopped).2
      rw [g.firstMatch_cons_none (g.candidate_unstopped unstopped), ih later]
      rfl

/-- More symbols after a match do not move it. -/
theorem firstMatch_append {symbols : List β} {m : Match β μ}
    (found : g.firstMatch symbols = some m) (more : List β) :
    g.firstMatch (symbols ++ more) = some (m.extend more) := by
  induction symbols generalizing m with
  | nil => simp [firstMatch] at found
  | cons b rest ih =>
      cases here : g.candidate (b :: rest) with
      | some value =>
          rw [g.firstMatch_cons_some here, Option.some.injEq] at found
          subst found
          have stopped := g.candidate_stopped here
          have settled := g.candidate_append stopped more
          have sameText := g.text_append stopped more
          have sameRest := g.fromStop_append stopped more
          rw [List.cons_append] at settled sameText sameRest
          rw [List.cons_append, g.firstMatch_cons_some (settled.trans here), sameText, sameRest]
          rfl
      | none =>
          rw [g.firstMatch_cons_none here, Option.map_eq_some_iff] at found
          obtain ⟨inner, foundInner, rfl⟩ := found
          -- a match inside `rest` brings its terminator, so the head is settled too
          obtain ⟨layout, -, ⟨stop, after, shape, isStop⟩, -, -⟩ := g.firstMatch_layout foundInner
          have stopMem : stop ∈ rest := by
            apply List.mem_of_mem_drop (i := inner.before)
            rw [layout, shape]
            exact List.mem_append_right _ List.mem_cons_self
          have stopped : (b :: rest).any g.stops = true :=
            List.any_eq_true.mpr ⟨stop, List.mem_cons_of_mem _ stopMem, isStop⟩
          have settled := g.candidate_append stopped more
          rw [List.cons_append] at settled
          rw [List.cons_append, g.firstMatch_cons_none (settled.trans here), ih foundInner]
          rfl

/-- Symbols at which no candidate is good only push the first match back. -/
theorem firstMatch_dead {dead : List β} (x : List β)
    (failed : ∀ k < dead.length, g.candidate (dead.drop k ++ x) = none) :
    g.firstMatch (dead ++ x) = (g.firstMatch x).map (Match.shift dead.length) := by
  induction dead with
  | nil =>
      cases found : g.firstMatch x <;> simp [found, Match.shift_zero]
  | cons b rest ih =>
      have here : g.candidate (b :: (rest ++ x)) = none := by
        simpa using failed 0 (by simp)
      have later : ∀ k < rest.length, g.candidate (rest.drop k ++ x) = none := by
        intro k inside
        simpa using failed (k + 1) (by simpa using inside)
      rw [List.cons_append, g.firstMatch_cons_none here, ih later, Option.map_map]
      congr 1
      funext m
      simp only [Function.comp_apply, Match.shift_shift, List.length_cons, Nat.add_comm]

theorem firstMatch_none_tail {b : β} {rest : List β} (none' : g.firstMatch (b :: rest) = none) :
    g.candidate (b :: rest) = none ∧ g.firstMatch rest = none := by
  cases here : g.candidate (b :: rest) with
  | some value => simp [g.firstMatch_cons_some here] at none'
  | none => simpa [g.firstMatch_cons_none here] using none'

/-! ## The search place by place -/

theorem firstMatch_candidate {symbols : List β} {m : Match β μ}
    (found : g.firstMatch symbols = some m) :
    g.candidate (symbols.drop m.before) = some m.value := by
  induction symbols generalizing m with
  | nil => simp [firstMatch] at found
  | cons b rest ih =>
      cases here : g.candidate (b :: rest) with
      | some value =>
          rw [g.firstMatch_cons_some here, Option.some.injEq] at found
          subst found
          exact here
      | none =>
          rw [g.firstMatch_cons_none here, Option.map_eq_some_iff] at found
          obtain ⟨inner, foundInner, rfl⟩ := found
          rw [Match.shift_before, Nat.add_comm, List.drop_succ_cons]
          exact ih foundInner

/-- No place ahead of the match holds a good text. -/
theorem firstMatch_before {symbols : List β} {m : Match β μ}
    (found : g.firstMatch symbols = some m) :
    ∀ k < m.before, g.candidate (symbols.drop k) = none := by
  induction symbols generalizing m with
  | nil => simp [firstMatch] at found
  | cons b rest ih =>
      intro k ahead
      cases here : g.candidate (b :: rest) with
      | some value =>
          rw [g.firstMatch_cons_some here, Option.some.injEq] at found
          subst found
          exact absurd ahead (Nat.not_lt_zero k)
      | none =>
          rw [g.firstMatch_cons_none here, Option.map_eq_some_iff] at found
          obtain ⟨inner, foundInner, rfl⟩ := found
          cases k with
          | zero => exact here
          | succ k => exact ih foundInner k (by rw [Match.shift_before] at ahead; omega)

theorem firstMatch_missing {symbols : List β} (missing : g.firstMatch symbols = none) (k : Nat) :
    g.candidate (symbols.drop k) = none := by
  induction symbols generalizing k with
  | nil => rw [List.drop_nil]; rfl
  | cons b rest ih =>
      obtain ⟨failed, missingRest⟩ := g.firstMatch_none_tail missing
      cases k with
      | zero => exact failed
      | succ k => exact ih missingRest k

/-- The places below `n` where a text starts and is terminated. -/
def terminatedBelow (symbols : List β) (n : Nat) : Nat :=
  (List.range n).countP fun k => g.terminated (symbols.drop k)

theorem terminatedBelow_cons (b : β) (rest : List β) (n : Nat) :
    g.terminatedBelow (b :: rest) (n + 1) =
      (g.terminated (b :: rest)).toNat + g.terminatedBelow rest n := by
  rw [terminatedBelow, List.range_succ_eq_map, List.countP_cons, List.countP_map,
    List.drop_zero, Nat.add_comm]
  cases g.terminated (b :: rest) <;> rfl

theorem rejections_found {symbols : List β} {m : Match β μ}
    (found : g.firstMatch symbols = some m) :
    g.rejections symbols = g.terminatedBelow symbols m.before := by
  induction symbols generalizing m with
  | nil => simp [firstMatch] at found
  | cons b rest ih =>
      cases here : g.candidate (b :: rest) with
      | some value =>
          rw [g.firstMatch_cons_some here, Option.some.injEq] at found
          subst found
          simp only [rejections, here]
          rfl
      | none =>
          rw [g.firstMatch_cons_none here, Option.map_eq_some_iff] at found
          obtain ⟨inner, foundInner, rfl⟩ := found
          rw [Match.shift_before, Nat.add_comm, g.terminatedBelow_cons, ← ih foundInner]
          simp only [rejections, here]

theorem rejections_missing {symbols : List β} (missing : g.firstMatch symbols = none) :
    g.rejections symbols = g.terminatedBelow symbols symbols.length := by
  induction symbols with
  | nil => rfl
  | cons b rest ih =>
      obtain ⟨failed, missingRest⟩ := g.firstMatch_none_tail missing
      rw [List.length_cons, g.terminatedBelow_cons, ← ih missingRest]
      simp only [rejections, failed]

/-- A match that only appears with more symbols ends among them. -/
theorem firstMatch_late {symbols more : List β} {m : Match β μ}
    (missing : g.firstMatch symbols = none) (found : g.firstMatch (symbols ++ more) = some m) :
    symbols.length ≤ m.before + m.text.length := by
  induction symbols generalizing m with
  | nil => simp
  | cons b rest ih =>
      obtain ⟨failed, missingRest⟩ := g.firstMatch_none_tail missing
      rw [List.cons_append] at found
      cases here : g.candidate (b :: (rest ++ more)) with
      | some value =>
          rw [g.firstMatch_cons_some here, Option.some.injEq] at found
          subst found
          have unstopped : (b :: rest).any g.stops = false := by
            by_contra stopped
            have settled := g.candidate_append (Bool.not_eq_false _ ▸ stopped) more
            rw [List.cons_append, here, failed] at settled
            exact absurd settled (by simp)
          have quiet : ∀ c ∈ b :: rest, (!g.stops c) = true := by
            intro c member
            have := List.any_eq_false.mp unstopped c member
            simpa using this
          have whole : g.text (b :: (rest ++ more)) = (b :: rest) ++ g.text more := by
            rw [← List.cons_append, text, List.takeWhile_append_of_pos quiet]
            rfl
          simp [whole]
      | none =>
          rw [g.firstMatch_cons_none here, Option.map_eq_some_iff] at found
          obtain ⟨inner, foundInner, rfl⟩ := found
          have := ih missingRest foundInner
          simp only [List.length_cons, Match.shift_before, Match.shift_text]
          omega

/-! ## What an unsuccessful search may discard -/

theorem spent_le (symbols : List β) : g.spent symbols ≤ symbols.length := by
  induction symbols with
  | nil => simp [spent]
  | cons b rest ih =>
      simp only [spent, List.length_cons]
      split <;> omega

/-- A text that waits for its terminator is kept from its opener on. -/
theorem spent_opened {symbols : List β} (unstopped : symbols.any g.stops = false)
    (opened : ∀ b ∈ symbols.head?, g.opens b = true) : g.spent symbols = 0 := by
  cases symbols with
  | nil => rfl
  | cons b rest =>
      have isOpen := opened b rfl
      simp only [spent, isOpen, unstopped, Bool.not_false, Bool.and_self, if_true]

/-- Nothing spent can start a text, whatever arrives later. -/
theorem spent_dead {symbols : List β} (missing : g.firstMatch symbols = none) (more : List β) :
    ∀ k < g.spent symbols, g.candidate (symbols.drop k ++ more) = none := by
  induction symbols with
  | nil => simp [spent]
  | cons b rest ih =>
      obtain ⟨failed, missingRest⟩ := g.firstMatch_none_tail missing
      intro k inside
      simp only [spent] at inside
      split at inside
      · simp at inside
      · rename_i settled
        cases k with
        | zero =>
            by_cases stopped : (b :: rest).any g.stops = true
            · simpa only [List.drop_zero, failed] using g.candidate_append stopped more
            · have shut : g.opens b = false := by simpa [stopped] using settled
              simp [candidate, shut]
        | succ k => simpa using ih missingRest k (by omega)

/-- Discarding what is spent only shifts what a later search finds. -/
theorem firstMatch_drop_spent {symbols : List β} (missing : g.firstMatch symbols = none)
    (more : List β) :
    g.firstMatch (symbols ++ more) =
      (g.firstMatch (symbols.drop (g.spent symbols) ++ more)).map
        (Match.shift (g.spent symbols)) := by
  have size : (symbols.take (g.spent symbols)).length = g.spent symbols := by
    rw [List.length_take, Nat.min_eq_left (g.spent_le symbols)]
  have failed : ∀ k < (symbols.take (g.spent symbols)).length,
      g.candidate ((symbols.take (g.spent symbols)).drop k ++
        (symbols.drop (g.spent symbols) ++ more)) = none := by
    intro k inside
    rw [size] at inside
    have := g.spent_dead missing more k inside
    rwa [← List.append_assoc, ← List.drop_append_of_le_length (by omega),
      List.take_append_drop]
  have dead := g.firstMatch_dead _ failed
  rwa [← List.append_assoc, List.take_append_drop, size] at dead

/-- What an unsuccessful search keeps. -/
def leftover (symbols : List β) : List β := symbols.drop (g.spent symbols)

theorem leftover_kept {b : β} {rest : List β}
    (waits : (g.opens b && !(b :: rest).any g.stops) = true) :
    g.leftover (b :: rest) = b :: rest := by
  rw [leftover, spent, if_pos waits, List.drop_zero]

theorem leftover_spent {b : β} {rest : List β}
    (settled : (g.opens b && !(b :: rest).any g.stops) = false) :
    g.leftover (b :: rest) = g.leftover rest := by
  rw [leftover, spent, settled, if_neg Bool.false_ne_true, List.drop_succ_cons, leftover]

/-- Keeping first what a search keeps changes nothing for a later search. -/
theorem leftover_append (symbols more : List β) :
    g.leftover (g.leftover symbols ++ more) = g.leftover (symbols ++ more) := by
  induction symbols with
  | nil => rfl
  | cons b rest ih =>
      cases waits : g.opens b && !(b :: rest).any g.stops with
      | true => rw [g.leftover_kept waits]
      | false =>
          have settled : (g.opens b && !(b :: (rest ++ more)).any g.stops) = false := by
            cases opened : g.opens b with
            | false => rfl
            | true =>
                simp only [opened, Bool.true_and, Bool.not_eq_false', List.any_cons,
                  Bool.or_eq_true, List.any_append] at waits ⊢
                exact waits.imp_right .inl
          rw [g.leftover_spent waits, List.cons_append, g.leftover_spent settled, ih]

/-- A waiting text keeps everything behind it waiting, so that nothing there has
been rejected yet. -/
theorem rejections_unstopped {symbols : List β} (unstopped : symbols.any g.stops = false) :
    g.rejections symbols = 0 := by
  induction symbols with
  | nil => rfl
  | cons b rest ih =>
      have later : rest.any g.stops = false := ((Bool.or_eq_false_iff).mp unstopped).2
      simp only [rejections, g.candidate_unstopped unstopped, terminated, unstopped, Bool.and_false,
        Bool.toNat_false, Nat.zero_add, ih later]

/-- What fails ahead of a match has failed whatever follows. -/
theorem rejections_append {symbols : List β} {m : Match β μ}
    (found : g.firstMatch symbols = some m) (more : List β) :
    g.rejections (symbols ++ more) = g.rejections symbols := by
  induction symbols generalizing m with
  | nil => simp [firstMatch] at found
  | cons b rest ih =>
      have stopped : (b :: rest).any g.stops = true := by
        obtain ⟨layout, -, ⟨stop, after, shape, isStop⟩, -, -⟩ := g.firstMatch_layout found
        refine List.any_eq_true.mpr ⟨stop, ?_, isStop⟩
        refine List.mem_of_mem_drop (i := m.before) ?_
        rw [layout, shape]
        exact List.mem_append_right _ List.mem_cons_self
      have candidate := g.candidate_append stopped more
      have terminated := g.terminated_append stopped more
      rw [List.cons_append] at candidate terminated ⊢
      cases here : g.candidate (b :: rest) with
      | some value => simp only [rejections, here, candidate]
      | none =>
          rw [g.firstMatch_cons_none here, Option.map_eq_some_iff] at found
          obtain ⟨inner, foundInner, -⟩ := found
          simp only [rejections, here, candidate, terminated, ih foundInner]

/-- Searching on behind what is spent spends and rejects the rest. -/
theorem drop_spent_counts {symbols : List β} (missing : g.firstMatch symbols = none)
    (more : List β) :
    g.spent (symbols ++ more) =
        g.spent symbols + g.spent (symbols.drop (g.spent symbols) ++ more) ∧
      g.rejections (symbols ++ more) =
        g.rejections symbols + g.rejections (symbols.drop (g.spent symbols) ++ more) := by
  induction symbols with
  | nil => simp only [spent, rejections, List.drop_nil, Nat.zero_add, and_self]
  | cons b rest ih =>
      obtain ⟨failed, missingRest⟩ := g.firstMatch_none_tail missing
      cases waits : g.opens b && !(b :: rest).any g.stops with
      | true =>
          have unstopped : (b :: rest).any g.stops = false := by
            simpa using ((Bool.and_eq_true _ _).mp waits).2
          have kept : g.spent (b :: rest) = 0 := by rw [spent, if_pos waits]
          rw [kept, g.rejections_unstopped unstopped, List.drop_zero, Nat.zero_add, Nat.zero_add]
          exact ⟨rfl, rfl⟩
      | false =>
          have settled : g.candidate (b :: (rest ++ more)) = none ∧
              g.terminated (b :: (rest ++ more)) = g.terminated (b :: rest) ∧
              (g.opens b && !(b :: (rest ++ more)).any g.stops) = false := by
            cases stopped : (b :: rest).any g.stops with
            | true =>
                have candidate := g.candidate_append stopped more
                have terminated := g.terminated_append stopped more
                have any : ((b :: rest) ++ more).any g.stops = true := by
                  rw [List.any_append, stopped, Bool.true_or]
                rw [List.cons_append] at candidate terminated any
                exact ⟨candidate.trans failed, terminated, by rw [any]; simp⟩
            | false =>
                have shut : g.opens b = false := by simpa [stopped] using waits
                simp only [candidate, terminated, shut, Bool.false_and, Bool.false_eq_true,
                  if_false, and_self]
          obtain ⟨failedWhole, sameTerminated, settledWhole⟩ := settled
          obtain ⟨spentRest, rejectedRest⟩ := ih missingRest
          have one : g.spent (b :: rest) = g.spent rest + 1 := by
            rw [spent, waits, if_neg Bool.false_ne_true]
          have oneWhole : g.spent (b :: (rest ++ more)) = g.spent (rest ++ more) + 1 := by
            rw [spent, settledWhole, if_neg Bool.false_ne_true]
          rw [List.cons_append, one, oneWhole, List.drop_succ_cons]
          refine ⟨by omega, ?_⟩
          simp only [rejections, failed, failedWhole, sameTerminated]
          omega

/-! ## Stretches without an opener -/

theorem candidate_shut {b : β} {rest : List β} (shut : g.opens b = false) :
    g.candidate (b :: rest) = none := by
  simp [candidate, shut]

theorem firstMatch_quiet {quiet : List β} (shut : ∀ b ∈ quiet, g.opens b = false)
    (x : List β) :
    g.firstMatch (quiet ++ x) = (g.firstMatch x).map (Match.shift quiet.length) := by
  apply g.firstMatch_dead
  intro k inside
  rw [List.drop_eq_getElem_cons inside, List.cons_append]
  exact g.candidate_shut (shut _ (List.getElem_mem inside))

theorem firstMatch_shut {b : β} (shut : g.opens b = false) (x : List β) :
    g.firstMatch (b :: x) = (g.firstMatch x).map (Match.shift 1) :=
  g.firstMatch_cons_none (g.candidate_shut shut)

theorem leftover_shut {b : β} (shut : g.opens b = false) (x : List β) :
    g.leftover (b :: x) = g.leftover x :=
  g.leftover_spent (by rw [shut, Bool.false_and])

theorem rejections_quiet {quiet : List β} (shut : ∀ b ∈ quiet, g.opens b = false)
    (x : List β) : g.rejections (quiet ++ x) = g.rejections x := by
  induction quiet with
  | nil => rfl
  | cons b rest ih =>
      have here := shut b List.mem_cons_self
      rw [List.cons_append, rejections, g.candidate_shut here]
      simp only [terminated, here, Bool.false_and, Bool.toNat_false, Nat.zero_add]
      exact ih fun c member => shut c (List.mem_cons_of_mem _ member)

theorem spent_quiet {quiet : List β} (shut : ∀ b ∈ quiet, g.opens b = false) (x : List β) :
    g.spent (quiet ++ x) = quiet.length + g.spent x := by
  induction quiet with
  | nil => simp
  | cons b rest ih =>
      have here := shut b List.mem_cons_self
      rw [List.cons_append, spent, here, Bool.false_and, if_neg (by simp),
        ih fun c member => shut c (List.mem_cons_of_mem _ member), List.length_cons]
      omega

end Grammar
end Delimited
