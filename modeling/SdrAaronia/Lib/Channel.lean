import Mathlib.Data.List.Basic

/-! # A task that drains a stream into a bounded channel

One task reads a stream and sends what it yields into a first-in first-out queue of
bounded depth; a send into a full queue waits.  The receiver takes from the front,
and learns that the task has ended only when nothing is queued any more.
-/

/-- The channel, its sender and what the sender's stream still holds. -/
structure Channel (α : Type) (depth : Nat) where
  /-- What the stream still yields. -/
  unread : List α
  /-- An item whose send has not completed. -/
  waiting : Option α
  queue : List α
  running : Bool
  fits : queue.length ≤ depth
  ended : running = false → waiting = none ∧ unread = []

namespace Channel

variable {α : Type} {depth : Nat}

/-- A channel with its task just spawned on a stream. -/
def spawn (depth : Nat) (stream : List α) : Channel α depth where
  unread := stream
  waiting := none
  queue := []
  running := true
  fits := Nat.zero_le depth
  ended := nofun

/-- A turn of the task: complete the send, else read on, else end. -/
def turn (c : Channel α depth) : Channel α depth :=
  if running : c.running = true then
    match c.waiting, c.unread with
    | some item, unread =>
        if room : c.queue.length < depth then
          { unread, waiting := none, queue := c.queue ++ [item], running := true
            fits := by
              rw [List.length_append]
              exact room
            ended := nofun }
        else c
    | none, item :: unread =>
        { unread, waiting := some item, queue := c.queue, running := true
          fits := c.fits, ended := nofun }
    | none, [] =>
        { unread := [], waiting := none, queue := c.queue, running := false
          fits := c.fits, ended := fun _ => ⟨rfl, rfl⟩ }
  else c

/-- Take the front item, if one is queued. -/
def receive (c : Channel α depth) : Option (α × Channel α depth) :=
  match shape : c.queue with
  | [] => none
  | item :: queue =>
      some (item, { c with
        queue
        fits := by
          have within := c.fits
          rw [shape] at within
          exact Nat.le_of_succ_le within })

/-- Nothing is queued and nothing will be. -/
def disconnected (c : Channel α depth) : Bool := c.queue.isEmpty && !c.running

/-- Everything the receiver has not taken, in the order it will. -/
def pending (c : Channel α depth) : List α := c.queue ++ c.waiting.toList ++ c.unread

@[simp] theorem pending_spawn (stream : List α) : (spawn depth stream).pending = stream := rfl

/-- The task moves items along, and neither drops nor reorders one. -/
@[simp] theorem pending_turn (c : Channel α depth) : c.turn.pending = c.pending := by
  unfold turn
  split
  · split
    · rename_i item unread sending
      split
      · simp [pending, sending]
      · rfl
    · rename_i item unread idle reads
      simp [pending, idle, reads]
    · rename_i idle reads
      simp [pending, idle, reads]
  · rfl

theorem receive_pending {c rest : Channel α depth} {item : α}
    (received : c.receive = some (item, rest)) : c.pending = item :: rest.pending := by
  unfold receive at received
  split at received
  · cases received
  · rename_i queue shape
    cases received
    simp [pending, shape]

/-- A receiver that finds the channel disconnected has taken the whole stream. -/
theorem pending_disconnected {c : Channel α depth} (gone : c.disconnected = true) :
    c.pending = [] := by
  simp only [disconnected, Bool.and_eq_true, List.isEmpty_iff, Bool.not_eq_true'] at gone
  obtain ⟨idle, reads⟩ := c.ended gone.2
  simp [pending, gone.1, idle, reads]

end Channel
