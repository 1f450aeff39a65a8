import Pangolin.Lib.Reader

/-!
# Framed pipes

A pipe keeps bytes in order until they are read.  A frame is a body behind its length in four
little-endian bytes, and a reader with a limit takes whole frames: what was written frame by frame
is read back frame by frame, however the bytes arrive.
-/

namespace Framing

open Reading

/-- The unread bytes of a pipe, and whether its writer is gone. -/
structure Pipe where
  bytes : List UInt8
  closed : Bool
  deriving Repr, DecidableEq

/-- A pipe on which nothing was written yet. -/
def Pipe.empty : Pipe := ⟨[], false⟩

def Pipe.write (pipe : Pipe) (bytes : List UInt8) : Pipe :=
  { pipe with bytes := pipe.bytes ++ bytes }

def Pipe.close (pipe : Pipe) : Pipe := { pipe with closed := true }

/-- How the reading of a frame fails. -/
inductive FrameError where
  | lengthRead
  | oversize (length : Nat)
  | bodyRead
  deriving Repr, DecidableEq

/-- The width of a length. -/
def lengthWidth : Nat := 4

def frame (body : List UInt8) : List UInt8 := toBytesLe lengthWidth body.length ++ body

/-- A row of frames. -/
def frames (bodies : List (List UInt8)) : List UInt8 := bodies.flatMap frame

/-- Read a frame; there is no answer as long as bytes are missing that may still come. -/
def readFrame (limit : Nat) (pipe : Pipe) : Option (Except FrameError (List UInt8) × Pipe) :=
  if pipe.bytes.length < lengthWidth then
    if pipe.closed then some (.error .lengthRead, { pipe with bytes := [] }) else none
  else
    let length := ofBytesLe (pipe.bytes.take lengthWidth)
    let rest := pipe.bytes.drop lengthWidth
    if limit < length then some (.error (.oversize length), { pipe with bytes := rest })
    else if rest.length < length then
      if pipe.closed then some (.error .bodyRead, { pipe with bytes := [] }) else none
    else some (.ok (rest.take length), { pipe with bytes := rest.drop length })

/-- The frame of a body, unless the body is too long for one. -/
def writeFrame (limit : Nat) (body : List UInt8) : Option (List UInt8) :=
  if limit < body.length then none else some (frame body)

variable {limit : Nat} {pipe pipe' : Pipe} {body : List UInt8} {bodies : List (List UInt8)}

@[simp] theorem frames_nil : frames [] = [] := rfl

@[simp] theorem frames_cons (body : List UInt8) (bodies : List (List UInt8)) :
    frames (body :: bodies) = frame body ++ frames bodies := rfl

@[simp] theorem frames_append (first second : List (List UInt8)) :
    frames (first ++ second) = frames first ++ frames second := List.flatMap_append

theorem frames_singleton (body : List UInt8) : frames [body] = frame body := by
  rw [frames_cons, frames_nil, List.append_nil]

theorem writeFrame_eq_some {bytes : List UInt8} (written : writeFrame limit body = some bytes) :
    bytes = frame body ∧ body.length ≤ limit := by
  unfold writeFrame at written
  split at written
  · cases written
  · next fits => exact ⟨(Option.some.inj written).symm, Nat.not_lt.mp fits⟩

/-- What is read as a frame is one, and comes off the front. -/
theorem readFrame_ok (read : readFrame limit pipe = some (.ok body, pipe')) :
    pipe.bytes = frame body ++ pipe'.bytes ∧ body.length ≤ limit ∧ pipe'.closed = pipe.closed := by
  unfold readFrame at read
  split at read
  · split at read <;> cases read
  · next enough =>
      dsimp only at read
      split at read
      · cases read
      · next fits =>
          split at read
          · split at read <;> cases read
          · next whole =>
              cases read
              have size : ((pipe.bytes.drop lengthWidth).take
                  (ofBytesLe (pipe.bytes.take lengthWidth))).length =
                  ofBytesLe (pipe.bytes.take lengthWidth) := by
                rw [List.length_take]
                exact Nat.min_eq_left (Nat.not_lt.mp whole)
              have four : (pipe.bytes.take lengthWidth).reverse.length = lengthWidth := by
                rw [List.length_reverse, List.length_take]
                exact Nat.min_eq_left (Nat.not_lt.mp enough)
              have length : toBytesLe lengthWidth (ofBytesLe (pipe.bytes.take lengthWidth)) =
                  pipe.bytes.take lengthWidth := by
                have spelled := toBytes_ofBytes (pipe.bytes.take lengthWidth).reverse
                rw [four] at spelled
                rw [toBytesLe, ofBytesLe, spelled, List.reverse_reverse]
              refine ⟨?_, by rw [size]; exact Nat.not_lt.mp fits, rfl⟩
              rw [frame, size, length, List.append_assoc, List.take_append_drop,
                List.take_append_drop]

/-- A frame on the front is read. -/
theorem readFrame_frame (rest : List UInt8) (closed : Bool) (fits : body.length ≤ limit)
    (small : limit < 2 ^ 32) :
    readFrame limit ⟨frame body ++ rest, closed⟩ = some (.ok body, ⟨rest, closed⟩) := by
  have width : (toBytesLe lengthWidth body.length).length = lengthWidth := length_toBytesLe _ _
  have length : ofBytesLe (toBytesLe lengthWidth body.length) = body.length := by
    apply ofBytesLe_toBytesLe
    change body.length < 256 ^ 4
    omega
  have front : (frame body ++ rest).take lengthWidth = toBytesLe lengthWidth body.length := by
    rw [frame, List.append_assoc, List.take_append_of_le_length width.ge,
      List.take_of_length_le width.le]
  have back : (frame body ++ rest).drop lengthWidth = body ++ rest := by
    rw [frame, List.append_assoc, List.drop_append_of_le_length width.ge,
      List.drop_of_length_le width.le, List.nil_append]
  have enough : ¬ (frame body ++ rest).length < lengthWidth := by
    rw [frame, List.length_append, List.length_append, width]
    omega
  have whole : ¬ (body ++ rest).length < body.length := by
    rw [List.length_append]
    omega
  unfold readFrame
  rw [if_neg enough]
  simp only [front, back, length]
  rw [if_neg (Nat.not_lt.mpr fits), if_neg whole, List.take_left, List.drop_left]

/-- Of an open pipe that holds whole frames the first is read. -/
theorem readFrame_frames (closed : Bool) (fits : ∀ body ∈ bodies, body.length ≤ limit)
    (small : limit < 2 ^ 32)
    (read : readFrame limit ⟨frames bodies, closed⟩ = some (.ok body, pipe')) :
    ∃ later, bodies = body :: later ∧ pipe' = ⟨frames later, closed⟩ := by
  cases bodies with
  | nil =>
      cases closed <;> cases read
  | cons first later =>
      rw [frames_cons, readFrame_frame _ _ (fits first List.mem_cons_self) small] at read
      cases read
      exact ⟨later, rfl, rfl⟩

end Framing
