import LiveTail.Tail

/-! Decoding out of order, with results in order.

Frames are submitted to a queue and decoded elsewhere, each finishing when it
will. A result is handed out only when its frame is the oldest in the queue, so
results come in the order of submission whatever finishes first. -/
namespace LiveTail.Decoding

/-- A frame to decode: its text, or its message when that has been read already. -/
inductive Submission where
  | text (text : String)
  | message (message : Message)

def Submission.decode : Submission → Decoded
  | .text s => Frame.decode s
  | .message m => Frame.decodeMessage m

/-- A submission on its way. -/
structure Job where
  submission : Submission
  finished : Bool := false

/-- Jobs, oldest first. -/
structure Queue where
  jobs : List Job := []

namespace Queue

def submit (q : Queue) (s : Submission) : Queue := ⟨q.jobs ++ [{ submission := s }]⟩

def submitAll (q : Queue) (ss : List Submission) : Queue := ss.foldl submit q

/-- The number of results still to be handed out. -/
def pending (q : Queue) : Nat := q.jobs.length

/-- The decoding of the job at a place finishes. -/
def finish (q : Queue) (place : Nat) : Queue :=
  ⟨q.jobs.modify place fun job => { job with finished := true }⟩

/-- The next result, once the oldest job has finished. -/
def next? (q : Queue) : Option (Decoded × Queue) :=
  match q.jobs with
  | job :: rest => if job.finished then some (job.submission.decode, ⟨rest⟩) else none
  | [] => none

/-- Waits for the oldest job and takes its result. -/
def await? (q : Queue) : Option (Decoded × Queue) := (q.finish 0).next?

/-- Waits for every job, oldest first. -/
def results (q : Queue) : List Decoded := q.jobs.map (·.submission.decode)

/-- Waits for every job and applies the results in order; gives their number. -/
def flushInto {ε : Type} (q : Queue) (t : Tail ε) : Nat × Queue × Tail ε :=
  (q.pending, {}, t.ingestAll q.results)

end Queue
end LiveTail.Decoding
