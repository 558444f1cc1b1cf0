import InferenceGateway.Core.Types

/-!
# Admission queue (`app/queue/admission_queue.py`)

FIFO queue of pending chat requests between API accept and scheduler dispatch.
The deque is a list, head first. No critical section of the class suspends, so
each method is one atomic function here; that the lock around it never makes a
task wait is proved of the code of the tasks in `Scheduler.Tasks`. The depth and
age gauges that every method refreshes are not modelled, since nothing reads
them.

- `enqueue` refuses at capacity, `popBatch` takes up to `n` requests from the
  head by the loop of the source, and `requeueFront` puts requests back by
  prepending them in reverse.
- `popBatch_append` and `requeueFront_eq`: neither loses, duplicates or reorders
  a request, so what is put back after a pop stands where it stood.
-/

namespace InferenceGateway

namespace AdmissionQueue

/-- Append one pending request, or `none` (`QueueFullError`) at capacity. -/
def enqueue (maxSize : ℤ) (q : List PendingRequest) (item : PendingRequest) :
    Option (List PendingRequest) :=
  if maxSize ≤ q.length then none else some (q ++ [item])

/-- The loop of `pop_batch`: `while self._q and len(out) < n`. -/
def popLoop (n : ℤ) : List PendingRequest → List PendingRequest →
    List PendingRequest × List PendingRequest
  | out, [] => (out, [])
  | out, x :: q => if (out.length : ℤ) < n then popLoop n (out ++ [x]) q else (out, x :: q)

/-- Remove up to `n` items from the head (FIFO): the batch and the rest. -/
def popBatch (n : ℤ) (q : List PendingRequest) : List PendingRequest × List PendingRequest :=
  popLoop n [] q

/-- Put items back at the front: `for it in reversed(items): appendleft(it)`. -/
def requeueFront (items q : List PendingRequest) : List PendingRequest :=
  items.reverse.foldl (fun q it => it :: q) q

/-- What the loop has taken and what it leaves make up the queue. By induction on the
queue. -/
theorem popLoop_append (n : ℤ) :
    ∀ (out q : List PendingRequest), (popLoop n out q).1 ++ (popLoop n out q).2 = out ++ q
  | out, [] => by simp [popLoop]
  | out, x :: q => by
    unfold popLoop
    split
    · rw [popLoop_append n (out ++ [x]) q, List.append_assoc]
      rfl
    · rfl

/-- A pop splits the queue: nothing is lost, duplicated or reordered. -/
theorem popBatch_append (n : ℤ) (q : List PendingRequest) :
    (popBatch n q).1 ++ (popBatch n q).2 = q :=
  popLoop_append n [] q

/-- Putting back preserves relative order. -/
theorem requeueFront_eq (items q : List PendingRequest) : requeueFront items q = items ++ q := by
  have h : ∀ (l q : List PendingRequest),
      l.foldl (fun q it => it :: q) q = l.reverse ++ q := by
    intro l
    induction l with
    | nil => intro q; rfl
    | cons x l ih =>
      intro q
      rw [List.foldl_cons, ih, List.reverse_cons, List.append_assoc]
      rfl
  rw [requeueFront, h, List.reverse_reverse]

end AdmissionQueue

end InferenceGateway
