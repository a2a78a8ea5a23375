import Gateway.Http.Writer
import Gateway.Proofs.Http.Headers
import Mathlib.Data.List.DropRight
import Mathlib.Data.List.Induction

/-! The response that a writer gives out, told from the operations alone: the last status, the values
of each header, and the body that the last stream and the chunks after it make up. -/

namespace Gateway

theorem Status.allowsBody_iff {s : Status} :
    s.allowsBody = true ↔ ¬ (s.code < 200 ∨ s.code = 204 ∨ s.code = 304) := by
  simp [allowsBody, isInformational, and_assoc]

def Body.chunks : Body → Bytes
  | buffered bytes => bytes
  | _ => []

namespace Writer

/-- What can be done to a writer; `take` gives out the response. -/
inductive Op where
  | setStatus (status : Status)
  | setHeader (name : HeaderName) (value : HeaderValue)
  | appendHeader (name : HeaderName) (value : HeaderValue)
  | write (chunk : Bytes)
  | writeStream (bytes : Bytes)
  | writeResponse (response : Response)
  | clearBody
  | reset
  | take

def apply (w : Writer) : Op → Writer
  | .setStatus s => w.setStatus s
  | .setHeader n v => w.setHeader n v
  | .appendHeader n v => w.appendHeader n v
  | .write chunk => w.write chunk
  | .writeStream bytes => w.writeStream bytes
  | .writeResponse r => w.writeResponse r
  | .clearBody => w.clearBody
  | .reset => {}
  | .take => w.take.2

def run (w : Writer) (ops : List Op) : Writer := ops.foldl apply w

theorem run_concat (w : Writer) (ops : List Op) (op : Op) :
    w.run (ops ++ [op]) = (w.run ops).apply op := by
  simp only [run, List.foldl_append, List.foldl_cons, List.foldl_nil]

/-! ### What the operations tell -/

namespace Op

def restarts : Op → Bool
  | reset => true
  | take => true
  | _ => false

def clears : Op → Bool
  | clearBody => true
  | op => op.restarts

def status? : Op → Option Status
  | setStatus s => some s
  | writeResponse r => some r.status
  | _ => none

def streamed? : Op → Option Bytes
  | writeStream bytes => some bytes
  | writeResponse r => some r.body
  | _ => none

def chunk : Op → Bytes
  | write chunk => chunk
  | _ => []

def inserted? (name : HeaderName) : Op → Option HeaderValue
  | setHeader n v => if n = name then some v else none
  | _ => none

def appended (name : HeaderName) : Op → List HeaderValue
  | appendHeader n v => if n = name then [v] else []
  | writeResponse r => r.headers.getAll name
  | _ => []

end Op

def since (p : Op → Bool) (ops : List Op) : List Op := ops.rtakeWhile fun op => !p op

def latest {α : Type} (f : Op → Option α) (ops : List Op) : Option α := (ops.filterMap f).getLast?

def latestStatus? (ops : List Op) : Option Status := latest Op.status? (since Op.restarts ops)

/-- The value that was inserted last, and those that were appended since. -/
def valuesOf (name : HeaderName) (ops : List Op) : List HeaderValue :=
  let recent := since Op.restarts ops
  (latest (Op.inserted? name) recent).toList ++
    (since (fun op => (op.inserted? name).isSome) recent).flatMap (Op.appended name)

def latestStream? (ops : List Op) : Option Bytes := latest Op.streamed? (since Op.clears ops)

/-- The chunks that were written since the last stream. -/
def chunksOf (ops : List Op) : Bytes :=
  (since (fun op => op.streamed?.isSome) (since Op.clears ops)).flatMap Op.chunk

/-- A stream lasts until a chunk with bytes takes its place. -/
def bodyOf (ops : List Op) : Body :=
  if chunksOf ops = [] then ((latestStream? ops).map .stream).getD .empty
  else .buffered (chunksOf ops)

theorem since_concat (p : Op → Bool) (ops : List Op) (op : Op) :
    since p (ops ++ [op]) = if p op then [] else since p ops ++ [op] := by
  rw [since, List.rtakeWhile_concat]
  cases p op <;> rfl

theorem latest_concat {α : Type} (f : Op → Option α) (ops : List Op) (op : Op) :
    latest f (ops ++ [op]) = (f op).or (latest f ops) := by
  cases h : f op <;> simp [latest, List.filterMap_append, h]

theorem latest_since_concat {α : Type} (p : Op → Bool) (f : Op → Option α) (ops : List Op)
    (op : Op) :
    latest f (since p (ops ++ [op])) = if p op then none else (f op).or (latest f (since p ops)) := by
  rw [since_concat]
  split
  · rfl
  · exact latest_concat f _ op

theorem valuesOf_concat (name : HeaderName) (ops : List Op) (op : Op) :
    valuesOf name (ops ++ [op]) =
      if op.restarts then []
      else match op.inserted? name with
        | some v => [v]
        | none => valuesOf name ops ++ op.appended name := by
  unfold valuesOf
  rw [since_concat]
  split
  · rfl
  · dsimp only
    rw [latest_concat, since_concat]
    cases op.inserted? name <;> simp

theorem chunksOf_concat (ops : List Op) (op : Op) :
    chunksOf (ops ++ [op]) =
      if op.clears ∨ op.streamed?.isSome then [] else chunksOf ops ++ op.chunk := by
  unfold chunksOf
  rw [since_concat]
  by_cases hclears : op.clears = true
  · simp [hclears, since]
  · rw [if_neg hclears, since_concat]
    by_cases hstream : op.streamed?.isSome = true
    · simp [hstream]
    · simp [hclears, hstream]

theorem latestStream?_concat (ops : List Op) (op : Op) :
    latestStream? (ops ++ [op]) =
      if op.clears then none else op.streamed?.or (latestStream? ops) :=
  latest_since_concat Op.clears Op.streamed? ops op

theorem chunks_bodyOf (ops : List Op) : (bodyOf ops).chunks = chunksOf ops := by
  unfold bodyOf
  split
  · next h =>
    rw [h]
    cases latestStream? ops <;> rfl
  · rfl

theorem bytes_bodyOf (ops : List Op) :
    (bodyOf ops).bytes =
      if chunksOf ops = [] then (latestStream? ops).getD [] else chunksOf ops := by
  unfold bodyOf
  split
  · cases latestStream? ops <;> rfl
  · rfl

theorem bodyOf_eq_empty_iff {ops : List Op} :
    bodyOf ops = .empty ↔ latestStream? ops = none ∧ chunksOf ops = [] := by
  unfold bodyOf
  split
  · next h => cases latestStream? ops <;> simp [h]
  · next h => simp [h]

/-! ### What the writer holds -/

@[simp] theorem headers_write (w : Writer) (chunk : Bytes) : (w.write chunk).headers = w.headers := by
  unfold write
  split <;> rfl

@[simp] theorem status?_write (w : Writer) (chunk : Bytes) : (w.write chunk).status? = w.status? := by
  unfold write
  split <;> rfl

theorem body_write (w : Writer) {chunk : Bytes} (h : chunk ≠ []) :
    (w.write chunk).body = .buffered (w.body.chunks ++ chunk) := by
  rw [write, if_neg (by simpa using h)]
  cases w.body <;> rfl

theorem size_write (w : Writer) (chunk : Bytes) : (w.write chunk).size = w.size + chunk.length := by
  unfold write
  split
  · next h => simp [List.isEmpty_iff.mp h]
  · rfl

theorem status?_apply (w : Writer) (op : Op) :
    (w.apply op).status? = if op.restarts then none else op.status?.or w.status? := by
  cases op with
  | write chunk => exact w.status?_write chunk
  | _ => rfl

theorem getAll_apply (w : Writer) (op : Op) (name : HeaderName) :
    (w.apply op).headers.getAll name =
      if op.restarts then []
      else match op.inserted? name with
        | some v => [v]
        | none => w.headers.getAll name ++ op.appended name := by
  have hkept : w.headers.getAll name = w.headers.getAll name ++ [] := (List.append_nil _).symm
  cases op with
  | setHeader n v =>
    refine (w.headers.getAll_insert n name v).trans ?_
    by_cases hn : n = name <;> simp [Op.restarts, Op.inserted?, Op.appended, hn]
  | appendHeader n v => exact w.headers.getAll_append n name v
  | writeResponse r => exact w.headers.getAll_appendAll r.headers name
  | write chunk =>
    rw [apply, headers_write]
    exact hkept
  | reset | take => rfl
  | setStatus | writeStream | clearBody => exact hkept

/-- The writer holds what the operations tell. -/
structure Tells (ops : List Op) (w : Writer) : Prop where
  status? : w.status? = latestStatus? ops
  headers : ∀ name, w.headers.getAll name = valuesOf name ops
  body : w.body = bodyOf ops

theorem Tells.body_apply {ops : List Op} {w : Writer} (h : Tells ops w) (op : Op) :
    (w.apply op).body = bodyOf (ops ++ [op]) := by
  have hstream := latestStream?_concat ops op
  have hchunks := chunksOf_concat ops op
  have hkept (hs : latestStream? (ops ++ [op]) = latestStream? ops)
      (hc : chunksOf (ops ++ [op]) = chunksOf ops) : w.body = bodyOf (ops ++ [op]) := by
    rw [h.body, bodyOf, bodyOf, hs, hc]
  cases op with
  | write chunk =>
    by_cases hchunk : chunk = []
    · subst hchunk
      exact hkept hstream (hchunks.trans (List.append_nil _))
    · have hne : chunksOf (ops ++ [.write chunk]) ≠ [] := by
        rw [hchunks]
        exact List.append_ne_nil_of_right_ne_nil _ hchunk
      rw [bodyOf, if_neg hne, hchunks, ← chunks_bodyOf, ← h.body]
      exact body_write w hchunk
  | writeStream | writeResponse | clearBody | reset | take =>
    have hnone : chunksOf (ops ++ [_]) = [] := hchunks
    rw [bodyOf, if_pos hnone, hstream]
    rfl
  | setStatus | setHeader | appendHeader =>
    exact hkept hstream (hchunks.trans (List.append_nil _))

theorem tells_run (ops : List Op) : Tells ops (({} : Writer).run ops) := by
  induction ops using List.reverseRecOn with
  | nil => exact ⟨rfl, fun _ => rfl, rfl⟩
  | append_singleton ops op ih =>
    rw [run_concat]
    exact {
      status? := by
        rw [status?_apply, ih.status?, latestStatus?, latestStatus?, latest_since_concat]
      headers := fun name => by rw [getAll_apply, ih.headers, valuesOf_concat]
      body := ih.body_apply op }

/-- What a writer gives out after any operations, and how it goes on. The status is the last one that
was set since the writer started or was last reset or emptied, or 200. Under each name the response
has the value that was inserted last since then and those appended after it, in their order. The body
is empty for the statuses without one, and else told by the operations since the body was last
cleared: it is the last stream when no bytes were written after it, and else the chunks after the
last stream, one after the other. The writer counts as written exactly when there is a stream or a
byte. After a response is taken, everything is as with a new writer. -/
theorem take_told (ops : List Op) :
    let w := ({} : Writer).run ops
    let response := w.take.1
    response.status = (latestStatus? ops).getD .ok ∧
    (∀ name, response.headers.getAll name = valuesOf name ops) ∧
    response.body =
      (if response.status.code < 200 ∨ response.status.code = 204 ∨ response.status.code = 304 then []
      else if chunksOf ops = [] then (latestStream? ops).getD [] else chunksOf ops) ∧
    (w.written = true ↔ latestStream? ops ≠ none ∨ chunksOf ops ≠ []) ∧
    ∀ later, ({} : Writer).run (ops ++ .take :: later) = ({} : Writer).run later := by
  intro w response
  have h : Tells ops w := tells_run ops
  refine ⟨congrArg (·.getD .ok) h.status?, h.headers, ?_, ?_, fun later => ?_⟩
  · have hbody : response.body = if response.status.allowsBody then w.body.bytes else [] := rfl
    simp only [hbody, h.body, bytes_bodyOf, Status.allowsBody_iff, ite_not]
  · rw [written, bne_iff_ne, h.body, ne_eq, bodyOf_eq_empty_iff, not_and_or]
  · rw [run, List.foldl_append, List.foldl_cons]
    rfl

end Writer

end Gateway
