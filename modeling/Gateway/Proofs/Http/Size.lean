import Gateway.Proofs.Http.Writing

/-! The size that a writer tells. It is that of the buffered body as long as no stream was written
since the body was last cleared. A chunk that takes the place of a stream is counted on top of the
length that was announced for the stream, in the arithmetic of a machine word. -/

namespace Gateway.Writer

/-- The number of bytes that a list of lengths announces by its first value. -/
def announcedBy (lengths : List HeaderValue) : Nat :=
  ((lengths.head?.bind (·.text?)).bind announced.lengthOfText?).getD 0

theorem announced_eq (h : Headers) : announced h = announcedBy (h.getAll "content-length") := rfl

def upToStream (ops : List Op) : List Op := ops.rdropWhile fun op => !op.streamed?.isSome

/-- The length that was announced for the last stream since the body was cleared. -/
def announcedFor (ops : List Op) : Nat :=
  match latestStream? ops with
  | some _ => announcedBy (valuesOf "content-length" (upToStream ops))
  | none => 0

theorem announcedFor_concat (ops : List Op) (op : Op) :
    announcedFor (ops ++ [op]) =
      if op.clears then 0
      else if op.streamed?.isSome then announcedBy (valuesOf "content-length" (ops ++ [op]))
      else announcedFor ops := by
  unfold announcedFor upToStream
  rw [latestStream?_concat, List.rdropWhile_concat]
  by_cases hclears : op.clears = true
  · simp [hclears]
  · cases op.streamed? <;> simp [hclears]

theorem size_apply (w : Writer) (op : Op) :
    (w.apply op).size =
      if op.clears then 0
      else if op.streamed?.isSome then announced (w.apply op).headers
      else w.size + op.chunk.length := by
  cases op with
  | write chunk => exact w.size_write chunk
  | _ => rfl

/-- The word changes with each operation as the count does. It wraps around. -/
theorem told_apply (w : Writer) (op : Op) :
    (w.apply op).told =
      if op.clears then 0
      else if op.streamed?.isSome then .ofNat (announced (w.apply op).headers)
      else w.told + .ofNat op.chunk.length := by
  unfold told
  rw [size_apply]
  split
  · rfl
  · split
    · rfl
    · exact UInt64.ofNat_add _ _

theorem size_run (ops : List Op) :
    (({} : Writer).run ops).size = (chunksOf ops).length + announcedFor ops := by
  induction ops using List.reverseRecOn with
  | nil => rfl
  | append_singleton ops op ih =>
    have hheaders := (tells_run (ops ++ [op])).headers "content-length"
    rw [run_concat] at hheaders ⊢
    rw [size_apply, chunksOf_concat, announcedFor_concat, announced_eq, hheaders, ih]
    by_cases hclears : op.clears = true
    · simp [hclears]
    · by_cases hstream : op.streamed?.isSome = true
      · simp [hclears, hstream]
      · simp [hclears, hstream, Nat.add_right_comm]

theorem size_run_unstreamed {ops : List Op} (h : latestStream? ops = none) :
    (({} : Writer).run ops).size = (({} : Writer).run ops).body.bytes.length := by
  rw [size_run, (tells_run ops).body, bytes_bodyOf, announcedFor, h]
  by_cases hchunks : chunksOf ops = [] <;> simp [hchunks]

theorem announcedBy_lt (lengths : List HeaderValue) : announcedBy lengths < UInt64.size := by
  unfold announcedBy
  cases h : (lengths.head?.bind (·.text?)).bind announced.lengthOfText? with
  | none => decide
  | some n =>
    obtain ⟨text, -, hn⟩ := Option.bind_eq_some_iff.mp h
    simp only [announced.lengthOfText?, Option.ite_none_right_eq_some] at hn
    obtain ⟨hbound, heq⟩ := hn
    simp only [Bool.and_eq_true, decide_eq_true_eq] at hbound
    exact Option.some.inj heq ▸ hbound.2

theorem announcedFor_lt (ops : List Op) : announcedFor ops < UInt64.size := by
  unfold announcedFor
  split
  · exact announcedBy_lt _
  · decide

theorem told_eq_iff {w : Writer} {length announced : Nat} (h : w.size = length + announced)
    (bound : announced < UInt64.size) : w.told = .ofNat length ↔ announced = 0 := by
  rw [told, h, UInt64.ofNat_add, UInt64.add_eq_left, ← UInt64.toNat_inj,
    UInt64.toNat_ofNat_of_lt' bound]
  rfl

/-- What a writer tells after any operations: nothing for an empty body, the announced length for a
stream, and for a buffered body its bytes together with the length that was announced for the stream
whose place it took, as far as a word can hold that. So the size of a buffered body is exact if and
only if there was no such stream or nothing was announced for it. -/
theorem size_told (ops : List Op) :
    let w := ({} : Writer).run ops
    announcedFor ops < UInt64.size ∧
    match w.body with
    | .empty => w.told = 0
    | .stream _ => w.told = .ofNat (announcedFor ops)
    | .buffered bytes =>
      w.told = .ofNat bytes.length + .ofNat (announcedFor ops) ∧
        (bytes.length + announcedFor ops < UInt64.size →
          w.told.toNat = bytes.length + announcedFor ops) ∧
        (w.told = .ofNat bytes.length ↔ latestStream? ops = none ∨ announcedFor ops = 0) := by
  intro w
  have hsize : w.size = (chunksOf ops).length + announcedFor ops := size_run ops
  have hbody : w.body = bodyOf ops := (tells_run ops).body
  have hunannounced (h : latestStream? ops = none) : announcedFor ops = 0 := by
    rw [announcedFor, h]
  have hchunks : w.body.chunks = chunksOf ops := by rw [hbody, chunks_bodyOf]
  rw [← hchunks] at hsize
  refine ⟨announcedFor_lt ops, ?_⟩
  cases hw : w.body with
  | empty =>
    rw [hw] at hbody hsize
    have hnone := (bodyOf_eq_empty_iff.mp hbody.symm).1
    rw [hunannounced hnone] at hsize
    exact congrArg UInt64.ofNat hsize
  | stream bytes =>
    rw [hw] at hsize
    exact congrArg UInt64.ofNat (hsize.trans (Nat.zero_add _))
  | buffered bytes =>
    rw [hw] at hsize
    have hcount : w.size = bytes.length + announcedFor ops := hsize
    have hiff := told_eq_iff hcount (announcedFor_lt ops)
    refine ⟨?_, fun hbound => ?_, fun h => .inr (hiff.mp h), fun h => ?_⟩
    · rw [told, hcount, UInt64.ofNat_add]
    · rw [told, hcount, UInt64.toNat_ofNat_of_lt' hbound]
    · exact hiff.mpr (h.elim hunannounced id)

/-- A byte that takes the place of a stream of five is counted as the sixth. -/
theorem replaced_stream_counted :
    let w := ({} : Writer).run [.setHeader "content-length" (.ofText "5"),
      .writeStream (Utf8.encode "hello"), .write (Utf8.encode "x")]
    w.body = .buffered (Utf8.encode "x") ∧ w.told = 6 ∧ (Utf8.encode "x").length = 1 := by
  decide

/-- A byte that takes the place of the longest stream that can be announced is counted as none. -/
example : (({} : Writer).run [.setHeader "content-length" (.ofText "18446744073709551615"),
    .writeStream [], .write (Utf8.encode "x")]).told = 0 := by
  decide

end Gateway.Writer
