import Gateway.Proofs.Exchange.Gate
import Gateway.Proofs.Http.Rendering
import Gateway.Proofs.Http.Size

/-! Handlers that only produce buffered bodies. All that they do to the writer is done by its
operations other than streams, so the size that it counts is that of its body at every point of the
run. -/

namespace Gateway

namespace Writer

/-- One operation that is no stream. -/
def Edit (w w' : Writer) : Prop := ∃ op : Op, op.streamed? = none ∧ w' = w.apply op

abbrev Edits := Relation.ReflTransGen Edit

theorem edits_apply (w : Writer) (op : Op) (h : op.streamed? = none) : w.Edits (w.apply op) :=
  .single ⟨op, h, rfl⟩

theorem edits_foldl_write (chunks : List Bytes) (w : Writer) : w.Edits (chunks.foldl write w) := by
  induction chunks generalizing w with
  | nil => exact .refl
  | cons chunk chunks ih => exact (w.edits_apply (.write chunk) rfl).trans (ih _)

theorem Edits.exists_run {w w' : Writer} (h : w.Edits w') :
    ∃ ops, (∀ op ∈ ops, op.streamed? = none) ∧ w' = w.run ops := by
  induction h with
  | refl => exact ⟨[], by simp, rfl⟩
  | tail _ hs ih =>
    obtain ⟨ops, hops, rfl⟩ := ih
    obtain ⟨op, hop, rfl⟩ := hs
    refine ⟨ops ++ [op], List.forall_mem_append.mpr ⟨hops, ?_⟩, (w.run_concat ops op).symm⟩
    exact List.forall_mem_singleton.mpr hop

theorem latestStream?_eq_none {ops : List Op} (h : ∀ op ∈ ops, op.streamed? = none) :
    latestStream? ops = none := by
  have hnone : (since Op.clears ops).filterMap Op.streamed? = [] :=
    List.filterMap_eq_nil_iff.mpr fun op hop => h op ((List.rtakeWhile_suffix _ _).mem hop)
  rw [latestStream?, latest, hnone]
  rfl

theorem Edits.counted {w : Writer} (h : ({} : Writer).Edits w) :
    w.size = w.body.bytes.length ∧ (w.written = true ↔ w.size ≠ 0) := by
  obtain ⟨ops, hops, rfl⟩ := h.exists_run
  have hstream := latestStream?_eq_none hops
  have hsize := size_run_unstreamed hstream
  refine ⟨hsize, ?_⟩
  rw [hsize, (tells_run ops).body, bytes_bodyOf, written, bne_iff_ne, (tells_run ops).body, ne_eq,
    bodyOf_eq_empty_iff, hstream]
  by_cases hchunks : chunksOf ops = [] <;> simp [hchunks]

end Writer

namespace Render

theorem edits_run (r : Render) (w : Writer) : w.Edits (r.run w).1 := by
  rcases r.writes_or_redirects with ⟨chunks, failure, hwrites⟩ | ⟨status, location, rfl⟩
  · rw [hwrites]
    exact w.edits_foldl_write chunks
  · rcases run_redirect status location w with ⟨-, value, -, hrun⟩ | ⟨error, hrun⟩
    · rw [hrun]
      exact (w.edits_apply (.setStatus status) rfl).trans
        (Writer.edits_apply _ (.setHeader "location" value) rfl)
    · rw [hrun]

theorem edits_fill (s : Status) (r : Render) (w : Writer) : w.Edits (r.fill s w).1 := by
  refine r.fill_keeps (w.edits_apply (.setStatus s) rfl) ?_ ?_ ?_
  · exact fun typed value h => h.trans (typed.edits_apply (.setHeader "content-type" value) rfl)
  · exact fun typed h => h.trans (r.edits_run typed)
  · exact fun failed h => (h.trans (failed.edits_apply .clearBody rfl)).trans
      (Writer.edits_apply _ (.setStatus .internalServerError) rfl)

end Render

namespace Operation

/-- An operation that makes no stream of the body. Relaying a response does. -/
def Buffers : Operation → Prop
  | writeStream _ => False
  | writeResponse _ => False
  | _ => True

theorem Buffers.edits_apply {op : Operation} (h : op.Buffers) (x : Exchange) :
    x.context.writer.Edits (op.apply x).context.writer := by
  cases op with
  | abort s =>
    simp only [apply, Exchange.mapContext, Context.abort]
    split
    · exact .refl
    · exact Writer.edits_apply _ (.setStatus s) rfl
  | abortWith s body =>
    simp only [apply, Exchange.update, Context.abortWith, Context.abortRendering]
    split
    · exact .refl
    · exact (Writer.edits_apply _ .clearBody rfl).trans (Render.edits_fill s (.json body) _)
  | render s r => exact r.edits_fill s _
  | setStatus s => exact Writer.edits_apply _ (.setStatus s) rfl
  | setHeader n v => exact Writer.edits_apply _ (.setHeader n v) rfl
  | appendHeader n v => exact Writer.edits_apply _ (.appendHeader n v) rfl
  | write chunk => exact Writer.edits_apply _ (.write chunk) rfl
  | clearBody => exact Writer.edits_apply _ .clearBody rfl
  | resetWriter => exact Writer.edits_apply _ .reset rfl
  | writeStream | writeResponse => exact h.elim
  | _ => exact .refl

end Operation

namespace Machine

variable {chain : Chain}

/-- No handler makes a stream of the body in this run. -/
def Buffered (chain : Chain) (start : Machine) : Prop :=
  ∀ m, Reaches chain start m → ∀ i op rest, m.activity = .handler i (.act op rest) → op.Buffers

theorem buffered_of_every (hc : ∀ h ∈ chain, h.program.Every Operation.Buffers) (x : Exchange) :
    Buffered chain ⟨.loop, [], x⟩ := by
  intro m hr i op rest hact
  have hi : ∀ h, chain[i]? = some h → h.program.Every Operation.Buffers :=
    fun h hf => hc h (List.mem_of_getElem? hf)
  exact ((Reaches.every hi hr).2 _ hact).1

theorem Reaches.edits {start m : Machine} (hb : Buffered chain start) (hr : Reaches chain start m) :
    start.exchange.context.writer.Edits m.exchange.context.writer := by
  induction hr with
  | refl => exact .refl
  | tail hr hs ih =>
    rcases hs.moves_or_acts with ⟨_, _, heq⟩ | ⟨i, op, rest, hact, heq⟩
    · rwa [heq]
    · rw [heq]
      exact ih.trans ((hb _ hr i op rest hact).edits_apply _)

end Machine

end Gateway
