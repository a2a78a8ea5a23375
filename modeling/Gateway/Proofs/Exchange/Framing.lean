import Gateway.Proofs.Exchange.Fields

/-! The length that the headers of a response give for its body. Relayed responses bring theirs
along, and no other operation adds or takes back one. So the length is right as long as the body
stays the one it came with, and wrong once the body is replaced. -/

namespace Gateway

def Headers.lengths (h : Headers) : List HeaderValue := h.getAll "content-length"

/-- The value reads as a number of bytes. -/
def HeaderValue.Counts (v : HeaderValue) (n : Nat) : Prop :=
  v.text?.bind Writer.announced.lengthOfText? = some n

instance (v : HeaderValue) (n : Nat) : Decidable (v.Counts n) := inferInstanceAs (Decidable (_ = _))

/-- No length is given for the body, or one that is right. -/
def Framed (h : Headers) (body : Bytes) : Prop :=
  h.lengths = [] ∨ ∃ v, h.lengths = [v] ∧ v.Counts body.length

namespace Operation

/-- Lengths come with relayed responses only, and are right for these. -/
def Honest : Operation → Prop
  | setHeader n _ => n ≠ "content-length"
  | appendHeader n _ => n ≠ "content-length"
  | writeResponse r => Framed r.headers r.body
  | _ => True

def Rewrites : Operation → Prop
  | abortWith .. => True
  | render .. => True
  | write _ => True
  | writeStream _ => True
  | clearBody => True
  | writeResponse _ => True
  | _ => False

def collect (lengths : List HeaderValue) : Operation → List HeaderValue
  | writeResponse r => lengths ++ r.headers.lengths
  | resetWriter => []
  | _ => lengths

/-- From the first length on the body is left as it is, until the writer starts again. -/
def Undisturbed : (lengths : List HeaderValue) → List Operation → Prop
  | _, [] => True
  | lengths, op :: ops => (lengths ≠ [] → ¬ op.Rewrites) ∧ Undisturbed (op.collect lengths) ops

theorem Honest.lengths_apply {op : Operation} (h : op.Honest) (x : Exchange) :
    (op.apply x).context.writer.headers.lengths =
      op.collect x.context.writer.headers.lengths := by
  have hspares : op = resetWriter ∨ op.SparesResponse "content-length" := by
    cases op with
    | resetWriter => exact .inl rfl
    | setHeader | appendHeader => exact .inr h
    | _ => exact .inr trivial
  rcases hspares with rfl | hspares
  · rfl
  · have hcollect (lengths : List HeaderValue) :
        op.collect lengths = lengths ++ op.relayed.flatMap (·.headers.lengths) := by
      cases op with
      | writeResponse r => exact congrArg _ (List.flatMap_singleton ..).symm
      | resetWriter => exact hspares.elim
      | _ => exact (List.append_nil lengths).symm
    rw [hcollect]
    exact hspares.getAll_apply (by decide) (by decide) x

theorem kept_apply {op : Operation} (h : ¬ op.Rewrites) (x : Exchange)
    (lengths : List HeaderValue) :
    op = resetWriter ∨ (op.apply x).context.writer.body = x.context.writer.body ∧
      op.collect lengths = lengths := by
  cases op with
  | resetWriter => exact .inl rfl
  | abort s =>
    refine .inr ⟨?_, rfl⟩
    simp only [apply, Exchange.mapContext, Context.abort]
    split <;> rfl
  | abortWith | render | write | writeStream | clearBody | writeResponse =>
    exact absurd trivial h
  | _ => exact .inr ⟨rfl, rfl⟩

theorem Honest.framed_apply {op : Operation} (honest : op.Honest) {x : Exchange}
    (h : Framed x.context.writer.headers x.context.writer.body.bytes)
    (kept : x.context.writer.headers.lengths ≠ [] → ¬ op.Rewrites) :
    Framed (op.apply x).context.writer.headers (op.apply x).context.writer.body.bytes := by
  have hlengths := honest.lengths_apply x
  rcases h with hnone | ⟨v, hone, hv⟩
  · -- the first length is that of a relayed response, and right for its body
    rw [hnone] at hlengths
    cases op with
    | writeResponse r =>
      rcases honest with hr | ⟨v, hr, hv⟩
      · exact .inl (hlengths.trans hr)
      · exact .inr ⟨v, hlengths.trans hr, hv⟩
    | _ => exact .inl hlengths
  · rcases kept_apply (kept (by simp [hone])) x [v] with rfl | ⟨hbody, hcollect⟩
    · exact .inl rfl
    · rw [hone, hcollect] at hlengths
      exact .inr ⟨v, hlengths, by rwa [hbody]⟩

end Operation

namespace Exchange

def after (x : Exchange) (ops : List Operation) : Exchange := ops.foldl Operation.apply x

theorem lengths_after {ops : List Operation} (honest : ∀ op ∈ ops, op.Honest) (x : Exchange) :
    (x.after ops).context.writer.headers.lengths =
      ops.foldl Operation.collect x.context.writer.headers.lengths := by
  induction ops generalizing x with
  | nil => rfl
  | cons op ops ih =>
    obtain ⟨hop, hops⟩ := List.forall_mem_cons.mp honest
    refine (ih hops (op.apply x)).trans ?_
    rw [hop.lengths_apply, List.foldl_cons]

theorem framed_after {ops : List Operation} (honest : ∀ op ∈ ops, op.Honest) {x : Exchange}
    (h : Framed x.context.writer.headers x.context.writer.body.bytes)
    (undisturbed : Operation.Undisturbed x.context.writer.headers.lengths ops) :
    Framed (x.after ops).context.writer.headers (x.after ops).context.writer.body.bytes := by
  induction ops generalizing x with
  | nil => exact h
  | cons op ops ih =>
    obtain ⟨hop, hops⟩ := List.forall_mem_cons.mp honest
    obtain ⟨hkept, hrest⟩ := undisturbed
    rw [← hop.lengths_apply] at hrest
    exact ih hops (hop.framed_apply h hkept) hrest

/-- A response gives all lengths that were relayed since its writer started. So it gives none or the
right one when nothing touched the body after the first of them. -/
theorem take_framed {x : Exchange} (fresh : x.context.writer = {}) {ops : List Operation}
    (honest : ∀ op ∈ ops, op.Honest) :
    let w := (x.after ops).context.writer
    w.take.1.headers.lengths = ops.foldl Operation.collect [] ∧
      (Operation.Undisturbed [] ops → w.status.allowsBody = true →
        Framed w.take.1.headers w.take.1.body) := by
  intro w
  have hnone : x.context.writer.headers.lengths = [] := by rw [fresh]; rfl
  refine ⟨(lengths_after honest x).trans (by rw [hnone]), fun undisturbed allows => ?_⟩
  have hbody : w.take.1.body = w.body.bytes := if_pos allows
  rw [hbody]
  exact framed_after honest (.inl hnone) (hnone.symm ▸ undisturbed)

def hello : Response :=
  { headers := ⟨[("content-length", .ofText "5")]⟩, body := Utf8.encode "hello" }

theorem hello_honest : (Operation.writeResponse hello).Honest :=
  .inr ⟨.ofText "5", by decide, by decide⟩

theorem take_framed_hello :
    let ops : List Operation := [.writeResponse hello, .setHeader "server" (.ofText "s"), .skip]
    let w := (after {} ops).context.writer
    w.take.1.headers.lengths = [.ofText "5"] ∧ Framed w.take.1.headers w.take.1.body := by
  intro ops w
  have honest : ∀ op ∈ ops, op.Honest := by
    simp only [ops, List.forall_mem_cons]
    exact ⟨hello_honest, by simp [Operation.Honest], trivial, by simp⟩
  obtain ⟨hlengths, hframed⟩ := take_framed (x := {}) rfl honest
  refine ⟨hlengths, hframed ⟨by simp, ?_, ?_, trivial⟩ (by decide)⟩ <;>
    simp [Operation.Rewrites]

/-- An abort replaces the body of a relayed response and leaves its length, and a second relayed
response adds its own. -/
theorem replaced_body_misframed :
    let aborted : List Operation :=
      [.writeResponse hello, .abortWith .internalServerError (.obj [("code", .ofNat 500)])]
    let repeated : List Operation := [.writeResponse hello, .writeResponse hello]
    ∀ ops ∈ [aborted, repeated],
      let w := (after {} ops).context.writer
      (∀ op ∈ ops, op.Honest) ∧ w.status.allowsBody = true ∧
        ¬ Framed w.take.1.headers w.take.1.body := by
  intro aborted repeated
  simp only [List.forall_mem_cons]
  refine ⟨⟨?_, by decide, ?_⟩, ⟨?_, by decide, ?_⟩, by simp⟩
  · simp only [aborted, List.forall_mem_cons]
    exact ⟨hello_honest, trivial, by simp⟩
  · -- the length is that of the five bytes that were replaced
    have hlengths : (after {} aborted).context.writer.take.1.headers.lengths = [.ofText "5"] := by
      decide
    rintro (h | ⟨v, h, hv⟩)
    · rw [hlengths] at h
      cases h
    · rw [hlengths] at h
      cases h
      revert hv
      decide
  · simp only [repeated, List.forall_mem_cons]
    exact ⟨hello_honest, hello_honest, by simp⟩
  · have hlengths : (after {} repeated).context.writer.take.1.headers.lengths =
        [.ofText "5", .ofText "5"] := by
      decide
    rintro (h | ⟨v, h, -⟩) <;> rw [hlengths] at h <;> cases h

end Exchange

end Gateway
