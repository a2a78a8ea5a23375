import Gateway.Http.Render
import Gateway.Proofs.Http.Writing

/-! What a renderer does to a writer: it writes its chunks one after the other, or it redirects. -/

namespace Gateway

/-- Bytes are added to what is buffered and take the place of a stream. -/
def Body.added (b : Body) (bytes : Bytes) : Body :=
  if bytes = [] then b else .buffered (b.chunks ++ bytes)

theorem Body.added_added (b : Body) (first later : Bytes) :
    (b.added first).added later = b.added (first ++ later) := by
  unfold added
  by_cases hlater : later = []
  · simp [hlater]
  · by_cases hfirst : first = []
    · simp [hfirst]
    · simp [hfirst, hlater, chunks]

namespace Writer

theorem write_eq (w : Writer) (chunk : Bytes) :
    w.write chunk = { w with body := w.body.added chunk, size := w.size + chunk.length } := by
  by_cases hchunk : chunk = []
  · simp [write, Body.added, hchunk]
  · rw [Body.added, if_neg hchunk, ← body_write w hchunk, ← size_write, write]
    split <;> rfl

theorem foldl_write (chunks : List Bytes) (w : Writer) :
    chunks.foldl write w =
      { w with body := w.body.added chunks.flatten, size := w.size + chunks.flatten.length } := by
  induction chunks generalizing w with
  | nil => rfl
  | cons chunk chunks ih =>
    rw [List.foldl_cons, ih, write_eq]
    simp only [Body.added_added, List.flatten_cons, List.length_append, Nat.add_assoc]

end Writer

namespace Headers

theorem remove_append_self (h : Headers) (n : HeaderName) (v : HeaderValue) :
    (h.append n v).remove n = h.remove n := by
  simp [remove, append, List.filter_append]

theorem remove_insert_self (h : Headers) (n : HeaderName) (v : HeaderValue) :
    (h.insert n v).remove n = h.remove n := by
  rw [insert, remove_append_self]
  simp [remove]

end Headers

/-- Redirects and the places of new resources come with a location. -/
def Status.Redirects (s : Status) : Prop := s.isRedirection = true ∨ s = .created

namespace Render

/-- The chunks are written into any writer, and then the renderer succeeds or fails. -/
def Writes (r : Render) (chunks : List Bytes) (failure : Option String) : Prop :=
  ∀ w, r.run w = (chunks.foldl Writer.write w, failure)

theorem writes_json (value : Json) :
    (json value).Writes [Utf8.encode (value.compact ++ "\n")] none := fun _ => rfl

theorem writes_or_redirects (r : Render) :
    (∃ chunks failure, r.Writes chunks failure) ∨
      ∃ status location, r = redirect status location := by
  cases r with
  | redirect status location => exact .inr ⟨status, location, rfl⟩
  | chunks contentType? cs failure => exact .inl ⟨cs, failure, fun _ => rfl⟩
  | json | indented | text | data => exact .inl ⟨[_], none, fun _ => rfl⟩

theorem run_redirect (s : Status) (location : String) (w : Writer) :
    (s.Redirects ∧ ∃ value, HeaderValue.ofText? location = some value ∧
      (redirect s location).run w = ((w.setStatus s).setHeader "location" value, none)) ∨
    ∃ error, (redirect s location).run w = (w, some error) := by
  rw [run]
  split
  · exact .inr ⟨_, rfl⟩
  · next suitable =>
    cases hvalue : HeaderValue.ofText? location with
    | none => exact .inr ⟨_, rfl⟩
    | some value =>
      refine .inl ⟨?_, value, rfl, rfl⟩
      simp only [Bool.and_eq_true, Bool.not_eq_true', bne_iff_ne, not_and, not_not] at suitable
      by_cases hs : s.isRedirection = true
      · exact .inl hs
      · exact .inr (suitable (by simpa using hs))

theorem getAll_run (r : Render) (w : Writer) {name : HeaderName} (hn : name ≠ "location") :
    (r.run w).1.headers.getAll name = w.headers.getAll name := by
  rcases r.writes_or_redirects with ⟨chunks, failure, hwrites⟩ | ⟨status, location, rfl⟩
  · rw [hwrites, Writer.foldl_write]
  · rcases run_redirect status location w with ⟨-, value, -, hrun⟩ | ⟨error, hrun⟩
    · rw [hrun]
      exact (Headers.getAll_insert _ "location" name value).trans (if_neg (Ne.symm hn))
    · rw [hrun]

def typed (r : Render) (s : Status) (w : Writer) : Writer :=
  match r.contentType? with
  | some t => (w.setStatus s).setHeader "content-type" (.ofText t)
  | none => w.setStatus s

theorem typed_frame (r : Render) (s : Status) (w : Writer) :
    ∃ headers, r.typed s w = { w with status? := some s, headers } := by
  unfold typed
  cases r.contentType? with
  | none => exact ⟨w.headers, rfl⟩
  | some t => exact ⟨w.headers.insert "content-type" (.ofText t), rfl⟩

theorem remove_typed (r : Render) (s : Status) (w : Writer) :
    (r.typed s w).headers.remove "content-type" = w.headers.remove "content-type" := by
  unfold typed
  cases r.contentType? with
  | none => rfl
  | some t => exact Headers.remove_insert_self _ _ _

theorem getAll_typed (r : Render) (s : Status) (w : Writer) :
    (r.typed s w).headers.getAll "content-type" =
      match r.contentType? with
      | some t => [.ofText t]
      | none => w.headers.getAll "content-type" := by
  unfold typed
  cases r.contentType? with
  | none => rfl
  | some t => exact (Headers.getAll_insert _ _ _ _).trans (if_pos rfl)

theorem fill_of_mistyped {r : Render} (h : r.mistyped = true) (s : Status) (w : Writer) :
    r.fill s w = (w.setStatus s, none) := by
  rw [fill, h]
  rfl

theorem fill_of_forbidden {r : Render} (htype : r.mistyped = false) {s : Status}
    (forbidden : s.allowsBody = false) (w : Writer) : r.fill s w = (r.typed s w, none) := by
  rw [fill, htype, forbidden]
  rfl

theorem fill_of_allowed {r : Render} (htype : r.mistyped = false) {s : Status}
    (allowed : s.allowsBody = true) (w : Writer) :
    r.fill s w = match r.run (r.typed s w) with
      | (w, none) => (w, none)
      | (w, some error) => (w.clearBody.setStatus .internalServerError, some error) := by
  rw [fill, htype, allowed]
  rfl

/-- What holds of a writer with the status of the response still holds of the one that was filled, when
each step of filling it keeps it. -/
theorem fill_keeps {Q : Writer → Prop} (r : Render) {s : Status} {w : Writer}
    (status : Q (w.setStatus s))
    (header : ∀ w value, Q w → Q (w.setHeader "content-type" value))
    (run : ∀ w, Q w → Q (r.run w).1)
    (withdraw : ∀ w, Q w → Q (w.clearBody.setStatus .internalServerError)) :
    Q (r.fill s w).1 := by
  have htyped : Q (r.typed s w) := by
    unfold typed
    split
    · exact header _ _ status
    · exact status
  cases hm : r.mistyped with
  | true =>
    rw [fill_of_mistyped hm]
    exact status
  | false =>
    cases hs : s.allowsBody with
    | false =>
      rw [fill_of_forbidden hm hs]
      exact htyped
    | true =>
      rw [fill_of_allowed hm hs]
      have hrun := run _ htyped
      split
      · next heq =>
        rw [heq] at hrun
        exact hrun
      · next heq =>
        rw [heq] at hrun
        exact withdraw _ hrun

theorem getAll_fill (r : Render) (s : Status) (w : Writer) {name : HeaderName}
    (hn : name ≠ "location") (hcontent : name ≠ "content-type") :
    (r.fill s w).1.headers.getAll name = w.headers.getAll name := by
  refine r.fill_keeps (Q := fun filled => filled.headers.getAll name = w.headers.getAll name) rfl
    ?_ ?_ fun _ h => h
  · intro typed value h
    refine (Headers.getAll_insert _ "content-type" name value).trans ?_
    rwa [if_neg (Ne.symm hcontent)]
  · intro typed h
    exact (r.getAll_run typed hn).trans h

end Render

end Gateway
