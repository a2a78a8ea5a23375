import Gateway.Proofs.Exchange.Operation
import Gateway.Proofs.Http.Rendering

/-! Filling the response of a request that was already answered in part: what is left when the body
is not allowed, when it is written, and when writing it fails halfway. Redirects are told apart,
since they write no body. -/

namespace Gateway

theorem Context.render_of_fill {c : Context} {s : Status} {r : Render} {writer : Writer}
    {failure : Option String} (filled : r.fill s c.writer = (writer, failure)) :
    c.render s r =
      ({ c with writer, errors := c.errors ++ (failure.map .text).toList },
        (failure.map .renderFailed).toList) := by
  simp only [Context.render, filled]

namespace Exchange

/-- The ends of a rendering: without its body, with it, or without any body and with an error. -/
inductive Ended (x : Exchange) (s : Status) (bytes : Bytes) : Option String → Exchange → Prop
  | bodiless {failure : Option String} {y : Exchange} (forbidden : s.allowsBody = false)
      (status : y.context.writer.status? = some s)
      (body : y.context.writer.body = x.context.writer.body)
      (size : y.context.writer.size = x.context.writer.size)
      (errors : y.context.errors = x.context.errors) (events : y.events = x.events) :
      Ended x s bytes failure y
  | rendered {y : Exchange} (allowed : s.allowsBody = true)
      (status : y.context.writer.status? = some s)
      (body : y.context.writer.body = x.context.writer.body.added bytes)
      (size : y.context.writer.size = x.context.writer.size + bytes.length)
      (errors : y.context.errors = x.context.errors) (events : y.events = x.events) :
      Ended x s bytes none y
  | withdrawn {error : String} {y : Exchange} (allowed : s.allowsBody = true)
      (status : y.context.writer.status? = some .internalServerError)
      (body : y.context.writer.body = .empty) (size : y.context.writer.size = 0)
      (errors : y.context.errors = x.context.errors ++ [.text error])
      (events : y.events = x.events ++ [.renderFailed error]) : Ended x s bytes (some error) y

/-- A rendering ends in one of these ways, and all else stays but for the content type. -/
structure Settles (x : Exchange) (s : Status) (contentType? : Option String) (bytes : Bytes)
    (failure : Option String) (y : Exchange) : Prop where
  frame : ∃ writer errors events,
    y = { x with context := { x.context with writer, errors }, events }
  contentType : y.context.writer.headers.getAll "content-type" =
    match contentType? with
    | some t => [.ofText t]
    | none => x.context.writer.headers.getAll "content-type"
  headers : y.context.writer.headers.remove "content-type" =
    x.context.writer.headers.remove "content-type"
  ended : Ended x s bytes failure y

theorem update_render {x : Exchange} {s : Status} {r : Render} {writer : Writer}
    {failure : Option String} (filled : r.fill s x.context.writer = (writer, failure)) :
    x.update (·.render s r) = { x with
      context := { x.context with writer, errors := x.context.errors ++ (failure.map .text).toList }
      events := x.events ++ (failure.map .renderFailed).toList } := by
  rw [update, Context.render_of_fill filled]

theorem settles_render (x : Exchange) (s : Status) {r : Render} (htype : r.mistyped = false)
    {chunks : List Bytes} {failure : Option String} (writes : r.Writes chunks failure) :
    x.Settles s r.contentType? chunks.flatten failure (x.update (·.render s r)) := by
  have hremove := r.remove_typed s x.context.writer
  have hall := r.getAll_typed s x.context.writer
  obtain ⟨headers, htyped⟩ := r.typed_frame s x.context.writer
  rw [htyped] at hremove hall
  cases hs : s.allowsBody with
  | false =>
    have hfill := Render.fill_of_forbidden htype hs x.context.writer
    rw [htyped] at hfill
    rw [update_render hfill]
    refine ⟨⟨_, _, _, rfl⟩, hall, hremove, ?_⟩
    exact .bodiless hs rfl rfl rfl (List.append_nil _) (List.append_nil _)
  | true =>
    have hfill := Render.fill_of_allowed htype hs x.context.writer
    rw [htyped, writes, Writer.foldl_write] at hfill
    cases failure with
    | none =>
      rw [update_render hfill]
      refine ⟨⟨_, _, _, rfl⟩, hall, hremove, ?_⟩
      exact .rendered hs rfl rfl rfl (List.append_nil _) (List.append_nil _)
    | some error =>
      rw [update_render hfill]
      exact ⟨⟨_, _, _, rfl⟩, hall, hremove, .withdrawn hs rfl rfl rfl rfl rfl⟩

end Exchange

/-! ### Redirects -/

namespace Context

/-- The response redirects, or it is an error and redirects no more than before. -/
inductive Redirected (c : Context) (s : Status) (location : String) (c' : Context) : Prop
  | done {value : HeaderValue} (suitable : s.Redirects)
      (valid : HeaderValue.ofText? location = some value) (status : c'.writer.status? = some s)
      (location : c'.writer.headers.getAll "location" = [value]) (errors : c'.errors = c.errors)
  | refused {error : String} (status : c'.writer.status? = some .internalServerError)
      (location : c'.writer.headers.getAll "location" = c.writer.headers.getAll "location")
      (errors : c'.errors = c.errors ++ [.text error])

/-- A redirect whose status allows a body is done or refused. Any other only sets its status, with no
location and no error. -/
theorem render_redirect (c : Context) (s : Status) (location : String) :
    let c' := (c.render s (.redirect s location)).1
    if s.allowsBody = true then c.Redirected s location c' else c' = c.setStatus s := by
  intro c'
  have hrender {writer : Writer} {failure : Option String}
      (filled : (Render.redirect s location).fill s c.writer = (writer, failure)) :
      c' = { c with writer, errors := c.errors ++ (failure.map .text).toList } :=
    congrArg Prod.fst (render_of_fill filled)
  split
  · next allowed =>
    have hfill := Render.fill_of_allowed (r := .redirect s location) rfl allowed c.writer
    have htyped : (Render.redirect s location).typed s c.writer = c.writer.setStatus s := rfl
    rw [htyped] at hfill
    rcases Render.run_redirect s location (c.writer.setStatus s) with
      ⟨suitable, value, hvalue, hrun⟩ | ⟨error, hrun⟩
    · rw [hrun] at hfill
      rw [hrender hfill]
      have hlocation := c.writer.headers.getAll_insert "location" "location" value
      exact .done suitable hvalue rfl (hlocation.trans (if_pos rfl)) (List.append_nil _)
    · rw [hrun] at hfill
      rw [hrender hfill]
      exact .refused rfl rfl rfl
  · next forbidden =>
    have hfill := Render.fill_of_forbidden (r := .redirect s location) rfl
      (by simpa using forbidden) c.writer
    rw [hrender hfill]
    exact congrArg (fun errors => { c.setStatus s with errors }) (List.append_nil _)

/-- Where the status has no body, a status that is none of a redirect is not refused, and the location
of one that is gets lost. -/
theorem bodiless_redirect_lost :
    let redirected (s : Status) := (({} : Context).render s (.redirect s "/x")).1
    ¬ Redirected {} .noContent "/x" (redirected .noContent) ∧
      ¬ Redirected {} .notModified "/x" (redirected .notModified) := by
  intro redirected
  have hbodiless {s : Status} (forbidden : s.allowsBody = false) :
      ¬ Redirected {} s "/x" (redirected s) := by
    have hfill := Render.fill_of_forbidden (r := .redirect s "/x") rfl forbidden {}
    have hredirected : redirected s = _ := congrArg Prod.fst (render_of_fill hfill)
    rw [hredirected]
    rintro (⟨-, -, -, hlocation, -⟩ | ⟨-, -, herrors⟩)
    · cases hlocation
    · cases herrors
  exact ⟨hbodiless rfl, hbodiless rfl⟩

end Context

end Gateway
