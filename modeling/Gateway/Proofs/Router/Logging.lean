import Gateway.Proofs.Handler.AccessLogger
import Gateway.Proofs.Router.Front

/-! A request to a router with the default middleware is answered and logged once, with the status of
the answer, or there is neither an answer nor an entry. -/

namespace Gateway

open Machine

theorem Render.status_fill_json (s : Status) (value : Json) (w : Writer) :
    ((Render.json value).fill s w).1.status = s := by
  simp only [Render.fill, Render.run, Render.contentType?, Writer.write]
  repeat' split
  all_goals rfl

namespace Router

theorem launch_running (r : Router) (w : World) (request : Request) :
    (r.launch w request).exchange.context.aborted = false := by
  have hclean : r.checkout.1.aborted = false := congrArg Context.aborted r.checkout_context
  change ((r.chosen request).start _).aborted = false
  cases r.chosen request <;> exact hclean

theorem completeFallback_completed (code : Status) (x : Exchange) :
    (completeFallback code x).completed = x.completed := by
  unfold completeFallback
  split
  · rfl
  · split
    · exact x.completed_update (Context.render_completed _ _ _)
    · rfl

theorem completeFallback_status (code : Status) (x : Exchange) :
    (completeFallback code x).context.writer.status = x.context.writer.status := by
  unfold completeFallback
  split
  · rfl
  · split
    · next hcode => exact (Render.status_fill_json code _ x.context.writer).trans hcode.symm
    · rfl

theorem Choice.complete_finished (choice : Choice) (x : Exchange) :
    ∃ y, choice.complete (.finished x) = .finished y ∧ y.completed = x.completed ∧
      y.context.writer.status = x.context.writer.status := by
  cases choice with
  | route chain pattern params => exact ⟨x, rfl, rfl, rfl⟩
  | fallback code chain =>
    exact ⟨_, rfl, completeFallback_completed code x, completeFallback_status code x⟩

theorem Choice.complete_interrupted (choice : Choice) (x : Exchange) (why : Interruption) :
    choice.complete (.interrupted x why) = .interrupted x why := by cases choice <;> rfl

end Router

namespace Site

/-- A panic goes on when its payload is dropped, an error is a panic when it is displayed, and a chain is
left when nobody waits for it: no handler in front of the rest turns them into a response. -/
theorem disorderly_unanswered :
    let raising : Handler := Script.handler "raising" [.panic (.raising .other)]
    let breaking : Handler := Script.handler "breaking" [.act (.recordError (.broken .other))]
    let leaving : Handler := ⟨"leaving", .interrupt .dropped⟩
    ∀ h ∈ [raising, breaking, leaving],
      let d := ((Site.new {} Router.defaultMiddleware).router.notFound [h]).dispatch {} {}
      d.outcome.toOption = none ∧ d.events.filterMap Event.completed? = [] := by
  decide +kernel

end Site

end Gateway
