import Gateway.Proofs.Exchange.Operation

/-! What the first abort with a body leaves in the writer, whatever was written before it, and the
text of the standard body. -/

namespace Gateway

namespace StatusBody

def opening (b : StatusBody) : List Char :=
  '\x7b' :: (Json.printString "code" ++ [':'] ++ Json.print (.ofNat b.code.code) ++ [','] ++
    (Json.printString "status" ++ [':'] ++ Json.printString b.outcome) ++ [','] ++
    (Json.printString "message" ++ [':']))

theorem print_toJson (b : StatusBody) :
    Json.print b.toJson = b.opening ++ Json.printString b.message ++ ['\x7d'] := by
  simp only [StatusBody.toJson, opening, Json.print, Json.printFields, Json.separated,
    List.append_assoc, List.cons_append, List.nil_append]

end StatusBody

theorem Utf8.encodeChar_ne_nil (c : Char) : encodeChar c ≠ [] := by
  simp only [encodeChar]
  repeat' split
  all_goals exact List.cons_ne_nil _ _

/-- The writer holds a status and, as its whole body, a value on a line of its own. -/
structure Writer.Holds (w : Writer) (s : Status) (body : Json) : Prop where
  status : w.status = s
  body : w.body = .buffered (Utf8.encode (body.compact ++ "\n"))

theorem Writer.Holds.response_body {w : Writer} {s : Status} {body : Json} (h : w.Holds s body)
    (hs : s.allowsBody = true) : w.response.body = Utf8.encode (body.compact ++ "\n") := by
  simp [response, h.status, hs, h.body, Body.bytes]

theorem Utf8.encode_line_ne_nil (text : String) : encode (text ++ "\n") ≠ [] := by
  simp only [encode, String.toList_append, List.flatMap_append]
  exact fun h => encodeChar_ne_nil '\n' (by simpa using (List.append_eq_nil_iff.mp h).2)

namespace Context

theorem render_json_holds {c : Context} (empty : c.writer.body = .empty) {s : Status}
    (hs : s.allowsBody = true) (body : Json) : (c.render s (.json body)).1.writer.Holds s body := by
  have hne : (Utf8.encode (body.compact ++ "\n")).isEmpty = false :=
    List.isEmpty_eq_false_iff.mpr (Utf8.encode_line_ne_nil _)
  constructor <;>
    simp [render, Render.fill, Render.mistyped, Render.run, Render.contentType?, hs, Writer.status,
      Writer.setStatus, Writer.setHeader, Writer.write, hne, empty]

theorem abortWith_of_running {c : Context} (running : c.aborted = false) {s : Status}
    (hs : s.allowsBody = true) (body : Json) :
    c.abortWith s body =
      ({ c with
          aborted := true
          writer :=
            { status? := some s
              headers := c.writer.headers.insert "content-type" (.ofText Render.jsonType)
              body := .buffered (Utf8.encode (body.compact ++ "\n"))
              size := (Utf8.encode (body.compact ++ "\n")).length } }, []) := by
  have hne : (Utf8.encode (body.compact ++ "\n")).isEmpty = false :=
    List.isEmpty_eq_false_iff.mpr (Utf8.encode_line_ne_nil _)
  simp [abortWith, abortRendering, running, render, Render.fill, Render.mistyped, Render.run,
    Render.contentType?, hs, mapWriter, Writer.clearBody, Writer.setStatus, Writer.setHeader,
    Writer.write, hne]

theorem abortWith_holds {c : Context} (running : c.aborted = false) {s : Status}
    (hs : s.allowsBody = true) (body : Json) : (c.abortWith s body).1.writer.Holds s body := by
  rw [abortWith_of_running running hs]
  exact ⟨rfl, rfl⟩

end Context

end Gateway
